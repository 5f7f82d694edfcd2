import StatusLine.Proofs.Results
import StatusLine.Proofs.Script.Outline
import StatusLine.Script.Assembly

/-!
The parts of a script that name the cache directory: the header, which a script starts with, and the
parts for logging and for the rate limit. Joining trims line ends off the parts, and of these it
leaves everything that is of interest.
-/

namespace StatusLine.Script

/-! Joining parts. -/

structure StartsWith (text lead : List Char) : Prop where
  comment : lead.head? = some '#'
  goesOn : ∃ c rest, c ≠ '\n' ∧ text = lead ++ c :: rest

namespace StartsWith

variable {text lead : List Char}

theorem solid (starts : StartsWith text lead) : Text.isBlankLine text = false := by
  obtain ⟨c, rest, -, rfl⟩ := starts.goesOn
  have comment := starts.comment
  cases lead with
  | nil => cases comment
  | cons first more =>
      obtain rfl := Option.some.inj comment
      have hash : Text.isBlank '#' = false := by decide
      simp [Text.isBlankLine, hash]

theorem trim (starts : StartsWith text lead) :
    StartsWith (Text.trimWhere (· == '\n') text) lead := by
  obtain ⟨c, rest, inLine, rfl⟩ := starts.goesOn
  have comment := starts.comment
  have whole : (lead ++ c :: rest).dropWhile (· == '\n') = lead ++ c :: rest := by
    cases lead with
    | nil => cases comment
    | cons first more =>
        obtain rfl := Option.some.inj comment
        simp
  obtain ⟨tail, kept⟩ := @Text.trimEndWhere_keeps (· == '\n') c (by simpa using inLine) lead rest
  exact ⟨comment, c, tail, inLine, by rw [Text.trimWhere, whole, kept]⟩

end StartsWith

theorem infix_join {parts : List (List Char)} {part lead : List Char} (member : part ∈ parts)
    (starts : StartsWith part lead) : lead <:+: join parts := by
  have kept : part ∈ parts.filter fun part => !Text.isBlankLine part :=
    List.mem_filter.mpr ⟨member, by simp [starts.solid]⟩
  obtain ⟨c, tail, -, trimmed⟩ := starts.trim.goesOn
  have first : lead <:+: Text.trimWhere (· == '\n') part := ⟨[], c :: tail, by simp [trimmed]⟩
  have whole : Text.trimWhere (· == '\n') part <:+: Text.joinWith ['\n', '\n'] _ :=
    Text.infix_joinWith (List.mem_map_of_mem kept)
  exact (first.trans whole).trans ⟨[], ['\n'], rfl⟩

theorem prefix_join {part lead : List Char} {later : List (List Char)}
    (starts : StartsWith part lead) : lead <+: join (part :: later) := by
  obtain ⟨c, tail, -, trimmed⟩ := starts.trim.goesOn
  refine ⟨c :: tail ++ ((later.filter fun part => !Text.isBlankLine part).map
    (Text.trimWhere (· == '\n'))).flatMap (['\n', '\n'] ++ ·) ++ ['\n'], ?_⟩
  simp only [join, List.filter_cons, starts.solid, Bool.not_false, if_true, List.map_cons,
    Text.joinWith_cons_flatMap, trimmed, List.append_assoc, List.cons_append]

/-! The texts of the templates. -/

theorem toList_cons (c : Char) (rest : List Char) :
    (String.ofList (c :: rest)).toList = c :: (String.ofList rest).toList := by
  simp only [String.toList_ofList]

section Texts

variable {directory text : List Char}

def generatorLine : List Char :=
  "# Generated by slc ".toList ++ version.toList

def themeLine (config : Configuration) : List Char :=
  "# Theme: ".toList ++ config.theme.name.toList ++ " | Colors: ".toList ++
    (switchText config.colors).toList ++ " | Features: ".toList ++ (featuresText config).toList

def captionStart : List Char :=
  "# Lookups cached under ".toList

def captionEnd (settings : Settings) : List Char :=
  " (".toList ++ Text.ofInt settings.lookupTtl ++ "s TTL with ".toList ++
    Text.ofInt settings.lookupGrace ++ "s stale fallback)".toList

def debugLine : List Char :=
  "# Set SLC_DEBUG=1 for cache diagnostics on stderr".toList

/-- The lines of the header up to the first blank one. The cache directory may have line ends. -/
def heading (directory : List Char) (config : Configuration) (settings : Settings) :
    List (List Char) :=
  [shebang.toList, generatorLine, themeLine config,
    captionStart ++ directory ++ captionEnd settings, debugLine]

theorem startsWith_header {config : Configuration} {settings : Settings}
    (rendered : header.render (headerValues directory config settings) = .ok text) :
    StartsWith text (Text.joinLines (heading directory config settings) ++ ['\n', '\n']) := by
  have pieces := renderAll_of_render rendered
  have whole : Piece.renderAll header.failed (headerValues directory config settings)
      header.pieces = .ok (shebang.toList ++ ("\n# Generated by slc ".toList ++
        (version.toList ++ ("\n# Theme: ".toList ++ (config.theme.name.toList ++
        (" | Colors: ".toList ++ ((switchText config.colors).toList ++
        (" | Features: ".toList ++ ((featuresText config).toList ++
        ("\n# Lookups cached under ".toList ++ ((String.ofList directory).toList ++
        (" (".toList ++ (Text.ofInt settings.lookupTtl ++ ("s TTL with ".toList ++
        (Text.ofInt settings.lookupGrace ++ ((Names.join "\n" ["s stale fallback)",
          "# Set SLC_DEBUG=1 for cache diagnostics on stderr", "", "input=$(cat)"]).toList ++
        [])))))))))))))))) := rfl
  obtain rfl := Except.ok.inj (pieces.symm.trans whole)
  have comment : shebang.toList.head? = some '#' := rfl
  refine ⟨?_, 'i', "nput=$(cat)".toList, by decide, ?_⟩
  · rw [heading, Text.joinLines_cons, List.append_assoc, List.head?_append, comment]
    rfl
  have generated : "\n# Generated by slc ".toList = '\n' :: "# Generated by slc ".toList :=
    toList_cons _ _
  have theme : "\n# Theme: ".toList = '\n' :: "# Theme: ".toList := toList_cons _ _
  have caption : "\n# Lookups cached under ".toList = '\n' :: "# Lookups cached under ".toList :=
    toList_cons _ _
  have input : "input=$(cat)".toList = 'i' :: "nput=$(cat)".toList := toList_cons _ _
  have lineEnd : "\n".toList = ['\n'] := rfl
  have nothing : "".toList = [] := rfl
  unfold heading generatorLine themeLine captionStart captionEnd debugLine
  simp only [Text.joinLines, Text.joinWith, Names.join, String.toList_append, generated, theme, caption,
    input, lineEnd, nothing, String.toList_ofList, List.append_assoc, List.cons_append,
    List.nil_append, List.append_nil]

def fileLine (name : String) (directory : List Char) (file : String) : List Char :=
  name.toList ++ "=\"".toList ++ directory ++ file.toList ++ ['"']

theorem toList_join (separator : String) (pieces : List String) :
    (Names.join separator pieces).toList =
      Text.joinWith separator.toList (pieces.map String.toList) := by
  fun_induction Names.join separator pieces with
  | case1 => rfl
  | case2 => rfl
  | case3 piece rest more ih =>
      cases rest with
      | nil => exact absurd rfl more
      | cons next others => simp [ih, Text.joinWith]

theorem exists_toList_join (separator first : String) (rest : List String) :
    ∃ more, (Names.join separator (first :: rest)).toList = first.toList ++ more := by
  cases rest with
  | nil => exact ⟨[], by simp [Names.join]⟩
  | cons next others =>
      exact ⟨separator.toList ++ (Names.join separator (next :: others)).toList,
        by simp [Names.join]⟩

theorem startsWith_logging (rendered : logging.render (directoryValues directory) = .ok text) :
    StartsWith text ("# ---- logging ----".toList ++
      ('\n' :: fileLine "LOG_FILE" directory "/statusline.log" ++ ['\n'])) := by
  have pieces := renderAll_of_render rendered
  obtain ⟨rest, whole⟩ : ∃ rest, Piece.renderAll logging.failed (directoryValues directory)
      logging.pieces = .ok ("# ---- logging ----\nLOG_FILE=\"".toList ++
        ((String.ofList directory).toList ++ (("/statusline.log\"" ++ "\n" ++ Names.join "\n"
          ("mkdir -p \"$\x7bLOG_FILE%/*\x7d\" 2>/dev/null" :: rest)).toList ++ []))) := ⟨_, rfl⟩
  obtain rfl := Except.ok.inj (pieces.symm.trans whole)
  obtain ⟨more, goesOn⟩ := exists_toList_join "\n" "mkdir -p \"$\x7bLOG_FILE%/*\x7d\" 2>/dev/null" rest
  refine ⟨rfl, 'm', "kdir -p \"$\x7bLOG_FILE%/*\x7d\" 2>/dev/null".toList ++ more, by decide, ?_⟩
  have opening : "# ---- logging ----\nLOG_FILE=\"".toList =
      "# ---- logging ----".toList ++ '\n' :: ("LOG_FILE".toList ++ "=\"".toList) := by
    repeat rw [String.toList_ofList]
    rfl
  have file : "/statusline.log\"".toList = "/statusline.log".toList ++ ['"'] := by
    repeat rw [String.toList_ofList]
    rfl
  have next : "mkdir -p \"$\x7bLOG_FILE%/*\x7d\" 2>/dev/null".toList =
    'm' :: "kdir -p \"$\x7bLOG_FILE%/*\x7d\" 2>/dev/null".toList := toList_cons _ _
  have lineEnd : "\n".toList = ['\n'] := rfl
  simp only [fileLine, opening, file, goesOn, next, lineEnd, String.toList_append,
    String.toList_ofList, List.append_assoc, List.cons_append, List.nil_append, List.append_nil]

theorem startsWith_rateLimiter {interval : Datum}
    (rendered : rateLimiter.render (directoryValues directory ++ [("min_interval", interval)]) =
      .ok text) :
    StartsWith text ("# ---- rate limiter ----".toList ++
      ('\n' :: fileLine "rate_limit_file" directory "/statusline_rate_limit.tmp" ++ ['\n'])) := by
  have pieces := renderAll_of_render rendered
  obtain ⟨rest, whole⟩ : ∃ rest, Piece.renderAll rateLimiter.failed
      (directoryValues directory ++ [("min_interval", interval)]) rateLimiter.pieces =
        .ok ("# ---- rate limiter ----\nrate_limit_file=\"".toList ++
          ((String.ofList directory).toList ++
          ("/statusline_rate_limit.tmp\"\nmin_interval=".toList ++ rest))) := ⟨_, rfl⟩
  obtain rfl := Except.ok.inj (pieces.symm.trans whole)
  refine ⟨rfl, 'm', "in_interval=".toList ++ rest, by decide, ?_⟩
  have opening : "# ---- rate limiter ----\nrate_limit_file=\"".toList =
      "# ---- rate limiter ----".toList ++ '\n' :: ("rate_limit_file".toList ++ "=\"".toList) := by
    repeat rw [String.toList_ofList]
    rfl
  have file : "/statusline_rate_limit.tmp\"\nmin_interval=".toList =
      "/statusline_rate_limit.tmp".toList ++ ['"', '\n', 'm'] ++ "in_interval=".toList := by
    repeat rw [String.toList_ofList]
    rfl
  simp only [fileLine, opening, file, String.toList_ofList, List.append_assoc, List.cons_append,
    List.nil_append]

end Texts

/-! The script. -/

structure NamesDirectory (config : Configuration) (settings : Settings) (directory text : List Char) :
    Prop where
  header : Text.joinLines (heading directory config settings) ++ ['\n', '\n'] <+: text
  limiter : '\n' :: fileLine "rate_limit_file" directory "/statusline_rate_limit.tmp" ++ ['\n'] <:+:
    text
  log : config.logging = true →
    '\n' :: fileLine "LOG_FILE" directory "/statusline.log" ++ ['\n'] <:+: text

theorem NamesDirectory.start {config : Configuration} {settings : Settings}
    {directory text : List Char} (names : NamesDirectory config settings directory text) :
    ∃ rest, text = shebang.toList ++ '\n' :: rest := by
  obtain ⟨rest, rfl⟩ := names.header
  exact ⟨_, by rw [heading, Text.joinLines_cons, List.flatMap_cons, List.append_assoc,
    List.append_assoc]; rfl⟩

theorem namesDirectory_of_assemble {context : Context} {config : Configuration}
    {fragments : List Fragment} {style : Style} {text : List Char}
    (assembled : assemble context config fragments style = .ok text) :
    ∃ directory, context.cacheDirectory = .ok directory ∧
      NamesDirectory config context.settings directory text := by
  obtain ⟨made, parted, rfl⟩ := map_eq_ok assembled
  obtain ⟨directory, known, done⟩ := bind_eq_ok parted
  obtain ⟨heading, headed, done⟩ := bind_eq_ok done
  obtain ⟨log, logged, done⟩ := bind_eq_ok done
  obtain ⟨limiter, limited, done⟩ := bind_eq_ok done
  obtain ⟨palette, -, done⟩ := bind_eq_ok done
  obtain ⟨routines, -, done⟩ := bind_eq_ok done
  obtain ⟨input, -, done⟩ := bind_eq_ok done
  obtain ⟨noted, -, done⟩ := bind_eq_ok done
  obtain rfl := Except.ok.inj done
  refine ⟨directory, known, ?_, ?_, ?_⟩
  · exact prefix_join (startsWith_header headed)
  · exact (List.suffix_append _ _).isInfix.trans
      (infix_join (by simp) (startsWith_rateLimiter limited))
  · intro logs
    rw [partIf, if_pos logs] at logged
    obtain ⟨part, rendered, rfl⟩ := map_eq_ok logged
    exact (List.suffix_append _ _).isInfix.trans
      (infix_join (by simp) (startsWith_logging rendered))

end StatusLine.Script

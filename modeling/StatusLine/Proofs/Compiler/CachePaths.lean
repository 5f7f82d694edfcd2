import StatusLine.Proofs.Compiler.HeaderComment
import StatusLine.Proofs.Shortening.Assignments
import StatusLine.Proofs.Shortening.SecondRun

/-!
The files in the cache directory that a script names. Shortening leaves their names alone as long as
none of its rules finds anything in them; a directory named like a variable that gets a shorter name
is renamed in the script, and the script keeps its files somewhere else.
-/

namespace StatusLine

open Script Shortening

/-- The variables that a script sets to files in the cache directory, and these files. -/
def cacheFiles : List (String × String) :=
  [("rate_limit_file", "/statusline_rate_limit.tmp"), ("LOG_FILE", "/statusline.log")]

structure IsCacheFile (name file : List Char) : Prop where
  named : name ≠ [] ∧ name.all (fun c => Text.isWord c && !Text.isBlank c) = true
  nameFree : ∀ names ∈ shortNames, ¬ names.1.toList <:+: name
  slash : file = '/' :: file.tail
  fileFree : ∀ names ∈ shortNames, ¬ names.1.toList <:+: file.tail
  clock : ¬ "$(date +%s)".toList <:+: file.tail
  status : ¬ "[ $? -eq 0 ]".toList <:+: file.tail
  single : '\n' ∉ file.tail

theorem isCacheFile_of_mem {name file : String} (known : (name, file) ∈ cacheFiles) :
    IsCacheFile name.toList file.toList := by
  have all : ∀ pair ∈ cacheFiles, ((pair.1.toList ≠ [] ∧
      pair.1.toList.all (fun c => Text.isWord c && !Text.isBlank c) = true) ∧
      ∀ names ∈ shortNames, ¬ names.1.toList <:+: pair.1.toList) ∧
      pair.2.toList = '/' :: pair.2.toList.tail ∧
      (∀ names ∈ shortNames, ¬ names.1.toList <:+: pair.2.toList.tail) ∧
      ¬ "$(date +%s)".toList <:+: pair.2.toList.tail ∧
      ¬ "[ $? -eq 0 ]".toList <:+: pair.2.toList.tail ∧ '\n' ∉ pair.2.toList.tail := by
    decide +kernel
  obtain ⟨⟨named, nameFree⟩, slash, fileFree, clock, status, single⟩ := all (name, file) known
  exact ⟨named, nameFree, slash, fileFree, clock, status, single⟩

theorem IsCacheFile.steady {name file : List Char} (isFile : IsCacheFile name file) :
    Steady name := by
  obtain ⟨present, letters⟩ := isFile.named
  simp only [List.all_eq_true, Bool.and_eq_true, Bool.not_eq_true'] at letters
  exact ⟨⟨present, fun c member => (letters c member).1⟩, fun c member => (letters c member).2,
    isFile.nameFree⟩

theorem IsCacheFile.outOfReach {name file directory : List Char} (isFile : IsCacheFile name file)
    (reach : OutOfReach directory) : OutOfReach (directory ++ file) := by
  rw [isFile.slash]
  exact reach.append_file isFile.fileFree isFile.clock isFile.status isFile.single

/-! The name of the cache directory. -/

theorem staysInQuotes_shellText (base path : PathName) (rest : List Char) :
    staysInQuotes (PathName.shellText base path ++ rest) = staysInQuotes rest := by
  unfold PathName.shellText
  split
  · exact staysInQuotes_escapeInQuotes _ rest
  · simp [staysInQuotes_cons]
  · simp [staysInQuotes_cons, staysInQuotes_escapeInQuotes]

theorem staysInQuotes_cacheDirectory {context : Context} {directory : List Char}
    (named : context.cacheDirectory = .ok directory) (rest : List Char) :
    staysInQuotes (directory ++ rest) = staysInQuotes rest := by
  simp only [Context.cacheDirectory, PathName.quotedText] at named
  split at named
  · obtain rfl := Except.ok.inj named
    exact staysInQuotes_shellText _ _ rest
  · cases named

theorem assigns_of_fileLine {name file : String} (known : (name, file) ∈ cacheFiles)
    {context : Context} {directory text : List Char}
    (named : context.cacheDirectory = .ok directory)
    (inside : '\n' :: fileLine name directory file ++ ['\n'] <:+: text) :
    Assigns text name (directory ++ file.toList) := by
  have quoted : ∀ pair ∈ cacheFiles, staysInQuotes pair.2.toList = true := by decide
  obtain ⟨before, rest, rfl⟩ := inside
  refine ⟨?_, before, '\n' :: rest, .inr rfl, ?_⟩
  · rw [staysInQuotes_cacheDirectory named, quoted (name, file) known]
  · have sign : "=\"".toList = ['=', '"'] := rfl
    simp [fileLine, sign]

/-- Whether a script sets the variable of a file: that of the log only if it writes one. -/
def Configuration.setsFile (config : Configuration) (name : String) : Bool :=
  name != "LOG_FILE" || config.logging

theorem Script.NamesDirectory.assigns {context : Context} {config : Configuration}
    {directory text : List Char} (named : context.cacheDirectory = .ok directory)
    (names : NamesDirectory config context.settings directory text) {name file : String}
    (known : (name, file) ∈ cacheFiles) (sets : config.setsFile name = true) :
    Assigns text name (directory ++ file.toList) := by
  refine assigns_of_fileLine known named ?_
  simp only [cacheFiles, List.mem_cons, List.not_mem_nil, or_false, Prod.mk.injEq] at known
  rcases known with ⟨rfl, rfl⟩ | ⟨rfl, rfl⟩
  · exact names.limiter
  · exact names.log (by simpa [Configuration.setsFile] using sets)

namespace Compiler

theorem text_of_finished {compiler : Compiler} {context : Context} {cache : Option Cache}
    {optimizes : Bool} (made : make context cache optimizes = .ok compiler) (raw : List Char) :
    (compiler.finished raw).text = raw ∨
      (compiler.finished raw).text = (Shortening.optimize .all raw).text := by
  unfold finished CompiledScript.text
  rw [(encode_of_make made).2.1]
  split
  · split
    · exact .inr rfl
    · exact .inl rfl
  · exact .inl (ite_self raw)

/-- A script sets the variables of the files to files in the cache directory, and the shipped script
sets them to the same values if these are out of reach. -/
theorem cache_files_shipped {compiler : Compiler} {context : Context} {cache : Option Cache}
    {optimizes : Bool} (made : make context cache optimizes = .ok compiler)
    {config : Configuration} {store : Store Fragment} {script : CompiledScript}
    (compiled : (compiler.compile config store).result = .ok script) :
    ∃ directory, compiler.context.cacheDirectory = .ok directory ∧
      ∀ name file, (name, file) ∈ cacheFiles →
        (config.setsFile name = true → Assigns script.raw name (directory ++ file.toList)) ∧
        (∀ value, Assigns script.raw name value → OutOfReach value →
          Assigns script.text name value) ∧
        (OutOfReach directory → config.setsFile name = true →
          Assigns script.text name (directory ++ file.toList)) := by
  obtain ⟨fragments, -, assembled, finished⟩ := assembled_of_compile compiled
  obtain ⟨directory, named, names⟩ := namesDirectory_of_assemble assembled
  refine ⟨directory, named, fun name file known => ?_⟩
  have kept : ∀ value, Assigns script.raw name value → OutOfReach value →
      Assigns script.text name value := by
    intro value assigns reach
    rw [finished]
    rcases text_of_finished made script.raw with shipped | shipped
    · rwa [shipped]
    · rw [shipped]
      exact assigns.optimize (isCacheFile_of_mem known).steady reach .all
  refine ⟨names.assigns named known, kept, fun reach sets => ?_⟩
  exact kept _ (names.assigns named known sets) ((isCacheFile_of_mem known).outOfReach reach)

def shorteningIn (directory : String) : Compiler :=
  { compilerIn directory with optimizes := true }

def loggingConfiguration : Configuration :=
  { emptyConfiguration with logging := true }

theorem cache_files_shipped_from_home :
    ∃ script, ((shorteningIn "~/.cache/slc").compile loggingConfiguration emptyStore).result =
      .ok script ∧ ∀ name file, (name, file) ∈ cacheFiles →
        Assigns script.text name ("$\x7bHOME\x7d/.cache/slc".toList ++ file.toList) := by
  have done : ((shorteningIn "~/.cache/slc").compile loggingConfiguration
      emptyStore).result.isOk = true := by decide +kernel
  have here : (shorteningIn "~/.cache/slc").context.cacheDirectory =
      .ok "$\x7bHOME\x7d/.cache/slc".toList := by decide +kernel
  have reach : OutOfReach "$\x7bHOME\x7d/.cache/slc".toList :=
    .of_absent (by decide +kernel) (by decide +kernel) (by decide +kernel) (by decide)
  have made : make (contextIn "~/.cache/slc") (some (shorteningIn "~/.cache/slc").cache) true =
      .ok (shorteningIn "~/.cache/slc") := rfl
  cases compiled : ((shorteningIn "~/.cache/slc").compile loggingConfiguration
      emptyStore).result with
  | error failure => rw [compiled] at done; cases done
  | ok script =>
      obtain ⟨directory, named, files⟩ := cache_files_shipped made compiled
      obtain rfl := Except.ok.inj (here.symm.trans named)
      refine ⟨script, rfl, fun name file known => (files name file known).2.2 reach ?_⟩
      simp [Configuration.setsFile, loggingConfiguration]

/-- A configuration whose scripts have fixed parts only. -/
def bareConfiguration : Configuration :=
  { emptyConfiguration with colors := false }

theorem not_stands_home {raw : List Char}
    (assembled : assemble (contextIn "/srv/home_directory/slc") bareConfiguration []
      (.ofConfiguration bareConfiguration) = .ok raw) : ¬ Stands "home".toList raw := by
  have named : (contextIn "/srv/home_directory/slc").cacheDirectory =
      .ok "/srv/home_directory/slc".toList := by decide +kernel
  have headed : header.render (headerValues "/srv/home_directory/slc".toList bareConfiguration
      (contextIn "/srv/home_directory/slc").settings) = .ok _ := rfl
  have limited : rateLimiter.render (directoryValues "/srv/home_directory/slc".toList ++
      [("min_interval", .int (contextIn "/srv/home_directory/slc").settings.minInterval)]) =
        .ok _ := rfl
  have uncolored : Palette.render (.ofConfiguration bareConfiguration) = .ok [] := rfl
  unfold assemble parts at assembled
  rw [named] at assembled
  simp only [bind, Except.bind, headed, limited, uncolored] at assembled
  obtain rfl := Except.ok.inj assembled
  simp only [toList_join, contentTracking, epilogue, List.map_cons, List.map_nil]
  repeat rw [String.toList_ofList]
  decide +kernel

/-- A directory that is named like a variable is renamed with it. -/
theorem cache_file_renamed :
    ∃ script, ((shorteningIn "/srv/home_directory/slc").compile bareConfiguration
      emptyStore).result = .ok script ∧
        Assigns script.raw "rate_limit_file"
          ("/srv/home_directory/slc".toList ++ "/statusline_rate_limit.tmp".toList) ∧
        ¬ Assigns script.text "rate_limit_file"
          ("/srv/home_directory/slc".toList ++ "/statusline_rate_limit.tmp".toList) := by
  have done : ((shorteningIn "/srv/home_directory/slc").compile bareConfiguration
      emptyStore).result.isOk = true := by decide +kernel
  have bare : (shorteningIn "/srv/home_directory/slc").wanted bareConfiguration = [] := by
    decide +kernel
  have here : (shorteningIn "/srv/home_directory/slc").context.cacheDirectory =
      .ok "/srv/home_directory/slc".toList := by decide +kernel
  cases compiled : ((shorteningIn "/srv/home_directory/slc").compile bareConfiguration
      emptyStore).result with
  | error failure => rw [compiled] at done; cases done
  | ok script =>
      obtain ⟨fragments, counted, assembled, finished⟩ := assembled_of_compile compiled
      obtain rfl : fragments = [] := List.eq_nil_of_length_eq_zero (by rw [counted, bare]; rfl)
      obtain ⟨directory, named, names⟩ := namesDirectory_of_assemble assembled
      obtain rfl := Except.ok.inj (here.symm.trans named)
      have sound := isSound_assemble (by decide +kernel) (by simp) (by simp) (by simp) assembled
      have shipped : script.text = (Shortening.optimize .all script.raw).text := by
        rw [finished]
        exact if_pos (sound.isValid .all)
      refine ⟨script, rfl, names.assigns named (.head _) rfl, fun assigns => ?_⟩
      obtain ⟨before, rest, -, whole⟩ := assigns.line
      have renamed : ¬ Stands "home_directory".toList script.text := by
        rw [shipped]
        exact @not_stands_optimize _ ⟨("home_directory", "home"), by decide⟩
          (not_stands_home assembled)
      have split : "/srv/home_directory/slc".toList =
          "/srv/".toList ++ ("home_directory".toList ++ "/slc".toList) := by decide
      have ends : ∀ rest, WordEnds ("/slc".toList ++ rest) := fun rest =>
        wordEnds_append_of_ne_nil (wordEnds_cons (by decide)) (by simp)
      let lead := before ++ '\n' :: ("rate_limit_file".toList ++ '=' :: '"' :: "/srv/".toList)
      have there : occursBehind "home_directory".toList none (lead ++ ("home_directory".toList ++
          ("/slc".toList ++ ("/statusline_rate_limit.tmp".toList ++ '"' :: rest)))) = true :=
        occursBehind_between (by simp [lead]; decide) (ends _)
      refine renamed ?_
      rw [Stands, whole, split]
      simpa only [lead, List.append_assoc, List.cons_append, List.nil_append] using there

end Compiler

end StatusLine

import StatusLine.Proofs.Results
import StatusLine.Proofs.Script.Fillings
import StatusLine.Proofs.Script.InputParts
import StatusLine.Proofs.Text.Diverging
import StatusLine.Proofs.Text.Numerals

/-!
What the fragments tell of a configuration. Two styles that differ in their emojis at most show them
in every label, and metrics show how often they are collected and, in color, the thresholds of those
that are shown.
-/

namespace StatusLine

open Text Script

/-! Segments. -/

namespace Segment

def leadText (segment : Segment) : List Char :=
  (if segment.standalone then "segment_sep\n".toList else []) ++ "printf '".toList

def bodyText (colors : Bool) (segment : Segment) : List Char :=
  if colors then "%s".toList ++ (segment.format.toList ++ ("%s' \"$(".toList ++
      (segment.color.toList ++ (")\" ".toList ++ (segment.arguments.toList ++
        " \"$(rst)\"\n".toList)))))
  else segment.format.toList ++ ("' ".toList ++ (segment.arguments.toList ++ "\n".toList))

def tailText (colors : Bool) (segment : Segment) : List Char :=
  segment.bodyText colors ++
    if segment.standalone then "content_displayed=1\n".toList else []

theorem render_eq (style : Style) (segment : Segment) :
    segment.render style = .ok (trimWhere (· == '\n')
      (segment.leadText ++ (segment.label.toList ++ segment.tailText style.colors))) := by
  have pieces : Segment.template.render (segment.values style) =
      Piece.renderAll Segment.template.failed (segment.values style) Segment.template.pieces := rfl
  have marks (words : String) : Piece.render Segment.template.failed (segment.values style)
      (.branch (.named "standalone") [.text words] []) =
        .ok (if segment.standalone then words.toList else []) := by
    have here : Piece.render Segment.template.failed (segment.values style)
        (.branch (.named "standalone") [.text words] []) =
          if segment.standalone then .ok (words.toList ++ []) else .ok [] := rfl
    rw [here]
    cases segment.standalone <;> simp
  have printed : Piece.render Segment.template.failed (segment.values style)
      Segment.template.pieces[1] = if style.colors then
        .ok ("printf '".toList ++ (segment.label.toList ++ ("%s".toList ++ (segment.format.toList ++
          ("%s' \"$(".toList ++ (segment.color.toList ++ (")\" ".toList ++
            (segment.arguments.toList ++ (" \"$(rst)\"\n".toList ++ [])))))))))
        else .ok ("printf '".toList ++ (segment.label.toList ++ (segment.format.toList ++
          ("' ".toList ++ (segment.arguments.toList ++ ("\n".toList ++ [])))))) := rfl
  have body : Piece.render Segment.template.failed (segment.values style)
      Segment.template.pieces[1] =
        .ok ("printf '".toList ++ (segment.label.toList ++ segment.bodyText style.colors)) := by
    rw [printed, bodyText]
    cases style.colors <;> simp
  have whole := renderAll_of_first (marks "segment_sep\n") (renderAll_of_first body
    (renderAll_of_last (marks "content_displayed=1\n")))
  rw [Segment.render, pieces]
  refine (congrArg (Except.map (trimWhere (· == '\n'))) whole).trans ?_
  simp only [Except.map, leadText, tailText, List.append_assoc]

end Segment

variable {style other : Style}

theorem Segment.render_congr (colors : style.colors = other.colors) (segment : Segment) :
    segment.render style = segment.render other := by
  rw [render_eq, render_eq, colors]

theorem tells_label {emoji word : String} 
    (apart : goApart emoji.toList word.toList = true) :
    Tells (style.emojis = other.emojis) (style.label emoji word).toList
      (other.label emoji word).toList := by
  have words := Diverge.of_goApart apart
  unfold Style.label
  rw [String.toList_append, String.toList_append]
  refine ⟨fun same => by rw [same], fun different => ?_⟩
  cases here : style.emojis <;> cases there : other.emojis
  · exact absurd (here.trans there.symm) different
  · exact words.symm.append _ _
  · exact words.append _ _
  · exact absurd (here.trans there.symm) different

theorem tells_segment (colors : style.colors = other.colors) {shown : Prop}
    {color label labelThere format arguments : String} {standalone : Bool}
    (labels : Tells shown label.toList labelThere.toList) :
    BothGive (Tells shown)
      (Segment.render style ⟨color, label, format, arguments, standalone⟩)
      (Segment.render other ⟨color, labelThere, format, arguments, standalone⟩) := by
  rw [Segment.render_eq, Segment.render_eq, colors]
  exact .ok (((labels.append_same _).prepend _).trimNewlines)

theorem solid_segment {segment : Segment} {text : List Char}
    (rendered : segment.render style = .ok text) : isBlankLine text = false := by
  have printed : isBlankLine "printf '".toList = false := by decide
  rw [Segment.render_eq] at rendered
  obtain rfl := Except.ok.inj rendered
  exact solid_trimNewlines (solid_append (solid_prepend printed _) _)

theorem shows_segment (colors : style.colors = other.colors) {shown : Prop}
    {color label labelThere format arguments : String} {standalone : Bool}
    (labels : Tells shown label.toList labelThere.toList) :
    BothGive (Shows shown)
      (Segment.render style ⟨color, label, format, arguments, standalone⟩)
      (Segment.render other ⟨color, labelThere, format, arguments, standalone⟩) :=
  fun here there rendered renderedThere =>
    .single (tells_segment colors labels here there rendered renderedThere)
      (solid_segment rendered) (solid_segment renderedThere)

/-! Fragments. -/

structure FragmentTells (query display : Prop) (first second : Fragment) : Prop where
  name : first.name = second.name
  setup : first.setup = second.setup
  query : Shows query first.query second.query
  display : Shows display first.display second.display
  inputFields : first.inputFields = second.inputFields
  routines : first.routines = second.routines

theorem shows_guarded {shown : Prop} {first second : List Char}
    (tells : Tells shown first second) (condition : String) :
    Shows shown (guarded condition first) (guarded condition second) :=
  .single (tells.guarded condition) (solid_guarded _ _) (solid_guarded _ _)

theorem tells_wanted (wants : Datum) {shown : Prop} {block otherBlock : Except Failure (List Char)}
    (both : BothGive (Shows shown) block otherBlock) :
    BothGive (TellsEach (wants.isTruthy = true → shown))
      (if wants.isTruthy then block.map fun text => [text] else .ok [])
      (if wants.isTruthy then otherBlock.map fun text => [text] else .ok []) := by
  cases wants.isTruthy with
  | false => exact .ok ((TellsEach.refl _).congr (by simp))
  | true => exact both.map fun here there shows => shows.congr (by simp)

section Encoders

variable (colors : style.colors = other.colors)

include colors

theorem tells_directory : BothGive (FragmentTells True (style.emojis = other.emojis))
    (Directory.encode style) (Directory.encode other) := by
  have labels : Tells (style.emojis = other.emojis) (style.label "📁" "dir:").toList
      (other.label "📁" "dir:").toList := tells_label (by decide)
  refine (tells_segment colors labels).map fun here there tells => ?_
  exact ⟨rfl, rfl, .refl _, shows_guarded tells _, rfl, rfl⟩

theorem tells_git (context : Context) (options : Git.Options) :
    BothGive (FragmentTells True (style.emojis = other.emojis))
      (Git.encode context options style) (Git.encode context options other) := by
  have labels : Tells (style.emojis = other.emojis) (style.label "🌿" "git:").toList
      (other.label "🌿" "git:").toList := tells_label (by decide)
  refine (BothGive.same _).bind ?_
  rintro cacheFile _ rfl
  refine (BothGive.same _).bind ?_
  rintro query _ rfl
  refine (tells_segment colors labels).bind fun here there tells => .ok ?_
  exact ⟨rfl, rfl, .refl _, shows_guarded tells _, rfl, rfl⟩

theorem tells_model (options : Model.Options) :
    BothGive (FragmentTells True (style.emojis = other.emojis))
      (Model.encode options style) (Model.encode options other) := by
  have labels : Tells (style.emojis = other.emojis) (style.label "🤖" "model:").toList
      (other.label "🤖" "model:").toList := tells_label (by decide)
  refine (tells_segment colors labels).bind fun here there tells => ?_
  have shown : ∀ version, Shows (style.emojis = other.emojis)
      (joinLines (["if [ -n \"$model_name\" ]; then".toList, indented here] ++ version ++
        ["fi".toList]))
      (joinLines (["if [ -n \"$model_name\" ]; then".toList, indented there] ++ version ++
        ["fi".toList])) := by
    intro version
    have solid : isBlankLine "if [ -n \"$model_name\" ]; then".toList = false := by decide
    refine .single ?_ (solid_joinLines List.mem_cons_self solid)
      (solid_joinLines List.mem_cons_self solid)
    exact ⟨fun same => by rw [tells.1 same], fun different =>
      ((tells.2 different).indent _).joinWith_behind ['\n'] [_] _ _⟩
  rw [Model.versionSegment.render_congr colors]
  cases options.showVersion.isTruthy
  all_goals
    refine (BothGive.same _).bind ?_
    rintro version _ rfl
    exact .ok ⟨rfl, rfl, .refl _, shown version, rfl, rfl⟩

end Encoders

/-! Metrics. -/

/-- Texts of numbers tell whether they are the same, in front of a character of a line that no
number has. -/
theorem tells_number {first second more others : List Char} {behind : Prop} {stop : Char}
    (stops : isNumberPart stop = false) (inLine : stop ≠ '\n')
    (here : first.all isNumberPart = true) (there : second.all isNumberPart = true)
    (tells : Tells behind more others) :
    Tells (first = second ∧ behind) (first ++ stop :: more) (second ++ stop :: others) :=
  .run (by decide) stops inLine (List.all_eq_true.mp here) (List.all_eq_true.mp there) tells

namespace Metrics

def behindThreshold (name value : String) (warning : Datum) : List Char :=
  " then\n  ".toList ++ (name.toList ++ ("=alert_clr\nelif num_above \"$".toList ++
    (value.toList ++ ("\" ".toList ++ (warning.plainText ++ ';' :: (" then\n  ".toList ++
      (name.toList ++ "=warn_clr\nfi".toList)))))))

theorem render_level (name value : String) (threshold warning : Datum) :
    level.render [("var", .text name), ("value", .text value), ("threshold", threshold),
      ("warning", warning)] =
      .ok (name.toList ++ ("=ok_clr\nif num_above \"$".toList ++ (value.toList ++ ("\" ".toList ++
        (threshold.plainText ++ ';' :: behindThreshold name value warning))))) :=
  rfl

def IsNumber (value : Datum) : Prop :=
  value.plainText.all isNumberPart = true

structure LevelsAlike (threshold other warning otherWarning : Datum) : Prop where
  threshold : threshold.plainText = other.plainText
  warning : warning.plainText = otherWarning.plainText

theorem tells_level (name value : String) {threshold other warning otherWarning : Datum}
    (here : IsNumber threshold) (there : IsNumber other) (hereWarns : IsNumber warning)
    (thereWarns : IsNumber otherWarning) :
    BothGive (Tells (LevelsAlike threshold other warning otherWarning))
      (level.render [("var", .text name), ("value", .text value), ("threshold", threshold),
        ("warning", warning)])
      (level.render [("var", .text name), ("value", .text value), ("threshold", other),
        ("warning", otherWarning)]) := by
  have semicolon : isNumberPart ';' = false := by decide
  have warnings : Tells (warning.plainText = otherWarning.plainText ∧ True)
      (behindThreshold name value warning) (behindThreshold name value otherWarning) :=
    (((((tells_number semicolon (by decide) hereWarns thereWarns (.refl _)).prepend _).prepend
      _).prepend _).prepend _).prepend _
  have alike : LevelsAlike threshold other warning otherWarning ↔
      threshold.plainText = other.plainText ∧ warning.plainText = otherWarning.plainText ∧ True :=
    ⟨fun alike => ⟨alike.threshold, alike.warning, trivial⟩, fun known => ⟨known.1, known.2.1⟩⟩
  rw [render_level, render_level]
  refine .ok (Tells.congr ?_ alike)
  exact ((((tells_number semicolon (by decide) here there warnings).prepend _).prepend _).prepend
    _).prepend _

theorem tells_levelLines (colors : style.colors = other.colors) {name : String}
    (named : isBlankLine name.toList = false) (value : String)
    {threshold compared warning otherWarning : Datum} (here : IsNumber threshold)
    (there : IsNumber compared) (hereWarns : IsNumber warning) (thereWarns : IsNumber otherWarning) :
    BothGive (Shows (style.colors = true → LevelsAlike threshold compared warning otherWarning))
      (levelLines style name value threshold warning)
      (levelLines other name value compared otherWarning) := by
  unfold levelLines
  rw [← colors]
  cases style.colors with
  | false => exact .ok ((TellsEach.refl _).congr (by simp))
  | true =>
      intro first second rendered renderedThere
      have tells := tells_level name value here there hereWarns thereWarns first second rendered
        renderedThere
      rw [if_pos rfl, render_level] at rendered renderedThere
      obtain rfl := Except.ok.inj rendered
      obtain rfl := Except.ok.inj renderedThere
      exact .single (tells.congr (by simp)) (solid_append named _) (solid_append named _)

theorem tells_block {shown : Prop} {parts others : List (List Char)}
    (tells : TellsEach shown parts others) (condition : String) :
    Shows shown (block condition parts) (block condition others) := by
  have solid : ∀ text, isBlankLine text = false → (!text.isEmpty) = true := by
    rintro (_ | _) visible
    · cases visible
    · rfl
  have joined := tells.joinWith_filter (fun part => !part.isEmpty) solid id (fun _ _ => id) ['\n']
  simp only [List.map_id] at joined
  exact shows_guarded joined condition

theorem isNumber_int (n : Int) : IsNumber (.int n) :=
  number_ofInt n

theorem isNumber_float (x : Float) : IsNumber (.float x) :=
  number_decimal x

def warningAt (threshold : Int) : Int :=
  if threshold - 30 < 0 then 0 else threshold - 30

theorem warningOf_int (threshold : Int) :
    warningOf (.int threshold) = .ok (.int (warningAt threshold)) := by
  have larger : warningOf (.int threshold) = .ok (if decide (threshold - (30 : Nat) < 0)
      then .int 0 else .int (threshold - (30 : Nat))) := rfl
  rw [larger, warningAt]
  by_cases low : threshold - 30 < 0 <;> simp [low]

theorem levelsAlike_percent {threshold compared : Int} :
    LevelsAlike (.int threshold) (.int compared) (.int (warningAt threshold))
      (.int (warningAt compared)) ↔ threshold = compared := by
  refine ⟨fun alike => ofInt_injective alike.threshold, ?_⟩
  rintro rfl
  exact ⟨rfl, rfl⟩

def Options.watching (options : Options) (monitoring : Monitoring) : Options :=
  { options with
    refreshRate := .int monitoring.refreshRate
    cpuThreshold := .int monitoring.cpuThreshold
    memoryThreshold := .int monitoring.memoryThreshold
    loadThreshold := .float monitoring.loadThreshold }

section Blocks

variable (colors : style.colors = other.colors) (options : Options) (watched watching : Monitoring)

include colors

theorem tells_cpuBlock :
    BothGive (Shows ((style.colors = true → watched.cpuThreshold = watching.cpuThreshold) ∧
        style.emojis = other.emojis))
      (cpuBlock (options.watching watched) style) (cpuBlock (options.watching watching) other) := by
  have labels : Tells (style.emojis = other.emojis) (style.label "💻" "cpu:").toList
      (other.label "💻" "cpu:").toList := tells_label (by decide)
  have numbers := fun threshold => isNumber_int threshold
  simp only [cpuBlock, Options.watching, warningOf_int]
  refine (tells_levelLines colors (by decide) _ (numbers _) (numbers _) (numbers _)
    (numbers _)).bind fun color colorThere levels => ?_
  refine (shows_segment colors labels).bind fun shown shownThere emojis => .ok ?_
  simp only [levelsAlike_percent] at levels
  exact tells_block (levels.append emojis) _

theorem tells_memoryBlock :
    BothGive (Shows ((style.colors = true → watched.memoryThreshold = watching.memoryThreshold) ∧
        style.emojis = other.emojis))
      (memoryBlock (options.watching watched) style)
      (memoryBlock (options.watching watching) other) := by
  have labels : Tells (style.emojis = other.emojis) (style.label "🧠" "ram:").toList
      (other.label "🧠" "ram:").toList := tells_label (by decide)
  have segments : BothGive (Shows (style.emojis = other.emojis))
      ((memorySegment options style).render style) ((memorySegment options other).render other) := by
    unfold memorySegment
    cases options.compact.isTruthy <;> exact shows_segment colors labels
  have numbers := fun threshold => isNumber_int threshold
  simp only [memoryBlock, Options.watching, warningOf_int]
  refine (tells_levelLines colors (by decide) _ (numbers _) (numbers _) (numbers _)
    (numbers _)).bind fun color colorThere levels => ?_
  refine segments.bind fun shown shownThere emojis => .ok ?_
  simp only [levelsAlike_percent] at levels
  exact tells_block (levels.append emojis) _

def LoadsAlike (load compared : Float) : Prop :=
  LevelsAlike (.float load) (.float compared) (.float (load / 2.0)) (.float (compared / 2.0))

theorem tells_loadBlock :
    BothGive (Shows ((style.colors = true →
        LoadsAlike watched.loadThreshold watching.loadThreshold) ∧ style.emojis = other.emojis))
      (loadBlock (options.watching watched) style)
      (loadBlock (options.watching watching) other) := by
  have labels : Tells (style.emojis = other.emojis) (style.label "⚡" "load:").toList
      (other.label "⚡" "load:").toList := tells_label (by decide)
  have segments : BothGive (Shows (style.emojis = other.emojis))
      ((loadSegment options style).render style) ((loadSegment options other).render other) := by
    unfold loadSegment
    cases options.compact.isTruthy <;> exact shows_segment colors labels
  have numbers := fun load => isNumber_float load
  have half : ∀ load, (Datum.float load).half = .ok (.float (load / 2.0)) := fun _ => rfl
  simp only [loadBlock, Options.watching, half]
  refine segments.bind fun shown shownThere emojis => ?_
  refine (tells_levelLines colors (by decide) _ (numbers _) (numbers _) (numbers _)
    (numbers _)).bind fun color colorThere levels => .ok ?_
  exact tells_block (levels.append (emojis.cons _)) _

end Blocks

def lookupStart : String :=
  Names.join "\n" [
    "# system metrics",
    "cpu_percent=0 mem_used_gb=0 mem_total_gb=0 mem_percent=0",
    "load_1min=0 load_5min=0 load_15min=0",
    "sys_cache_file=\""]

def lookupEnd : String :=
  Names.join "\n" [
    " collect_system_metrics)",
    "if [ -n \"$system_metrics\" ]; then eval \"$system_metrics\"; fi"]

theorem render_lookup (cacheFile : List Char) (rate grace : Datum) :
    lookup.render [("cache_file", .text (String.ofList cacheFile)), ("ttl", rate),
      ("grace", grace)] = .ok (lookupStart.toList ++ ((String.ofList cacheFile).toList ++
        ("\"\nsystem_metrics=$(cache_lookup \"$sys_cache_file\" ".toList ++ (rate.plainText ++
          ' ' :: (grace.plainText ++ (lookupEnd.toList ++ [])))))) :=
  rfl

theorem tells_lookup (context : Context) (cacheFile : List Char) (options : Options)
    (watched watching : Monitoring) :
    BothGive (Shows (watched.refreshRate = watching.refreshRate))
      (lookupValues context cacheFile (options.watching watched) >>= lookup.render)
      (lookupValues context cacheFile (options.watching watching) >>= lookup.render) := by
  have values : ∀ monitoring, lookupValues context cacheFile (options.watching monitoring) =
      .ok [("cache_file", .text (String.ofList cacheFile)),
        ("ttl", .int monitoring.refreshRate), ("grace",
          if decide (context.settings.lookupGrace < monitoring.refreshRate)
          then .int monitoring.refreshRate else .int context.settings.lookupGrace)] :=
    fun _ => rfl
  have solid : ∀ rest, isBlankLine (lookupStart.toList ++ rest) = false := by
    intro rest
    simp only [lookupStart, Names.join, String.toList_append, List.append_assoc]
    exact solid_append (by decide) _
  have space : isNumberPart ' ' = false := by decide
  rw [values, values]
  intro here there rendered renderedThere
  obtain rfl := Except.ok.inj ((render_lookup cacheFile _ _).symm.trans rendered)
  obtain rfl := Except.ok.inj ((render_lookup cacheFile _ _).symm.trans renderedThere)
  refine .single ?_ (solid _) (solid _)
  refine ⟨fun same => by rw [same], fun different => ?_⟩
  have numbers : Text.ofInt watched.refreshRate ≠ Text.ofInt watching.refreshRate :=
    fun same => different (ofInt_injective same)
  have rates := Diverge.of_runs (by decide) space (by decide)
    (List.all_eq_true.mp (number_ofInt watched.refreshRate))
    (List.all_eq_true.mp (number_ofInt watching.refreshRate)) numbers
  exact (((rates _ _).prepend _).prepend _).prepend _

structure BlocksAlike (options : Options) (style other : Style) (watched watching : Monitoring) :
    Prop where
  cpu : options.showCpu.isTruthy = true →
    (style.colors = true → watched.cpuThreshold = watching.cpuThreshold) ∧
      style.emojis = other.emojis
  memory : options.showMemory.isTruthy = true →
    (style.colors = true → watched.memoryThreshold = watching.memoryThreshold) ∧
      style.emojis = other.emojis
  load : options.showLoad.isTruthy = true →
    (style.colors = true → LoadsAlike watched.loadThreshold watching.loadThreshold) ∧
      style.emojis = other.emojis

theorem tells_metrics (colors : style.colors = other.colors) (context : Context)
    (options : Options) (watched watching : Monitoring) :
    BothGive (FragmentTells (watched.refreshRate = watching.refreshRate)
        (BlocksAlike options style other watched watching))
      (encode context (options.watching watched) style)
      (encode context (options.watching watching) other) := by
  refine (BothGive.same _).bind ?_
  rintro setup _ rfl
  refine (BothGive.same _).bind ?_
  rintro cacheFile _ rfl
  rw [← bind_assoc, ← bind_assoc]
  refine (tells_lookup context cacheFile options watched watching).bind ?_
  intro query queryThere queries
  refine (tells_wanted _ (tells_cpuBlock colors options watched watching)).bind ?_
  intro cpu cpuThere cpus
  refine (tells_wanted _ (tells_memoryBlock colors options watched watching)).bind ?_
  intro memory memoryThere memories
  refine (tells_wanted _ (tells_loadBlock colors options watched watching)).bind ?_
  intro load loadThere loads
  have blocks := ((cpus.append memories).append loads).joinedLines
  have shown : TellsEach (BlocksAlike options style other watched watching) _ _ := blocks.congr
    ⟨fun alike => ⟨⟨alike.cpu, alike.memory⟩, alike.load⟩,
      fun known => ⟨known.1.1, known.1.2, known.2⟩⟩
  refine .ok ⟨rfl, rfl, queries, shown, rfl, ?_⟩
  rw [← colors]
  rfl

end Metrics

/-! Usage. -/

namespace Usage

section Blocks

variable (colors : style.colors = other.colors) (options : Options)

include colors

theorem tells_sessionBlock :
    BothGive (Shows (style.emojis = other.emojis)) (sessionBlock options style)
      (sessionBlock options other) := by
  have labels : Tells (style.emojis = other.emojis) (style.label "⌛" "session:").toList
      (other.label "⌛" "session:").toList := tells_label (by decide)
  unfold sessionBlock
  refine (tells_segment colors labels).bind fun text textThere tells => ?_
  rw [Segment.render_congr colors]
  cases options.showProgressBar.isTruthy
  all_goals
    refine (BothGive.same _).bind ?_
    rintro bar _ rfl
    exact .ok (shows_guarded (tells.append_same bar) _)

theorem tells_costBlock :
    BothGive (Shows (style.emojis = other.emojis)) (costBlock style) (costBlock other) := by
  have labels : Tells (style.emojis = other.emojis) (style.label "💵" "$").toList
      (other.label "💵" "$").toList := tells_label (by decide)
  refine (tells_segment colors labels).bind fun withRate withRateThere rates => ?_
  refine (tells_segment colors labels).bind fun plain plainThere tells => .ok ?_
  exact (shows_guarded (rates.chosen tells _) _).congr and_self_iff.symm

theorem tells_tokensBlock :
    BothGive (Shows (style.emojis = other.emojis)) (tokensBlock options style)
      (tokensBlock options other) := by
  have labels : Tells (style.emojis = other.emojis) (style.label "📊" "tok:").toList
      (other.label "📊" "tok:").toList := tells_label (by decide)
  unfold tokensBlock
  refine (tells_segment colors labels).bind fun plain plainThere tells => ?_
  cases options.showBurnRate.isTruthy with
  | false => exact .ok (shows_guarded tells _)
  | true =>
      refine (tells_segment colors labels).map (fun withRate withRateThere rates =>
        rates.chosen tells _) |>.bind fun body bodyThere both => .ok ?_
      exact (shows_guarded both _).congr and_self_iff.symm

theorem tells_cacheBlock :
    BothGive (Shows (style.emojis = other.emojis)) (cacheBlock style) (cacheBlock other) := by
  have labels : Tells (style.emojis = other.emojis) (style.label "♻️" "cache:").toList
      (other.label "♻️" "cache:").toList := tells_label (by decide)
  refine (tells_segment colors labels).bind fun shown shownThere tells => .ok ?_
  exact shows_guarded ((tells.cons _).prepend _) _

theorem tells_projectionBlock :
    BothGive (Shows (style.emojis = other.emojis)) (projectionBlock style)
      (projectionBlock other) := by
  have labels : Tells (style.emojis = other.emojis) (style.label "📈" "proj:").toList
      (other.label "📈" "proj:").toList := tells_label (by decide)
  refine (tells_segment colors labels).bind fun withMinutes withMinutesThere minutes => ?_
  refine (tells_segment colors labels).bind fun plain plainThere tells => .ok ?_
  exact (shows_guarded (minutes.chosen tells _) _).congr and_self_iff.symm

theorem tells_alertBlock :
    BothGive (Shows (style.emojis = other.emojis)) (alertBlock options style)
      (alertBlock options other) := by
  have labels : Tells (style.emojis = other.emojis) (style.label "🔥" "alert:").toList
      (other.label "🔥" "alert:").toList := tells_label (by decide)
  refine (tells_segment colors labels).bind fun shown shownThere tells => .ok ?_
  exact shows_guarded tells _

end Blocks

def Options.showsAny (options : Options) : Bool :=
  options.showSession.isTruthy || options.showCost.isTruthy || options.showTokens.isTruthy ||
    options.showCache.isTruthy || options.showProjections.isTruthy || options.showAlerts.isTruthy

theorem tells_displays (colors : style.colors = other.colors) (options : Options) :
    BothGive (TellsEach (options.showsAny = true → style.emojis = other.emojis))
      (displays options style) (displays options other) := by
  refine (tells_wanted _ (tells_sessionBlock colors options)).bind fun session _ sessions => ?_
  refine (tells_wanted _ (tells_costBlock colors)).bind fun cost _ costs => ?_
  refine (tells_wanted _ (tells_tokensBlock colors options)).bind fun tokens _ counts => ?_
  refine (tells_wanted _ (tells_cacheBlock colors)).bind fun cache _ caches => ?_
  refine (tells_wanted _ (tells_projectionBlock colors)).bind fun projections _ projected => ?_
  refine (tells_wanted _ (tells_alertBlock colors options)).bind fun alerts _ alerted => .ok ?_
  refine (((((sessions.append costs).append counts).append caches).append projected).append
    alerted).congr ?_
  simp only [Options.showsAny, Bool.or_eq_true, or_imp]

theorem tells_usage (colors : style.colors = other.colors) (context : Context)
    (options : Options) :
    BothGive (FragmentTells True (options.showsAny = true → style.emojis = other.emojis))
      (encode context options style) (encode context options other) := by
  have timed : sessionValues options style = sessionValues options other := by
    rw [sessionValues, sessionValues, colors]
  unfold encode
  rw [timed]
  refine (BothGive.same _).bind ?_
  rintro setup _ rfl
  refine (BothGive.same _).bind ?_
  rintro cacheFile _ rfl
  refine (BothGive.same _).bind ?_
  rintro query _ rfl
  cases options.showSession.isTruthy
  all_goals
    refine (BothGive.same _).bind ?_
    rintro timing _ rfl
    refine (tells_displays colors options).bind fun blocks blocksThere shown => .ok ?_
    exact ⟨rfl, rfl, .refl _, shown.joinedLines, rfl, rfl⟩

end Usage

end StatusLine

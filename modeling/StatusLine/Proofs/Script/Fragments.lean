import StatusLine.Proofs.Results
import StatusLine.Proofs.Script.Closing

/-!
The fragments of encoders. Whatever a configuration wants, the parts of its fragments close under the
readers of the audit, and what they take from the input are the known fields.
-/

namespace StatusLine.Script

/-! Segments. -/

structure TidySegment (segment : Segment) : Prop where
  label : segment.label.toList.all isQuoted = true
  format : segment.format.toList.all isQuoted = true
  color : ∃ name, name.all isBare = true ∧
    (segment.color.toList = name ∨ segment.color.toList = '$' :: name)
  arguments : ∃ names, names ≠ [] ∧ (names.all fun name => name.all isArgument) = true ∧
    segment.arguments.toList = Text.joinWith [' '] (names.map argument)

def isTidySegment (labels : List String) (color format arguments : String)
    (names : List String) : Bool :=
  labels.all (fun label => label.toList.all isQuoted) && format.toList.all isQuoted &&
    (color.toList.dropWhile (· == '$')).all isBare && (color.toList.drop 1).all isBare &&
    !names.isEmpty && (names.all fun name => name.toList.all isArgument) &&
    arguments.toList == Text.joinWith [' '] (names.map fun name => argument name.toList)

theorem tidySegment {color label format arguments : String} {standalone : Bool}
    (labels names : List String) (labelled : label ∈ labels)
    (tidy : isTidySegment labels color format arguments names = true) :
    TidySegment ⟨color, label, format, arguments, standalone⟩ := by
  simp only [isTidySegment, Bool.and_eq_true, List.all_eq_true, Bool.not_eq_true',
    beq_iff_eq] at tidy
  obtain ⟨⟨⟨⟨⟨⟨quoted, formatted⟩, colored⟩, behind⟩, present⟩, named⟩, joined⟩ := tidy
  refine ⟨List.all_eq_true.mpr (quoted label labelled), List.all_eq_true.mpr formatted, ?_, ?_⟩
  · cases shape : color.toList with
    | nil => exact ⟨[], rfl, .inl rfl⟩
    | cons first rest =>
        rw [shape] at colored behind
        by_cases dollar : first = '$'
        · subst dollar
          exact ⟨rest, List.all_eq_true.mpr behind, .inr rfl⟩
        · refine ⟨first :: rest, List.all_eq_true.mpr ?_, .inl rfl⟩
          have plain : (first == '$') = false := by simpa using dollar
          rw [List.dropWhile_cons, plain] at colored
          exact colored
  · refine ⟨names.map String.toList, ?_, ?_, ?_⟩
    · intro none
      rw [List.map_eq_nil_iff] at none
      rw [none] at present
      cases present
    · simpa using named
    · rw [joined, List.map_map]
      rfl

theorem label_mem (style : Style) (emoji word : String) :
    style.label emoji word ∈ [emoji ++ " ", word ++ " "] := by
  cases on : style.emojis <;> simp [Style.label, on]

section Readers

variable {State : Type} {barred : Option Char} {reader : LineReader State}

theorem AcceptsTidy.closes_segment (accepts : AcceptsTidy barred reader) {segment : Segment}
    (tidy : TidySegment segment) {style : Style} {text : List Char}
    (rendered : segment.render style = .ok text) : reader.Closes text := by
  obtain ⟨whole, shown, rfl⟩ := map_eq_ok rendered
  refine (accepts.closes_template templatesTidy.segment ?_ shown).trimNewlines
  exact .cons rfl tidy.label (.cons rfl tidy.format (.cons rfl (.inl tidy.color)
    (.cons rfl tidy.arguments .nil)))

/-! Blocks. -/

theorem AcceptsTidy.closes_guarded (accepts : AcceptsTidy barred reader) {texts : List String}
    (tidy : TidyCondition texts) {condition : String}
    (shape : condition.toList = texts.flatMap String.toList) {body : List Char}
    (closes : reader.Closes body) : reader.Closes (guarded condition body) :=
  LineReader.closes_guarded (accepts.closes_heading tidy shape)
    (accepts.closes_text textsTidy.ending) closes

theorem AcceptsTidy.closes_chosen (accepts : AcceptsTidy barred reader) {texts : List String}
    (tidy : TidyCondition texts) {condition : String}
    (shape : condition.toList = texts.flatMap String.toList) {yes no : List Char}
    (first : reader.Closes yes) (second : reader.Closes no) :
    reader.Closes (chosen condition yes no) :=
  LineReader.closes_chosen (accepts.closes_heading tidy shape)
    (accepts.closes_text textsTidy.otherwise) (accepts.closes_text textsTidy.ending) first second

end Readers

/-! Texts and numbers. -/

theorem fits_text {barred : Option Char} {kinds : List Filling} {text : List Char}
    (fits : Fits barred kinds text) :
    Fits barred kinds (Datum.text (String.ofList text)).plainText := by
  have same : (Datum.text (String.ofList text)).plainText = text := String.toList_ofList
  rw [same]
  exact fits

theorem fits_word {barred : Option Char} {word : String} (bare : word.toList.all isBare = true) :
    Fits barred [.bare] (Datum.text word).plainText :=
  bare

theorem fits_part {barred : Option Char} {word : String} (part : word.toList.all isWordPart = true) :
    Fits barred [.word] (Datum.text word).plainText :=
  part

def IsNumber (value : Datum) : Prop :=
  (∃ n, value = .int n) ∨ ∃ x, value = .float x

theorem IsNumber.fits {barred : Option Char} {value : Datum} (number : IsNumber value) :
    Fits barred [.bare] value.plainText := by
  rcases number with ⟨n, rfl⟩ | ⟨x, rfl⟩
  · exact bare_ofInt n
  · exact bare_decimal x

theorem IsNumber.larger {first second value : Datum} (left : IsNumber first)
    (right : IsNumber second) (larger : Datum.larger first second = .ok value) : IsNumber value := by
  obtain ⟨above, -, rfl⟩ := map_eq_ok larger
  cases above with
  | true => exact right
  | false => exact left

theorem IsNumber.int (n : Int) : IsNumber (.int n) :=
  .inl ⟨n, rfl⟩

/-! The encoders. -/

def knownInputs : List (InputField String) :=
  [Directory.inputField, Model.nameField, Model.versionField]

structure TidyFragment {State : Type} (reader : LineReader State) (fragment : Fragment) : Prop where
  setup : reader.Closes fragment.setup
  query : reader.Closes fragment.query
  display : reader.Closes fragment.display
  inputs : ∀ field ∈ fragment.inputFields, field ∈ knownInputs

structure ClosesLookups {State : Type} (reader : LineReader State) (context : Context) : Prop where
  git : ∀ {config options file text},
    Git.Options.ofConfiguration? context.settings config = some options →
    context.commandFile "git" Git.command = .ok file →
    Git.template.render (Git.values file options) = .ok text → reader.Closes text
  metrics : ∀ {config options fields file values text},
    Metrics.Options.ofConfiguration? config = some options →
    context.cacheFile "system" fields = .ok file →
    Metrics.lookupValues context file options = .ok values →
    Metrics.lookup.render values = .ok text → reader.Closes text
  usage : ∀ {config options file text},
    Usage.Options.ofConfiguration? context.settings config = some options →
    context.commandFile "usage" Usage.command = .ok file →
    Usage.lookup.render (Usage.lookupValues file options) = .ok text → reader.Closes text

section Encoders

variable {State : Type} {barred : Option Char} {reader : LineReader State}
  (accepts : AcceptsTidy barred reader) {style : Style} {fragment : Fragment}

include accepts

theorem tidy_directory (encoded : Directory.encode style = .ok fragment) :
    TidyFragment reader fragment := by
  obtain ⟨shown, drawn, rfl⟩ := map_eq_ok encoded
  have segment : TidySegment (Directory.segment style) :=
    tidySegment _ ["current_dir"] (label_mem style _ _) (by decide)
  refine ⟨reader.closes_nil, accepts.closes_text textsTidy.directory, ?_, ?_⟩
  · exact accepts.closes_guarded (textsTidy.conditions _ (.head _)) (by simp)
      (accepts.closes_segment segment drawn)
  · intro field member
    obtain rfl := List.mem_singleton.mp member
    exact .head _

theorem closes_model {name : List Char} {version : List (List Char)} (named : reader.Closes name)
    (versioned : ∀ line ∈ version, reader.Closes line) :
    reader.Closes (Text.joinLines (["if [ -n \"$model_name\" ]; then".toList,
      Text.indented name] ++ version ++ ["fi".toList])) := by
  refine LineReader.closes_joinLines fun line member => ?_
  simp only [List.mem_append, List.mem_cons, List.not_mem_nil, or_false] at member
  rcases member with ((rfl | rfl) | member) | rfl
  · exact accepts.closes_text (textsTidy.lines _ (.head _))
  · exact named.indent _ (by simp)
  · exact versioned line member
  · exact accepts.closes_text textsTidy.ending

theorem closes_versionLines {shown : List Char} (closes : reader.Closes shown) :
    ∀ line ∈ Model.versionLines shown, reader.Closes line := by
  intro line member
  simp only [Model.versionLines, List.mem_cons, List.not_mem_nil, or_false] at member
  rcases member with rfl | rfl | rfl
  · exact accepts.closes_text (textsTidy.lines _ (.tail _ (.head _)))
  · exact closes.indent _ (by simp)
  · exact accepts.closes_text textsTidy.inner

theorem tidy_model {options : Model.Options} (encoded : Model.encode options style = .ok fragment) :
    TidyFragment reader fragment := by
  have nameSegment : TidySegment (Model.nameSegment style) :=
    tidySegment _ ["model_name"] (label_mem style _ _) (by decide)
  have versionSegment : TidySegment Model.versionSegment :=
    tidySegment [" v"] ["model_version"] (.head _) (by decide)
  obtain ⟨name, drawn, done⟩ := bind_eq_ok encoded
  have named := accepts.closes_segment nameSegment drawn
  cases shows : options.showVersion.isTruthy with
  | true =>
      simp only [shows, if_true] at done
      obtain ⟨version, versioned, done⟩ := bind_eq_ok done
      obtain ⟨shown, here, rfl⟩ := map_eq_ok versioned
      obtain rfl := Except.ok.inj done
      refine ⟨reader.closes_nil, reader.closes_nil, ?_, ?_⟩
      · exact closes_model accepts named
          (closes_versionLines accepts (accepts.closes_segment versionSegment here))
      · intro field member
        simp only [List.mem_cons, List.not_mem_nil, or_false] at member
        rcases member with rfl | rfl
        · exact .tail _ (.head _)
        · exact .tail _ (.tail _ (.head _))
  | false =>
      simp only [shows, Bool.false_eq_true, if_false] at done
      obtain ⟨version, versioned, done⟩ := bind_eq_ok done
      obtain rfl := Except.ok.inj versioned
      obtain rfl := Except.ok.inj done
      refine ⟨reader.closes_nil, reader.closes_nil, ?_, ?_⟩
      · exact closes_model accepts named fun line member => absurd member List.not_mem_nil
      · intro field member
        obtain rfl := List.mem_singleton.mp member
        exact .tail _ (.head _)

/-! The branch of the repository. -/

section Lookups

variable {context : Context} (lookups : ClosesLookups reader context)

include lookups

theorem tidy_git {config : Configuration} {options : Git.Options}
    (configured : Git.Options.ofConfiguration? context.settings config = some options)
    (encoded : Git.encode context options style = .ok fragment) :
    TidyFragment reader fragment := by
  obtain ⟨file, filed, done⟩ := bind_eq_ok encoded
  obtain ⟨query, asked, done⟩ := bind_eq_ok done
  obtain ⟨shown, drawn, done⟩ := bind_eq_ok done
  obtain rfl := Except.ok.inj done
  have segment : TidySegment (Git.segment style) :=
    tidySegment _ ["git_branch_name"] (label_mem style _ _) (by decide)
  refine ⟨reader.closes_nil, lookups.git configured filed asked, ?_,
    fun field member => absurd member List.not_mem_nil⟩
  exact accepts.closes_guarded (textsTidy.conditions _ (.tail _ (.head _))) (by simp)
    (accepts.closes_segment segment drawn)

/-! The metrics. -/

omit lookups in
theorem closes_levelLines {variableName value : String}
    (named : variableName.toList.all isBare = true) (valued : value.toList.all isWordPart = true)
    {threshold warning : Datum} (high : IsNumber threshold) (low : IsNumber warning)
    {text : List Char}
    (rendered : Metrics.levelLines style variableName value threshold warning = .ok text) :
    reader.Closes text := by
  unfold Metrics.levelLines at rendered
  split at rendered
  · exact accepts.closes_template templatesTidy.level
      (.cons rfl (fits_word named) (.cons rfl (fits_part valued) (.cons rfl high.fits
        (.cons rfl low.fits .nil)))) rendered
  · obtain rfl := Except.ok.inj rendered
    exact reader.closes_nil

omit lookups in
theorem closes_block {texts : List String} (tidy : TidyCondition texts) {condition : String}
    (shape : condition.toList = texts.flatMap String.toList) {parts : List (List Char)}
    (closes : ∀ part ∈ parts, reader.Closes part) :
    reader.Closes (Metrics.block condition parts) := by
  refine accepts.closes_guarded tidy shape (LineReader.closes_joinLines fun part member => ?_)
  exact closes part (List.mem_filter.mp member).1

omit accepts lookups in
theorem isNumber_warning {threshold warning : Datum}
    (warned : Metrics.warningOf threshold = .ok warning) (number : IsNumber threshold) :
    IsNumber warning := by
  obtain ⟨lower, less, larger⟩ := bind_eq_ok warned
  refine IsNumber.larger ?_ (.int 0) larger
  rcases number with ⟨n, rfl⟩ | ⟨x, rfl⟩
  · obtain rfl := Except.ok.inj less
    exact .int _
  · obtain rfl := Except.ok.inj less
    exact .inr ⟨_, rfl⟩

omit lookups in
theorem closes_cpuBlock {options : Metrics.Options} (number : IsNumber options.cpuThreshold)
    {text : List Char} (made : Metrics.cpuBlock options style = .ok text) : reader.Closes text := by
  obtain ⟨warning, warned, done⟩ := bind_eq_ok made
  obtain ⟨color, colored, done⟩ := bind_eq_ok done
  obtain ⟨shown, drawn, done⟩ := bind_eq_ok done
  obtain rfl := Except.ok.inj done
  refine closes_block accepts (textsTidy.conditions _ (.tail _ (.tail _ (.head _)))) (by simp) ?_
  intro part member
  simp only [List.mem_cons, List.not_mem_nil, or_false] at member
  rcases member with rfl | rfl
  · exact closes_levelLines accepts (by decide) (by decide +kernel) number
      (isNumber_warning warned number) colored
  · exact accepts.closes_segment
      (tidySegment _ ["cpu_percent"] (label_mem style _ _) (by decide)) drawn

omit accepts lookups in
theorem tidy_memorySegment (options : Metrics.Options) (style : Style) :
    TidySegment (Metrics.memorySegment options style) := by
  unfold Metrics.memorySegment
  simp only
  split
  · exact tidySegment _ ["mem_used_gb", "mem_total_gb"] (label_mem style _ _) (by decide)
  · exact tidySegment _ ["mem_used_gb", "mem_total_gb", "mem_percent"] (label_mem style _ _)
      (by decide)

omit lookups in
theorem closes_memoryBlock {options : Metrics.Options}
    (number : IsNumber options.memoryThreshold) {text : List Char}
    (made : Metrics.memoryBlock options style = .ok text) : reader.Closes text := by
  obtain ⟨warning, warned, done⟩ := bind_eq_ok made
  obtain ⟨color, colored, done⟩ := bind_eq_ok done
  obtain ⟨shown, drawn, done⟩ := bind_eq_ok done
  obtain rfl := Except.ok.inj done
  refine closes_block accepts
    (textsTidy.conditions _ (.tail _ (.tail _ (.tail _ (.head _))))) (by simp) ?_
  intro part member
  simp only [List.mem_cons, List.not_mem_nil, or_false] at member
  rcases member with rfl | rfl
  · exact closes_levelLines accepts (by decide) (by decide +kernel) number
      (isNumber_warning warned number) colored
  · exact accepts.closes_segment (tidy_memorySegment options style) drawn

omit accepts lookups in
theorem tidy_loadSegment (options : Metrics.Options) (style : Style) :
    TidySegment (Metrics.loadSegment options style) := by
  unfold Metrics.loadSegment
  simp only
  split
  · exact tidySegment _ ["load_1min", "load_trend"] (label_mem style _ _) (by decide)
  · exact tidySegment _ ["load_1min", "load_5min", "load_15min"] (label_mem style _ _)
      (by decide)

omit lookups in
theorem closes_loadBlock {options : Metrics.Options} {threshold : Float}
    (given : options.loadThreshold = .float threshold) {text : List Char}
    (made : Metrics.loadBlock options style = .ok text) : reader.Closes text := by
  obtain ⟨shown, drawn, done⟩ := bind_eq_ok made
  obtain ⟨warning, halved, done⟩ := bind_eq_ok done
  obtain ⟨color, colored, done⟩ := bind_eq_ok done
  obtain rfl := Except.ok.inj done
  rw [given] at halved colored
  obtain rfl := Except.ok.inj halved
  refine closes_block accepts
    (textsTidy.conditions _ (.tail _ (.tail _ (.tail _ (.tail _ (.head _)))))) (by simp) ?_
  intro part member
  simp only [List.mem_cons, List.not_mem_nil, or_false] at member
  rcases member with rfl | rfl | rfl
  · exact closes_levelLines accepts (by decide) (by decide +kernel) (.inr ⟨_, rfl⟩)
      (.inr ⟨_, rfl⟩) colored
  · split
    · exact accepts.closes_text textsTidy.trend
    · exact reader.closes_nil
  · exact accepts.closes_segment (tidy_loadSegment options style) drawn

omit accepts lookups in
theorem closes_ifWanted {wants : Bool} {part : Except Failure (List Char)}
    (closes : ∀ text, part = .ok text → reader.Closes text) {texts : List (List Char)}
    (made : (if wants = true then part.map fun text => [text] else .ok []) = .ok texts) :
    ∀ text ∈ texts, reader.Closes text := by
  intro text member
  split at made
  · obtain ⟨only, present, rfl⟩ := map_eq_ok made
    obtain rfl := List.mem_singleton.mp member
    exact closes text present
  · obtain rfl := Except.ok.inj made
    cases member

omit lookups in
theorem closes_headed {heading row : String} (tidy : TidyTexts [heading])
    (shape : row.toList = heading.toList ++ ['\n']) {body : List Char}
    (closes : reader.Closes body) : reader.Closes (row.toList ++ body) := by
  rw [shape, List.append_assoc]
  exact (accepts.closes_text tidy).line closes

theorem tidy_metrics {config : Configuration} {options : Metrics.Options}
    (configured : Metrics.Options.ofConfiguration? config = some options)
    (encoded : Metrics.encode context options style = .ok fragment) :
    TidyFragment reader fragment := by
  obtain ⟨setup, collected, done⟩ := bind_eq_ok encoded
  obtain ⟨file, filed, done⟩ := bind_eq_ok done
  obtain ⟨values, valued, done⟩ := bind_eq_ok done
  obtain ⟨query, asked, done⟩ := bind_eq_ok done
  obtain ⟨cpu, cpuMade, done⟩ := bind_eq_ok done
  obtain ⟨memory, memoryMade, done⟩ := bind_eq_ok done
  obtain ⟨load, loadMade, done⟩ := bind_eq_ok done
  obtain rfl := Except.ok.inj done
  have query := lookups.metrics configured filed valued asked
  obtain ⟨-, chosen⟩ := Option.ite_none_right_eq_some.mp configured
  obtain rfl := Option.some.inj chosen
  refine ⟨?_, query, ?_, fun field member => absurd member List.not_mem_nil⟩
  · exact closes_headed accepts (textsTidy.headings _ (.tail _ (.tail _ (.head _)))) (by simp)
      (accepts.closes_template templatesTidy.collector .nil collected)
  · refine LineReader.closes_joinLines fun text member => ?_
    simp only [List.mem_append] at member
    rcases member with (member | member) | member
    · exact closes_ifWanted (fun text made => closes_cpuBlock accepts (.int _) made) cpuMade
        text member
    · exact closes_ifWanted (fun text made => closes_memoryBlock accepts (.int _) made)
        memoryMade text member
    · exact closes_ifWanted (fun text made => closes_loadBlock accepts rfl made) loadMade
        text member

end Lookups

end Encoders

end StatusLine.Script

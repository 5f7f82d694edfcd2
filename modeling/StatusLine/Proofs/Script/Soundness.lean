import StatusLine.Proofs.Audit.Validity
import StatusLine.Proofs.Script.FixedParts
import StatusLine.Proofs.Script.UsageFragment

/-!
Whole scripts. Every part of a script closes, so the readers of the audit come to the end of the
script with everything closed; and its first line names the interpreter and nothing else.
-/

namespace StatusLine.Script

/-! The parts that depend on the whole configuration. -/

theorem bare_theme (theme : Theme) : theme.name.toList.all isBare = true := by
  cases theme <;> decide

theorem bare_switchText (on : Bool) : (switchText on).toList.all isBare = true := by
  cases on <;> decide

theorem bare_feature : ∀ feature ∈ knownFeatures, feature.toList.all isBare = true := by
  decide

theorem bare_featuresText (config : Configuration) :
    (featuresText config).toList.all isBare = true := by
  unfold featuresText
  split
  · decide
  · refine all_join (by decide) fun feature member => ?_
    exact bare_feature feature (List.mem_filter.mp member).1

def BindsField (bound : Scope) : Prop :=
  ∃ field ∈ knownInputs, bound = [("field", (field.map .text).datum)]

theorem BindsField.free {bound : Scope} (binds : BindsField bound) {name : String}
    (other : name ≠ "field") : bound.find? name = none := by
  obtain ⟨field, -, rfl⟩ := binds
  have apart : ("field" == name) = false := by simpa using Ne.symm other
  simp [Scope.find?, apart]

theorem accepts_inputName {barred : Option Char} : ∀ field ∈ knownInputs,
    Filling.input.Accepts barred field.name.toList := by
  have all : ∀ field ∈ knownInputs, field.name ∈ inputNames := by decide
  exact fun field member => List.mem_map_of_mem (all field member)

theorem accepts_fallback {barred : Option Char} : ∀ field ∈ knownInputs,
    Filling.command.Accepts barred (Text.shellWord field.fallback.toList) := by
  intro field member
  simp only [knownInputs, List.mem_cons, List.not_mem_nil, or_false] at member
  rcases member with rfl | rfl | rfl
  · exact .inl ⟨"unknown".toList, by decide, .inl rfl⟩
  · exact .inl ⟨"Claude".toList, by decide, .inl rfl⟩
  · exact .inr rfl

theorem lacks_attribute {scope : Scope} (unbound : scope.find? "field" = none) {name : String}
    (lacks : (Datum.null.attribute? name).isNone = true) :
    ∃ reason, (Expression.field (.named "field") name).value scope = .error reason := by
  rw [Option.isNone_iff_eq_none] at lacks
  have nothing : (Expression.named "field").value scope = .ok .null := by
    simp only [Expression.value, unbound]
    rfl
  refine ⟨lacking .null name, ?_⟩
  rw [Expression.value, nothing]
  simp only [lacks]

section Fields

variable {barred : Option Char} {base scope : Scope} (served : Served base BindsField scope)
  (unbound : base.find? "field" = none)

include served unbound

theorem fits_fieldName {found : Datum}
    (value : (Expression.field (.named "field") "name").value scope = .ok found) :
    Fits barred [.input] found.plainText := by
  cases served with
  | base =>
      have absent : (Datum.null.attribute? "name").isNone = true := by decide +kernel
      obtain ⟨reason, missing⟩ := lacks_attribute unbound absent
      cases missing.symm.trans value
  | turn binding outer =>
      obtain ⟨field, known, rfl⟩ := binding
      obtain rfl := Except.ok.inj value
      exact accepts_inputName field known

theorem fits_fieldDefault {found : Datum}
    (value : (Expression.filtered (.field (.named "field") "default") .shellWord).value scope =
      .ok found) : Fits barred [.command] found.plainText := by
  cases served with
  | base =>
      have absent : (Datum.null.attribute? "default").isNone = true := by decide +kernel
      obtain ⟨reason, missing⟩ := lacks_attribute unbound absent
      rw [Expression.value, missing] at value
      cases value
  | turn binding outer =>
      obtain ⟨field, known, rfl⟩ := binding
      obtain rfl := Except.ok.inj value
      exact fits_text (accepts_fallback field known)

end Fields

theorem accepts_object {barred : Option Char} {fields : List (InputField String)}
    (known : ∀ field ∈ fields, field ∈ knownInputs) :
    Filling.expression.Accepts barred (InputField.object fields) := by
  have parts : ∀ part ∈ fields.map fun field => field.name.toList ++ ": (".toList ++
      field.expression.toList ++ [')'], part.all isExpression = true ∧ CallFree part := by
    have each : ∀ field ∈ knownInputs, (field.name.toList ++ ": (".toList ++
        field.expression.toList ++ [')']).all isExpression = true ∧ CallFree (field.name.toList ++
          ": (".toList ++ field.expression.toList ++ [')']) := by decide +kernel
    intro part member
    obtain ⟨field, present, rfl⟩ := List.mem_map.mp member
    exact each field (known field present)
  refine ⟨List.all_eq_true.mpr fun c member => ?_, ?_⟩
  · simp only [InputField.object, List.mem_append, List.mem_cons, List.not_mem_nil,
      or_false] at member
    rcases member with (rfl | inner) | rfl
    · decide
    · rcases mem_joinWith inner with between | ⟨part, inside, here⟩
      · simp only [List.mem_cons, List.not_mem_nil, or_false] at between
        rcases between with rfl | rfl <;> decide
      · exact List.all_eq_true.mp (parts part inside).1 c here
    · decide
  · have joined := CallFree.joinWith (by decide : CallFree [',', ' ']) fun part member =>
      (parts part member).2
    exact ((by decide : CallFree ['\x7b']).append joined).append (by decide)

theorem bindsField_of_turn {base scope : Scope} (served : Served base BindsField scope)
    {fields : List (InputField String)} (known : ∀ field ∈ fields, field ∈ knownInputs)
    (listed : base.find? "fields" = some (.list (fields.map fun field => (field.map .text).datum)))
    {found : Datum} {items : List Datum}
    (value : (Expression.named "fields").value scope = .ok found)
    (walks : walked found = .ok items) {item : Datum} (inside : item ∈ items) {inner : Scope}
    (binding : (Targets.one "field").bind item = .ok inner) : BindsField inner := by
  rw [← served.find? (by decide) fun bound binds => binds.free (by decide)] at listed
  obtain rfl := Except.ok.inj ((value_named listed).symm.trans value)
  obtain rfl := Except.ok.inj ((walked_list _).symm.trans walks)
  obtain ⟨field, member, rfl⟩ := List.mem_map.mp inside
  obtain rfl := Except.ok.inj binding
  exact ⟨field, known field member, rfl⟩

section Parts

variable {State : Type} {barred : Option Char} {reader : LineReader State}
  (accepts : AcceptsTidy barred reader) {context : Context} {config : Configuration}
  {text directory : List Char}

include accepts

theorem closes_header (directoryFits : Fits barred [.directory] directory)
    (rendered : header.render (headerValues directory config context.settings) = .ok text) :
    reader.Closes text := by
  have pieces : Piece.renderAll header.failed (headerValues directory config context.settings)
      (.text shebang :: header.pieces.tail) = .ok text := renderAll_of_render rendered
  refine accepts.closes_pieces templatesTidy.header ?_ pieces
  exact .cons rfl (fits_word (by decide)) (.cons rfl (fits_word (bare_theme _))
    (.cons rfl (fits_word (bare_switchText _)) (.cons rfl (fits_word (bare_featuresText config))
      (.cons rfl (fits_text directoryFits) (.cons rfl (IsNumber.int _).fits
        (.cons rfl (IsNumber.int _).fits .nil))))))

theorem closes_logging (directoryFits : Fits barred [.directory] directory)
    (rendered : logging.render (directoryValues directory) = .ok text) : reader.Closes text := by
  refine accepts.closes_template templatesTidy.logging ?_ rendered
  exact .cons rfl (fits_text directoryFits) .nil

theorem closes_rateLimiter (directoryFits : Fits barred [.directory] directory) {n : Int}
    (rendered : rateLimiter.render (directoryValues directory ++ [("min_interval", .int n)]) =
      .ok text) : reader.Closes text := by
  refine accepts.closes_template templatesTidy.rateLimiter ?_ rendered
  exact .cons rfl (fits_text directoryFits) (.cons rfl (IsNumber.int _).fits .nil)

variable {fields : List (InputField String)} (known : ∀ field ∈ fields, field ∈ knownInputs)

include known

theorem closes_extraction
    (rendered : extraction.render (fieldValues fields ++
      [("jq_object", .text (String.ofList (InputField.object fields)))]) = .ok text) :
    reader.Closes text := by
  refine ClosesAll.loop accepts.closes templatesTidy.extraction (fun scope served => ?_)
    (fun scope served found items value walks item inside inner binding =>
      bindsField_of_turn served known rfl value walks inside binding)
    (renderAll_of_render rendered)
  intro entry member found value
  simp only [List.mem_cons, List.not_mem_nil, or_false] at member
  rcases member with rfl | rfl | rfl
  · exact fits_fieldName served rfl value
  · exact fits_fieldDefault served rfl value
  · have object : scope.find? "jq_object" =
        some (.text (String.ofList (InputField.object fields))) := by
      rw [served.find? (by decide) fun bound binds => binds.free (by decide)]
      rfl
    obtain rfl := Except.ok.inj ((value_named object).symm.trans value)
    exact fits_text (accepts_object known)

theorem closes_logOutput (rendered : logOutput.render (fieldValues fields) = .ok text) :
    reader.Closes text := by
  refine ClosesAll.loop accepts.closes templatesTidy.logOutput (fun scope served => ?_)
    (fun scope served found items value walks item inside inner binding =>
      bindsField_of_turn served known rfl value walks inside binding)
    (renderAll_of_render rendered)
  intro entry member found value
  obtain rfl := List.mem_singleton.mp member
  exact fits_fieldName served rfl value

end Parts

/-! The colors. -/

def BindsColor (bound : Scope) : Prop :=
  ∃ name code : String, (name.toList.all isBare = true ∧ code.toList.all isWordPart = true) ∧
    bound = [("code", .text code), ("name", .text name)]

theorem BindsColor.free {bound : Scope} (binds : BindsColor bound) {name : String}
    (notCode : name ≠ "code") (notName : name ≠ "name") : bound.find? name = none := by
  obtain ⟨_, _, -, rfl⟩ := binds
  have first : ("code" == name) = false := by simpa using Ne.symm notCode
  have second : ("name" == name) = false := by simpa using Ne.symm notName
  simp [Scope.find?, first, second]

theorem bare_color (theme : Theme) : ∀ entry ∈ Palette.ofTheme theme ++ Palette.status,
    entry.1.toList.all isBare = true ∧ entry.2.toList.all isWordPart = true := by
  cases theme <;> decide

theorem mem_of_mem_ordered {colors : List (String × String)} {entry : String × String}
    (member : entry ∈ Palette.ordered colors) : entry ∈ colors := by
  induction colors with
  | nil => exact member
  | cons first rest ih =>
      have inserted {sorted : List (String × String)}
          (inside : entry ∈ Palette.insertByName first sorted) : entry = first ∨ entry ∈ sorted := by
        induction sorted with
        | nil => exact .inl (List.mem_singleton.mp inside)
        | cons next more step =>
            unfold Palette.insertByName at inside
            split at inside
            · exact List.mem_cons.mp inside
            · rcases List.mem_cons.mp inside with here | later
              · exact .inr (here ▸ List.mem_cons_self)
              · rcases step later with same | there
                · exact .inl same
                · exact .inr (List.mem_cons_of_mem next there)
      rcases inserted member with rfl | later
      · exact List.mem_cons_self
      · exact List.mem_cons_of_mem first (ih later)

theorem fits_unbound {barred : Option Char} {scope : Scope} {name : String}
    (unbound : (scope.find? name).orElse (fun _ => Scope.find? provided name) = none)
    {found : Datum} (value : (Expression.named name).value scope = .ok found) :
    Filling.word.Accepts barred found.plainText := by
  simp only [Expression.value, unbound, Option.getD_none, Except.ok.injEq] at value
  subst value
  exact (by decide : Datum.null.plainText.all isWordPart = true)

theorem provides_palette {barred : Option Char} {word : String} (theme : word.toList.all isBare = true)
    {colors : List (String × String)} {scope : Scope}
    (served : Served (Palette.values (.text word) colors) BindsColor scope) :
    Provides barred [(.named "theme", [.bare]), (.named "name", [.bare]), (.named "code", [.word])]
      scope := by
  intro entry member found value
  simp only [List.mem_cons, List.not_mem_nil, or_false] at member
  rcases member with rfl | rfl | rfl
  · have named : scope.find? "theme" = some (.text word) := by
      rw [served.find? (by decide) fun bound binds => binds.free (by decide) (by decide)]
      rfl
    obtain rfl := Except.ok.inj ((value_named named).symm.trans value)
    exact fits_word theme
  · cases served with
    | base => exact (fits_unbound rfl value).asBare
    | turn binding outer =>
        obtain ⟨name, code, ⟨bare, _⟩, rfl⟩ := binding
        obtain rfl := Except.ok.inj value
        exact fits_word bare
  · cases served with
    | base => exact fits_unbound rfl value
    | turn binding outer =>
        obtain ⟨name, code, ⟨_, part⟩, rfl⟩ := binding
        obtain rfl := Except.ok.inj value
        exact part

theorem bindsColor_of_turn {word : String} {colors : List (String × String)}
    (bare : ∀ entry ∈ colors, entry.1.toList.all isBare = true ∧ entry.2.toList.all isWordPart = true)
    {scope : Scope} (served : Served (Palette.values (.text word) colors) BindsColor scope)
    {found : Datum} {items : List Datum}
    (value : (Expression.named "colors").value scope = .ok found)
    (walks : walked found = .ok items) {item : Datum} (inside : item ∈ items) {inner : Scope}
    (binding : (Targets.parts ["name", "code"]).bind item = .ok inner) : BindsColor inner := by
  have listed : scope.find? "colors" =
      some (.list (colors.map fun entry => .tuple [.text entry.1, .text entry.2])) := by
    rw [served.find? (by decide) fun bound binds => binds.free (by decide) (by decide)]
    rfl
  obtain rfl := Except.ok.inj ((value_named listed).symm.trans value)
  obtain rfl := Except.ok.inj ((walked_list _).symm.trans walks)
  obtain ⟨⟨name, code⟩, member, rfl⟩ := List.mem_map.mp inside
  obtain rfl := Except.ok.inj binding
  exact ⟨name, code, bare (name, code) member, rfl⟩

section Whole

variable {State : Type} {barred : Option Char} {reader : LineReader State}
  (accepts : AcceptsTidy barred reader)

include accepts

theorem closes_palette {config : Configuration} {text : List Char}
    (rendered : Palette.render (.ofConfiguration config) = .ok text) : reader.Closes text := by
  unfold Palette.render at rendered
  split at rendered
  · split at rendered
    · cases rendered
    · rename_i colors found
      obtain ⟨shown, loop, rfl⟩ := map_eq_ok rendered
      have bare : ∀ entry ∈ Palette.ordered colors,
          entry.1.toList.all isBare = true ∧ entry.2.toList.all isWordPart = true := by
        intro entry member
        unfold Palette.find at found
        split at found
        · cases found
        · rename_i theme _ _
          obtain rfl := Except.ok.inj found
          exact bare_color theme entry (mem_of_mem_ordered member)
        · cases found
      have empty : reader.Closes ('\n' :: shown) := by
        refine reader.closes_nil.line ?_
        exact ClosesAll.loop accepts.closes templatesTidy.palette
          (fun scope served => provides_palette (bare_theme config.theme) served)
          (fun scope served found items value walks item inside inner binding =>
            bindsColor_of_turn bare served value walks inside binding)
          (renderAll_of_render loop)
      exact (accepts.closes_text textsTidy.bootstrap).line empty
  · obtain rfl := Except.ok.inj rendered
    exact reader.closes_nil

theorem closes_routines {fragments : List Fragment} {texts : List (List Char)}
    (made : routinesPart fragments = .ok texts) : ∀ text ∈ texts, reader.Closes text := by
  obtain ⟨routines, resolved, rfl⟩ := map_eq_ok made
  intro text member
  split at member
  · cases member
  · obtain rfl := List.mem_singleton.mp member
    refine closes_headed accepts (textsTidy.headings _ (.head _)) (by simp) ?_
    refine LineReader.closes_paragraphs fun part inside => ?_
    obtain ⟨routine, present, rfl⟩ := List.mem_map.mp inside
    refine accepts.closes_text (textsTidy.routines routine ?_)
    unfold Routine.resolve at resolved
    split at resolved
    · cases resolved
    · obtain rfl := Except.ok.inj resolved
      exact (List.mem_filter.mp present).1

theorem closes_displayPart {fragments : List Fragment}
    (tidy : ∀ fragment ∈ fragments, TidyFragment reader fragment) :
    ∀ text ∈ displayPart fragments, reader.Closes text := by
  intro text member
  unfold displayPart at member
  simp only at member
  split at member
  · cases member
  · obtain rfl := List.mem_singleton.mp member
    refine closes_headed accepts (textsTidy.headings _ (.tail _ (.head _))) (by simp) ?_
    refine LineReader.closes_joinLines fun part inside => ?_
    obtain ⟨fragment, present, rfl⟩ := List.mem_map.mp (List.mem_filter.mp inside).1
    exact (tidy fragment present).display

end Whole

/-! Fragments in order are the same fragments. -/

theorem mem_insertByRank {fragment other : Fragment} {sorted : List Fragment}
    (member : other ∈ insertByRank fragment sorted) : other = fragment ∨ other ∈ sorted := by
  induction sorted with
  | nil => exact .inl (List.mem_singleton.mp member)
  | cons first rest ih =>
      unfold insertByRank at member
      split at member
      · exact List.mem_cons.mp member
      · rcases List.mem_cons.mp member with rfl | later
        · exact .inr List.mem_cons_self
        · rcases ih later with same | there
          · exact .inl same
          · exact .inr (List.mem_cons_of_mem first there)

theorem mem_ordered {fragments : List Fragment} {fragment : Fragment}
    (member : fragment ∈ ordered fragments) : fragment ∈ fragments := by
  rcases mem_of_mem_foldl (fun _ _ _ => mem_insertByRank) member with none | inside
  · cases none
  · exact inside

theorem mem_merge {fields : List (InputField String)} {field : InputField String}
    (member : field ∈ InputField.merge fields) : field ∈ fields := by
  rcases mem_of_mem_foldl (fun _ _ _ => mem_ifAbsent) member with none | inside
  · cases none
  · exact inside

/-! All parts. -/

section Script

variable {State : Type} {barred : Option Char} {reader : LineReader State} {context : Context}
  {config : Configuration} {fragments : List Fragment}

theorem closes_partIf {wanted : Bool} {part : Except Failure (List Char)}
    (closes : ∀ text, part = .ok text → reader.Closes text) {texts : List (List Char)}
    (made : partIf wanted part = .ok texts) : ∀ text ∈ texts, reader.Closes text :=
  closes_ifWanted closes made

theorem closes_parts (accepts : AcceptsTidy barred reader) (slash : barred ≠ some '/')
    (free : Free barred context.settings.cacheDirectory.chars)
    (tidy : ∀ fragment ∈ fragments, TidyFragment reader fragment) {made : List (List Char)}
    (assembled : parts context config fragments (.ofConfiguration config) = .ok made) :
    ∀ part ∈ made, reader.Closes part := by
  have sorted : ∀ fragment ∈ ordered fragments, TidyFragment reader fragment :=
    fun fragment member => tidy fragment (mem_ordered member)
  have inputs : ∀ field ∈ InputField.merge ((ordered fragments).flatMap Fragment.inputFields),
      field ∈ knownInputs := by
    intro field member
    obtain ⟨fragment, inside, here⟩ := List.mem_flatMap.mp (mem_merge member)
    exact (sorted fragment inside).inputs field here
  obtain ⟨directory, located, done⟩ := bind_eq_ok assembled
  have fits : Fits barred [.directory] directory := accepts_cacheDirectory slash free located
  obtain ⟨heading, headed, done⟩ := bind_eq_ok done
  obtain ⟨log, logged, done⟩ := bind_eq_ok done
  obtain ⟨limiter, limited, done⟩ := bind_eq_ok done
  obtain ⟨palette, colored, done⟩ := bind_eq_ok done
  obtain ⟨routines, resolved, done⟩ := bind_eq_ok done
  obtain ⟨input, extracted, done⟩ := bind_eq_ok done
  obtain ⟨noted, shown, done⟩ := bind_eq_ok done
  obtain rfl := Except.ok.inj done
  intro part member
  simp only [List.mem_append, List.mem_cons, List.mem_map, List.not_mem_nil, or_false] at member
  rcases member with ((((((((same | member) | same | same | same) | member) | member) | member) |
    member) | member) | member) | same
  · exact same ▸ closes_header accepts fits headed
  · exact closes_partIf (fun text => closes_logging accepts fits) logged part member
  · exact same ▸ closes_rateLimiter accepts fits limited
  · exact same ▸ accepts.closes_text textsTidy.tracking
  · exact same ▸ closes_palette accepts colored
  · exact closes_routines accepts resolved part member
  · obtain ⟨fragment, inside, rfl⟩ := member
    exact (sorted fragment inside).setup
  · exact closes_partIf (fun text => closes_extraction accepts inputs) extracted part member
  · obtain ⟨fragment, inside, rfl⟩ := member
    exact (sorted fragment inside).query
  · exact closes_displayPart accepts sorted part member
  · exact closes_partIf (fun text => closes_logOutput accepts inputs) shown part member
  · exact same ▸ accepts.closes_text textsTidy.epilogue

theorem read_assemble (accepts : AcceptsTidy barred reader) (slash : barred ≠ some '/')
    (free : Free barred context.settings.cacheDirectory.chars)
    (tidy : ∀ fragment ∈ fragments, TidyFragment reader fragment) {text : List Char}
    (assembled : assemble context config fragments (.ofConfiguration config) = .ok text) :
    reader.read reader.start text = reader.start := by
  obtain ⟨made, parted, rfl⟩ := map_eq_ok assembled
  exact LineReader.read_join (closes_parts accepts slash free tidy parted)

end Script

theorem isSound_assemble {context : Context} {config : Configuration} {fragments : List Fragment}
    (free : '\n' ∉ context.settings.cacheDirectory.chars)
    (quotes : ∀ fragment ∈ fragments, TidyFragment Audit.QuoteReading.reader fragment)
    (left : ∀ fragment ∈ fragments, TidyFragment Audit.LeftReading.reader fragment)
    (right : ∀ fragment ∈ fragments, TidyFragment Audit.RightReading.reader fragment)
    {text : List Char}
    (assembled : assemble context config fragments (.ofConfiguration config) = .ok text) :
    Audit.IsSound text := by
  refine ⟨?_, ⟨?_, ?_⟩, ?_⟩
  · rw [read_assemble acceptsLookups_quotes.tidy (by decide) (.of_not_mem free) quotes assembled]
    rfl
  · have back := read_assemble acceptsLookups_left.tidy (by decide) (.of_not_mem free) left assembled
    intro lost
    cases back.symm.trans lost
  · have back := read_assemble acceptsLookups_right.tidy (by decide) (.of_not_mem free) right assembled
    intro lost
    cases back.symm.trans lost
  · obtain ⟨directory, -, names⟩ := namesDirectory_of_assemble assembled
    obtain ⟨rest, rfl⟩ := names.start
    rw [Audit.firstLine_append (by decide)]
    simp only [Audit.firstLine, List.takeWhile_cons, bne_self_eq_false, Bool.false_eq_true,
      if_false, List.append_nil]
    simp [shebang]

end StatusLine.Script

import Mathlib.Data.List.Nodup
import StatusLine.Proofs.Script.Fragments

/-!
The fields that fragments take from the input, merged. Of every name that is declared the first
field stays, and the names stay in the order in which they came up. The object that is written from
merged fields, read back, has every name once.
-/

namespace StatusLine.InputField

variable {declared merged : List (InputField String)} {field : InputField String}

/-- Where a name is declared first. -/
def place (declared : List (InputField String)) (name : String) : Nat :=
  declared.findIdx fun field => field.name == name

/-- Of every declared name the first field, in the order of first declaration. -/
structure FirstOfEach (declared merged : List (InputField String)) : Prop where
  distinct : (merged.map InputField.name).Nodup
  names : ∀ name, name ∈ merged.map InputField.name ↔ ∃ field ∈ declared, field.name = name
  first : ∀ field ∈ merged, declared.find? (fun other => other.name == field.name) = some field
  inOrder : merged.Pairwise fun field later =>
    place declared field.name < place declared later.name

theorem place_lt_length {name : String} :
    place declared name < declared.length ↔ ∃ field ∈ declared, field.name = name := by
  simp [place, List.findIdx_lt_length]

theorem place_append {name : String} (known : ∃ field ∈ declared, field.name = name)
    (more : List (InputField String)) : place (declared ++ more) name = place declared name := by
  have inside := place_lt_length.mpr known
  rw [place] at inside
  rw [place, List.findIdx_append, if_pos inside, place]

theorem place_append_new (new : ¬ ∃ other ∈ declared, other.name = field.name) :
    place (declared ++ [field]) field.name = declared.length := by
  have outside : ¬ place declared field.name < declared.length := fun inside =>
    new (place_lt_length.mp inside)
  rw [place] at outside
  rw [place, List.findIdx_append, if_neg outside, List.findIdx_cons]
  simp

theorem add_of_taken (taken : field.name ∈ merged.map InputField.name) :
    add merged field = merged := by
  have found : (merged.any fun other => other.name == field.name) = true := by
    simpa using taken
  rw [add, if_pos found]

theorem add_of_new (new : field.name ∉ merged.map InputField.name) :
    add merged field = merged ++ [field] := by
  have none : ¬ (merged.any fun other => other.name == field.name) = true := by
    simpa using new
  rw [add, if_neg none]

namespace FirstOfEach

theorem nil : FirstOfEach [] [] where
  distinct := List.nodup_nil
  names name := by simp
  first field member := absurd member List.not_mem_nil
  inOrder := List.Pairwise.nil

theorem known (each : FirstOfEach declared merged) (member : field ∈ merged) :
    ∃ other ∈ declared, other.name = field.name :=
  (each.names field.name).mp (List.mem_map_of_mem member)

/-! What is known of the fields so far stays true when more is declared. -/

theorem first_append (each : FirstOfEach declared merged) (member : field ∈ merged)
    (more : List (InputField String)) :
    (declared ++ more).find? (fun other => other.name == field.name) = some field := by
  rw [List.find?_append, each.first field member, Option.some_or]

theorem inOrder_append (each : FirstOfEach declared merged) (more : List (InputField String)) :
    merged.Pairwise fun field later =>
      place (declared ++ more) field.name < place (declared ++ more) later.name := by
  refine each.inOrder.imp_of_mem fun {field later} member behind before => ?_
  rwa [place_append (each.known member), place_append (each.known behind)]

theorem taken (each : FirstOfEach declared merged)
    (known : ∃ other ∈ declared, other.name = field.name) :
    FirstOfEach (declared ++ [field]) merged where
  distinct := each.distinct
  names name := by
    rw [each.names]
    constructor
    · rintro ⟨other, member, named⟩
      exact ⟨other, List.mem_append_left _ member, named⟩
    · rintro ⟨other, member, rfl⟩
      rcases List.mem_append.mp member with before | last
      · exact ⟨other, before, rfl⟩
      · obtain rfl := List.mem_singleton.mp last
        exact known
  first other member := each.first_append member [field]
  inOrder := each.inOrder_append [field]

theorem new (each : FirstOfEach declared merged)
    (unknown : ¬ ∃ other ∈ declared, other.name = field.name) :
    FirstOfEach (declared ++ [field]) (merged ++ [field]) where
  distinct := by
    rw [List.map_append, List.map_singleton, ← List.concat_eq_append]
    exact List.Nodup.concat (fun member => unknown ((each.names _).mp member)) each.distinct
  names name := by
    rw [List.map_append, List.mem_append, each.names, List.map_singleton, List.mem_singleton]
    constructor
    · rintro (⟨other, member, named⟩ | rfl)
      · exact ⟨other, List.mem_append_left _ member, named⟩
      · exact ⟨field, List.mem_append_right _ (List.mem_singleton_self field), rfl⟩
    · rintro ⟨other, member, rfl⟩
      rcases List.mem_append.mp member with before | last
      · exact .inl ⟨other, before, rfl⟩
      · exact .inr (congrArg InputField.name (List.mem_singleton.mp last))
  first other member := by
    rcases List.mem_append.mp member with before | last
    · exact each.first_append before [field]
    · obtain rfl := List.mem_singleton.mp last
      have none : declared.find? (fun before => before.name == other.name) = none :=
        List.find?_eq_none.mpr fun before member named =>
          unknown ⟨before, member, beq_iff_eq.mp named⟩
      rw [List.find?_append, none]
      simp
  inOrder := by
    refine List.pairwise_append.mpr ⟨each.inOrder_append _, List.pairwise_singleton _ _, ?_⟩
    intro before member last behind
    obtain rfl := List.mem_singleton.mp behind
    rw [place_append (each.known member), place_append_new unknown]
    exact place_lt_length.mpr (each.known member)

theorem add (each : FirstOfEach declared merged) (field : InputField String) :
    FirstOfEach (declared ++ [field]) (InputField.add merged field) := by
  by_cases known : ∃ other ∈ declared, other.name = field.name
  · rw [add_of_taken ((each.names _).mpr known)]
    exact each.taken known
  · rw [add_of_new fun member => known ((each.names _).mp member)]
    exact each.new known

theorem foldl (each : FirstOfEach declared merged) (fields : List (InputField String)) :
    FirstOfEach (declared ++ fields) (fields.foldl InputField.add merged) := by
  induction fields generalizing declared merged with
  | nil => rwa [List.append_nil]
  | cons field rest ih =>
      have step := ih (each.add field)
      rwa [List.append_assoc] at step

end FirstOfEach

theorem firstOfEach_merge (fields : List (InputField String)) : FirstOfEach fields (merge fields) :=
  FirstOfEach.nil.foldl fields

/-! Objects, read by one character at a time. -/

inductive Opening
  | parenthesis
  | quotes
  | escape
  | comment
  deriving DecidableEq

/-- What is open behind one more character, the innermost first. Where nothing is open the value has
ended. -/
def Opening.next : List Opening → Char → Option (List Opening)
  | [], _ => none
  | .parenthesis :: outer, c =>
      match c with
      | '(' => some (.parenthesis :: .parenthesis :: outer)
      | ')' => some outer
      | '"' => some (.quotes :: .parenthesis :: outer)
      | '#' => some (.comment :: .parenthesis :: outer)
      | _ => some (.parenthesis :: outer)
  | .quotes :: outer, c =>
      match c with
      | '"' => some outer
      | '\\' => some (.escape :: .quotes :: outer)
      | _ => some (.quotes :: outer)
  | .escape :: outer, c => some (if c = '(' then .parenthesis :: outer else outer)
  | .comment :: outer, c => some (if c = '\n' then outer else .comment :: outer)

inductive Reading
  | start
  | name (read : List Char)
  | colon
  | value (inside : List Opening)
  | behind
  | closed
  deriving DecidableEq

abbrev Reader := List String × Reading

def Reader.step : Reader → Char → Option Reader
  | (names, .start), c => if c = '\x7b' then some (names, .name []) else none
  | (names, .name read), c =>
      if Text.isWord c then some (names, .name (read ++ [c]))
      else if c = ':' then some (names ++ [String.ofList read], .colon)
      else if c = ' ' && read.isEmpty then some (names, .name [])
      else if c = '\x7d' && read.isEmpty && names.isEmpty then some (names, .closed)
      else none
  | (names, .colon), c =>
      match c with
      | ' ' => some (names, .colon)
      | '(' => some (names, .value [.parenthesis])
      | _ => none
  | (names, .value inside), c => (Opening.next inside c).map fun
      | [] => (names, .behind)
      | left => (names, .value left)
  | (names, .behind), c =>
      match c with
      | ' ' => some (names, .behind)
      | ',' => some (names, .name [])
      | '\x7d' => some (names, .closed)
      | _ => none
  | (_, .closed), _ => none

/-- The names of an object, as often as it has them. -/
def objectNames? (text : List Char) : Option (List String) :=
  match text.foldlM Reader.step ([], .start) with
  | some (names, .closed) => some names
  | _ => none

def IsExpression (expression : List Char) : Prop :=
  expression.foldlM Opening.next [.parenthesis] = some [.parenthesis]

instance (expression : List Char) : Decidable (IsExpression expression) :=
  inferInstanceAs (Decidable (_ = _))

/-- A field whose name is a word, and whose value is an expression. -/
structure IsReadable (field : InputField String) : Prop where
  name : field.name.toList.all Text.isWord = true
  expression : IsExpression field.expression.toList

theorem isReadable_iff : field.IsReadable ↔
    field.name.toList.all Text.isWord = true ∧ IsExpression field.expression.toList :=
  ⟨fun readable => ⟨readable.name, readable.expression⟩, fun ⟨name, expression⟩ =>
    ⟨name, expression⟩⟩

instance (field : InputField String) : Decidable field.IsReadable :=
  decidable_of_iff _ isReadable_iff.symm

section Reading

variable {names : List String}

theorem read_word (read : List Char) {word : List Char} (isWord : word.all Text.isWord = true) :
    word.foldlM Reader.step (names, .name read) = some (names, .name (read ++ word)) := by
  induction word generalizing read with
  | nil => rw [List.append_nil]; rfl
  | cons c rest ih =>
      obtain ⟨here, behind⟩ := Bool.and_eq_true_iff.mp ((List.all_cons ..).symm.trans isWord)
      have step : Reader.step (names, .name read) c = some (names, .name (read ++ [c])) := by
        rw [Reader.step, if_pos here]
      rw [List.foldlM_cons, step, Option.bind_eq_bind, Option.bind_some, ih _ behind,
        List.append_assoc, List.singleton_append]

theorem openings_nil {text : List Char} {left : List Opening}
    (read : text.foldlM Opening.next [] = some left) : left = [] := by
  cases text with
  | nil => exact (Option.some.inj read).symm
  | cons c rest => cases read

theorem read_value {text : List Char} {inside left : List Opening} (stays : left ≠ [])
    (read : text.foldlM Opening.next inside = some left) :
    text.foldlM Reader.step (names, .value inside) = some (names, .value left) := by
  induction text generalizing inside with
  | nil =>
      obtain rfl := Option.some.inj read
      rfl
  | cons c rest ih =>
      rw [List.foldlM_cons, Option.bind_eq_bind] at read
      obtain ⟨mid, here, behind⟩ := Option.bind_eq_some_iff.mp read
      have step : Reader.step (names, .value inside) c = some (names, .value mid) := by
        cases mid with
        | nil => exact absurd (openings_nil behind) stays
        | cons opening outer => rw [Reader.step, here]; rfl
      rw [List.foldlM_cons, step, Option.bind_eq_bind, Option.bind_some, ih behind]

def entry (field : InputField String) : List Char :=
  field.name.toList ++ ": (".toList ++ field.expression.toList ++ [')']

theorem object_eq (fields : List (InputField String)) :
    object fields = '\x7b' :: Text.joinWith [',', ' '] (fields.map entry) ++ ['\x7d'] :=
  rfl

theorem read_colon (name : String) :
    ": (".toList.foldlM Reader.step (names, .name name.toList) =
      some (names ++ [name], .value [.parenthesis]) := by
  have named : Reader.step (names, .name name.toList) ':' = some (names ++ [name], .colon) := by
    rw [Reader.step, if_neg (by decide), if_pos rfl, String.ofList_toList]
  have spelled : ": (".toList = [':', ' ', '('] := rfl
  rw [spelled, List.foldlM_cons, named]
  rfl

theorem read_entry (names : List String) (readable : field.IsReadable) :
    (entry field).foldlM Reader.step (names, .name []) =
      some (names ++ [field.name], .behind) := by
  rw [entry, List.foldlM_append, List.foldlM_append, List.foldlM_append,
    read_word [] readable.name]
  simp only [Option.bind_eq_bind, Option.bind_some, List.nil_append]
  rw [read_colon, Option.bind_some,
    read_value (List.cons_ne_nil _ _) readable.expression, Option.bind_some]
  rfl

theorem read_entries (names : List String) {fields : List (InputField String)}
    (nonempty : fields ≠ []) (readable : ∀ field ∈ fields, field.IsReadable) :
    (Text.joinWith [',', ' '] (fields.map entry)).foldlM Reader.step (names, .name []) =
      some (names ++ fields.map InputField.name, .behind) := by
  induction fields generalizing names with
  | nil => exact absurd rfl nonempty
  | cons field rest ih =>
      have here := read_entry names (readable field List.mem_cons_self)
      cases rest with
      | nil => exact here
      | cons next others =>
          have behind := ih (names ++ [field.name]) (List.cons_ne_nil next others)
            fun other member => readable other (List.mem_cons_of_mem field member)
          rw [List.map_cons, List.map_cons, Text.joinWith_cons_cons, ← List.map_cons,
            List.foldlM_append, List.foldlM_append, here]
          rw [List.append_assoc, List.singleton_append, ← List.map_cons] at behind
          exact behind

theorem objectNames_object {fields : List (InputField String)}
    (readable : ∀ field ∈ fields, field.IsReadable) :
    objectNames? (object fields) = some (fields.map InputField.name) := by
  have opened : Reader.step ([], .start) '\x7b' = some ([], .name []) := rfl
  have read : (object fields).foldlM Reader.step ([], .start) =
      some (fields.map InputField.name, .closed) := by
    rw [object_eq, List.foldlM_append, List.foldlM_cons, opened]
    cases fields with
    | nil => rfl
    | cons field rest =>
        have entries := read_entries [] (List.cons_ne_nil field rest) readable
        rw [List.nil_append] at entries
        simp only [Option.bind_eq_bind, Option.bind_some]
        rw [entries]
        rfl
  rw [objectNames?, read]

end Reading

/-- Merged fields are the first of every name that the fragments declare, and every such name is
among them once. An object is read as one that has just their names. -/
theorem merge_inputFields (fragments : List Fragment) :
    let declared := fragments.flatMap Fragment.inputFields
    let merged := merge declared
    FirstOfEach declared merged ∧
      (∀ field ∈ declared, (merged.map InputField.name).count field.name = 1) ∧
      ((∀ field ∈ merged, field.IsReadable) →
        objectNames? (object merged) = some (merged.map InputField.name)) := by
  intro declared merged
  have each := firstOfEach_merge declared
  refine ⟨each, fun field member => ?_, objectNames_object⟩
  exact List.count_eq_one_of_mem each.distinct ((each.names _).mpr ⟨field, member, rfl⟩)

/-- A name comes up again in one fragment, and two of them in a third. One of the expressions has
parentheses that only its quotes hold. -/
def repeated : List Fragment :=
  [⟨"directory", [], [], [], [Directory.inputField, ⟨"notes", "\"\\(.a) (b\" # (c\n", ""⟩,
      ⟨"notes", ".notes", "none"⟩], []⟩,
    ⟨"model", [], [], [], [Model.nameField, Model.versionField], []⟩,
    ⟨"usage", [], [], [],
      [⟨"model_name", ".other", ""⟩, ⟨"current_directory_path", ".cwd", ""⟩], []⟩]

theorem repeated_named_once :
    let merged := merge (repeated.flatMap Fragment.inputFields)
    FirstOfEach (repeated.flatMap Fragment.inputFields) merged ∧
      (∀ field ∈ merged, field.IsReadable) ∧
      objectNames? (object merged) =
        some ["current_directory_path", "notes", "model_name", "model_version"] := by
  intro merged
  have names : merged.map InputField.name =
      ["current_directory_path", "notes", "model_name", "model_version"] := by decide
  have readable : ∀ field ∈ merged, field.IsReadable := by decide +kernel
  obtain ⟨each, -, read⟩ := merge_inputFields repeated
  exact ⟨each, readable, names ▸ read readable⟩

end StatusLine.InputField

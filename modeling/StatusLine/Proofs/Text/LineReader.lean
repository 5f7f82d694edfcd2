import StatusLine.Feature.Context
import StatusLine.Proofs.Text.Substring
import StatusLine.Script.Assembly

/-!
Reading a script character by character. A reader of lines takes blanks and empty lines at the start
of a line as if they were not there. A text closes under a reader if the reader is back at its
start behind it and a line end; texts that close can be joined, indented, trimmed and left out, and
the result closes again.
-/

namespace StatusLine

structure LineReader (State : Type) where
  start : State
  step : State → Char → State
  start_newline : step start '\n' = start
  newline_blank : ∀ state, step (step state '\n') ' ' = step state '\n'
  newline_newline : ∀ state, step (step state '\n') '\n' = step state '\n'

namespace LineReader

variable {State Other : Type} (reader : LineReader State)

/-- The state behind a text. -/
def read (state : State) (text : List Char) : State :=
  text.foldl reader.step state

@[simp]
theorem read_nil (state : State) : reader.read state [] = state := rfl

@[simp]
theorem read_cons (state : State) (c : Char) (rest : List Char) :
    reader.read state (c :: rest) = reader.read (reader.step state c) rest := rfl

@[simp]
theorem read_append (state : State) (text more : List Char) :
    reader.read state (text ++ more) = reader.read (reader.read state text) more := by
  simp [read, List.foldl_append]

theorem read_mem {states : List State} {accepts : Char → Bool}
    (each : ∀ state ∈ states, ∀ c, accepts c = true → reader.step state c ∈ states)
    {text : List Char} (accepted : text.all accepts = true) {state : State}
    (member : state ∈ states) : reader.read state text ∈ states := by
  induction text generalizing state with
  | nil => exact member
  | cons c rest ih =>
      rw [List.all_cons, Bool.and_eq_true] at accepted
      exact ih accepted.2 (each state member c accepted.1)

def Closes (text : List Char) : Prop :=
  reader.step (reader.read reader.start text) '\n' = reader.start

theorem closes_nil : reader.Closes [] :=
  reader.start_newline

variable {reader}

theorem Closes.line {text rest : List Char} (first : reader.Closes text)
    (later : reader.Closes rest) : reader.Closes (text ++ '\n' :: rest) := by
  rw [Closes, read_append, read_cons, first]
  exact later

theorem Closes.lines {text : List Char} {rest : List (List Char)} (first : reader.Closes text)
    (later : ∀ line ∈ rest, reader.Closes line) :
    reader.Closes (text ++ rest.flatMap fun line => '\n' :: line) := by
  induction rest generalizing text with
  | nil => simpa using first
  | cons line more ih =>
      have head := first.line (later line List.mem_cons_self)
      have tail := ih head fun other member => later other (List.mem_cons_of_mem line member)
      simpa [List.flatMap_cons] using tail

theorem closes_joinLines {lines : List (List Char)} (each : ∀ line ∈ lines, reader.Closes line) :
    reader.Closes (Text.joinLines lines) := by
  cases lines with
  | nil => exact reader.closes_nil
  | cons line rest =>
      rw [Text.joinLines_cons]
      exact Closes.lines (each line List.mem_cons_self) fun other member =>
        each other (List.mem_cons_of_mem line member)

theorem closes_paragraphs {parts : List (List Char)} (each : ∀ part ∈ parts, reader.Closes part) :
    reader.Closes (Text.joinWith ['\n', '\n'] parts) := by
  cases parts with
  | nil => exact reader.closes_nil
  | cons part rest =>
      rw [Text.joinWith_cons_flatMap]
      have spread : (rest.flatMap fun other => ['\n', '\n'] ++ other) =
          (rest.flatMap fun other => [[], other]).flatMap fun line => '\n' :: line := by
        simp [List.flatMap_assoc]
      rw [spread]
      refine Closes.lines (each part List.mem_cons_self) fun line member => ?_
      obtain ⟨other, found, here⟩ := List.mem_flatMap.mp member
      simp only [List.mem_cons, List.not_mem_nil, or_false] at here
      rcases here with rfl | rfl
      · exact reader.closes_nil
      · exact each line (List.mem_cons_of_mem part found)

/-! Trimming line ends. -/

theorem step_newlines (state : State) (newlines : List Char) (all : ∀ c ∈ newlines, c = '\n') :
    reader.step (reader.read state newlines) '\n' = reader.step state '\n' := by
  induction newlines generalizing state with
  | nil => rfl
  | cons c rest ih =>
      obtain rfl := all c List.mem_cons_self
      rw [read_cons, ih _ fun other member => all other (List.mem_cons_of_mem _ member),
        reader.newline_newline]

theorem Closes.dropNewlines {text : List Char} (closes : reader.Closes text) :
    reader.Closes (text.dropWhile (· == '\n')) := by
  induction text with
  | nil => exact closes
  | cons c rest ih =>
      simp only [List.dropWhile_cons]
      split
      · rename_i newline
        obtain rfl : c = '\n' := by simpa using newline
        rw [Closes, read_cons, reader.start_newline] at closes
        exact ih closes
      · exact closes

theorem Closes.trimNewlines {text : List Char} (closes : reader.Closes text) :
    reader.Closes (Text.trimWhere (· == '\n') text) := by
  have inner := closes.dropNewlines
  rw [Text.trimWhere, Text.trimEndWhere]
  generalize text.dropWhile (· == '\n') = lead at inner ⊢
  have split : lead = (lead.reverse.dropWhile (· == '\n')).reverse ++
      (lead.reverse.takeWhile (· == '\n')).reverse := by
    rw [← List.reverse_append, List.takeWhile_append_dropWhile, List.reverse_reverse]
  have newlines : ∀ c ∈ (lead.reverse.takeWhile (· == '\n')).reverse, c = '\n' := by
    intro c member
    have passed := List.all_eq_true.mp List.all_takeWhile c (List.mem_reverse.mp member)
    simpa using passed
  rw [split, Closes, read_append, step_newlines _ _ newlines] at inner
  exact inner

/-! Indentation. -/

theorem read_newline_blanks (state : State) (blanks line : List Char)
    (all : ∀ c ∈ blanks, c = ' ') :
    reader.read (reader.step state '\n') (blanks ++ line) =
      reader.read (reader.step state '\n') line := by
  induction blanks with
  | nil => rfl
  | cons c rest ih =>
      obtain rfl := all c List.mem_cons_self
      rw [List.cons_append, read_cons, reader.newline_blank]
      exact ih fun other member => all other (List.mem_cons_of_mem _ member)

def indentedLine (blanks line : List Char) : List Char :=
  if line.isEmpty then line else blanks ++ line

theorem read_indentedLine (state : State) (blanks line : List Char)
    (all : ∀ c ∈ blanks, c = ' ') :
    reader.read (reader.step state '\n') (indentedLine blanks line) =
      reader.read (reader.step state '\n') line := by
  simp only [indentedLine]
  split
  · rfl
  · exact read_newline_blanks state blanks line all

theorem read_indentedLines (state : State) (blanks : List Char) (lines : List (List Char))
    (all : ∀ c ∈ blanks, c = ' ') :
    reader.read state ((lines.map (indentedLine blanks)).flatMap fun line => '\n' :: line) =
      reader.read state (lines.flatMap fun line => '\n' :: line) := by
  induction lines generalizing state with
  | nil => rfl
  | cons line rest ih =>
      simp only [List.map_cons, List.flatMap_cons, List.cons_append, read_cons, read_append,
        read_indentedLine state blanks line all]
      exact ih _

theorem Closes.indent {text : List Char} (closes : reader.Closes text) (blanks : List Char)
    (all : ∀ c ∈ blanks, c = ' ') : reader.Closes (Text.indent blanks text) := by
  obtain ⟨line, rest, shape⟩ := List.exists_cons_of_ne_nil (Text.splitLines_ne_nil text)
  have whole := Text.eq_append_of_splitLines shape
  have indented : Text.indent blanks text =
      indentedLine blanks line ++ (rest.map (indentedLine blanks)).flatMap fun other =>
        '\n' :: other := by
    rw [Text.indent, shape, List.map_cons, Text.joinLines_cons]
    rfl
  have first : reader.read reader.start (indentedLine blanks line) =
      reader.read reader.start line := by
    have behind : reader.read (reader.step reader.start '\n') (indentedLine blanks line) = _ :=
      read_indentedLine reader.start blanks line all
    rwa [reader.start_newline] at behind
  rw [whole, Closes, read_append] at closes
  rw [indented, Closes, read_append, first, read_indentedLines _ _ _ all]
  exact closes

/-! Blocks. -/

theorem closes_guarded {condition : String} {body : List Char}
    (heading : reader.Closes ("if ".toList ++ condition.toList ++ "; then".toList))
    (ending : reader.Closes "fi".toList) (closes : reader.Closes body) :
    reader.Closes (guarded condition body) := by
  refine closes_joinLines fun line member => ?_
  simp only [List.mem_cons, List.not_mem_nil, or_false] at member
  rcases member with rfl | rfl | rfl
  · exact heading
  · exact closes.indent _ (by simp)
  · exact ending

theorem closes_chosen {condition : String} {yes no : List Char}
    (heading : reader.Closes ("if ".toList ++ condition.toList ++ "; then".toList))
    (otherwise : reader.Closes "else".toList) (ending : reader.Closes "fi".toList)
    (yesCloses : reader.Closes yes) (noCloses : reader.Closes no) :
    reader.Closes (chosen condition yes no) := by
  refine closes_joinLines fun line member => ?_
  simp only [List.mem_cons, List.not_mem_nil, or_false] at member
  rcases member with rfl | rfl | rfl | rfl | rfl
  · exact heading
  · exact yesCloses.indent _ (by simp)
  · exact otherwise
  · exact noCloses.indent _ (by simp)
  · exact ending

theorem read_join {parts : List (List Char)} (each : ∀ part ∈ parts, reader.Closes part) :
    reader.read reader.start (Script.join parts) = reader.start := by
  rw [Script.join, read_append]
  refine closes_paragraphs fun part member => ?_
  obtain ⟨original, kept, rfl⟩ := List.mem_map.mp member
  exact (each original (List.mem_filter.mp kept).1).trimNewlines

end LineReader

end StatusLine

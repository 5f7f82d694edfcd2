import Mathlib.Data.List.TakeWhile
import StatusLine.Proofs.Audit.QuoteReading

/-!
The bodies of here-documents. A reader that knows of a line only whether it is blank, a part or the
whole of the delimiter, or anything else finds the end of a body where the scan does.
-/

namespace StatusLine.Audit

open QuoteReading (reader)

theorem Mark.eq_of_first {c : Char} (marked : Mark.of c = .first) : c = 'P' := by
  have means := Mark.means_of c
  rwa [marked] at means

theorem Mark.eq_of_second {c : Char} (marked : Mark.of c = .second) : c = 'Y' := by
  have means := Mark.means_of c
  rwa [marked] at means

theorem Mark.eq_of_single {c : Char} (marked : Mark.of c = .single) : c = '\'' := by
  have means := Mark.means_of c
  rwa [marked] at means

theorem Mark.eq_of_newline {c : Char} (marked : Mark.of c = .newline) : c = '\n' := by
  have means := Mark.means_of c
  rwa [marked] at means

def knownDelimiter : List Char := ['P', 'Y']

def DocumentLine.read (line : DocumentLine) (text : List Char) : DocumentLine :=
  text.foldl (fun line c => line.step (.of c)) line

def IsDelimiterLine (line : List Char) : Prop :=
  ∃ lead tail, line = lead ++ knownDelimiter ++ tail ∧ (∀ c ∈ lead, Text.isBlank c = true) ∧
    ∀ c ∈ tail, Text.isBlank c = true

theorem trim_eq_knownDelimiter_iff (line : List Char) :
    Text.trim line = knownDelimiter ↔ IsDelimiterLine line := by
  constructor
  · intro trimmed
    let inner := line.dropWhile Text.isBlank
    have split : line = line.takeWhile Text.isBlank ++ inner :=
      (List.takeWhile_append_dropWhile).symm
    have rest : inner.reverse = inner.reverse.takeWhile Text.isBlank ++ knownDelimiter.reverse := by
      rw [← trimmed, Text.trim, Text.trimWhere, Text.trimEndWhere, List.reverse_reverse]
      exact (List.takeWhile_append_dropWhile).symm
    refine ⟨line.takeWhile Text.isBlank, (inner.reverse.takeWhile Text.isBlank).reverse, ?_, ?_, ?_⟩
    · have back := congrArg List.reverse rest
      rw [List.reverse_reverse, List.reverse_append, List.reverse_reverse] at back
      rw [List.append_assoc, ← back]
      exact split
    · exact fun c member => List.all_eq_true.mp List.all_takeWhile c member
    · exact fun c member => List.all_eq_true.mp List.all_takeWhile c (List.mem_reverse.mp member)
  · rintro ⟨lead, tail, rfl, leadBlank, tailBlank⟩
    have dropped : (lead ++ knownDelimiter ++ tail).dropWhile Text.isBlank =
        knownDelimiter ++ tail := by
      rw [List.append_assoc, List.dropWhile_append_of_pos leadBlank]
      rfl
    have reversed : ∀ c ∈ tail.reverse, Text.isBlank c = true := fun c member =>
      tailBlank c (List.mem_reverse.mp member)
    rw [Text.trim, Text.trimWhere, dropped, Text.trimEndWhere, List.reverse_append,
      List.dropWhile_append_of_pos reversed]
    rfl

namespace DocumentLine

theorem read_append (line : DocumentLine) (text more : List Char) :
    line.read (text ++ more) = (line.read text).read more := by
  simp [read, List.foldl_append]

theorem read_blank_of_blank (text : List Char) (blanks : ∀ c ∈ text, Text.isBlank c = true) :
    blank.read text = blank := by
  induction text with
  | nil => rfl
  | cons c rest ih =>
      have here : blank.step (.of c) = blank := by
        simp [step, Mark.isBlank_of, blanks c List.mem_cons_self]
      rw [read, List.foldl_cons, here]
      exact ih fun other member => blanks other (List.mem_cons_of_mem c member)

theorem read_whole_of_blank (text : List Char) (blanks : ∀ c ∈ text, Text.isBlank c = true) :
    whole.read text = whole := by
  induction text with
  | nil => rfl
  | cons c rest ih =>
      have here : whole.step (.of c) = whole := by
        simp [step, Mark.isBlank_of, blanks c List.mem_cons_self]
      rw [read, List.foldl_cons, here]
      exact ih fun other member => blanks other (List.mem_cons_of_mem c member)

def Describes : DocumentLine → List Char → Prop
  | blank, line => ∀ c ∈ line, Text.isBlank c = true
  | first, line => ∃ lead, line = lead ++ ['P'] ∧ ∀ c ∈ lead, Text.isBlank c = true
  | whole, line => IsDelimiterLine line
  | other, _ => True

theorem Describes.step {line : DocumentLine} {text : List Char} (describes : line.Describes text)
    (c : Char) : (line.step (.of c)).Describes (text ++ [c]) := by
  cases line with
  | blank =>
      simp only [DocumentLine.step, Mark.isBlank_of]
      split
      · rename_i isBlank
        intro other member
        rcases List.mem_append.mp member with found | found
        · exact describes other found
        · rw [List.mem_singleton.mp found]
          exact isBlank
      · split
        · rename_i here
          exact ⟨text, by rw [Mark.eq_of_first here], describes⟩
        · trivial
  | first =>
      simp only [DocumentLine.step]
      split
      · rename_i here
        obtain ⟨lead, rfl, blanks⟩ := describes
        exact ⟨lead, [], by simp [Mark.eq_of_second here, knownDelimiter], blanks, by simp⟩
      · trivial
  | whole =>
      simp only [DocumentLine.step, Mark.isBlank_of]
      split
      · rename_i isBlank
        obtain ⟨lead, tail, rfl, leadBlank, tailBlank⟩ := describes
        refine ⟨lead, tail ++ [c], by simp, leadBlank, fun other member => ?_⟩
        rcases List.mem_append.mp member with found | found
        · exact tailBlank other found
        · rw [List.mem_singleton.mp found]
          exact isBlank
      · trivial
  | other => trivial

theorem describes_read (line : DocumentLine) (text more : List Char)
    (describes : line.Describes text) : (line.read more).Describes (text ++ more) := by
  induction more generalizing line text with
  | nil => simpa [read] using describes
  | cons c rest ih =>
      have next := ih (line.step (.of c)) (text ++ [c]) (describes.step c)
      simpa [read] using next

theorem read_eq_whole_iff (line : List Char) :
    blank.read line = whole ↔ Text.trim line = knownDelimiter := by
  rw [trim_eq_knownDelimiter_iff]
  constructor
  · intro reached
    have describes := describes_read blank [] line (by simp [Describes])
    rw [reached] at describes
    exact describes
  · rintro ⟨lead, tail, rfl, leadBlank, tailBlank⟩
    rw [read_append, read_append, read_blank_of_blank lead leadBlank]
    exact read_whole_of_blank tail tailBlank

end DocumentLine

theorem afterDelimiter_spec (line text : List Char) :
    (afterDelimiter knownDelimiter line text = [] ∧
      ∃ last, reader.read (.body (DocumentLine.blank.read line.reverse)) text = .body last) ∨
    ∃ lead, text = lead ++ '\n' :: afterDelimiter knownDelimiter line text ∧
      reader.read (.body (DocumentLine.blank.read line.reverse)) text =
        reader.read (.inside (.plain .space) []) (afterDelimiter knownDelimiter line text) := by
  induction text generalizing line with
  | nil => exact .inl ⟨rfl, _, rfl⟩
  | cons c rest ih =>
      by_cases newline : c = '\n'
      · subst newline
        by_cases ends : Text.trim line.reverse = knownDelimiter
        · have whole := (DocumentLine.read_eq_whole_iff _).mpr ends
          refine .inr ⟨[], by simp [afterDelimiter, ends], ?_⟩
          simp only [afterDelimiter, ends, if_true, LineReader.read_cons, whole]
          rfl
        · have unfinished : DocumentLine.blank.read line.reverse ≠ .whole := fun whole =>
            ends ((DocumentLine.read_eq_whole_iff _).mp whole)
          have here : QuoteReading.step (.body (DocumentLine.blank.read line.reverse)) (.of '\n') =
              .body .blank := by
            change QuoteReading.step _ .newline = _
            simp [QuoteReading.step, unfinished]
          have next := ih []
          simp only [afterDelimiter, ends, if_true, if_false, LineReader.read_cons]
          rcases next with ⟨empty, last, reached⟩ | ⟨lead, split, reached⟩
          · exact .inl ⟨empty, last, (congrArg (reader.read · rest) here).trans reached⟩
          · refine .inr ⟨'\n' :: lead, by rw [List.cons_append, ← split], ?_⟩
            exact (congrArg (reader.read · rest) here).trans reached
      · have different : Mark.of c ≠ .newline := fun same => newline (Mark.eq_of_newline same)
        have here : QuoteReading.step (.body (DocumentLine.blank.read line.reverse)) (.of c) =
            .body (DocumentLine.blank.read (c :: line).reverse) := by
          simp [QuoteReading.step, different, DocumentLine.read, List.foldl_append]
        have next := ih (c :: line)
        simp only [afterDelimiter, newline, if_false, LineReader.read_cons]
        rcases next with ⟨empty, last, reached⟩ | ⟨lead, split, reached⟩
        · exact .inl ⟨empty, last, (congrArg (reader.read · rest) here).trans reached⟩
        · refine .inr ⟨c :: lead, by rw [List.cons_append, ← split], ?_⟩
          exact (congrArg (reader.read · rest) here).trans reached

end StatusLine.Audit

import StatusLine.Proofs.Audit.DocumentBodies
import StatusLine.Proofs.Shortening.Chain

/-!
Here-documents in texts whose runs of blank lines are shortened. Behind a line that starts several
of them all lines stay up to the last delimiter, but the delimiters are awaited from the last one to
the first, and not in the order of the bodies. Where the awaited order ends no earlier than the
bodies do, nothing is taken away from them.
-/

namespace StatusLine.Shortening

open Audit (afterBodies bodyLines bodyLines_append bodyLines_append_drop bodyLines_nil
  bodyLines_of_absent)

/-! The state behind some lines. -/

def BlankState.after (state : BlankState) (lines : List (List Char)) : BlankState :=
  lines.foldl (fun reached line => (reached.step line).2) state

theorem keptLines_append (state : BlankState) (first second : List (List Char)) :
    keptLines state (first ++ second) =
      keptLines state first ++ keptLines (state.after first) second := by
  induction first generalizing state with
  | nil => rfl
  | cons line rest ih =>
      have next : state.after (line :: rest) = (state.step line).2.after rest := rfl
      rw [next]
      by_cases stays : (state.step line).1 = true
      · simp [keptLines, stays, ih]
      · simp [keptLines, stays, ih]

theorem keptLines_documents (run : Nat) (delimiters lines : List (List Char)) :
    keptLines ⟨run, delimiters⟩ lines = bodyLines delimiters lines ++
      keptLines ⟨run, []⟩ (lines.drop (bodyLines delimiters lines).length) := by
  induction lines generalizing delimiters with
  | nil => cases delimiters <;> rfl
  | cons line rest ih =>
      cases delimiters with
      | nil => rfl
      | cons delimiter outer =>
          by_cases ends : Text.trim line = delimiter
          · simpa [keptLines, BlankState.step, bodyLines, ends] using ih outer
          · simpa [keptLines, BlankState.step, bodyLines, ends] using ih (delimiter :: outer)

/-! Lines that start here-documents. -/

theorem delimitersFrom_of_not_mem (skipped : Nat) {line : List Char} (free : '<' ∉ line) :
    Text.delimitersFrom skipped line = [] := by
  induction line generalizing skipped with
  | nil => cases skipped <;> rfl
  | cons c rest ih =>
      rw [List.mem_cons, not_or] at free
      cases skipped with
      | succ skipped => exact ih skipped free.2
      | zero =>
          have unopened : Text.hereDocument? (c :: rest) = none := by
            unfold Text.hereDocument?
            split
            · rename_i shape
              exact absurd (List.cons.inj shape).1.symm free.1
            · rfl
          simp only [Text.delimitersFrom, unopened]
          exact ih 0 free.2

theorem trim_ne_nil_of_delimiters {line : List Char} (starts : Text.delimiters line ≠ []) :
    Text.trim line ≠ [] := by
  intro empty
  have blank := isBlank_of_trim_eq_nil line empty
  have free : '<' ∉ line := fun member => absurd (blank '<' member) (by decide)
  exact starts (delimitersFrom_of_not_mem 0 free)

/-- A line of a text, outside of all here-documents and no comment, that starts here-documents. -/
structure StartsDocuments (text : List Char) (before : List (List Char)) (line : List Char)
    (rest : List (List Char)) : Prop where
  lines : Text.splitLines text = before ++ line :: rest
  outside : (BlankState.start.after before).openDelimiters = []
  command : startsComment (Text.trim line) = false
  starts : Text.delimiters line ≠ []

section Documents

variable {text line : List Char} {before rest : List (List Char)}

theorem StartsDocuments.step (found : StartsDocuments text before line rest) :
    (BlankState.start.after before).step line = (true, ⟨0, (Text.delimiters line).reverse⟩) := by
  have visible := trim_ne_nil_of_delimiters found.starts
  simp [BlankState.step, found.outside, found.command, visible]

theorem keptLines_ne_nil (text : List Char) : keptLines .start (Text.splitLines text) ≠ [] := by
  obtain ⟨line, rest, shape⟩ := List.exists_cons_of_ne_nil (Text.splitLines_ne_nil text)
  simp [shape, keptLines, step_start_stays]

theorem splitLines_shortenBlankRuns (text : List Char) :
    Text.splitLines (shortenBlankRuns text) = keptLines .start (Text.splitLines text) := by
  have single : ∀ line ∈ keptLines .start (Text.splitLines text), '\n' ∉ line := fun line member =>
    Text.newline_not_mem_splitLines text line ((keptLines_sublist _ _).subset member)
  exact Text.splitLines_joinLines (keptLines_ne_nil text) single

theorem StartsDocuments.kept (found : StartsDocuments text before line rest) :
    Text.splitLines (shortenBlankRuns text) = keptLines .start before ++
      line :: (bodyLines (Text.delimiters line).reverse rest ++ keptLines .start
        (rest.drop (bodyLines (Text.delimiters line).reverse rest).length)) := by
  have behind : keptLines (BlankState.start.after before) (line :: rest) =
      line :: keptLines ⟨0, (Text.delimiters line).reverse⟩ rest := by
    rw [keptLines, found.step]
    rfl
  have bodies := keptLines_documents 0 (Text.delimiters line).reverse rest
  rw [splitLines_shortenBlankRuns, found.lines, keptLines_append, behind, bodies]
  rfl

/-- With the last delimiter in none of the other bodies, the lines up to it are read alike in both
orders. -/
theorem bodyLines_reverse {delimiters : List (List Char)} (some : delimiters ≠ [])
    {lines : List (List Char)}
    (absent : ∀ line ∈ bodyLines delimiters.dropLast lines,
      Text.trim line ≠ delimiters.getLast some) :
    bodyLines delimiters lines <+: bodyLines delimiters.reverse lines := by
  have split := List.dropLast_append_getLast some
  generalize delimiters.getLast some = last at absent split
  generalize delimiters.dropLast = others at absent split
  subst split
  have inOrder := bodyLines_append others [last] lines
  have backwards := bodyLines_append [last] others.reverse lines
  have same : bodyLines [last] lines = bodyLines (others ++ [last]) lines := by
    rw [inOrder, ← bodyLines_of_absent absent, bodyLines_append_drop]
  rw [List.reverse_append, List.reverse_singleton, backwards, same]
  exact List.prefix_append _ _

end Documents

/-- Every line up to the delimiter that is awaited last stays. These are the bodies that a scan
passes, if none of the bodies but the last holds the last delimiter. -/
theorem documents_kept {text line : List Char} {before rest : List (List Char)}
    (found : StartsDocuments text before line rest) :
    Text.splitLines (shortenBlankRuns text) = keptLines .start before ++
        line :: (bodyLines (Text.delimiters line).reverse rest ++ keptLines .start
          (rest.drop (bodyLines (Text.delimiters line).reverse rest).length)) ∧
      afterBodies (Text.delimiters line) (Text.joinLines rest) =
        Text.joinLines (rest.drop (bodyLines (Text.delimiters line) rest).length) ∧
      ((∀ inner ∈ bodyLines (Text.delimiters line).dropLast rest,
          Text.trim inner ≠ (Text.delimiters line).getLast found.starts) →
        keptLines .start before ++ line :: bodyLines (Text.delimiters line) rest <+:
          Text.splitLines (shortenBlankRuns text)) := by
  have single : ∀ inner ∈ rest, '\n' ∉ inner := fun inner member =>
    Text.newline_not_mem_splitLines text inner (by simp [found.lines, member])
  refine ⟨found.kept, Audit.afterBodies_joinLines _ single, fun absent => ?_⟩
  obtain ⟨more, whole⟩ := bodyLines_reverse found.starts absent
  rw [found.kept, ← whole, List.append_assoc, ← List.cons_append, ← List.append_assoc]
  exact List.prefix_append _ _

theorem startsDocuments_apart :
    StartsDocuments "cat <<A <<B\n\n\n\n\nx\nA\n\n\n\nB\n".toList [] "cat <<A <<B".toList
      (["", "", "", "", "x", "A", "", "", "", "B", ""].map String.toList) :=
  ⟨by decide, rfl, by decide, by decide⟩

theorem documents_kept_apart :
    (∀ inner ∈ ["", "", "", "", "x", "A"].map String.toList, Text.trim inner ≠ "B".toList) ∧
      (["cat <<A <<B", "", "", "", "", "x", "A", "", "", "", "B"].map String.toList) <+:
        Text.splitLines
          (shortenBlankRuns "cat <<A <<B\n\n\n\n\nx\nA\n\n\n\nB\n".toList) := by
  have absent : ∀ inner ∈ ["", "", "", "", "x", "A"].map String.toList,
      Text.trim inner ≠ "B".toList := by decide
  exact ⟨absent, (documents_kept startsDocuments_apart).2.2 absent⟩

/-- With the second delimiter in the first body, blank lines of the second body are lost. -/
theorem documents_cut :
    ¬ ∀ text before line rest, StartsDocuments text before line rest →
      keptLines .start before ++ line :: bodyLines (Text.delimiters line) rest <+:
        Text.splitLines (shortenBlankRuns text) := by
  intro whole
  have found : StartsDocuments "cat <<A <<B\nB\nA\n\n\n\n\nx\nB\n".toList []
      "cat <<A <<B".toList (["B", "A", "", "", "", "", "x", "B", ""].map String.toList) :=
    ⟨by decide, rfl, by decide, by decide⟩
  exact absurd (whole _ _ _ _ found) (by decide)

end StatusLine.Shortening

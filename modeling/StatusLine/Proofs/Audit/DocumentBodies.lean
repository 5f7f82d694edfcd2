import StatusLine.Audit.Quotes
import StatusLine.Proofs.Text.HereDocument
import StatusLine.Proofs.Text.Substring

/-!
Where the bodies of here-documents end. The scan looks for delimiters line by line, one
here-document after the other in the order in which they were opened.
-/

namespace StatusLine.Audit

theorem afterDelimiter_suffix (delimiter start text : List Char) :
    afterDelimiter delimiter start text <:+ text := by
  induction text generalizing start with
  | nil => exact List.suffix_refl []
  | cons c more ih =>
      simp only [afterDelimiter]
      split
      · split
        · exact List.suffix_cons c more
        · exact (ih []).trans (List.suffix_cons c more)
      · exact (ih (c :: start)).trans (List.suffix_cons c more)

theorem afterBodies_suffix (delimiters : List (List Char)) (text : List Char) :
    afterBodies delimiters text <:+ text := by
  induction delimiters generalizing text with
  | nil => exact List.suffix_refl text
  | cons delimiter others ih => exact (ih _).trans (afterDelimiter_suffix delimiter [] text)

theorem afterBodies_nil (delimiters : List (List Char)) : afterBodies delimiters [] = [] :=
  List.suffix_nil.mp (afterBodies_suffix delimiters [])

theorem afterBodies_cons (delimiter : List Char) (others : List (List Char)) (text : List Char) :
    afterBodies (delimiter :: others) text =
      afterBodies others (afterDelimiter delimiter [] text) :=
  rfl

theorem afterDelimiter_of_not_mem (delimiter start : List Char) {text : List Char}
    (single : '\n' ∉ text) : afterDelimiter delimiter start text = [] := by
  induction text generalizing start with
  | nil => rfl
  | cons c more ih =>
      rw [List.mem_cons, not_or] at single
      rw [afterDelimiter, if_neg (Ne.symm single.1)]
      exact ih (c :: start) single.2

theorem afterDelimiter_append_line (delimiter start more : List Char) {line : List Char}
    (single : '\n' ∉ line) :
    afterDelimiter delimiter start (line ++ '\n' :: more) =
      if Text.trim (start.reverse ++ line) = delimiter then more
      else afterDelimiter delimiter [] more := by
  induction line generalizing start with
  | nil => simp [afterDelimiter]
  | cons c others ih =>
      rw [List.mem_cons, not_or] at single
      rw [List.cons_append, afterDelimiter, if_neg (Ne.symm single.1), ih (c :: start) single.2]
      simp

theorem afterDelimiter_blankLine {delimiter : List Char} (present : delimiter ≠ [])
    (start more : List Char) {line : List Char} (single : '\n' ∉ line)
    (blank : ∀ c ∈ start.reverse ++ line, Text.isBlank c = true) :
    afterDelimiter delimiter start (line ++ '\n' :: more) = afterDelimiter delimiter [] more := by
  rw [afterDelimiter_append_line delimiter start more single, Text.trim_of_blank blank,
    if_neg present.symm]

theorem afterDelimiter_starts_line (delimiter start text : List Char) :
    afterDelimiter delimiter start text = [] ∨
      ∃ lead, text = lead ++ '\n' :: afterDelimiter delimiter start text := by
  induction text generalizing start with
  | nil => exact .inl rfl
  | cons c more ih =>
      simp only [afterDelimiter]
      by_cases newline : c = '\n'
      · subst newline
        by_cases ends : Text.trim start.reverse = delimiter
        · simp only [ends, if_true]
          exact .inr ⟨[], rfl⟩
        · simp only [ends, if_true, if_false]
          refine (ih []).imp_right fun ⟨lead, split⟩ => ⟨'\n' :: lead, ?_⟩
          rw [List.cons_append, ← split]
      · simp only [newline, if_false]
        refine (ih (c :: start)).imp_right fun ⟨lead, split⟩ => ⟨c :: lead, ?_⟩
        rw [List.cons_append, ← split]

theorem afterBodies_starts_line (delimiters : List (List Char)) (text : List Char) :
    afterBodies delimiters text = [] ∨
      ∃ lead, '\n' :: text = lead ++ '\n' :: afterBodies delimiters text := by
  induction delimiters generalizing text with
  | nil => exact .inr ⟨[], rfl⟩
  | cons delimiter others ih =>
      rw [afterBodies_cons]
      rcases afterDelimiter_starts_line delimiter [] text with gone | ⟨first, split⟩
      · rw [gone]
        exact .inl (afterBodies_nil others)
      · refine (ih (afterDelimiter delimiter [] text)).imp_right fun ⟨lead, later⟩ => ?_
        refine ⟨'\n' :: first ++ lead, ?_⟩
        rw [List.append_assoc, ← later, List.cons_append, ← split]

/-! Bodies in lines. -/

/-- The lines up to the last delimiter, as far as the delimiters come one after the other. -/
def bodyLines : (delimiters : List (List Char)) → (lines : List (List Char)) → List (List Char)
  | [], _ => []
  | _, [] => []
  | delimiter :: others, line :: rest =>
      line :: bodyLines (if Text.trim line = delimiter then others else delimiter :: others) rest

theorem bodyLines_nil (lines : List (List Char)) : bodyLines [] lines = [] := by
  cases lines <;> rfl

theorem prefix_bodyLines (delimiters lines : List (List Char)) :
    bodyLines delimiters lines <+: lines := by
  induction lines generalizing delimiters with
  | nil => cases delimiters <;> exact List.prefix_refl []
  | cons line rest ih =>
      cases delimiters with
      | nil => exact List.nil_prefix
      | cons delimiter others => exact List.cons_prefix_cons.mpr ⟨rfl, ih _⟩

theorem bodyLines_append_drop (delimiters lines : List (List Char)) :
    bodyLines delimiters lines ++ lines.drop (bodyLines delimiters lines).length = lines :=
  List.prefix_iff_eq_append.mp (prefix_bodyLines delimiters lines)

theorem bodyLines_append (first second lines : List (List Char)) :
    bodyLines (first ++ second) lines = bodyLines first lines ++
      bodyLines second (lines.drop (bodyLines first lines).length) := by
  induction lines generalizing first with
  | nil => cases first <;> cases second <;> rfl
  | cons line rest ih =>
      cases first with
      | nil => simp [bodyLines_nil]
      | cons delimiter others =>
          have next := ih (if Text.trim line = delimiter then others else delimiter :: others)
          by_cases ends : Text.trim line = delimiter
          · simpa [bodyLines, ends] using next
          · simpa [bodyLines, ends] using next

theorem bodyLines_of_absent {delimiter : List Char} {lines : List (List Char)}
    (absent : ∀ line ∈ lines, Text.trim line ≠ delimiter) (rest : List (List Char)) :
    bodyLines [delimiter] (lines ++ rest) = lines ++ bodyLines [delimiter] rest := by
  induction lines with
  | nil => rfl
  | cons line others ih =>
      have here := absent line List.mem_cons_self
      have later := ih fun other member => absent other (List.mem_cons_of_mem line member)
      simp [bodyLines, here, later]

theorem afterBodies_joinLines (delimiters : List (List Char)) {lines : List (List Char)}
    (single : ∀ line ∈ lines, '\n' ∉ line) :
    afterBodies delimiters (Text.joinLines lines) =
      Text.joinLines (lines.drop (bodyLines delimiters lines).length) := by
  induction lines generalizing delimiters with
  | nil =>
      rw [List.drop_nil]
      exact afterBodies_nil delimiters
  | cons line rest ih =>
      have here := single line List.mem_cons_self
      cases delimiters with
      | nil => rfl
      | cons delimiter others =>
          have later := ih (if Text.trim line = delimiter then others else delimiter :: others)
            fun other member => single other (List.mem_cons_of_mem line member)
          simp only [bodyLines, List.length_cons, List.drop_succ_cons, ← later]
          cases rest with
          | nil =>
              rw [afterBodies_cons]
              have gone := afterDelimiter_of_not_mem delimiter [] here
              change afterBodies others (afterDelimiter delimiter [] line) = afterBodies _ []
              rw [gone, afterBodies_nil, afterBodies_nil]
          | cons next more =>
              rw [Text.joinLines_cons_cons, afterBodies_cons,
                afterDelimiter_append_line delimiter [] _ here]
              by_cases ends : Text.trim line = delimiter
              · simp [ends]
              · simp [ends, afterBodies_cons]

end StatusLine.Audit

import StatusLine.PathName
import StatusLine.Proofs.Text.Separators

/-!
Path names in normal form are read back from their texts, so that different ones have different
texts.
-/

namespace StatusLine.PathName

open Text

def IsNormal (path : PathName) : Prop :=
  ∀ part ∈ path.parts, part ≠ [] ∧ part ≠ ['.'] ∧ '/' ∉ part

theorem slash_not_mem {part text : List Char} (member : part ∈ splitOn ['/'] text) :
    '/' ∉ part := by
  intro inside
  obtain ⟨before, after, rfl⟩ := List.append_of_mem inside
  exact not_infix_of_mem_splitOn (by decide) member ⟨before, after, by simp⟩

theorem isNormal_ofChars (text : List Char) : (ofChars text).IsNormal := by
  intro part member
  obtain ⟨named, noDot⟩ := partsOf_named text part member
  exact ⟨named, noDot, slash_not_mem (List.mem_filter.mp member).1⟩

/-! The parts of a text. -/

section Parts

variable {parts : List (List Char)}
  (normal : ∀ part ∈ parts, part ≠ [] ∧ part ≠ ['.'] ∧ '/' ∉ part)

include normal

theorem filter_named : (parts.filter fun part => part ≠ [] ∧ part ≠ ['.']) = parts := by
  refine List.filter_eq_self.mpr fun part member => ?_
  obtain ⟨named, noDot, -⟩ := normal part member
  simp [named, noDot]

theorem partsOf_joinWith : partsOf (joinWith ['/'] parts) = parts := by
  by_cases nonempty : parts = []
  · rw [nonempty]
    rfl
  · rw [partsOf, splitOn_joinWith (by decide) (by decide) nonempty fun part member inside =>
      (normal part member).2.2 (inside.subset List.mem_cons_self), filter_named normal]

theorem exists_first_of_joinWith (nonempty : parts ≠ []) :
    ∃ c rest, joinWith ['/'] parts = c :: rest ∧ c ≠ '/' := by
  obtain ⟨part, others, rfl⟩ := List.exists_cons_of_ne_nil nonempty
  obtain ⟨named, -, noSlash⟩ := normal part List.mem_cons_self
  obtain ⟨c, rest, rfl⟩ := List.exists_cons_of_ne_nil named
  refine ⟨c, _, joinWith_cons_flatMap _ _ _, ?_⟩
  rintro rfl
  exact noSlash List.mem_cons_self

end Parts

theorem partsOf_slash (text : List Char) : partsOf ('/' :: text) = partsOf text := by
  have cut : splitOn ['/'] ('/' :: text) = [] :: splitOn ['/'] text :=
    splitOn_separator (by decide) text
  rw [partsOf, partsOf, cut]
  rfl

theorem partsOf_root (root : PathRoot) (text : List Char) :
    partsOf (root.text ++ text) = partsOf text := by
  cases root
  · rfl
  · exact partsOf_slash text
  · exact (partsOf_slash _).trans (partsOf_slash text)

theorem rootOf_append (root : PathRoot) {c : Char} (noSlash : c ≠ '/') (rest : List Char) :
    rootOf (root.text ++ c :: rest) = root := by
  cases root
  · change rootOf (c :: rest) = .relative
    unfold rootOf
    split <;> simp_all
  · simp [PathRoot.text, rootOf, noSlash]
  · simp [PathRoot.text, rootOf, noSlash]

theorem IsNormal.ofChars_chars {path : PathName} (normal : path.IsNormal) :
    ofChars path.chars = path := by
  obtain ⟨root, parts⟩ := path
  by_cases none_ : parts = []
  · subst none_
    cases root <;> decide
  · obtain ⟨c, rest, shape, noSlash⟩ := exists_first_of_joinWith normal none_
    have text : (⟨root, parts⟩ : PathName).chars = root.text ++ joinWith ['/'] parts := by
      unfold chars
      split
      · rename_i nothing
        exact absurd nothing none_
      · rfl
    rw [text, ofChars, partsOf_root, partsOf_joinWith normal, shape, rootOf_append root noSlash]

theorem IsNormal.eq_of_chars {path other : PathName} (normal : path.IsNormal)
    (also : other.IsNormal) (same : path.chars = other.chars) : path = other := by
  rw [← normal.ofChars_chars, same, also.ofChars_chars]

end StatusLine.PathName

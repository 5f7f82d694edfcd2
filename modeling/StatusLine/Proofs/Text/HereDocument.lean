import Mathlib.Data.List.TakeWhile
import StatusLine.Text.HereDocument

/-!
The start of a here-document in the text around it. Blanks may come before the delimiter, line ends
among them, but the delimiter itself lies in one line, so that nothing behind its line matters.
-/

namespace StatusLine.Text

def AtLineEnd (text : List Char) : Prop :=
  text = [] ∨ text.head? = some '\n'

section AtLineEnd

variable {tail : List Char}

theorem atLineEnd_newline (rest : List Char) : AtLineEnd ('\n' :: rest) :=
  .inr rfl

theorem AtLineEnd.eq_newline (atEnd : AtLineEnd tail) (present : tail ≠ []) :
    ∃ rest, tail = '\n' :: rest := by
  rcases atEnd with empty | head
  · exact absurd empty present
  · exact List.head?_eq_some_iff.mp head

theorem AtLineEnd.head?_append (atEnd : AtLineEnd tail) {c : Char} (visible : c ≠ '\n')
    (text : List Char) : (text ++ tail).head? = some c ↔ text.head? = some c := by
  cases text with
  | cons first rest => simp
  | nil =>
      rcases atEnd with rfl | head
      · simp
      · simp [head, visible.symm]

theorem AtLineEnd.takeWhile (atEnd : AtLineEnd tail) {accepts : Char → Bool}
    (refused : accepts '\n' = false) (text : List Char) :
    (text ++ tail).takeWhile accepts = text.takeWhile accepts := by
  induction text with
  | nil =>
      rcases atEnd with rfl | head
      · rfl
      · obtain ⟨rest, rfl⟩ := List.head?_eq_some_iff.mp head
        simp [refused]
  | cons c rest ih =>
      by_cases accepted : accepts c = true
      · simp [accepted, ih]
      · simp [accepted]

theorem AtLineEnd.dropWhile (atEnd : AtLineEnd tail) {accepts : Char → Bool}
    (refused : accepts '\n' = false) (text : List Char) :
    (text ++ tail).dropWhile accepts = text.dropWhile accepts ++ tail := by
  induction text with
  | nil =>
      rcases atEnd with rfl | head
      · rfl
      · obtain ⟨rest, rfl⟩ := List.head?_eq_some_iff.mp head
        simp [refused]
  | cons c rest ih =>
      by_cases accepted : accepts c = true
      · simp [accepted, ih]
      · simp [accepted]

theorem AtLineEnd.dropOne (atEnd : AtLineEnd tail) {drops : Char → Bool}
    (refused : drops '\n' = false) (text : List Char) :
    dropOne drops (text ++ tail) = dropOne drops text ++ tail := by
  cases text with
  | nil =>
      rcases atEnd with rfl | head
      · rfl
      · obtain ⟨rest, rfl⟩ := List.head?_eq_some_iff.mp head
        simp [Text.dropOne, refused]
  | cons c rest =>
      by_cases dropped : drops c = true
      · simp [Text.dropOne, dropped]
      · simp [Text.dropOne, dropped]

theorem AtLineEnd.takeDelimiter (atEnd : AtLineEnd tail) (text : List Char) :
    takeDelimiter (text ++ tail) =
      (takeDelimiter text).map fun found => ⟨found.delimiter, found.rest ++ tail⟩ := by
  have unquoted := atEnd.dropOne (by decide : isQuote '\n' = false) text
  simp only [Text.takeDelimiter, unquoted]
  cases Text.dropOne isQuote text with
  | nil =>
      rcases atEnd with rfl | head
      · rfl
      · obtain ⟨rest, rfl⟩ := List.head?_eq_some_iff.mp head
        simp [startsDelimiter, isAsciiLetter]
  | cons c rest =>
      by_cases starts : startsDelimiter c = true
      · simp only [List.cons_append, starts, if_true, Option.map_some]
        rw [← List.cons_append, atEnd.takeWhile (by decide), atEnd.dropWhile (by decide),
          atEnd.dropOne (by decide)]
      · simp [starts]

end AtLineEnd

/-! Delimiters. -/

/-- A word that can end a here-document. -/
structure IsDelimiter (word : List Char) : Prop where
  starts : ∃ c rest, word = c :: rest ∧ startsDelimiter c = true
  each : ∀ c ∈ word, isDelimiterChar c = true

theorem isDelimiterChar_of_starts {c : Char} (starts : startsDelimiter c = true) :
    isDelimiterChar c = true := by
  simp only [startsDelimiter, Bool.or_eq_true] at starts
  rcases starts with letter | underscore
  · simp [isDelimiterChar, letter]
  · simp [isDelimiterChar, underscore]

theorem isBlank_of_isDelimiterChar {c : Char} (letter : isDelimiterChar c = true) :
    isBlank c = false := by
  have between {lowest highest : Char} (least : lowest ≤ c) (most : c ≤ highest) :
      lowest.toNat ≤ c.toNat ∧ c.toNat ≤ highest.toNat :=
    ⟨Char.le_def.mp least, Char.le_def.mp most⟩
  have bounds : 48 ≤ c.toNat ∧ c.toNat ≤ 122 := by
    simp only [isDelimiterChar, isAsciiLetter, isAsciiDigit, Bool.or_eq_true, Bool.and_eq_true,
      decide_eq_true_eq, beq_iff_eq] at letter
    rcases letter with ((⟨least, most⟩ | ⟨least, most⟩) | ⟨least, most⟩) | rfl
    · exact (between least most).imp_left (Nat.le_trans (by decide))
    · exact (between least most).imp (Nat.le_trans (by decide)) fun below =>
        Nat.le_trans below (by decide)
    · exact (between least most).imp_right fun below => Nat.le_trans below (by decide)
    · decide
  simp only [isBlank, Bool.or_eq_false_iff, Bool.and_eq_false_iff, decide_eq_false_iff_not,
    beq_eq_false_iff_ne]
  omega

theorem IsDelimiter.ne_nil {word : List Char} (isDelimiter : IsDelimiter word) : word ≠ [] := by
  obtain ⟨c, rest, rfl, -⟩ := isDelimiter.starts
  simp

theorem isDelimiter_of_takeDelimiter {text : List Char} {found : HereDocument}
    (taken : takeDelimiter text = some found) : IsDelimiter found.delimiter := by
  simp only [takeDelimiter] at taken
  split at taken
  · cases taken
  · rename_i c rest shape
    split at taken
    · rename_i starts
      obtain rfl := Option.some.inj taken
      refine ⟨⟨c, rest.takeWhile isDelimiterChar, ?_, starts⟩, fun other member => ?_⟩
      · simp [shape, isDelimiterChar_of_starts starts]
      · exact List.all_eq_true.mp List.all_takeWhile other member
    · cases taken

theorem takeDelimiter_of_isDelimiter {word : List Char} (isDelimiter : IsDelimiter word) :
    takeDelimiter word = some ⟨word, []⟩ := by
  obtain ⟨c, rest, rfl, starts⟩ := isDelimiter.starts
  have unquoted : isQuote c = false := by
    by_contra quote
    simp only [isQuote, Bool.not_eq_false, Bool.or_eq_true, beq_iff_eq] at quote
    rcases quote with rfl | rfl <;> exact absurd starts (by decide)
  have taken : (c :: rest).takeWhile isDelimiterChar = c :: rest :=
    List.takeWhile_eq_self_iff.mpr isDelimiter.each
  have dropped : (c :: rest).dropWhile isDelimiterChar = [] :=
    List.dropWhile_eq_nil_iff.mpr isDelimiter.each
  simp [takeDelimiter, dropOne, unquoted, starts, taken, dropped]

theorem dropOne_suffix (drops : Char → Bool) (text : List Char) :
    dropOne drops text <:+ text := by
  cases text with
  | nil => exact List.suffix_refl []
  | cons c rest =>
      simp only [dropOne]
      split
      · exact List.suffix_cons c rest
      · exact List.suffix_refl _

theorem exists_of_takeDelimiter {text : List Char} {found : HereDocument}
    (taken : takeDelimiter text = some found) :
    ∃ lead, lead ≠ [] ∧ text = lead ++ found.rest := by
  have present := (isDelimiter_of_takeDelimiter taken).ne_nil
  simp only [takeDelimiter] at taken
  split at taken
  · cases taken
  · split at taken
    · obtain rfl := Option.some.inj taken
      obtain ⟨quote, unquoted⟩ := dropOne_suffix isQuote text
      obtain ⟨unquote, dropped⟩ :=
        dropOne_suffix isQuote ((dropOne isQuote text).dropWhile isDelimiterChar)
      refine ⟨quote ++ (dropOne isQuote text).takeWhile isDelimiterChar ++ unquote, ?_, ?_⟩
      · simp only [ne_eq, List.append_eq_nil_iff, not_and]
        exact fun none => absurd none.2 present
      · rw [List.append_assoc, dropped, List.append_assoc, List.takeWhile_append_dropWhile,
          unquoted]
    · cases taken

theorem trim_of_blank {line : List Char} (blank : ∀ c ∈ line, isBlank c = true) :
    trim line = [] := by
  have dropped : line.dropWhile isBlank = [] := List.dropWhile_eq_nil_iff.mpr blank
  simp [trim, trimWhere, trimEndWhere, dropped]

end StatusLine.Text

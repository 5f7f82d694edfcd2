import StatusLine.Proofs.Text.Substring

/-!
How often a stretch stands in a text. What stands in two texts stands in both together, and a
replacement that nothing reaches into adds none.
-/

namespace StatusLine.Text

def occurrences (needle : List Char) : List Char → Nat
  | [] => 0
  | c :: rest => (if needle.isPrefixOf (c :: rest) then 1 else 0) + occurrences needle rest

def StandsApart (needle before middle rest : List Char) : Prop :=
  ∀ lead tail, before ++ (middle ++ rest) = lead ++ (needle ++ tail) →
    (∃ between, before = lead ++ needle ++ between) ∨ ∃ between, lead = before ++ middle ++ between

variable {needle text more before middle rest : List Char}

theorem occurrences_cons_start {c : Char} (starts : needle <+: c :: rest) :
    occurrences needle (c :: rest) = occurrences needle rest + 1 := by
  rw [occurrences, List.isPrefixOf_iff_prefix.mpr starts, if_pos rfl, Nat.add_comm]

theorem occurrences_cons_other {c : Char} (other : ¬ needle <+: c :: rest) :
    occurrences needle (c :: rest) = occurrences needle rest := by
  rw [occurrences, if_neg fun starts => other (List.isPrefixOf_iff_prefix.mp starts), Nat.zero_add]

theorem occurrences_le_cons (needle rest : List Char) (c : Char) :
    occurrences needle rest ≤ occurrences needle (c :: rest) :=
  Nat.le_add_left _ _

theorem occurrences_append_le (needle text more : List Char) :
    occurrences needle text + occurrences needle more ≤ occurrences needle (text ++ more) := by
  induction text with
  | nil => exact Nat.le_of_eq (Nat.zero_add _)
  | cons c rest ih =>
      by_cases starts : needle <+: c :: rest
      · have longer : needle <+: c :: (rest ++ more) :=
          starts.trans (List.prefix_append (c :: rest) more)
        rw [List.cons_append, occurrences_cons_start starts, occurrences_cons_start longer]
        omega
      · rw [List.cons_append, occurrences_cons_other starts]
        exact Nat.le_trans ih (occurrences_le_cons needle (rest ++ more) c)

theorem occurrences_self_pos (present : needle ≠ []) : 0 < occurrences needle needle := by
  obtain ⟨c, rest, rfl⟩ := List.exists_cons_of_ne_nil present
  rw [occurrences_cons_start (List.prefix_refl _)]
  exact Nat.succ_pos _

theorem occurrences_append_of_not_mem {first : Char} (others : List Char) {text : List Char}
    (free : first ∉ text) (more : List Char) :
    occurrences (first :: others) (text ++ more) = occurrences (first :: others) more := by
  induction text with
  | nil => rfl
  | cons c rest ih =>
      rw [List.mem_cons, not_or] at free
      have other : ¬ first :: others <+: c :: (rest ++ more) := fun starts =>
        free.1 (List.cons_prefix_cons.mp starts).1
      rw [List.cons_append, occurrences_cons_other other, ih free.2]

theorem countFrom_eq_occurrences {first : Char} {others : List Char} (once : first ∉ others)
    (skipped : Nat) (text : List Char) :
    countFrom (first :: others) skipped text =
      occurrences (first :: others) (text.drop skipped) := by
  induction text generalizing skipped with
  | nil => cases skipped <;> rfl
  | cons c rest ih =>
      cases skipped with
      | succ skipped => exact ih skipped
      | zero =>
          rw [countFrom, List.drop_zero]
          by_cases starts : first :: others <+: c :: rest
          · have counted := occurrences_cons_start starts
            rw [if_pos (List.isPrefixOf_iff_prefix.mpr starts), ih, counted]
            obtain ⟨tail, whole⟩ := starts
            have behind : rest = others ++ tail := (List.cons.inj whole).2.symm
            rw [behind, List.length_cons, Nat.add_sub_cancel, List.drop_left,
              occurrences_append_of_not_mem others once, Nat.add_comm]
          · rw [if_neg fun prefixed => starts (List.isPrefixOf_iff_prefix.mp prefixed), ih,
              List.drop_zero, occurrences_cons_other starts]

theorem count_eq_occurrences (first : Char) (starts : needle.head? = some first)
    (once : first ∉ needle.tail) (text : List Char) : count needle text = occurrences needle text := by
  cases needle with
  | nil => cases starts
  | cons c others =>
      obtain rfl := Option.some.inj starts
      exact countFrom_eq_occurrences once 0 text

/-! Replacing. -/

theorem StandsApart.of_cons {c : Char} (apart : StandsApart needle (c :: before) middle rest) :
    StandsApart needle before middle rest := by
  intro lead tail same
  rcases apart (c :: lead) tail (congrArg (c :: ·) same) with ⟨between, whole⟩ | ⟨between, whole⟩
  · exact .inl ⟨between, (List.cons.inj whole).2⟩
  · exact .inr ⟨between, (List.cons.inj whole).2⟩

theorem StandsApart.of_middle {c : Char} (apart : StandsApart needle [] (c :: middle) rest) :
    StandsApart needle [] middle rest := by
  intro lead tail same
  rcases apart (c :: lead) tail (congrArg (c :: ·) same) with ⟨between, whole⟩ | ⟨between, whole⟩
  · cases whole
  · exact .inr ⟨between, (List.cons.inj whole).2⟩

theorem StandsApart.occurrences_eq (present : needle ≠ [])
    (apart : StandsApart needle before middle rest) :
    occurrences needle (before ++ (middle ++ rest)) =
      occurrences needle before + occurrences needle rest := by
  induction before with
  | nil =>
      induction middle with
      | nil => exact (Nat.zero_add _).symm
      | cons c others ih =>
          have other : ¬ needle <+: c :: (others ++ rest) := by
            rintro ⟨tail, whole⟩
            rcases apart [] tail whole.symm with ⟨between, same⟩ | ⟨between, same⟩
            · exact absurd (List.append_eq_nil_iff.mp same.symm).1 (by simpa using present)
            · cases same
          exact (occurrences_cons_other other).trans (ih apart.of_middle)
  | cons c others ih =>
      have later := ih apart.of_cons
      by_cases starts : needle <+: c :: (others ++ (middle ++ rest))
      · have inside : needle <+: c :: others := by
          obtain ⟨tail, whole⟩ := starts
          rcases apart [] tail whole.symm with ⟨between, same⟩ | ⟨between, same⟩
          · exact ⟨between, same.symm⟩
          · cases same
        rw [List.cons_append, occurrences_cons_start starts, occurrences_cons_start inside, later]
        omega
      · have outside : ¬ needle <+: c :: others := fun shorter =>
          starts (shorter.trans (List.prefix_append (c :: others) _))
        rw [List.cons_append, occurrences_cons_other starts, occurrences_cons_other outside, later]

theorem StandsApart.occurrences_le (present : needle ≠ [])
    (apart : StandsApart needle before middle rest) (stretch : List Char) :
    occurrences needle (before ++ (middle ++ rest)) ≤
      occurrences needle (before ++ (stretch ++ rest)) := by
  rw [apart.occurrences_eq present]
  have outer := occurrences_append_le needle before (stretch ++ rest)
  have inner := occurrences_append_le needle stretch rest
  omega

/-! Words. -/

/-- A word stands apart from a stretch that it is no part of, and that starts and ends with no
character of a word. -/
theorem standsApart_word {accepts : Char → Bool} (first last : Char)
    (starts : needle.head? = some first) (ends : needle.getLast? = some last)
    (opened : accepts first = false) (closed : accepts last = false) {word : List Char}
    (accepted : ∀ c ∈ word, accepts c = true) (foreign : ¬ word <:+: needle)
    (before rest : List Char) : StandsApart needle before word rest := by
  intro lead tail same
  have present : needle ≠ [] := by
    rintro rfl
    cases starts
  rcases meeting_cases present same with ⟨between, whole, -⟩ | ⟨between, whole, -⟩ |
    ⟨front, back, rfl, inside, rfl, goesOn⟩ | ⟨front, back, rfl, -, inside, rfl, goesOn⟩
  · exact .inl ⟨between, whole⟩
  · exact .inr ⟨between, whole⟩
  · rcases List.append_eq_append_iff.mp goesOn with ⟨behind, rfl, -⟩ | ⟨behind, rfl, -⟩
    · exact absurd ⟨front, behind, by simp⟩ foreign
    · rw [List.getLast?_append_of_ne_nil _ inside] at ends
      have word := accepted last (List.mem_append_left behind (List.mem_of_getLast? ends))
      rw [closed] at word
      cases word
  · obtain ⟨c, more, rfl⟩ := List.exists_cons_of_ne_nil inside
    obtain ⟨d, others, rfl⟩ := List.exists_cons_of_ne_nil present
    obtain ⟨rfl, -⟩ := List.cons.inj goesOn
    obtain rfl := Option.some.inj starts
    have word := accepted c (List.mem_append_right front List.mem_cons_self)
    rw [opened] at word
    cases word

end StatusLine.Text

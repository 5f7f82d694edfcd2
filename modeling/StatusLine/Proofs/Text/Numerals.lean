import StatusLine.Text.Quoting

/-!
Whole numbers as texts. A number is read off its digits, up to where they end.
-/

namespace StatusLine.Text

theorem isDigit_of_mem_ofNat {c : Char} {n : Nat} (member : c ∈ ofNat n) : c.isDigit = true :=
  Nat.isDigit_of_mem_toDigits (by decide) (by decide) member

theorem ofNat_injective : Function.Injective ofNat := by
  intro first second same
  have value : ∀ n, Nat.ofDigitChars 10 (ofNat n) 0 = n := fun n =>
    Nat.ofDigitChars_toDigits (by decide) (by decide)
  rw [← value first, ← value second, same]

theorem takeWhile_ofNat_append {rest : List Char} (ends : ∀ c ∈ rest.head?, c.isDigit = false)
    (n : Nat) : (ofNat n ++ rest).takeWhile Char.isDigit = ofNat n := by
  rw [List.takeWhile_append_of_pos fun c member => isDigit_of_mem_ofNat member]
  cases rest with
  | nil => simp
  | cons c more => simp [ends c rfl]

theorem ofNat_append_inj {n m : Nat} {rest more : List Char}
    (ends : ∀ c ∈ rest.head?, c.isDigit = false) (stops : ∀ c ∈ more.head?, c.isDigit = false)
    (same : ofNat n ++ rest = ofNat m ++ more) : n = m ∧ rest = more := by
  have digits := congrArg (List.takeWhile Char.isDigit) same
  rw [takeWhile_ofNat_append ends, takeWhile_ofNat_append stops] at digits
  rw [digits] at same
  exact ⟨ofNat_injective digits, List.append_cancel_left same⟩

theorem ofInt_injective : Function.Injective ofInt := by
  have noSign : ∀ n, (ofNat n).head? ≠ some '-' := by
    intro n start
    exact absurd (isDigit_of_mem_ofNat (List.mem_of_head? start)) (by decide)
  intro first second same
  cases first <;> cases second <;> simp only [ofInt] at same
  · exact congrArg Int.ofNat (ofNat_injective same)
  · rename_i n m
    exact absurd (congrArg List.head? same) (noSign n)
  · rename_i n m
    exact absurd (congrArg List.head? same).symm (noSign m)
  · have numbers := ofNat_injective (List.cons.inj same).2
    exact congrArg Int.negSucc (Nat.succ.inj numbers)

end StatusLine.Text

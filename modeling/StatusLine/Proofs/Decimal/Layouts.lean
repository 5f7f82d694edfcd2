import StatusLine.Decimal.Layout
import StatusLine.Decimal.Reading
import StatusLine.Proofs.Decimal.Shortest
import StatusLine.Proofs.Text.Numerals

/-!
Decimal texts tell their doubles apart. Whatever the layout, the digits, the point and the exponent
of a text are taken apart again as the decimal that was written.
-/

namespace StatusLine.Decimal

open Text

/-! Runs of digits. -/

theorem isAsciiDigit_of_mem_ofNat {c : Char} {n : Nat} (member : c ∈ ofNat n) :
    isAsciiDigit c = true :=
  isDigit_of_mem_ofNat member

def EndsDigits (rest : List Char) : Prop :=
  ∀ c ∈ rest.head?, isAsciiDigit c = false ∧ c ≠ '_'

theorem takeDigits_append {digits rest : List Char} (all : digits.all isAsciiDigit = true)
    (ends : EndsDigits rest) : takeDigits (digits ++ rest) = (digits, rest) := by
  have from_ : ∀ afterDigit, takeDigitsFrom afterDigit (digits ++ rest) = (digits, rest) := by
    induction digits with
    | nil =>
        intro afterDigit
        cases rest with
        | nil => rfl
        | cons c more =>
            obtain ⟨noDigit, noScore⟩ := ends c rfl
            simp [takeDigitsFrom, noDigit, noScore]
    | cons c digits ih =>
        intro afterDigit
        obtain ⟨digit, others⟩ := Bool.and_eq_true_iff.mp (List.all_cons ▸ all)
        simp [takeDigitsFrom, digit, ih others]
  exact from_ false

theorem digitsValue_append (digits others : List Char) :
    digitsValue 10 (digits ++ others) =
      digitsValue 10 digits * 10 ^ others.length + digitsValue 10 others := by
  induction others using List.reverseRecOn with
  | nil => simp [digitsValue]
  | append_singleton others c ih =>
      rw [← List.append_assoc]
      simp only [digitsValue, List.foldl_append, List.foldl_cons, List.foldl_nil,
        List.length_append, List.length_singleton, pow_succ] at ih ⊢
      rw [ih]
      ring

theorem digitsValue_zeros (count : Nat) : digitsValue 10 (List.replicate count '0') = 0 := by
  induction count with
  | zero => rfl
  | succ count ih =>
      rw [List.replicate_succ, ← List.singleton_append, digitsValue_append, ih]
      simp [digitsValue]

theorem digitsValue_ofNat (n : Nat) : digitsValue 10 (ofNat n) = n := by
  have read : Nat.ofDigitChars 10 (ofNat n) 0 = n :=
    Nat.ofDigitChars_toDigits (by decide) (by decide)
  refine Eq.trans ?_ read
  refine List.foldl_ext _ _ 0 fun total c member => ?_
  simp only [isAsciiDigit_of_mem_ofNat member, if_true, Char.reduceToNat, mul_comm]

/-! What a text stands for. -/

/-- The decimal that a text without a sign stands for: digits before a point and after it, and an
exponent. -/
def reading (text : List Char) : ℚ :=
  let (whole, afterWhole) := takeDigits text
  let (places, afterPlaces) :=
    match afterWhole with
    | '.' :: rest => takeDigits rest
    | _ => ([], afterWhole)
  match takeExponent afterPlaces with
  | some (exponent, _) =>
      digitsValue 10 (whole ++ places) * (10 : ℚ) ^ (exponent - places.length)
  | none => 0

def ExponentOf (exponent : Int) (rest : List Char) : Prop :=
  EndsDigits rest ∧ rest.head? ≠ some '.' ∧ takeExponent rest = some (exponent, [])

theorem exponentOf_nil : ExponentOf 0 [] :=
  ⟨by simp [EndsDigits], by simp, rfl⟩

variable {whole places rest : List Char} {exponent : Int}

theorem reading_whole (digits : whole.all isAsciiDigit = true) (known : ExponentOf exponent rest) :
    reading (whole ++ rest) = digitsValue 10 whole * (10 : ℚ) ^ exponent := by
  obtain ⟨ends, noPoint, taken⟩ := known
  have afterwards : (match rest with
      | '.' :: more => takeDigits more
      | _ => ([], rest)) = ([], rest) := by
    split
    · simp at noPoint
    · rfl
  simp only [reading, takeDigits_append digits ends, afterwards, taken]
  simp

theorem reading_places (digits : whole.all isAsciiDigit = true)
    (after : places.all isAsciiDigit = true) (known : ExponentOf exponent rest) :
    reading (whole ++ '.' :: (places ++ rest)) =
      digitsValue 10 (whole ++ places) * (10 : ℚ) ^ (exponent - places.length) := by
  obtain ⟨ends, -, taken⟩ := known
  have point : EndsDigits ('.' :: (places ++ rest)) := by
    rintro _ ⟨⟩
    decide
  simp only [reading, takeDigits_append digits point, takeDigits_append after ends, taken]

/-! What layouts write. -/

theorem digitsValue_padLeft (width : Nat) (text : List Char) :
    digitsValue 10 (padLeft width '0' text) = digitsValue 10 text := by
  rw [padLeft, digitsValue_append, digitsValue_zeros, Nat.zero_mul, Nat.zero_add]

theorem exponentOf_exponentText (n : Layout) (leading : Int) :
    ExponentOf leading (exponentText n leading) := by
  generalize size : padLeft n.exponentWidth '0' (ofNat leading.natAbs) = digits
  have all : digits.all isAsciiDigit = true := by
    rw [← size, padLeft, List.all_append, List.all_replicate, Bool.and_eq_true]
    exact ⟨by simp [isAsciiDigit], List.all_eq_true.mpr fun _ => isAsciiDigit_of_mem_ofNat⟩
  have value : digitsValue 10 digits = leading.natAbs := by
    rw [← size, digitsValue_padLeft, digitsValue_ofNat]
  have some_ : digits ≠ [] := by
    rw [← size, padLeft]
    exact List.append_ne_nil_of_right_ne_nil _ Nat.toDigits_ne_nil
  have taken : takeDigits digits = (digits, []) := by
    have ends : EndsDigits [] := by simp [EndsDigits]
    simpa using takeDigits_append all ends
  have unsigned : takeSign digits = (false, digits) := by
    cases digits with
    | nil => rfl
    | cons c more =>
        have digit := (Bool.and_eq_true_iff.mp (List.all_cons ▸ all)).1
        unfold takeSign
        split
        · rename_i same
          obtain ⟨rfl, -⟩ := List.cons.inj same
          cases digit
        · rename_i same
          obtain ⟨rfl, -⟩ := List.cons.inj same
          cases digit
        · rfl
  have shape : exponentText n leading =
      'e' :: ((if leading < 0 then ['-'] else if n.plusSign then ['+'] else []) ++ digits) := by
    rw [exponentText, size]
    rfl
  refine ⟨by rw [shape]; rintro _ ⟨⟩; decide, by rw [shape]; simp, ?_⟩
  have read : ∀ sign negative, takeSign (sign ++ digits) = (negative, digits) →
      takeExponent ('e' :: (sign ++ digits)) =
        some (if negative then -(leading.natAbs : Int) else leading.natAbs, []) := by
    intro sign negative signed
    simp [takeExponent, signed, taken, some_, value]
  rw [shape]
  by_cases negative : leading < 0
  · rw [if_pos negative, read ['-'] true rfl, if_pos rfl]
    congr
    omega
  · have positive : (leading.natAbs : Int) = leading := by omega
    rw [if_neg negative]
    cases n.plusSign
    · exact (read [] false unsigned).trans (by simp only [positive]; rfl)
    · exact (read ['+'] false rfl).trans (by simp only [positive]; rfl)

theorem exists_zeros (text : List Char) :
    ∃ count, text = trimEndWhere (· == '0') text ++ List.replicate count '0' := by
  refine ⟨(text.reverse.takeWhile (· == '0')).length, ?_⟩
  have zeros : text.reverse.takeWhile (· == '0') =
      List.replicate (text.reverse.takeWhile (· == '0')).length '0' :=
    List.eq_replicate_of_mem fun c member => by
      simpa using List.all_eq_true.mp List.all_takeWhile c member
  rw [trimEndWhere, ← List.reverse_replicate, ← zeros, ← List.reverse_append,
    List.takeWhile_append_dropWhile, List.reverse_reverse]

/-- The digits of a decimal without the zeros at their end, put against the power of ten of the
leading one. -/
theorem normalDigits_value (d : Digits) :
    d.value = digitsValue 10 (normalDigits d).1 *
      (10 : ℚ) ^ ((normalDigits d).2 + 1 - (normalDigits d).1.length) := by
  obtain ⟨count, split⟩ := exists_zeros (ofNat d.digits)
  have number : d.digits = digitsValue 10 (normalDigits d).1 * 10 ^ count := by
    conv_lhs => rw [← digitsValue_ofNat d.digits, split]
    rw [digitsValue_append, digitsValue_zeros, List.length_replicate, Nat.add_zero]
    rfl
  have size : (ofNat d.digits).length = (normalDigits d).1.length + count := by
    conv_lhs => rw [split]
    rw [List.length_append, List.length_replicate]
    rfl
  have power : (normalDigits d).2 + 1 - (normalDigits d).1.length = count + d.exponent := by
    rw [show (normalDigits d).2 = d.exponent + ((ofNat d.digits).length : Int) - 1 from rfl, size]
    push_cast
    ring
  rw [Digits.value, power, zpow_add₀ (by norm_num), zpow_natCast, ← mul_assoc]
  conv_lhs => rw [number]
  push_cast
  rfl

theorem normalDigits_all (d : Digits) : (normalDigits d).1.all isAsciiDigit = true := by
  obtain ⟨count, split⟩ := exists_zeros (ofNat d.digits)
  refine List.all_eq_true.mpr fun c member => isAsciiDigit_of_mem_ofNat (n := d.digits) ?_
  rw [split]
  exact List.mem_append_left _ member

theorem normalDigits_ne_nil {d : Digits} (positive : 0 < d.digits) : (normalDigits d).1 ≠ [] := by
  intro none_
  obtain ⟨count, split⟩ := exists_zeros (ofNat d.digits)
  rw [show trimEndWhere (· == '0') (ofNat d.digits) = [] from none_] at split
  have zero := digitsValue_ofNat d.digits
  rw [split, List.nil_append, digitsValue_zeros] at zero
  omega

/-! The three forms of a layout: zeros before the digits, a point among them or behind them, and an
exponent. -/

section Forms

variable {digits : List Char} (all : digits.all isAsciiDigit = true)

include all

theorem reading_belowOne (zeros : Nat) :
    reading ('0' :: '.' :: (List.replicate zeros '0' ++ digits)) =
      digitsValue 10 digits * (10 : ℚ) ^ (-(zeros + digits.length : Int)) := by
  have after : (List.replicate zeros '0' ++ digits).all isAsciiDigit = true := by
    rw [List.all_append, all]
    simp [isAsciiDigit]
  have whole : ['0'].all isAsciiDigit = true := by decide
  have read := reading_places whole after exponentOf_nil
  rw [List.append_nil] at read
  refine read.trans ?_
  rw [← List.append_assoc, digitsValue_append, ← List.replicate_one,
    List.replicate_append_replicate, digitsValue_zeros, Nat.zero_mul, Nat.zero_add,
    List.length_append, List.length_replicate]
  congr 2
  push_cast
  ring

theorem reading_filled (zeros : Nat) :
    reading (digits ++ List.replicate zeros '0' ++ ['.', '0']) =
      digitsValue 10 digits * (10 : ℚ) ^ (zeros : Int) := by
  have whole : (digits ++ List.replicate zeros '0').all isAsciiDigit = true := by
    rw [List.all_append, all]
    simp [isAsciiDigit]
  have places : ['0'].all isAsciiDigit = true := by decide
  refine (reading_places whole places exponentOf_nil).trans ?_
  rw [List.append_assoc, ← List.replicate_one, List.replicate_append_replicate,
    digitsValue_append, digitsValue_zeros, Nat.add_zero, List.length_replicate,
    List.length_replicate, Nat.cast_mul, mul_assoc, Nat.cast_pow, ← zpow_natCast]
  rw [show ((10 : Nat) : ℚ) = 10 from rfl, ← zpow_add₀ (by norm_num)]
  congr 2
  push_cast
  ring

theorem reading_parted (whole : Nat) :
    reading (digits.take whole ++ '.' :: digits.drop whole) =
      digitsValue 10 digits * (10 : ℚ) ^ (-((digits.drop whole).length : Int)) := by
  have parts := Bool.and_eq_true_iff.mp
    (List.all_append ▸ (List.take_append_drop whole digits).symm ▸ all)
  have read := reading_places parts.1 parts.2 exponentOf_nil
  rwa [List.append_nil, List.take_append_drop, zero_sub] at read

end Forms

theorem reading_magnitude (n : Layout) {d : Digits} (positive : 0 < d.digits) :
    reading (magnitude n d) = d.value := by
  rw [normalDigits_value]
  have all := normalDigits_all d
  have some_ := normalDigits_ne_nil positive
  unfold magnitude
  generalize normalDigits d = normal at *
  obtain ⟨digits, leading⟩ := normal
  dsimp only at *
  split
  · split
    · refine (reading_belowOne all _).trans ?_
      congr 2
      omega
    · rename_i high
      obtain ⟨place, rfl⟩ := Int.eq_ofNat_of_zero_le (not_lt.mp high)
      simp only [Int.toNat_natCast]
      by_cases short : digits.length ≤ place + 1
      · rw [List.take_of_length_le short, List.drop_of_length_le short]
        refine (reading_filled all _).trans ?_
        congr 2
        push_cast [Nat.cast_sub short]
        rfl
      · have more : digits.drop (place + 1) ≠ [] := by
          simpa [List.drop_eq_nil_iff] using short
        have taken : (digits.take (place + 1)).length = place + 1 :=
          List.length_take_of_le (by omega)
        rw [taken, Nat.sub_self, List.replicate_zero, List.append_nil,
          if_neg (by simpa using more)]
        refine (reading_parted all _).trans ?_
        rw [List.length_drop]
        congr 2
        push_cast [Nat.cast_sub (show place + 1 ≤ digits.length by omega)]
        omega
  · cases digits with
    | nil => exact absurd rfl some_
    | cons first more =>
        obtain ⟨digit, others⟩ := Bool.and_eq_true_iff.mp (List.all_cons ▸ all)
        have lone : [first].all isAsciiDigit = true := by simp [digit]
        have known := exponentOf_exponentText n leading
        cases more with
        | nil =>
            refine (reading_whole lone known).trans ?_
            congr 2
            simp
        | cons second more =>
            refine (reading_places lone others known).trans ?_
            congr 2
            push_cast [List.length_cons]
            omega

theorem exists_digit_magnitude (n : Layout) {d : Digits} (positive : 0 < d.digits) :
    ∃ c rest, magnitude n d = c :: rest ∧ isAsciiDigit c = true := by
  have all := normalDigits_all d
  have some_ := normalDigits_ne_nil positive
  unfold magnitude
  generalize normalDigits d = normal at *
  obtain ⟨digits, leading⟩ := normal
  cases digits with
  | nil => exact absurd rfl some_
  | cons first more =>
      have digit := (Bool.and_eq_true_iff.mp (List.all_cons ▸ all)).1
      dsimp only
      split
      · split
        · exact ⟨_, _, rfl, by decide⟩
        · exact ⟨_, _, rfl, digit⟩
      · exact ⟨_, _, rfl, digit⟩

/-! Texts of doubles. -/

/-- A double that is neither infinite nor no number. -/
def IsFinite (x : Float) : Prop :=
  ∃ negative mantissa exponent, parts x = .finite negative mantissa exponent

def Layout.HasWords (n : Layout) : Prop :=
  ∀ word ∈ [n.notANumber, n.infinity], ∃ c rest, word.toList = c :: rest ∧
    isAsciiDigit c = false ∧ c ≠ '-'

theorem hasWords_encoded : encoded.HasWords := by
  simp [Layout.HasWords, encoded, isAsciiDigit]

theorem hasWords_plain : plain.HasWords := by
  simp [Layout.HasWords, plain, isAsciiDigit]

def unsignedText (n : Layout) (mantissa : Nat) (exponent : Int) : List Char :=
  if mantissa == 0 then "0.0".toList else magnitude n (shortest mantissa exponent)

section Positive

variable {mantissa : Nat} {exponent : Int} (double : IsDouble mantissa exponent)

include double

theorem shortest_value_pos : 0 < (shortest mantissa exponent).value := by
  have whole : (1 : ℚ) ≤ mantissa := by exact_mod_cast double.positive
  have half : (0 : ℚ) < 2 ^ (exponent - 1) := by positivity
  calc (0 : ℚ) < (2 * mantissa - 1) * 2 ^ (exponent - 1) := mul_pos (by linarith) half
    _ ≤ lowest mantissa exponent := lowest_ge mantissa exponent
    _ ≤ (shortest mantissa exponent).value := (rounds_shortest double).above

theorem shortest_digits_pos : 0 < (shortest mantissa exponent).digits := by
  refine Nat.pos_of_ne_zero fun zero => ?_
  have positive := shortest_value_pos double
  simp [Digits.value, zero] at positive

end Positive

variable {x y : Float} {negative : Bool} {mantissa : Nat} {exponent : Int}

theorem text_of_parts (n : Layout) (known : parts x = .finite negative mantissa exponent) :
    text n x = if negative then '-' :: unsignedText n mantissa exponent
      else unsignedText n mantissa exponent := by
  simp only [text, known]
  rfl

theorem reading_unsignedText (n : Layout) (known : parts x = .finite negative mantissa exponent) :
    reading (unsignedText n mantissa exponent) =
      if mantissa = 0 then 0 else (shortest mantissa exponent).value := by
  rw [unsignedText]
  by_cases zero : mantissa = 0
  · have single : ['0'].all isAsciiDigit = true := by decide
    have read := reading_filled single 0
    rw [if_pos (by simpa using zero), if_pos zero]
    exact read.trans (by simp [digitsValue])
  · rw [if_neg (by simpa using zero), if_neg zero]
    exact reading_magnitude n (shortest_digits_pos (isDouble_of_parts known zero))

theorem exists_digit_unsignedText (n : Layout)
    (known : parts x = .finite negative mantissa exponent) :
    ∃ c rest, unsignedText n mantissa exponent = c :: rest ∧ isAsciiDigit c = true := by
  rw [unsignedText]
  by_cases zero : mantissa = 0
  · rw [if_pos (by simpa using zero)]
    exact ⟨'0', ['.', '0'], by simp, by decide⟩
  · rw [if_neg (by simpa using zero)]
    exact exists_digit_magnitude n (shortest_digits_pos (isDouble_of_parts known zero))

def StartsNumber (text : List Char) : Prop :=
  ∃ c rest, (text = c :: rest ∨ text = '-' :: c :: rest) ∧ isAsciiDigit c = true

theorem startsNumber_text_iff {n : Layout} (words : n.HasWords) :
    StartsNumber (text n x) ↔ IsFinite x := by
  have noNumber : ∀ word ∈ [n.notANumber, n.infinity], ¬ StartsNumber word.toList ∧
      ¬ StartsNumber ('-' :: word.toList) := by
    intro word member
    obtain ⟨c, rest, shape, first, unsigned⟩ := words word member
    rw [shape]
    constructor
    · rintro ⟨d, more, same | same, digit⟩
      · exact absurd ((List.cons.inj same).1 ▸ digit) (by simp [first])
      · exact absurd (List.cons.inj same).1 unsigned
    · rintro ⟨d, more, same | same, digit⟩
      · exact absurd ((List.cons.inj same).1 ▸ digit) (by decide)
      · exact absurd ((List.cons.inj (List.cons.inj same).2).1 ▸ digit) (by simp [first])
  constructor
  · intro starts
    cases known : parts x with
    | finite negative mantissa exponent => exact ⟨negative, mantissa, exponent, known⟩
    | nan =>
        simp only [text, known] at starts
        exact absurd starts (noNumber n.notANumber (by simp)).1
    | infinite negative =>
        simp only [text, known] at starts
        split at starts
        · exact absurd starts (noNumber n.infinity (by simp)).1
        · exact absurd starts (noNumber n.infinity (by simp)).2
  · rintro ⟨negative, mantissa, exponent, known⟩
    obtain ⟨c, rest, shape, digit⟩ := exists_digit_unsignedText n known
    rw [text_of_parts n known, shape]
    cases negative
    · exact ⟨c, rest, .inl rfl, digit⟩
    · exact ⟨c, rest, .inr rfl, digit⟩

theorem text_encoded_of_not (infinite : ¬ IsFinite x) : text encoded x = "null".toList := by
  cases known : parts x with
  | finite negative mantissa exponent => exact absurd ⟨negative, mantissa, exponent, known⟩ infinite
  | nan => simp only [text, known, encoded]
  | infinite negative => simp [text, known, encoded]

theorem eq_of_text {n : Layout} (words : n.HasWords) (finite : IsFinite x)
    (same : text n x = text n y) : x = y := by
  have alsoFinite : IsFinite y := by
    rwa [← startsNumber_text_iff words, ← same, startsNumber_text_iff words]
  obtain ⟨negative, mantissa, exponent, here⟩ := finite
  obtain ⟨sign, size, power, there⟩ := alsoFinite
  obtain ⟨c, rest, shape, digit⟩ := exists_digit_unsignedText n here
  obtain ⟨d, more, shapeToo, digitToo⟩ := exists_digit_unsignedText n there
  rw [text_of_parts n here, text_of_parts n there] at same
  have unsigned : negative = sign ∧
      unsignedText n mantissa exponent = unsignedText n size power := by
    cases negative <;> cases sign
    · exact ⟨rfl, same⟩
    · rw [shape] at same
      exact absurd ((List.cons.inj same).1 ▸ digit) (by decide)
    · rw [shapeToo] at same
      exact absurd ((List.cons.inj same).1.symm ▸ digitToo) (by decide)
    · exact ⟨rfl, (List.cons.inj same).2⟩
  obtain ⟨rfl, bodies⟩ := unsigned
  have values := congrArg reading bodies
  rw [reading_unsignedText n here, reading_unsignedText n there] at values
  by_cases zero : mantissa = 0
  · by_cases zeroToo : size = 0
    · subst zero zeroToo
      obtain rfl : exponent = power := (exponent_of_zero here).trans (exponent_of_zero there).symm
      exact parts_injective (here.trans there.symm)
    · rw [if_pos zero, if_neg zeroToo] at values
      exact absurd values (shortest_value_pos (isDouble_of_parts there zeroToo)).ne
  · by_cases zeroToo : size = 0
    · rw [if_neg zero, if_pos zeroToo] at values
      exact absurd values (shortest_value_pos (isDouble_of_parts here zero)).ne'
    · rw [if_neg zero, if_neg zeroToo] at values
      obtain ⟨rfl, rfl⟩ :=
        eq_of_shortest (isDouble_of_parts here zero) (isDouble_of_parts there zeroToo) values
      exact parts_injective (here.trans there.symm)

theorem text_encoded_eq_iff :
    text encoded x = text encoded y ↔ x = y ∨ ¬ IsFinite x ∧ ¬ IsFinite y := by
  constructor
  · intro same
    by_cases finite : IsFinite x
    · exact .inl (eq_of_text hasWords_encoded finite same)
    · refine .inr ⟨finite, ?_⟩
      rwa [← startsNumber_text_iff hasWords_encoded, ← same, startsNumber_text_iff hasWords_encoded]
  · rintro (rfl | ⟨here, there⟩)
    · rfl
    · rw [text_encoded_of_not here, text_encoded_of_not there]

theorem text_plain_injective : Function.Injective (text plain) := by
  intro x y same
  by_cases finite : IsFinite x
  · exact eq_of_text hasWords_plain finite same
  · have finiteToo : ¬ IsFinite y := by
      rwa [← startsNumber_text_iff hasWords_plain, ← same, startsNumber_text_iff hasWords_plain]
    refine parts_injective ?_
    cases here : parts x with
    | finite negative mantissa exponent => exact absurd ⟨_, _, _, here⟩ finite
    | nan =>
        cases there : parts y with
        | finite negative mantissa exponent => exact absurd ⟨_, _, _, there⟩ finiteToo
        | nan => rfl
        | infinite negative => cases negative <;> simp [text, here, there, plain] at same
    | infinite negative =>
        cases there : parts y with
        | finite negative mantissa exponent => exact absurd ⟨_, _, _, there⟩ finiteToo
        | nan => cases negative <;> simp [text, here, there, plain] at same
        | infinite sign => cases negative <;> cases sign <;> simp [text, here, there, plain] at same ⊢

end StatusLine.Decimal

/-!
The shortest decimal that reads back as a given double.

A finite double stands for an interval of reals that round to it. For one digit, two digits and so
on, the two neighbours of the value on that decimal grid are tested, and the first grid with a
neighbour in the interval gives the digits.
-/

namespace StatusLine.Decimal

/-- A double taken apart. A finite one is `mantissa * 2 ^ exponent`, negated if `negative`. -/
inductive Parts
  | nan
  | infinite (negative : Bool)
  | finite (negative : Bool) (mantissa : Nat) (exponent : Int)
  deriving Repr, DecidableEq

def parts (x : Float) : Parts :=
  let bits : Nat := x.toBits.toNat
  let negative := bits / Nat.pow 2 63 == 1
  let field : Nat := bits / Nat.pow 2 52 % 2048
  let fraction : Nat := bits % Nat.pow 2 52
  if field == 2047 then (if fraction == 0 then .infinite negative else .nan)
  else if field == 0 then .finite negative fraction (-1074)
  else .finite negative (fraction + Nat.pow 2 52) ((field : Int) - 1075)

structure Ratio where
  num : Nat
  den : Nat
  deriving Repr, DecidableEq

def Ratio.scaled (mantissa base : Nat) : Int → Ratio
  | .ofNat n => ⟨mantissa * Nat.pow base n, 1⟩
  | .negSucc n => ⟨mantissa, Nat.pow base (n + 1)⟩

def Ratio.le (a b : Ratio) : Bool :=
  a.num * b.den ≤ b.num * a.den

def Ratio.lt (a b : Ratio) : Bool :=
  a.num * b.den < b.num * a.den

/-- Raises or lowers a guessed position until the fraction lies between the powers of ten before
and at it. -/
def settlePosition (value : Ratio) : (fuel : Nat) → Int → Int
  | 0, guess => guess
  | fuel + 1, guess =>
      if Ratio.le (Ratio.scaled 1 10 guess) value then settlePosition value fuel (guess + 1)
      else if Ratio.lt value (Ratio.scaled 1 10 (guess - 1)) then
        settlePosition value fuel (guess - 1)
      else guess

def position (value : Ratio) : Int :=
  let bits := (Nat.log2 value.num : Int) - Nat.log2 value.den
  settlePosition value 8 (Int.fdiv (bits * 30103) 100000 + 1)

structure Digits where
  digits : Nat
  exponent : Int
  deriving Repr, DecidableEq

/-- The nearer of two neighbours on a decimal grid that lie in the interval, a tie going to the
even one. -/
def pick (value : Ratio) (unit : Int) (inside : Ratio → Bool) : Option Digits :=
  let below :=
    match unit with
    | .ofNat n => value.num / (value.den * Nat.pow 10 n)
    | .negSucc n => value.num * Nat.pow 10 (n + 1) / value.den
  let low := Ratio.scaled below 10 unit
  let high := Ratio.scaled (below + 1) 10 unit
  match inside low, inside high with
  | false, false => none
  | true, false => some ⟨below, unit⟩
  | false, true => some ⟨below + 1, unit⟩
  | true, true =>
      let gapBelow := (value.num * low.den - low.num * value.den) * high.den
      let gapAbove := (high.num * value.den - value.num * high.den) * low.den
      if gapBelow < gapAbove || (gapBelow == gapAbove && below % 2 == 0) then some ⟨below, unit⟩
      else some ⟨below + 1, unit⟩

def firstGrid (value : Ratio) (top : Int) (inside : Ratio → Bool) : (fuel tried : Nat) → Digits
  | 0, _ => ⟨0, 0⟩
  | fuel + 1, tried =>
      match pick value (top - (tried + 1)) inside with
      | some found => found
      | none => firstGrid value top inside fuel (tried + 1)

/-- The shortest decimal in the interval around `mantissa * 2 ^ exponent`, for a positive mantissa.
The interval is closed for an even mantissa, and its lower half is halved at a power of two. -/
def shortest (mantissa : Nat) (exponent : Int) : Digits :=
  let value := Ratio.scaled mantissa 2 exponent
  let narrow := mantissa == Nat.pow 2 52 && exponent > -1074
  let lowest :=
    if narrow then Ratio.scaled (4 * mantissa - 1) 2 (exponent - 2)
    else Ratio.scaled (2 * mantissa - 1) 2 (exponent - 1)
  let highest := Ratio.scaled (2 * mantissa + 1) 2 (exponent - 1)
  let closed := mantissa % 2 == 0
  let inside (r : Ratio) :=
    if closed then lowest.le r && r.le highest else lowest.lt r && r.lt highest
  firstGrid value (position value) inside 18 0

end StatusLine.Decimal

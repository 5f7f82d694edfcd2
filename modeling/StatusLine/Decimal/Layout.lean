import StatusLine.Decimal.Shortest
import StatusLine.Text.Quoting

/-!
Decimal texts of doubles: the shortest form in a given layout, and a form with a fixed number of
places.
-/

namespace StatusLine.Decimal

open StatusLine.Text (ofNat ofInt)

/-- Where a layout switches to an exponent, and how it writes one. -/
structure Layout where
  /-- The least power of ten of a leading digit that is still written without an exponent. -/
  least : Int
  /-- The first power of ten of a leading digit that is written with an exponent. -/
  limit : Int
  plusSign : Bool
  exponentWidth : Nat
  notANumber : String
  infinity : String

def plain : Layout := ⟨-4, 16, true, 2, "nan", "inf"⟩

def encoded : Layout := ⟨-5, 16, false, 1, "null", "null"⟩

def padLeft (width : Nat) (fill : Char) (text : List Char) : List Char :=
  List.replicate (width - text.length) fill ++ text

def normalDigits (d : Digits) : List Char × Int :=
  let all := ofNat d.digits
  (Text.trimEndWhere (· == '0') all, d.exponent + (all.length : Int) - 1)

def exponentText (n : Layout) (leading : Int) : List Char :=
  let sign := if leading < 0 then ['-'] else if n.plusSign then ['+'] else []
  'e' :: sign ++ padLeft n.exponentWidth '0' (ofNat leading.natAbs)

/-- A positive decimal without a sign. -/
def magnitude (n : Layout) (d : Digits) : List Char :=
  let (digits, leading) := normalDigits d
  if n.least ≤ leading ∧ leading < n.limit then
    if leading < 0 then
      '0' :: '.' :: List.replicate ((-leading).toNat - 1) '0' ++ digits
    else
      let whole := leading.toNat + 1
      let before := digits.take whole
      let after := digits.drop whole
      before ++ List.replicate (whole - before.length) '0' ++ '.' ::
        (if after.isEmpty then ['0'] else after)
  else
    match digits with
    | [] => []
    | first :: more =>
        first :: (if more.isEmpty then [] else '.' :: more) ++ exponentText n leading

def text (n : Layout) (x : Float) : List Char :=
  match parts x with
  | .nan => n.notANumber.toList
  | .infinite negative =>
      if n.infinity == "null" || !negative then n.infinity.toList else '-' :: n.infinity.toList
  | .finite negative mantissa exponent =>
      let body := if mantissa == 0 then "0.0".toList else magnitude n (shortest mantissa exponent)
      if negative then '-' :: body else body

def roundedQuotient (num den : Nat) : Nat :=
  let whole := num / den
  let left := 2 * (num % den)
  if left > den || (left == den && whole % 2 == 1) then whole + 1 else whole

def roundedUnits (places : Nat) (value : Ratio) : Nat :=
  roundedQuotient (value.num * Nat.pow 10 places) value.den

def fixed (places : Nat) (x : Float) : List Char :=
  match parts x with
  | .nan => "nan".toList
  | .infinite negative => if negative then "-inf".toList else "inf".toList
  | .finite negative mantissa exponent =>
      let units := roundedUnits places (Ratio.scaled mantissa 2 exponent)
      let all := padLeft (places + 1) '0' (ofNat units)
      let whole := all.take (all.length - places)
      let body := if places == 0 then whole else whole ++ '.' :: all.drop (all.length - places)
      if negative then '-' :: body else body

def round (places : Nat) (x : Float) : Float :=
  match parts x with
  | .finite negative mantissa exponent =>
      let units := roundedUnits places (Ratio.scaled mantissa 2 exponent)
      let size := Float.ofScientific units true places
      if negative then -size else size
  | _ => x

end StatusLine.Decimal

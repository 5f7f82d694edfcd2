import StatusLine.Text.Quoting

/-!
Reading whole numbers and doubles from text: a sign, digits with single underscores between them, a
point, an exponent, and the names of what is not finite.
-/

namespace StatusLine.Decimal

open StatusLine.Text

def digitsValue (base : Nat) (digits : List Char) : Nat :=
  digits.foldl (fun total c =>
    let digit :=
      if isAsciiDigit c then c.toNat - 48
      else if 'a' ≤ c ∧ c ≤ 'z' then c.toNat - 87
      else c.toNat - 55
    total * base + digit) 0

/-- Splits off a sign; the flag says whether it was a minus. -/
def takeSign : List Char → Bool × List Char
  | '-' :: rest => (true, rest)
  | '+' :: rest => (false, rest)
  | text => (false, text)

/-- A run of digits, with the underscores that stand singly between two of them left out, and what
follows. The flag says that a digit has just been read. -/
def takeDigitsFrom : (afterDigit : Bool) → List Char → List Char × List Char
  | _, [] => ([], [])
  | afterDigit, c :: rest =>
      if isAsciiDigit c then
        let (digits, left) := takeDigitsFrom true rest
        (c :: digits, left)
      else if afterDigit && c == '_' && (rest.head?.map isAsciiDigit).getD false then
        takeDigitsFrom false rest
      else ([], c :: rest)

def takeDigits (text : List Char) : List Char × List Char :=
  takeDigitsFrom false text

def lower (text : List Char) : List Char :=
  text.map fun c => if 'A' ≤ c ∧ c ≤ 'Z' then Char.ofNat (c.toNat + 32) else c

def nearest (digits : Nat) (exponent : Int) : Float :=
  let size := (ofNat digits).length
  if digits == 0 then 0.0
  else if exponent + size > 400 then 1.0 / 0.0
  else if exponent + size < -400 then 0.0
  else match exponent with
    | .ofNat n => Float.ofScientific digits false n
    | .negSucc n => Float.ofScientific digits true (n + 1)

def takeExponent (text : List Char) : Option (Int × List Char) :=
  match text with
  | [] => some (0, [])
  | mark :: rest =>
      if mark == 'e' || mark == 'E' then
        let (negative, unsigned) := takeSign rest
        let (digits, left) := takeDigits unsigned
        if digits.isEmpty then none
        else
          let size : Int := digitsValue 10 digits
          some (if negative then -size else size, left)
      else none

/-- A double written with digits before or after the point, in full. -/
def readUnsigned (text : List Char) : Option Float :=
  let word := lower text
  if word == "inf".toList || word == "infinity".toList then some (1.0 / 0.0)
  else if word == "nan".toList then some (0.0 / 0.0)
  else
    let (whole, afterWhole) := takeDigits text
    let (places, afterPlaces) :=
      match afterWhole with
      | '.' :: rest => takeDigits rest
      | _ => ([], afterWhole)
    if whole.isEmpty && places.isEmpty then none
    else match takeExponent afterPlaces with
      | some (exponent, []) =>
          some (nearest (digitsValue 10 (whole ++ places)) (exponent - places.length))
      | _ => none

def readFloat (text : List Char) : Option Float :=
  let (negative, unsigned) := takeSign text
  (readUnsigned unsigned).map fun x => if negative then -x else x

def readInt (text : List Char) : Option Int :=
  let (negative, unsigned) := takeSign text
  let (digits, rest) := takeDigits unsigned
  let tailIsZero :=
    match rest with
    | [] => true
    | '.' :: '0' :: zeros => zeros.all (· == '0')
    | _ => false
  if digits.isEmpty || !tailIsZero then none
  else
    let size : Int := digitsValue 10 digits
    some (if negative then -size else size)

end StatusLine.Decimal

import StatusLine.Datum.Listing
import StatusLine.Decimal.Reading
import StatusLine.Failure

/-!
Numbers among dynamic values: comparing, lowering and halving them. Other values are refused with
the names of the two kinds and the sign of the operation.
-/

namespace StatusLine.Datum

def Quantity.datum : Quantity → Datum
  | whole n => int n
  | real x => float x

def Quantity.isRealAbove (x : Float) (n : Int) : Bool :=
  match Decimal.parts x with
  | .nan => false
  | .infinite negative => !negative
  | .finite negative mantissa exponent =>
      let size : Int := if negative then -mantissa else mantissa
      match exponent with
      | .ofNat shift => n < size * Int.ofNat (Nat.pow 2 shift)
      | .negSucc shift => n * Int.ofNat (Nat.pow 2 (shift + 1)) < size

/-- Whether a quantity is strictly above another one; nothing is above or below what is no number. -/
def Quantity.isAbove : Quantity → Quantity → Bool
  | whole a, whole b => b < a
  | real a, real b => b < a
  | real a, whole b => isRealAbove a b
  | whole a, real b => isRealAbove (-b) (-a)

def refusedPair (a b : Datum) : String :=
  "'" ++ a.kindName ++ "' and '" ++ b.kindName ++ "'"

def refusedSign (sign : String) (a b : Datum) : Failure :=
  .wrongKind ("unsupported operand type(s) for " ++ sign ++ ": " ++ refusedPair a b)

def isAbove (a b : Datum) : Except Failure Bool :=
  match a.quantity?, b.quantity? with
  | some x, some y => .ok (x.isAbove y)
  | _, _ =>
      .error (.wrongKind ("'>' not supported between instances of " ++ refusedPair a b))

/-- The larger of two numbers; the first one unless the second is above it. -/
def larger (first second : Datum) : Except Failure Datum :=
  (second.isAbove first).map fun above => if above then second else first

def lessBy (amount : Nat) (value : Datum) : Except Failure Datum :=
  match value.quantity? with
  | some (.whole n) => .ok (int (n - amount))
  | some (.real x) => .ok (float (x - Float.ofNat amount))
  | none => .error (refusedSign "-" value (int amount))

def halfOfWhole (n : Int) : Except Failure Float :=
  let size := Decimal.nearest (n.natAbs * 5) (-1)
  if size.isInf then
    .error (.other "OverflowError" "integer division result too large for a float")
  else .ok (if n < 0 then -size else size)

def half (value : Datum) : Except Failure Datum :=
  match value.quantity? with
  | some (.whole n) => (halfOfWhole n).map float
  | some (.real x) => .ok (float (x / 2.0))
  | none => .error (refusedSign "/" value (int 2))

def spelledFloat (value : Datum) (text : List Char) : Except Failure Float :=
  match Decimal.readFloat text with
  | some x => .ok x
  | none =>
      .error (.outOfRange ("could not convert string to float: " ++ String.ofList value.listing))

def isByteBlank (c : Char) : Bool :=
  c == ' ' || (9 ≤ c.toNat && c.toNat ≤ 13)

/-- The double that a text, bytes, a whole number or a truth value stands for. -/
def toFloat (value : Datum) : Except Failure Float :=
  match value with
  | text word => spelledFloat value ((Text.trim word.toList).map Text.asciiDigit)
  | bytes held =>
      spelledFloat value (Text.trimWhere isByteBlank (held.map fun b => Char.ofNat b.toNat))
  | value =>
      match value.quantity? with
      | some (.real x) => .ok x
      | some (.whole n) =>
          let size := Decimal.nearest n.natAbs 0
          if size.isInf then .error (.other "OverflowError" "int too large to convert to float")
          else .ok (if n < 0 then -size else size)
      | none =>
          .error (.wrongKind ("float() argument must be a string or a real number, not '" ++
            value.kindName ++ "'"))

end StatusLine.Datum

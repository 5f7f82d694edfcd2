import StatusLine.Decimal.Layout
import StatusLine.PathName

/-!
Dynamic values: what documents, requests and fingerprints are made of, with the equality of sets and
keys, and the truth of a condition.
-/

namespace StatusLine

/-- The name of a kind of values, and the module that the kind is from; the kinds of plain data are
from none. -/
structure ValueKind where
  home : String
  name : String
  deriving Repr, DecidableEq

namespace ValueKind

def plain (name : String) : ValueKind :=
  ⟨"", name⟩

def fullName (kind : ValueKind) : String :=
  if kind.home == "" then kind.name else kind.home ++ "." ++ kind.name

def owner (kind : ValueKind) : String :=
  kind.fullName ++ " object"

end ValueKind

structure RecordKind extends ValueKind where
  /-- Whether the fields have been checked. Such a record can be walked over field by field, and
  running text shows it without its name. -/
  isChecked : Bool
  deriving Repr, DecidableEq

inductive Datum
  | null
  | bool (value : Bool)
  | int (value : Int)
  | float (value : Float)
  | text (value : String)
  | bytes (value : List UInt8)
  | list (items : List Datum)
  | tuple (items : List Datum)
  /-- A set that can grow. -/
  | set (items : List Datum)
  /-- A set that stays as it is, so that it can be an element or a key. -/
  | frozenSet (items : List Datum)
  | mapping (entries : List (Datum × Datum))
  /-- A value with named fields. -/
  | record (made : RecordKind) (fields : List (String × Datum))
  | path (value : PathName)
  /-- A named constant that stands for another value. -/
  | member (value : Datum)
  /-- A kind of values. -/
  | kind (value : ValueKind)
  /-- A value of any other kind, with its printed form and what can be told about it. -/
  | thing (named : ValueKind) (shown : String) (parts : List (String × Datum))
  deriving Repr, Inhabited

namespace Datum

def textKind : ValueKind :=
  .plain "str"

def memberKind : ValueKind :=
  ⟨"__main__", "E"⟩

def valueKind : Datum → ValueKind
  | null => .plain "NoneType"
  | bool _ => .plain "bool"
  | int _ => .plain "int"
  | float _ => .plain "float"
  | text _ => textKind
  | bytes _ => .plain "bytes"
  | list _ => .plain "list"
  | tuple _ => .plain "tuple"
  | set _ => .plain "set"
  | frozenSet _ => .plain "frozenset"
  | mapping _ => .plain "dict"
  | record made _ => made.toValueKind
  | path _ => ⟨"pathlib", "PosixPath"⟩
  | member _ => memberKind
  | kind _ => .plain "type"
  | thing named _ _ => named

def kindName (value : Datum) : String :=
  value.valueKind.name

def ownerName : Datum → String
  | null => "None"
  | value => value.valueKind.owner

inductive Quantity
  | whole (value : Int)
  | real (value : Float)
  deriving Repr

def quantity? : Datum → Option Quantity
  | bool value => some (.whole (if value then 1 else 0))
  | int value => some (.whole value)
  | float value => some (.real value)
  | _ => none

def isWhole (x : Float) (n : Int) : Bool :=
  match Decimal.parts x with
  | .finite negative mantissa exponent =>
      let size : Int := if negative then -mantissa else mantissa
      match exponent with
      | .ofNat shift => size * Int.ofNat (Nat.pow 2 shift) == n
      | .negSucc shift => size == n * Int.ofNat (Nat.pow 2 (shift + 1))
  | _ => false

def Quantity.same : Quantity → Quantity → Bool
  | whole a, whole b => a == b
  | real a, real b => a == b
  | whole a, real b => isWhole b a
  | real a, whole b => isWhole a b

mutual

/-- The equality that decides whether two values are one element of a set or one key. Every named
constant is one of its own, and things that can be told apart only by their form are told apart by
it. -/
def same : Datum → Datum → Bool
  | null, null => true
  | text a, text b => a == b
  | bytes a, bytes b => a == b
  | list a, list b => sameItems a b
  | tuple a, tuple b => sameItems a b
  | path a, path b => a == b
  | kind a, kind b => a == b
  | thing a form [], thing b other [] => a == b && form == other
  | thing a _ parts, thing b _ others => a == b && sameFields parts others
  | record a fields, record b others => a == b && sameFields fields others
  | set a, set b | set a, frozenSet b | frozenSet a, set b | frozenSet a, frozenSet b =>
      a.length == b.length && allAmong a b
  | mapping a, mapping b => a.length == b.length && allEntriesAmong a b
  | a, b =>
      match quantity? a, quantity? b with
      | some x, some y => x.same y
      | _, _ => false

def sameItems : List Datum → List Datum → Bool
  | [], [] => true
  | a :: rest, b :: others => same a b && sameItems rest others
  | _, _ => false

def sameFields : List (String × Datum) → List (String × Datum) → Bool
  | [], [] => true
  | (name, a) :: rest, (label, b) :: others => name == label && same a b && sameFields rest others
  | _, _ => false

def allAmong : List Datum → List Datum → Bool
  | [], _ => true
  | a :: rest, others => others.any (fun b => same a b) && allAmong rest others

def allEntriesAmong : List (Datum × Datum) → List (Datum × Datum) → Bool
  | [], _ => true
  | (key, value) :: rest, others =>
      others.any (fun entry => same key entry.1 && same value entry.2) && allEntriesAmong rest others

end

instance : BEq Datum := ⟨same⟩

def distinct : List Datum → List Datum
  | [] => []
  | item :: rest => item :: (distinct rest).filter fun other => !same item other

def bind (key value : Datum) : List (Datum × Datum) → List (Datum × Datum)
  | [] => [(key, value)]
  | (label, old) :: rest =>
      if same label key then (label, value) :: rest else (label, old) :: bind key value rest

def lookup (key : Datum) : List (Datum × Datum) → Option Datum
  | [] => none
  | (label, value) :: rest => if same label key then some value else lookup key rest

def ofEntries (entries : List (Datum × Datum)) : Datum :=
  mapping (entries.foldl (fun bound (key, value) => bind key value bound) [])

def get? (name : String) : Datum → Option Datum
  | mapping entries => lookup (text name) entries
  | record _ fields => (fields.find? fun field => field.1 == name).map Prod.snd
  | _ => none

def object (fields : List (String × Datum)) : Datum :=
  mapping (fields.map fun (name, value) => (text name, value))

def field (value : Datum) (name : String) : Datum :=
  (value.get? name).getD null

def isNull : Datum → Bool
  | null => true
  | _ => false

/-- What a walk through a value meets: elements, keys, characters, bytes, or the fields of a checked
record with their names. -/
def items? : Datum → Option (List Datum)
  | list items | tuple items | set items | frozenSet items => some items
  | mapping entries => some (entries.map Prod.fst)
  | text value => some (value.toList.map fun c => text (String.ofList [c]))
  | bytes value => some (value.map fun b => int b.toNat)
  | record made fields =>
      if made.isChecked then some (fields.map fun (name, value) => tuple [text name, value])
      else none
  | _ => none

def items (value : Datum) : List Datum :=
  value.items?.getD []

def entries : Datum → List (Datum × Datum)
  | mapping entries => entries
  | _ => []

def integer : Datum → Int
  | int value => value
  | bool value => if value then 1 else 0
  | _ => 0

def isTruthy : Datum → Bool
  | null => false
  | bool value => value
  | int value => value != 0
  | float value => !(value == 0.0)
  | text value => value != ""
  | bytes value => !value.isEmpty
  | list items | tuple items | set items | frozenSet items => !items.isEmpty
  | mapping entries => !entries.isEmpty
  | _ => true

/-- Whether the value under a name counts as true; names that are not there have a default. -/
def flag (value : Datum) (name : String) (fallback : Bool) : Bool :=
  ((value.get? name).map isTruthy).getD fallback

end Datum

end StatusLine

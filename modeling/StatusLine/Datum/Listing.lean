import StatusLine.Datum.Basic

/-!
The two printed forms of dynamic values: the one inside a listing, which tells kinds apart, and the
one in running text.
-/

namespace StatusLine.Datum

def hexByte (b : UInt8) : List Char :=
  Text.hexDigits 2 b.toNat

def listedBytes (bytes : List UInt8) : List Char :=
  let hasSingle := bytes.contains 39
  let hasDouble := bytes.contains 34
  let quote := if hasSingle && !hasDouble then '"' else '\''
  let shown (b : UInt8) : List Char :=
    let c := Char.ofNat b.toNat
    if c = quote ∨ c = '\\' then ['\\', c]
    else if c = '\n' then ['\\', 'n']
    else if c = '\r' then ['\\', 'r']
    else if c = '\t' then ['\\', 't']
    else if 32 ≤ b.toNat ∧ b.toNat < 127 then [c]
    else '\\' :: 'x' :: hexByte b
  'b' :: quote :: bytes.flatMap shown ++ [quote]

def memberName : String :=
  memberKind.name ++ ".X"

def commaSeparated (pieces : List (List Char)) : List Char :=
  Text.joinWith [',', ' '] pieces

def tupleListing : List (List Char) → List Char
  | [piece] => '(' :: piece ++ [',', ')']
  | pieces => '(' :: commaSeparated pieces ++ [')']

mutual

/-- The form of a value inside a listing. -/
def listing : Datum → List Char
  | null => "None".toList
  | bool value => if value then "True".toList else "False".toList
  | int value => Text.ofInt value
  | float value => Decimal.text Decimal.plain value
  | text value => Text.listed value.toList
  | bytes value => listedBytes value
  | list items => '[' :: commaSeparated (listings items) ++ [']']
  | tuple items => tupleListing (listings items)
  | set items =>
      if items.isEmpty then "set()".toList
      else '\x7b' :: commaSeparated (listings items) ++ ['\x7d']
  | frozenSet items =>
      "frozenset(".toList ++
        (if items.isEmpty then [] else '\x7b' :: commaSeparated (listings items) ++ ['\x7d']) ++ [')']
  | mapping entries => '\x7b' :: commaSeparated (entryListings entries) ++ ['\x7d']
  | record made fields => made.name.toList ++ '(' :: commaSeparated (fieldListings fields) ++ [')']
  | path value => "PosixPath(".toList ++ Text.listed value.chars ++ [')']
  | member value => '<' :: memberName.toList ++ ": ".toList ++ listing value ++ ['>']
  | kind value => "<class ".toList ++ Text.listed value.fullName.toList ++ ['>']
  | thing _ shown _ => shown.toList

def listings : List Datum → List (List Char)
  | [] => []
  | item :: rest => listing item :: listings rest

def entryListings : List (Datum × Datum) → List (List Char)
  | [] => []
  | (key, value) :: rest => (listing key ++ ": ".toList ++ listing value) :: entryListings rest

def fieldListings : List (String × Datum) → List (List Char)
  | [] => []
  | (name, value) :: rest => (name.toList ++ '=' :: listing value) :: fieldListings rest

end

/-- The form of a value in running text: texts and path names stand for themselves, and checked
records and named constants have a shorter form there. -/
def plainText : Datum → List Char
  | text value => value.toList
  | path value => value.chars
  | member _ => memberName.toList
  | record made fields =>
      if made.isChecked then Text.joinWith [' '] (fieldListings fields)
      else listing (record made fields)
  | value => value.listing

def string (value : Datum) : String :=
  String.ofList value.plainText

/-- The text under a name; empty if it is not there. -/
def textField (value : Datum) (name : String) : String :=
  ((value.get? name).map string).getD ""

end StatusLine.Datum

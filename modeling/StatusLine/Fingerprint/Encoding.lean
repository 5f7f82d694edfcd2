import StatusLine.Datum.Listing
import StatusLine.Failure

/-!
Encoded data: one line of JSON without blanks, keys in code point order, characters beyond ASCII as
they are, bytes in base 64.
-/

namespace StatusLine.Encoding

def escaped (c : Char) : List Char :=
  if c = '"' ∨ c = '\\' then ['\\', c]
  else if c = '\n' then ['\\', 'n']
  else if c = '\t' then ['\\', 't']
  else if c = '\r' then ['\\', 'r']
  else if c = '\x08' then ['\\', 'b']
  else if c = '\x0c' then ['\\', 'f']
  else if c.toNat < 32 then '\\' :: 'u' :: Text.hexDigits 4 c.toNat
  else [c]

def quoted (text : List Char) : List Char :=
  '"' :: text.flatMap escaped ++ ['"']

def base64Digit (n : Nat) : Char :=
  if n < 26 then Char.ofNat (65 + n)
  else if n < 52 then Char.ofNat (71 + n)
  else if n < 62 then Char.ofNat (n - 4)
  else if n = 62 then '+' else '/'

def base64 : List UInt8 → List Char
  | [] => []
  | [a] =>
      let n := a.toNat
      [base64Digit (n / 4), base64Digit (n % 4 * 16), '=', '=']
  | [a, b] =>
      let n := a.toNat * 256 + b.toNat
      [base64Digit (n / 1024), base64Digit (n / 16 % 64), base64Digit (n % 16 * 4), '=']
  | a :: b :: c :: rest =>
      let n := (a.toNat * 256 + b.toNat) * 256 + c.toNat
      [base64Digit (n / 262144), base64Digit (n / 4096 % 64), base64Digit (n / 64 % 64),
        base64Digit (n % 64)] ++ base64 rest

def before : List Char → List Char → Bool
  | _, [] => false
  | [], _ :: _ => true
  | a :: rest, b :: others => if a = b then before rest others else a < b

def insertByKey {α : Type} (key : List Char) (item : α) :
    List (List Char × α) → List (List Char × α)
  | [] => [(key, item)]
  | (label, other) :: rest =>
      if before key label then (key, item) :: (label, other) :: rest
      else (label, other) :: insertByKey key item rest

/-- In the order of the keys; items with one key keep their order. -/
def orderByKey {α : Type} (items : List (List Char × α)) : List (List Char × α) :=
  items.foldl (fun sorted (key, item) => insertByKey key item sorted) []

def bracketed (pieces : List (List Char)) : List Char :=
  '[' :: Text.joinWith [','] pieces ++ [']']

def braced (pieces : List (List Char × List Char)) : List Char :=
  '\x7b' :: Text.joinWith [','] (pieces.map fun (key, value) => quoted key ++ ':' :: value) ++
    ['\x7d']

mutual

def encode : Datum → Except Failure (List Char)
  | .null => .ok "null".toList
  | .bool value => .ok (if value then "true".toList else "false".toList)
  | .int value => .ok (Text.ofInt value)
  | .float value => .ok (Decimal.text Decimal.encoded value)
  | .text value => .ok (quoted value.toList)
  | .bytes value => .ok (quoted (base64 value))
  | .list items | .tuple items | .set items | .frozenSet items => (encodeItems items).map bracketed
  | .mapping entries => (encodeEntries entries).map fun pieces => braced (orderByKey pieces)
  | .record _ fields => (encodeFields fields).map fun pieces => braced (orderByKey pieces)
  | .member value => encode value
  | other => .error (.notEncodable other.kindName)

def encodeItems : List Datum → Except Failure (List (List Char))
  | [] => .ok []
  | item :: rest =>
      match encode item with
      | .error failure => .error failure
      | .ok piece => (encodeItems rest).map (piece :: ·)

def encodeEntries : List (Datum × Datum) → Except Failure (List (List Char × List Char))
  | [] => .ok []
  | (key, value) :: rest =>
      match encode value with
      | .error failure => .error failure
      | .ok piece => (encodeEntries rest).map ((key.plainText, piece) :: ·)

def encodeFields : List (String × Datum) → Except Failure (List (List Char × List Char))
  | [] => .ok []
  | (name, value) :: rest =>
      match encode value with
      | .error failure => .error failure
      | .ok piece => (encodeFields rest).map ((name.toList, piece) :: ·)

end

end StatusLine.Encoding

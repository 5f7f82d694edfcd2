import StatusLine.Decimal.Reading
import StatusLine.Fingerprint.Encoding

/-!
Reading encoded data: JSON with blanks between its parts and texts in any spelling. Numbers with a
point or an exponent are doubles, all others whole.
-/

namespace StatusLine.Encoding

def isBlank (c : Char) : Bool :=
  c == ' ' || c == '\t' || c == '\n' || c == '\r'

def skipBlanks (input : List Char) : List Char :=
  input.dropWhile isBlank

def escapedCode (c : Char) : Nat :=
  match c with
  | 'n' => 10
  | 't' => 9
  | 'r' => 13
  | 'b' => 8
  | 'f' => 12
  | other => other.toNat

def takeCodes (found : List Nat) : List Char → Option (List Nat × List Char)
  | [] => none
  | '"' :: rest => some (found.reverse, rest)
  | '\\' :: 'u' :: a :: b :: c :: d :: rest =>
      takeCodes (Decimal.digitsValue 16 [a, b, c, d] :: found) rest
  | '\\' :: c :: rest => takeCodes (escapedCode c :: found) rest
  | c :: rest => takeCodes (c.toNat :: found) rest

def joinCodes : List Nat → List Char
  | high :: low :: rest =>
      if 0xD800 ≤ high ∧ high < 0xDC00 ∧ 0xDC00 ≤ low ∧ low < 0xE000 then
        Char.ofNat (0x10000 + (high - 0xD800) * 0x400 + (low - 0xDC00)) :: joinCodes rest
      else Char.ofNat high :: joinCodes (low :: rest)
  | codes => codes.map Char.ofNat

def takeText (input : List Char) : Option (String × List Char) :=
  (takeCodes [] input).map fun (codes, rest) => (String.ofList (joinCodes codes), rest)

def isNumeral (c : Char) : Bool :=
  Text.isAsciiDigit c || c == '-' || c == '+' || c == '.' || c == 'e' || c == 'E'

def readNumber (word : List Char) : Option Datum :=
  if word.any fun c => c == '.' || c == 'e' || c == 'E' then (Decimal.readFloat word).map .float
  else (Decimal.readInt word).map .int

mutual

def takeValue : (fuel : Nat) → List Char → Option (Datum × List Char)
  | 0, _ => none
  | fuel + 1, input =>
      match skipBlanks input with
      | '"' :: rest => (takeText rest).map fun (text, behind) => (.text text, behind)
      | '[' :: rest => takeItems fuel [] (skipBlanks rest)
      | '\x7b' :: rest => takeEntries fuel [] (skipBlanks rest)
      | 't' :: 'r' :: 'u' :: 'e' :: rest => some (.bool true, rest)
      | 'f' :: 'a' :: 'l' :: 's' :: 'e' :: rest => some (.bool false, rest)
      | 'n' :: 'u' :: 'l' :: 'l' :: rest => some (.null, rest)
      | rest =>
          (readNumber (rest.takeWhile isNumeral)).map fun value =>
            (value, rest.dropWhile isNumeral)

def takeItems : (fuel : Nat) → List Datum → List Char → Option (Datum × List Char)
  | 0, _, _ => none
  | _, _, [] => none
  | _, found, ']' :: rest => some (.list found.reverse, rest)
  | fuel + 1, found, ',' :: rest => takeItems fuel found (skipBlanks rest)
  | fuel + 1, found, input =>
      match takeValue fuel input with
      | none => none
      | some (item, rest) => takeItems fuel (item :: found) (skipBlanks rest)

def takeEntries : (fuel : Nat) → List (Datum × Datum) → List Char → Option (Datum × List Char)
  | 0, _, _ => none
  | _, _, [] => none
  | _, found, '\x7d' :: rest => some (Datum.ofEntries found.reverse, rest)
  | fuel + 1, found, ',' :: rest => takeEntries fuel found (skipBlanks rest)
  | fuel + 1, found, '"' :: rest =>
      match takeText rest with
      | none => none
      | some (key, behind) =>
          match skipBlanks behind with
          | ':' :: input =>
              match takeValue fuel input with
              | none => none
              | some (value, left) =>
                  takeEntries fuel ((.text key, value) :: found) (skipBlanks left)
          | _ => none
  | _, _, _ => none

end

/-- The value that stands at the start of a text. Every step takes a character, so that twice the
length of the text is enough fuel. -/
def decode? (input : List Char) : Option Datum :=
  (takeValue (2 * input.length + 1) input).map Prod.fst

end StatusLine.Encoding

import StatusLine.Text.Ranges

/-!
Character classes in the Unicode sense: blanks, word characters, decimal digits and characters that
can be shown as they are.
-/

namespace StatusLine.Text

def isAsciiLetter (c : Char) : Bool :=
  ('a' ≤ c && c ≤ 'z') || ('A' ≤ c && c ≤ 'Z')

def isAsciiDigit (c : Char) : Bool :=
  '0' ≤ c && c ≤ '9'

def isBlank (c : Char) : Bool :=
  let point := c.toNat
  (9 ≤ point && point ≤ 13) || (28 ≤ point && point ≤ 32) || point == 0x85 || point == 0xa0 ||
    point == 0x1680 || (0x2000 ≤ point && point ≤ 0x200a) || point == 0x2028 || point == 0x2029 ||
    point == 0x202f || point == 0x205f || point == 0x3000

def isWord (c : Char) : Bool :=
  isAsciiLetter c || isAsciiDigit c || c == '_' ||
    (128 ≤ c.toNat && inRanges letterRanges c.toNat)

def isDigit (c : Char) : Bool :=
  isAsciiDigit c || (128 ≤ c.toNat && inRanges digitRanges c.toNat)

/-- The distance of a code point from the start of its range, in which ranges of digits go from zero
to nine. -/
def digitOffset? : List Nat → Nat → Option Nat
  | lowest :: highest :: rest, point =>
      if lowest ≤ point ∧ point ≤ highest then some ((point - lowest) % 10)
      else digitOffset? rest point
  | _, _ => none

/-- The ASCII digit of the same value; other characters stay. -/
def asciiDigit (c : Char) : Char :=
  if c.toNat < 128 then c
  else
    match digitOffset? digitRanges c.toNat with
    | some value => Char.ofNat (48 + value)
    | none => c

def isShown (c : Char) : Bool :=
  if c.toNat < 128 then 32 ≤ c.toNat && c.toNat < 127 else !inRanges hiddenRanges c.toNat

end StatusLine.Text

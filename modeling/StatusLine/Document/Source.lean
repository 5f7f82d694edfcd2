import StatusLine.Document.Cursor
import StatusLine.Text.Lines

/-!
The text of a file as it comes. Its bytes are decoded and its characters are asked for by pieces,
and a piece that cannot be had does no harm before it is asked for.
-/

namespace StatusLine.Document

def chunkSize : Nat :=
  8192

/-- How many characters are asked for at a time. The first two pieces are asked for together. -/
def pieceSize : Nat :=
  4096

/-- How many characters come before the piece with the character of the given number. -/
def comeBefore (number : Nat) : Nat :=
  if number < 2 * pieceSize then 0 else number / pieceSize * pieceSize

def isAllowed (c : Char) : Bool :=
  c == '\t' || c == '\n' || c == '\r' || (' ' ≤ c && c ≤ '~') || c == '\x85' ||
    ('\xa0' ≤ c && c.toNat ≤ 0xd7ff) || (0xe000 ≤ c.toNat && c.toNat ≤ 0xfffd) || 0x10000 ≤ c.toNat

def notText : Fault :=
  .unusable (.other "UnicodeDecodeError" "")

def decode? (bytes : List UInt8) : Option (List Char) :=
  (String.fromUTF8? ⟨bytes.toArray⟩).map String.toList

/-- What can complete a character that bytes end within. -/
def completions : List (List UInt8) :=
  [0x80, 0x90, 0xa0].flatMap fun byte => [[byte], [byte, byte], [byte, byte, byte]]

/-- The text of bytes that may end within a character. -/
def openText? (bytes : List UInt8) : Option (List Char) :=
  if ([] :: completions).any fun more => (decode? (bytes ++ more)).isSome then
    [0, 1, 2, 3].findSome? fun missing => decode? (bytes.take (bytes.length - missing))
  else none

/-- The text of as many chunks as can be decoded. -/
def decodedText (bytes : List UInt8) : (chunks : Nat) → List Char
  | 0 => []
  | chunks + 1 =>
      match openText? (bytes.take ((chunks + 1) * chunkSize)) with
      | some text => text
      | none => decodedText bytes chunks

def withoutOpenReturn (text : List Char) : List Char :=
  if text.getLast? == some '\r' then text.dropLast else text

namespace Cursor

/-- The start of a text. Characters that no document may hold cut it off. -/
def ofText (text : List Char) (cut : Option Fault) : Cursor :=
  let allowed := text.takeWhile isAllowed
  if allowed.length == text.length then ⟨text, cut, 0, 0, 0⟩
  else ⟨text.take (comeBefore allowed.length), some .malformed, 0, 0, 0⟩

def ofFile (bytes : List UInt8) : Cursor :=
  match decode? bytes with
  | some text => ofText (Text.unifyLineEnds text) none
  | none =>
      let text := Text.unifyLineEnds
        (withoutOpenReturn (decodedText bytes (bytes.length / chunkSize + 1)))
      ofText (text.take (comeBefore text.length)) (some notText)

end Cursor

end StatusLine.Document

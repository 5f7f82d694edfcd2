import StatusLine.Text.Substring

/-!
The start of a here-document in shell text: two angle brackets, possibly a dash, blanks and a quote,
and the word that will end it.
-/

namespace StatusLine.Text

structure HereDocument where
  /-- The line that ends it. -/
  delimiter : List Char
  /-- What follows its start. -/
  rest : List Char
  deriving Repr, DecidableEq

def startsDelimiter (c : Char) : Bool :=
  isAsciiLetter c || c == '_'

def isDelimiterChar (c : Char) : Bool :=
  isAsciiLetter c || isAsciiDigit c || c == '_'

def dropOne (drops : Char → Bool) : List Char → List Char
  | [] => []
  | c :: rest => if drops c then rest else c :: rest

def isQuote (c : Char) : Bool :=
  c == '\'' || c == '"'

def takeDelimiter (text : List Char) : Option HereDocument :=
  let unquoted := dropOne isQuote text
  match unquoted with
  | [] => none
  | c :: _ =>
      if startsDelimiter c then
        some ⟨unquoted.takeWhile isDelimiterChar,
          dropOne isQuote (unquoted.dropWhile isDelimiterChar)⟩
      else none

def hereDocument? : List Char → Option HereDocument
  | '<' :: '<' :: rest => takeDelimiter ((dropOne (· == '-') rest).dropWhile isBlank)
  | _ => none

def delimitersFrom : (skipped : Nat) → List Char → List (List Char)
  | _, [] => []
  | skipped + 1, _ :: rest => delimitersFrom skipped rest
  | 0, c :: rest =>
      match hereDocument? (c :: rest) with
      | some found => found.delimiter :: delimitersFrom (rest.length - found.rest.length) rest
      | none => delimitersFrom 0 rest

def delimiters (line : List Char) : List (List Char) :=
  delimitersFrom 0 line

end StatusLine.Text

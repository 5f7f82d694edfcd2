import StatusLine.Text.Substring

/-!
Quoted forms of a text: inside double quotes of a shell, as one shell word, and as a listing shows
it. `readInQuotes_escapeInQuotes` says that a shell reads back what was escaped.
-/

namespace StatusLine.Text

def isActiveInQuotes (c : Char) : Bool :=
  c == '\\' || c == '"' || c == '$' || c == '\x60'

def escapeInQuotes (text : List Char) : List Char :=
  text.flatMap fun c => if isActiveInQuotes c then ['\\', c] else [c]

/-- What a shell makes of the inside of a double-quoted string: a backslash before an active
character gives that character, and everything else stands for itself. -/
def readInQuotes : List Char → List Char
  | [] => []
  | [c] => [c]
  | c :: next :: rest =>
      if c = '\\' ∧ isActiveInQuotes next then next :: readInQuotes rest
      else c :: readInQuotes (next :: rest)

theorem readInQuotes_escapeInQuotes (text : List Char) :
    readInQuotes (escapeInQuotes text) = text := by
  induction text with
  | nil => rfl
  | cons c rest ih =>
      simp only [escapeInQuotes, List.flatMap_cons] at ih ⊢
      by_cases active : isActiveInQuotes c = true
      · simp [active, readInQuotes, ih]
      · have plain : c ≠ '\\' := by
          rintro rfl
          exact active (by decide)
        simp only [active, Bool.false_eq_true, if_false, List.singleton_append]
        generalize rest.flatMap (fun c => if isActiveInQuotes c = true then ['\\', c] else [c]) =
          tail at ih ⊢
        cases tail with
        | nil => simpa [readInQuotes] using ih
        | cons next more => simpa [readInQuotes, plain] using ih

def isPlainInShell (c : Char) : Bool :=
  isAsciiLetter c || isAsciiDigit c || "_@%+=:,./-".toList.contains c

/-- The text as one shell word: bare if every character is plain, else in single quotes, where a
single quote is written between double quotes. -/
def shellWord (text : List Char) : List Char :=
  if text.isEmpty then "''".toList
  else if text.all isPlainInShell then text
  else '\'' :: replaceAll ['\''] "'\"'\"'".toList text ++ ['\'']

def hexDigit (n : Nat) : Char :=
  if n < 10 then Char.ofNat (48 + n) else Char.ofNat (87 + n)

def hexDigits : (width : Nat) → Nat → List Char
  | 0, _ => []
  | width + 1, n => hexDigits width (n / 16) ++ [hexDigit (n % 16)]

def listedChar (quote : Char) (c : Char) : List Char :=
  if c = quote ∨ c = '\\' then ['\\', c]
  else if c = '\n' then ['\\', 'n']
  else if c = '\r' then ['\\', 'r']
  else if c = '\t' then ['\\', 't']
  else if isShown c then [c]
  else if c.toNat ≤ 0xff then '\\' :: 'x' :: hexDigits 2 c.toNat
  else if c.toNat ≤ 0xffff then '\\' :: 'u' :: hexDigits 4 c.toNat
  else '\\' :: 'U' :: hexDigits 8 c.toNat

/-- The text as a listing shows it: in single quotes, or in double quotes if it holds single quotes
but no double ones, with escapes for what cannot be shown. -/
def listed (text : List Char) : List Char :=
  let quote := if text.contains '\'' && !text.contains '"' then '"' else '\''
  quote :: text.flatMap (listedChar quote) ++ [quote]

def ofNat (n : Nat) : List Char :=
  Nat.toDigits 10 n

def ofInt : Int → List Char
  | .ofNat n => ofNat n
  | .negSucc n => '-' :: ofNat (n + 1)

end StatusLine.Text

namespace StatusLine

def listed (text : String) : String :=
  String.ofList (Text.listed text.toList)

end StatusLine

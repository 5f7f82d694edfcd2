import StatusLine.Decimal.Reading
import StatusLine.Document.Cursor

/-!
The texts of scalars in their written forms: between quotes, as an indented block, and plain. Line
ends inside them are folded: a single one becomes a space, of several the first is dropped.
-/

namespace StatusLine.Document

open Scanner

def fold (first : List Char) (more : List Char) : List Char :=
  if first != ['\n'] then first ++ more
  else if more.isEmpty then [' '] else more

/-- What a single letter stands for behind a backslash. -/
def escapeMeaning : Char → Option Char
  | '0' => some '\x00'
  | 'a' => some '\x07'
  | 'b' => some '\x08'
  | 't' => some '\t'
  | '\t' => some '\t'
  | 'n' => some '\n'
  | 'v' => some '\x0b'
  | 'f' => some '\x0c'
  | 'r' => some '\r'
  | 'e' => some '\x1b'
  | ' ' => some ' '
  | '"' => some '"'
  | '\\' => some '\\'
  | '/' => some '/'
  | 'N' => some '\x85'
  | '_' => some '\xa0'
  | 'L' => some '\u2028'
  | 'P' => some '\u2029'
  | _ => none

def escapeWidth : Char → Option Nat
  | 'x' => some 2
  | 'u' => some 4
  | 'U' => some 8
  | _ => none

/-- The number in the `width` characters that stand `ahead` places on, which must be hexadecimal
digits. -/
def lookHex (ahead width : Nat) : Scanner Nat := do
  let digits := (((← get).rest.drop ahead).take width).takeWhile isHexDigit
  if digits.length == width then return Decimal.digitsValue 16 digits
  else
    let _ ← look (ahead + digits.length)
    refuse

def replacement : List Char :=
  ['\ufffd', '\ufffd', '\ufffd']

def isHalf (point : Nat) : Bool :=
  0xd800 ≤ point && point < 0xe000

/-- The character with a number. Half a character is replaced. -/
def characterAt (point : Nat) : Except Fault (List Char) :=
  if point ≥ 0x80000000 then
    .error (.unusable (.other "OverflowError" "Python int too large to convert to C int"))
  else if point ≥ 0x110000 then
    .error (.unusable (.outOfRange "chr() arg not in range(0x110000)"))
  else if isHalf point then .ok replacement
  else .ok [Char.ofNat point]

def takeQuotedBreaks : (fuel : Nat) → Scanner (List Char)
  | 0 => refuse
  | fuel + 1 => do
      if ← isDocumentMark then refuse
      else
        skipWhile isBlank
        if isBreak (← head) then
          let first ← takeBreak
          let more ← takeQuotedBreaks fuel
          return first ++ more
        else return []

def takeQuotedSpaces : Scanner (List Char) := do
  let blanks ← takeWhile isBlank
  let c ← head
  if isEnd c then refuse
  else if isBreak c then
    let first ← takeBreak
    let more ← takeQuotedBreaks ((← get).rest.length + 1)
    return fold first more
  else return blanks

/-- What a backslash stands for together with the characters behind it. -/
def takeEscape : Scanner (List Char) := do
  let mark ← look 1
  match escapeMeaning mark, escapeWidth mark with
  | some meaning, _ =>
      forward 2
      return [meaning]
  | none, some width =>
      let point ← lookHex 2 width
      let character ← ofExcept (characterAt point)
      forward (2 + width)
      return character
  | none, none =>
      if isBreak mark then
        forward 1
        let _ ← takeBreak
        takeQuotedBreaks ((← get).rest.length + 1)
      else refuse

def isDoubled : Scanner Bool := do
  if (← head) == '\'' then return (← look 1) == '\'' else return false

/-- Everything up to the next blank, line end or closing quote. -/
def takeQuotedWord (quote : Char) : (fuel : Nat) → Scanner (List Char)
  | 0 => refuse
  | fuel + 1 => do
      let c ← head
      if isGap c then return []
      else if c == '\\' && quote == '"' then
        let meaning ← takeEscape
        let more ← takeQuotedWord quote fuel
        return meaning ++ more
      else if c == quote then
        if ← (if quote == '\'' then isDoubled else pure false) then
          forward 2
          let more ← takeQuotedWord quote fuel
          return '\'' :: more
        else return []
      else
        forward 1
        let more ← takeQuotedWord quote fuel
        return c :: more

def takeQuotedParts (quote : Char) : (fuel : Nat) → Scanner (List Char)
  | 0 => refuse
  | fuel + 1 => do
      if (← head) == quote then
        forward 1
        return []
      else
        let blanks ← takeQuotedSpaces
        let word ← takeQuotedWord quote ((← get).rest.length + 1)
        let more ← takeQuotedParts quote fuel
        return blanks ++ word ++ more

def namesHalf : List Char → Bool
  | '\\' :: mark :: rest =>
      (match escapeWidth mark with
        | some width => isHalf (Decimal.digitsValue 16 (rest.take width))
        | none => false) || namesHalf rest
  | _ :: rest => namesHalf rest
  | [] => false

def takeQuoted : Scanner (List Char) := do
  let quote ← head
  forward 1
  let word ← takeQuotedWord quote ((← get).rest.length + 1)
  let more ← takeQuotedParts quote ((← get).rest.length + 1)
  return word ++ more

inductive Chomping
  | strip
  | clip
  | keep
  deriving Repr, DecidableEq

def chompingOf : Char → Option Chomping
  | '+' => some .keep
  | '-' => some .strip
  | _ => none

/-- A digit of a block header. A zero is refused. -/
def takeIncrement : Scanner (Option Nat) := do
  let c ← head
  if c == '0' then refuse
  else if Text.isAsciiDigit c then
    forward 1
    return some (c.toNat - 48)
  else return none

def takeChomping : Scanner (Option Chomping) := do
  match chompingOf (← head) with
  | some chomping =>
      forward 1
      return some chomping
  | none => return none

def takeBlockHeader : Scanner (Chomping × Option Nat) := do
  let early ← takeChomping
  let increment ← takeIncrement
  let sign ← match early with
    | some sign => pure (some sign)
    | none => takeChomping
  if isSpaceOrEnd (← head) then return (sign.getD .clip, increment) else refuse

/-- Leading blank lines of a block whose indentation is not given, and the deepest indentation that
occurs in them or before the first line of text. -/
def takeBlockIndentation : (fuel : Nat) → (deepest : Nat) → Scanner (List Char × Nat)
  | 0, deepest => return ([], deepest)
  | fuel + 1, deepest => do
      let c ← head
      if c == ' ' then
        forward 1
        takeBlockIndentation fuel (max deepest (← get).column)
      else if isBreak c then
        let first ← takeBreak
        let (more, found) ← takeBlockIndentation fuel deepest
        return (first ++ more, found)
      else return ([], deepest)

def takeBlockBreaks (indent : Nat) : (fuel : Nat) → Scanner (List Char)
  | 0 => return []
  | fuel + 1 => do
      skipSpacesTo indent
      if isBreak (← head) then
        let first ← takeBreak
        let more ← takeBlockBreaks indent fuel
        return first ++ more
      else return []

def isBlockLine (indent : Nat) : Scanner Bool := do
  return (← get).column == indent && !isEnd (← head)

/-- The lines of a block. `breaks` are the blank lines before the place. -/
def takeBlockLines (folded : Bool) (chomping : Chomping) (indent : Nat) :
    (fuel : Nat) → (breaks : List Char) → Scanner (List Char)
  | 0, _ => return []
  | fuel + 1, breaks => do
      let first ← head
      let line ← takeWhile fun c => !isBreakOrEnd c
      let lineEnd ← takeBreak
      let between ← takeBlockBreaks indent ((← get).rest.length + 1)
      if ← isBlockLine indent then
        let joins := folded && lineEnd == ['\n'] && !isBlank first && !isBlank (← head)
        let joint := if joins then (if between.isEmpty then [' '] else []) else lineEnd
        let more ← takeBlockLines folded chomping indent fuel between
        return breaks ++ line ++ joint ++ more
      else
        let closing :=
          match chomping with
          | .strip => []
          | .clip => lineEnd
          | .keep => lineEnd ++ between
        return breaks ++ line ++ closing

def takeBlockStart (least : Nat) (increment : Option Nat) : Scanner (Nat × List Char) := do
  let fuel := (← get).rest.length + 1
  match increment with
  | some digit =>
      let indent := least + digit - 1
      let breaks ← takeBlockBreaks indent fuel
      return (indent, breaks)
  | none =>
      let (breaks, deepest) ← takeBlockIndentation fuel 0
      return (max least deepest, breaks)

def takeBlock (outer : Int) : Scanner (List Char) := do
  let folded := (← head) == '>'
  forward 1
  let (chomping, increment) ← takeBlockHeader
  finishLine
  let (indent, breaks) ← takeBlockStart (max 1 (outer + 1).toNat) increment
  if ← isBlockLine indent then
    takeBlockLines folded chomping indent ((← get).rest.length + 1) breaks
  else return if chomping == .keep then breaks else []

/-- Whether a plain scalar ends here. In a flow collection the marks of such collections end it. -/
def endsPlain (inFlow : Bool) : Scanner Bool := do
  let c ← head
  if c == ':' then
    let next ← look 1
    return isGap next || (inFlow && ",[]\x7b\x7d".toList.contains next)
  else return isGap c || (inFlow && ",?[]\x7b\x7d".toList.contains c)

def takePlainWord (inFlow : Bool) : (fuel : Nat) → Scanner (List Char)
  | 0 => return []
  | fuel + 1 => do
      if ← endsPlain inFlow then return []
      else
        let c ← head
        forward 1
        let more ← takePlainWord inFlow fuel
        return c :: more

def takePlainBreaks : (fuel : Nat) → Scanner (Option (List Char))
  | 0 => return some []
  | fuel + 1 => do
      let c ← head
      if c == ' ' then
        forward 1
        takePlainBreaks fuel
      else if isBreak c then
        let first ← takeBreak
        if ← isDocumentMark then return none
        else
          let more ← takePlainBreaks fuel
          return more.map (first ++ ·)
      else return some []

/-- The blanks behind a stretch of a plain scalar, folded. The flag says that a line ended. -/
def takePlainSpaces : Scanner (List Char × Bool) := do
  let blanks ← takeWhile (· == ' ')
  if isBreak (← head) then
    let first ← takeBreak
    if ← isDocumentMark then return ([], true)
    else
      let more ← takePlainBreaks ((← get).rest.length + 1)
      return ((more.map (fold first)).getD [], true)
  else return (blanks, false)

/-- A plain scalar with the blanks found before it. The flag of the answer says whether a line ended
behind the last stretch, so that a key may follow. -/
def takePlain (inFlow : Bool) (indent : Int) : (fuel : Nat) → (blanks : List Char) →
    (lineEnded : Bool) → Scanner (List Char × Bool)
  | 0, _, lineEnded => return ([], lineEnded)
  | fuel + 1, blanks, lineEnded => do
      if (← head) == '#' then return ([], lineEnded)
      else if ← endsPlain inFlow then return ([], lineEnded)
      else
        let word ← takePlainWord inFlow ((← get).rest.length + 1)
        let (next, ended) ← takePlainSpaces
        let dedented := !inFlow && ((← get).column : Int) < indent
        if next.isEmpty || (← head) == '#' || dedented then return (blanks ++ word, ended)
        else
          let (more, last) ← takePlain inFlow indent fuel next ended
          return (blanks ++ word ++ more, last)

end StatusLine.Document

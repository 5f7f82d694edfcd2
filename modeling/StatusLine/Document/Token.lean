import StatusLine.Document.ScalarText

/-!
The tokens of a document, as they are written: what stands behind the mark of an anchor, a tag or a
directive, and the scalars.
-/

namespace StatusLine.Document

open Scanner

structure TagName where
  handle : Option (List Char)
  suffix : List Char
  deriving Repr, DecidableEq

inductive Token
  | version (major : Nat)
  | handle (name meaning : List Char)
  | directive
  | documentStart
  | documentEnd
  | sequenceStart
  | mappingStart
  | blockEnd
  | bracketOpen
  | bracketClose
  | braceOpen
  | braceClose
  | comma
  | dash
  | key
  | value
  | reference (name : List Char)
  | anchor (name : List Char)
  | tag (name : TagName)
  | scalar (plain : Bool) (text : List Char)
  /-- A scalar with halves of characters, which no text can hold. -/
  | halved (text : List Char)
  deriving Repr, DecidableEq

def takeAnchorName : Scanner (List Char) := do
  forward 1
  let name ← takeWhile isNameChar
  let next ← head
  if name.isEmpty || !(isGap next || "?:,]\x7d%@\x60".toList.contains next) then refuse
  else return name

def takePercentBytes : (fuel : Nat) → Scanner (List UInt8)
  | 0 => refuse
  | fuel + 1 => do
      if (← head) == '%' then
        let byte ← lookHex 1 2
        forward 3
        let more ← takePercentBytes fuel
        return byte.toUInt8 :: more
      else return []

def isUriChar (c : Char) : Bool :=
  Text.isAsciiLetter c || Text.isAsciiDigit c || "-;/?:@&=+$,_.!~*'()[]".toList.contains c

def takeUriParts : (fuel : Nat) → Scanner (List Char)
  | 0 => refuse
  | fuel + 1 => do
      let c ← head
      if c == '%' then
        let bytes ← takePercentBytes ((← get).rest.length + 1)
        match String.fromUTF8? ⟨bytes.toArray⟩ with
        | none => refuse
        | some text =>
            let more ← takeUriParts fuel
            return text.toList ++ more
      else if isUriChar c then
        forward 1
        let more ← takeUriParts fuel
        return c :: more
      else return []

def takeUri : Scanner (List Char) := do
  let c ← head
  if isUriChar c || c == '%' then takeUriParts ((← get).rest.length + 1) else refuse

def takeHandle : Scanner (List Char) := do
  if (← head) != '!' then refuse
  else if (← look 1) == ' ' then
    forward 1
    return ['!']
  else
    forward 1
    let name ← takeWhile isNameChar
    if (← head) == '!' then
      forward 1
      return '!' :: name ++ ['!']
    else refuse

def hasHandle : Scanner Bool := do
  let word := ((← get).rest.drop 1).takeWhile fun c => !isSpaceOrEnd c && c != '!'
  return (← look (word.length + 1)) == '!'

def finishTag (name : TagName) : Scanner TagName := do
  if isSpaceOrEnd (← head) then return name else refuse

def takeTag : Scanner TagName := do
  let next ← look 1
  if next == '<' then
    forward 2
    let suffix ← takeUri
    if (← head) == '>' then
      forward 1
      finishTag ⟨none, suffix⟩
    else refuse
  else if isGap next then
    forward 1
    finishTag ⟨none, ['!']⟩
  else
    let handle ←
      if ← hasHandle then takeHandle
      else do
        forward 1
        pure ['!']
    let suffix ← takeUri
    finishTag ⟨some handle, suffix⟩

def mostDigits : Nat :=
  4300

def tooManyDigits (count : Nat) : Failure :=
  .outOfRange ("Exceeds the limit (4300 digits) for integer string conversion: value has "
    ++ String.ofList (Text.ofNat count)
    ++ " digits; use sys.set_int_max_str_digits() to increase the limit")

def numberOf (digits : List Char) : Except Fault Nat :=
  if mostDigits < digits.length then .error (.unusable (tooManyDigits digits.length))
  else .ok (Decimal.digitsValue 10 digits)

def takeNumber : Scanner Nat := do
  let digits := (← get).rest.takeWhile Text.isAsciiDigit
  let _ ← look digits.length
  if digits.isEmpty then refuse
  else
    let number ← ofExcept (numberOf digits)
    forward digits.length
    return number

def takeVersion : Scanner Token := do
  skipSpaces
  let major ← takeNumber
  if (← head) != '.' then refuse
  else
    forward 1
    let _ ← takeNumber
    if isSpaceOrEnd (← head) then return .version major else refuse

def takeHandleMeaning : Scanner Token := do
  skipSpaces
  let handle ← takeHandle
  if (← head) != ' ' then refuse
  else
    skipSpaces
    let meaning ← takeUri
    if isSpaceOrEnd (← head) then return .handle handle meaning else refuse

def takeDirectiveBody (name : List Char) : Scanner Token := do
  if name == "YAML".toList then takeVersion
  else if name == "TAG".toList then takeHandleMeaning
  else
    skipWhile fun c => !isBreakOrEnd c
    return .directive

def takeDirective : Scanner Token := do
  forward 1
  let name ← takeWhile isNameChar
  if name.isEmpty || !isSpaceOrEnd (← head) then refuse
  else
    let token ← takeDirectiveBody name
    finishLine
    return token

def startsPlain (inFlow : Bool) : Scanner Bool := do
  let c ← head
  if isGap c || "-?:,[]\x7b\x7d#&*!|>'\"%@\x60".toList.contains c then
    let next ← look 1
    return !isGap next && (c == '-' || (!inFlow && (c == '?' || c == ':')))
  else return true

def takeQuotedToken : Scanner Token := do
  let start ← get
  let text ← takeQuoted
  let written := start.rest.take (start.rest.length - (← get).rest.length)
  return if start.rest.head? == some '"' && namesHalf written then .halved text else .scalar false text

end StatusLine.Document

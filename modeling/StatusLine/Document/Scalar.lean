import StatusLine.Document.Cursor

/-!
What a plain scalar stands for by its form alone: a truth value, a number, a date, nothing, or the
text itself.
-/

namespace StatusLine.Document

/-- The kinds of values that a node can be given. -/
inductive Kind
  | null
  | bool
  | int
  | float
  | binary
  | timestamp
  | orderedPairs
  | pairs
  | set
  | text
  /-- A text with halves of characters. -/
  | halved
  | sequence
  | mapping
  /-- A key whose mappings are merged into the mapping around it. -/
  | merge
  /-- A key whose value stands for the mapping around it. -/
  | default
  | unknown
  deriving Repr, DecidableEq

def standardTag : List Char :=
  "tag:yaml.org,2002:".toList

def Kind.ofTag (tag : List Char) : Kind :=
  match Text.after? standardTag tag with
  | none => .unknown
  | some name =>
      match String.ofList name with
      | "null" => .null
      | "bool" => .bool
      | "int" => .int
      | "float" => .float
      | "binary" => .binary
      | "timestamp" => .timestamp
      | "omap" => .orderedPairs
      | "pairs" => .pairs
      | "set" => .set
      | "str" => .text
      | "seq" => .sequence
      | "map" => .mapping
      | "merge" => .merge
      | "value" => .default
      | _ => .unknown

def dropSign : List Char → List Char
  | c :: rest => if c = '+' ∨ c = '-' then rest else c :: rest
  | [] => []

def isDigitOrBar (c : Char) : Bool :=
  Text.isAsciiDigit c || c == '_'

def nullWords : List String :=
  ["", "~", "null", "Null", "NULL"]

def trueWords : List String :=
  ["yes", "Yes", "YES", "true", "True", "TRUE", "on", "On", "ON"]

def falseWords : List String :=
  ["no", "No", "NO", "false", "False", "FALSE", "off", "Off", "OFF"]

/-- One or two digits below sixty behind each of one or more colons. -/
def isSexagesimalTail : (fuel : Nat) → List Char → Option (List Char)
  | 0, _ => none
  | fuel + 1, text =>
      match text with
      | ':' :: a :: rest =>
          let next :=
            match rest with
            | b :: more =>
                if '0' ≤ a && a ≤ '5' && Text.isAsciiDigit b then some more
                else if Text.isAsciiDigit a then some rest
                else none
            | [] => if Text.isAsciiDigit a then some [] else none
          match next with
          | none => none
          | some [] => some []
          | some (':' :: more) => isSexagesimalTail fuel (':' :: more)
          | some left => some left
      | _ => none

def startsWithDigit (text : List Char) : Bool :=
  (text.head?.map Text.isAsciiDigit).getD false

def isInt (text : List Char) : Bool :=
  match dropSign text with
  | '0' :: 'b' :: digits =>
      !digits.isEmpty && digits.all fun c => c == '0' || c == '1' || c == '_'
  | '0' :: 'x' :: digits => !digits.isEmpty && digits.all fun c => isHexDigit c || c == '_'
  | '0' :: digits => digits.all fun c => ('0' ≤ c && c ≤ '7') || c == '_'
  | first :: rest =>
      Text.isAsciiDigit first &&
        (let tail := rest.dropWhile isDigitOrBar
         tail.isEmpty || isSexagesimalTail (tail.length + 1) tail == some [])
  | [] => false

def isExponent : List Char → Bool
  | [] => true
  | mark :: sign :: digits =>
      (mark == 'e' || mark == 'E') && (sign == '-' || sign == '+') && !digits.isEmpty &&
        digits.all Text.isAsciiDigit
  | _ => false

/-- Doubles: with a point, to the base sixty, or not finite. -/
def isFloat (text : List Char) : Bool :=
  let unsigned := dropSign text
  let named := [".inf", ".Inf", ".INF"].any fun name => name.toList == unsigned
  let notANumber := [".nan", ".NaN", ".NAN"].any fun name => name.toList == text
  let bare :=
    match text with
    | '.' :: digits => startsWithDigit digits && isExponent (digits.dropWhile isDigitOrBar)
    | _ => false
  let pointed :=
    startsWithDigit unsigned &&
      match unsigned.dropWhile isDigitOrBar with
      | '.' :: places => isExponent (places.dropWhile isDigitOrBar)
      | tail =>
          match isSexagesimalTail (tail.length + 1) tail with
          | some ('.' :: places) => places.all isDigitOrBar
          | _ => false
  named || notANumber || bare || pointed

/-- A point in time as written: its numbers, and the offset from universal time as sign, hours and
minutes. -/
structure Moment where
  year : Nat
  month : Nat
  day : Nat
  time : Option (Nat × Nat × Nat)
  fraction : List Char
  offset : Option (Bool × Nat × Nat)
  /-- Whether the time is marked as universal time. -/
  universal : Bool
  /-- Whether month and day have two digits and no time follows. -/
  isBareDate : Bool
  deriving Repr

def takeDigitsWithin (least most : Nat) (text : List Char) : Option (Nat × List Char) :=
  let digits := (text.takeWhile Text.isAsciiDigit).take most
  if digits.length < least then none
  else some (digits.foldl (fun total c => total * 10 + (c.toNat - 48)) 0, text.drop digits.length)

def takeMark (mark : Char) : List Char → Option (List Char)
  | c :: rest => if c = mark then some rest else none
  | [] => none

def isTimeBlank (c : Char) : Bool :=
  c == ' ' || c == '\t'

def readOffset : List Char → Option (Bool × Nat × Nat)
  | sign :: rest =>
      if sign == '-' || sign == '+' then
        match takeDigitsWithin 1 2 rest with
        | some (hours, []) => some (sign == '-', hours, 0)
        | some (hours, ':' :: more) =>
            match takeDigitsWithin 2 2 more with
            | some (minutes, []) => some (sign == '-', hours, minutes)
            | _ => none
        | _ => none
      else none
  | [] => none

/-- The time of day behind a date, up to the end of the text. -/
def readTime (date : Moment) (text : List Char) : Option Moment :=
  let afterGap :=
    match text with
    | 'T' :: rest | 't' :: rest => some rest
    | c :: _ => if isTimeBlank c then some (text.dropWhile isTimeBlank) else none
    | [] => none
  do
    let rest ← afterGap
    let (hour, rest) ← takeDigitsWithin 1 2 rest
    let rest ← takeMark ':' rest
    let (minute, rest) ← takeDigitsWithin 2 2 rest
    let rest ← takeMark ':' rest
    let (second, rest) ← takeDigitsWithin 2 2 rest
    let (fraction, rest) :=
      match rest with
      | '.' :: places =>
          (places.takeWhile Text.isAsciiDigit, places.dropWhile Text.isAsciiDigit)
      | _ => ([], rest)
    let timed : Moment :=
      { date with time := some (hour, minute, second), fraction := fraction, isBareDate := false }
    match rest.dropWhile isTimeBlank with
    | ['Z'] => some { timed with universal := true }
    | [] => if rest.isEmpty then some timed else none
    | zone => (readOffset zone).map fun offset => { timed with offset := some offset }

def readMoment (text : List Char) : Option Moment := do
  let (year, rest) ← takeDigitsWithin 4 4 text
  let rest ← takeMark '-' rest
  let (month, afterMonth) ← takeDigitsWithin 1 2 rest
  let behind ← takeMark '-' afterMonth
  let (day, afterDay) ← takeDigitsWithin 1 2 behind
  let wide := rest.length == afterMonth.length + 2 && behind.length == afterDay.length + 2
  let date : Moment := ⟨year, month, day, none, [], none, false, wide⟩
  if afterDay.isEmpty then some date else readTime date afterDay

def isTimestamp (text : List Char) : Bool :=
  match readMoment text with
  | some moment => moment.isBareDate || moment.time.isSome
  | none => false

def dropFinalBreak (text : List Char) : List Char :=
  if text.getLast? == some '\n' then text.dropLast else text

/-- The kind of a plain scalar. A text that only resembles the mark of a node has none. -/
def Kind.ofPlain (text : List Char) : Kind :=
  let body := dropFinalBreak text
  let word := String.ofList body
  if trueWords.contains word || falseWords.contains word then .bool
  else if isFloat body then .float
  else if isInt body then .int
  else if word == "<<" then .merge
  else if nullWords.contains word && (body == text || !body.isEmpty) then .null
  else if isTimestamp body then .timestamp
  else if word == "=" then .default
  else if ["!", "&", "*"].contains word then .unknown
  else .text

end StatusLine.Document

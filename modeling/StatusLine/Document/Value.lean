import StatusLine.Datum.Key
import StatusLine.Decimal.Reading
import StatusLine.Document.Node
import StatusLine.Document.Source
import StatusLine.Text.Case

/-!
The values of nodes, and of whole documents. Outer collections are filled before the collections in
them, so of two faults the one nearer to the root is reported, and of two equally near the first.
-/

namespace StatusLine.Document

abbrev Build (α : Type) := Except (Nat × Fault) α

def both {α β : Type} (first : Build α) (second : Build β) : Build (α × β) :=
  match first, second with
  | .ok a, .ok b => .ok (a, b)
  | .error fault, .ok _ => .error fault
  | .ok _, .error fault => .error fault
  | .error a, .error b => .error (if b.1 < a.1 then b else a)

def unusable {α : Type} (failure : Failure) : Except Fault α :=
  .error (.unusable failure)

def emptyText {α : Type} : Except Fault α :=
  unusable (.other "IndexError" "string index out of range")

def digitValue? (c : Char) : Option Nat :=
  if Text.isAsciiDigit c then some (c.toNat - 48)
  else if 'a' ≤ c ∧ c ≤ 'z' then some (c.toNat - 87)
  else if 'A' ≤ c ∧ c ≤ 'Z' then some (c.toNat - 55)
  else none

def dropBaseMark (base : Nat) (text : List Char) : List Char :=
  match text with
  | '0' :: mark :: rest =>
      let lower := Decimal.lower [mark]
      if (base == 2 && lower == ['b']) || (base == 8 && lower == ['o']) ||
          (base == 16 && lower == ['x']) then rest
      else text
  | _ => text

def readBase (base : Nat) (text : List Char) : Except Fault Int :=
  let (negative, unsigned) := Decimal.takeSign ((Text.trim text).map Text.asciiDigit)
  let digits := dropBaseMark base unsigned
  let valid := !digits.isEmpty && digits.all fun c => match digitValue? c with
    | some digit => digit < base
    | none => false
  if !valid then
    unusable (.outOfRange ("invalid literal for int() with base " ++ String.ofList (Text.ofNat base)
      ++ ": " ++ listed (String.ofList text)))
  else if base == 10 && mostDigits < digits.length then unusable (tooManyDigits digits.length)
  else
    let size : Int := Decimal.digitsValue base digits
    .ok (if negative then -size else size)

def allOk {α β : Type} (read : α → Except Fault β) : List α → Except Fault (List β)
  | [] => .ok []
  | item :: rest =>
      match read item with
      | .error fault => .error fault
      | .ok value => (allOk read rest).map (value :: ·)

def signed (text : List Char) : Bool × List Char :=
  Decimal.takeSign text

def withoutBars (text : List Char) : List Char :=
  text.filter (· != '_')

def intOf (text : List Char) : Except Fault Int :=
  match withoutBars text with
  | [] => emptyText
  | bare =>
      let (negative, size) := signed bare
      let apply (n : Int) : Int := if negative then -n else n
      match size with
      | ['0'] => .ok 0
      | '0' :: 'b' :: digits => (readBase 2 digits).map apply
      | '0' :: 'x' :: digits => (readBase 16 digits).map apply
      | '0' :: _ => (readBase 8 size).map apply
      | [] => emptyText
      | _ =>
          if size.contains ':' then
            (allOk (readBase 10) (Text.splitOn [':'] size)).map fun parts =>
              apply (parts.foldl (fun total part => total * 60 + part) 0)
          else (readBase 10 size).map apply

def readPart (text : List Char) : Except Fault Float :=
  match Decimal.readFloat ((Text.trim text).map Text.asciiDigit) with
  | some x => .ok x
  | none =>
      unusable (.outOfRange ("could not convert string to float: " ++ listed (String.ofList text)))

def weigh (total : Float) (weight : Nat) : List Float → Except Fault Float
  | [] => .ok total
  | part :: rest =>
      let factor := Decimal.nearest weight 0
      if factor.isInf then
        unusable (.other "OverflowError" "int too large to convert to float")
      else weigh (total + part * factor) (weight * 60) rest

def sexagesimal (parts : List Float) : Except Fault Float :=
  weigh 0.0 1 parts.reverse

def floatOf (text : List Char) : Except Fault Float :=
  match Text.small (withoutBars text) with
  | [] => emptyText
  | bare =>
      let (negative, size) := signed bare
      let apply (x : Float) : Float := if negative then -x else x
      if size == ".inf".toList then .ok (apply (1.0 / 0.0))
      else if size == ".nan".toList then .ok (0.0 / 0.0)
      else if size.contains ':' then
        match allOk readPart (Text.splitOn [':'] size) with
        | .error fault => .error fault
        | .ok parts => (sexagesimal parts).map apply
      else (readPart size).map apply

def boolOf (text : List Char) : Except Fault Bool :=
  let word := String.ofList (Text.small text)
  if trueWords.contains word then .ok true
  else if falseWords.contains word then .ok false
  else unusable (.nameUnknown word)

def isLeap (year : Nat) : Bool :=
  year % 4 == 0 && (year % 100 != 0 || year % 400 == 0)

def daysIn (year month : Nat) : Nat :=
  if month == 2 then (if isLeap year then 29 else 28)
  else if [4, 6, 9, 11].contains month then 30 else 31

def checkRange (holds : Bool) (message : String) : Except Fault Unit :=
  if holds then .ok () else unusable (.outOfRange message)

def numbers (values : List Nat) : List Char :=
  Text.joinWith [',', ' '] (values.map Text.ofNat)

def listedSpan (seconds : Int) : List Char :=
  let days := Int.fdiv seconds 86400
  let left := seconds - days * 86400
  let field (name : String) (n : Int) : List (List Char) :=
    if n == 0 then [] else [name.toList ++ '=' :: Text.ofInt n]
  let fields := field "days" days ++ field "seconds" left
  "datetime.timedelta(".toList ++
    (if fields.isEmpty then ['0'] else Text.joinWith [',', ' '] fields) ++ [')']

def offsetOf (moment : Moment) : Except Fault (Option Int) :=
  match moment.offset with
  | none => .ok (if moment.universal then some 0 else none)
  | some (negative, hours, minutes) =>
      let size : Int := hours * 3600 + minutes * 60
      let seconds := if negative then -size else size
      if size < 86400 then .ok (some seconds)
      else
        unusable (.outOfRange (String.ofList
          ("offset must be a timedelta strictly between -timedelta(hours=24) and timedelta(hours=24), not ".toList
            ++ listedSpan seconds ++ ['.'])))

def listedZone (seconds : Int) : List Char :=
  if seconds == 0 then ", tzinfo=datetime.timezone.utc".toList
  else ", tzinfo=datetime.timezone(".toList ++ listedSpan seconds ++ [')']

def checkDate (moment : Moment) : Except Fault Unit := do
  checkRange (moment.year != 0) "year 0 is out of range"
  checkRange (1 ≤ moment.month && moment.month ≤ 12) "month must be in 1..12"
  checkRange (1 ≤ moment.day && moment.day ≤ daysIn moment.year moment.month)
    "day is out of range for month"

def dayNumber (year month day : Nat) : Int :=
  let before := year - 1
  before * 365 + before / 4 - before / 100 + before / 400 +
    ((List.range month).drop 1).foldl (fun total m => total + daysIn year m) 0 + day

/-- A point in time on a scale that all places share, in millionths of a second, as what tells it
apart from other points. Without an offset it is on a scale of its own. -/
def instantParts (moment : Moment) (offset : Option Int) (seconds micro : Nat) :
    List (String × Datum) :=
  let here := dayNumber moment.year moment.month moment.day * 86400 + seconds
  let scaled (total : Int) : Datum := .int (total * 1000000 + micro)
  match offset with
  | none => [("local", scaled here)]
  | some ahead => [("instant", scaled (here - ahead))]

/-- A date or a point in time that exists. -/
def momentOf (text : List Char) : Except Fault Datum :=
  match readMoment (dropFinalBreak text) with
  | none => unusable (.other "AttributeError" "'NoneType' object has no attribute 'groupdict'")
  | some moment =>
      let date := [moment.year, moment.month, moment.day]
      match moment.time with
      | none => do
          checkDate moment
          return .thing ⟨"datetime", "date"⟩
            (String.ofList ("datetime.date(".toList ++ numbers date ++ [')'])) []
      | some (hour, minute, second) => do
          let offset ← offsetOf moment
          checkDate moment
          checkRange (hour < 24) "hour must be in 0..23"
          checkRange (minute < 60) "minute must be in 0..59"
          checkRange (second < 60) "second must be in 0..59"
          let places := (moment.fraction ++ List.replicate 6 '0').take 6
          let micro := Decimal.digitsValue 10 places
          let shown :=
            if micro != 0 then [hour, minute, second, micro]
            else if second != 0 then [hour, minute, second] else [hour, minute]
          let form := "datetime.datetime(".toList ++ numbers (date ++ shown) ++
            (offset.map listedZone).getD [] ++ [')']
          return .thing ⟨"datetime", "datetime"⟩ (String.ofList form)
            (instantParts moment offset (hour * 3600 + minute * 60 + second) micro)

def base64Value? (c : Char) : Option Nat :=
  if 'A' ≤ c ∧ c ≤ 'Z' then some (c.toNat - 65)
  else if 'a' ≤ c ∧ c ≤ 'z' then some (c.toNat - 71)
  else if Text.isAsciiDigit c then some (c.toNat + 4)
  else if c = '+' then some 62
  else if c = '/' then some 63
  else none

/-- Bytes from base-64 digits; other characters do not count. `held` are the digits of an unfinished
group, and `pads` the equal signs since its last digit. -/
def base64Bytes : (held : List Nat) → (pads : Nat) → List Char → Option (List UInt8)
  | held, _, [] => if held.isEmpty then some [] else none
  | held, pads, c :: rest =>
      if c = '=' then
        if 2 ≤ held.length && 4 ≤ held.length + pads + 1 then some []
        else base64Bytes held (if 2 ≤ held.length then pads + 1 else pads) rest
      else
        match base64Value? c with
        | none => base64Bytes held pads rest
        | some digit =>
            match held with
            | [] => base64Bytes [digit] 0 rest
            | [a] => (base64Bytes [a, digit] 0 rest).map ((a * 4 + digit / 16).toUInt8 :: ·)
            | [a, b] =>
                (base64Bytes [a, b, digit] 0 rest).map ((b % 16 * 16 + digit / 4).toUInt8 :: ·)
            | _ :: _ :: c :: _ =>
                (base64Bytes [] 0 rest).map ((c % 4 * 64 + digit).toUInt8 :: ·)

def bytesOf (text : List Char) : Except Fault Datum :=
  if text.any fun c => 128 ≤ c.toNat then .error .malformed
  else
    match base64Bytes [] 0 text with
    | some bytes => .ok (.bytes bytes)
    | none => .error .malformed

def scalarValue (kind : Kind) (text : List Char) : Except Fault Datum :=
  match kind with
  | .null => .ok .null
  | .bool => (boolOf text).map .bool
  | .int => (intOf text).map .int
  | .float => (floatOf text).map .float
  | .binary => bytesOf text
  | .timestamp => momentOf text
  | .text => .ok (.text (String.ofList text))
  | .halved => .ok (.thing Datum.textKind (String.ofList text) [])
  | _ => .error .malformed

def Kind.isScalar : Kind → Bool
  | .null | .bool | .int | .float | .binary | .timestamp | .text | .halved => true
  | _ => false

/-- A value as a key, if it can be one. What is not a number is one and the same key everywhere. -/
def asKey? : Datum → Option Datum
  | .float x => some (if x.isNaN then .thing (.plain "float") "nan" [] else .float x)
  | value => if value.changing?.isSome then none else some value

namespace Node

def kind : Node → Kind
  | scalar kind _ | sequence kind _ | mapping kind _ => kind
  | enclosing => .unknown

mutual

def text? : Node → Option (List Char)
  | scalar _ text => some text
  | mapping _ entries => defaultText? entries
  | _ => none

def defaultText? : List (Node × Node) → Option (List Char)
  | [] => none
  | (key, value) :: rest => if key.kind == .default then text? value else defaultText? rest

end

/-- A fault found while a collection at the given depth is filled. Merging comes before filling. -/
def during {α : Type} (depth : Nat) (result : Except Fault α) : Build α :=
  result.mapError fun fault => (2 * depth + 1, fault)

def unmergeable {α : Type} (depth : Nat) : Build α :=
  .error (2 * depth, .malformed)

def entryOf (depth : Nat) (key value : Build Datum) : Build (Datum × Datum) :=
  match key with
  | .error fault => both (.error fault) value
  | .ok label =>
      match asKey? label with
      | some fit => both (.ok fit) value
      | none => .error (2 * depth + 1, .malformed)

def append (first second : Build (List (Datum × Datum))) : Build (List (Datum × Datum)) :=
  (both first second).map fun (found, more) => found ++ more

def allOf (parts : Build (List (Datum × Datum)) × Build (List (Datum × Datum))) :
    Build (List (Datum × Datum)) :=
  append parts.1 parts.2

def keyFault? : Node → Bool
  | sequence kind _ | mapping kind _ => !kind.isScalar
  | enclosing => true
  | scalar _ _ => false

mutual

/-- The value of a node in a collection at the given depth. -/
def value (depth : Nat) : Node → Build Datum
  | scalar kind text =>
      match kind with
      | .sequence | .mapping | .set | .orderedPairs | .pairs => during (depth + 1) (.error .malformed)
      | _ => during depth (scalarValue kind text)
  | sequence kind items =>
      match kind with
      | .sequence => (values (depth + 1) items).map .list
      | .orderedPairs | .pairs => (pairValues (depth + 1) items).map .list
      | .mapping | .set => during (depth + 1) (.error .malformed)
      | _ => during depth (.error .malformed)
  | mapping kind entries =>
      match kind with
      | .mapping => (allOf (filled (depth + 1) entries)).map Datum.ofEntries
      | .set =>
          (allOf (filled (depth + 1) entries)).map fun found =>
            .set (Datum.distinct (found.map Prod.fst))
      | .sequence | .orderedPairs | .pairs => during (depth + 1) (.error .malformed)
      | _ =>
          if kind.isScalar then
            match kind, defaultText? entries with
            | _, none => during depth (.error .malformed)
            | .timestamp, some _ =>
                during depth
                  (unusable (.wrongKind "expected string or bytes-like object, got 'list'"))
            | kind, some text => during depth (scalarValue kind text)
          else during depth (.error .malformed)
  | enclosing => .ok (.thing (.plain "recursion") "recursion" [])

def values (depth : Nat) : List Node → Build (List Datum)
  | [] => .ok []
  | item :: rest => (both (value depth item) (values depth rest)).map fun (a, b) => a :: b

def pairValues (depth : Nat) : List Node → Build (List Datum)
  | [] => .ok []
  | item :: rest =>
      (both (pairValue depth item) (pairValues depth rest)).map fun (a, b) => a :: b

def pairValue (depth : Nat) : Node → Build Datum
  | mapping _ entries => onlyPair depth entries
  | _ => during depth (.error .malformed)

def onlyPair (depth : Nat) : List (Node × Node) → Build Datum
  | [] => during depth (.error .malformed)
  | (key, item) :: rest =>
      if rest.isEmpty then
        (both (value depth key) (value depth item)).map fun (a, b) => .tuple [a, b]
      else during depth (.error .malformed)

/-- The entries merged into a mapping, and its own ones. -/
def filled (depth : Nat) :
    List (Node × Node) → Build (List (Datum × Datum)) × Build (List (Datum × Datum))
  | [] => (.ok [], .ok [])
  | (key, item) :: rest =>
      let (inherited, own) := filled depth rest
      if key.kind == .merge then (append (merged depth item) inherited, own)
      else
        let label : Build Datum :=
          if key.kind == .default then
            match text? key with
            | some text => .ok (.text (String.ofList text))
            | none => during depth (.error .malformed)
          else if keyFault? key then during depth (.error .malformed)
          else value depth key
        (inherited, (both (entryOf depth label (value depth item)) own).map
          fun (entry, more) => entry :: more)

/-- The entries that a mapping, or a list of mappings, gives to the mapping it is merged into. Those
of an earlier mapping of the list come later, so that they win. -/
def merged (depth : Nat) : Node → Build (List (Datum × Datum))
  | mapping _ entries => allOf (filled depth entries)
  | sequence _ items => mergedItems depth items
  | enclosing => .ok []
  | scalar _ _ => unmergeable depth

def mergedItems (depth : Nat) : List Node → Build (List (Datum × Datum))
  | [] => .ok []
  | item :: rest =>
      append (mergedItems depth rest) (mergedItem depth item)

def mergedItem (depth : Nat) : Node → Build (List (Datum × Datum))
  | mapping _ entries => allOf (filled depth entries)
  | enclosing => .ok []
  | _ => unmergeable depth

end

end Node

abbrev Loader :=
  List UInt8 → Except Fault Datum

def usualRoom : Nat :=
  480

/-- Reads the value of a document: null if there is none. Collections may lie in one another as
often as `room` says. -/
def load (room : Nat) : Loader := fun bytes =>
  match Node.ofCursor room (.ofFile bytes) with
  | .error fault => .error fault
  | .ok none => .ok .null
  | .ok (some root) => (root.value 0).mapError Prod.snd

end StatusLine.Document

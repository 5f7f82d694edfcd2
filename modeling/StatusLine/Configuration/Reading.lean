import StatusLine.Configuration.Basic
import StatusLine.Configuration.Issue
import StatusLine.Datum.Listing
import StatusLine.Decimal.Reading
import StatusLine.Text.Substring

/-!
Reading configurations from data. Values are taken generously: texts are read as truth values and
numbers, and truth values count as numbers. All issues are reported, the fields of a record in their
order and then its unknown fields as they come.
-/

namespace StatusLine

/-- Blanks around numbers do not count; information separators are no blanks there. -/
def trimNumber (text : List Char) : List Char :=
  Text.trimWhere (fun c => Text.isBlank c && !(0x1c ≤ c.toNat && c.toNat ≤ 0x1f)) text

/-- The text that a value holds, if it is of a kind that does. Bytes hold the text they encode;
those that encode none are the given mistake. -/
def textIn? (unreadable : Mistake) : Datum → Option (Check String)
  | .text text => some (.ok text)
  | .bytes bytes =>
      match String.fromUTF8? ⟨bytes.toArray⟩ with
      | some text => some (.ok text)
      | none => some (Check.wrong unreadable)
  | .thing named _ _ => if named == Datum.textKind then some (Check.wrong .notUnicode) else none
  | _ => none

def yesWords : List String :=
  ["1", "on", "t", "true", "y", "yes"]

def noWords : List String :=
  ["0", "off", "f", "false", "n", "no"]

def boolOfText (text : String) : Check Bool :=
  let word := String.ofList (Decimal.lower text.toList)
  if yesWords.contains word then .ok true
  else if noWords.contains word then .ok false
  else Check.wrong .unreadableBool

namespace Check

def isShort (n : Int) : Bool :=
  -Int.ofNat (Nat.pow 2 63) ≤ n && n < Int.ofNat (Nat.pow 2 63)

def intOfFloat (x : Float) : Check Int :=
  match Decimal.parts x with
  | .finite negative mantissa exponent =>
      let value := Decimal.Ratio.scaled mantissa 2 exponent
      if value.num % value.den != 0 then wrong .fraction
      else
        let size : Nat := value.num / value.den
        if Nat.pow 2 63 ≤ size then wrong .tooLarge
        else .ok (if negative then -(size : Int) else size)
  | _ => wrong .notFinite

/-- Zero and one as truth values; other numbers of at most 64 bits are read as none. -/
def boolOfInt (n : Int) : Check Bool :=
  if n == 0 then .ok false
  else if n == 1 then .ok true
  else if isShort n then wrong .unreadableBool
  else wrong .notABool

def bool (value : Datum) : Check Bool :=
  match textIn? .unreadableBool value with
  | some found => found.bind boolOfText
  | none =>
      match value with
      | .bool b => .ok b
      | .int n => boolOfInt n
      | .float x =>
          match intOfFloat x with
          | .ok n => boolOfInt n
          | .error _ => wrong .notABool
      | _ => wrong .notABool

def mostDigits : Nat := 4300

def joined? (text : List Char) : Option (List Char) :=
  if !text.contains '_' || text.head? == some '_' || text.getLast? == some '_' ||
    Text.contains ['_', '_'] text then none
  else some (text.filter (· != '_'))

/-- A whole number in digits alone: there is no sign but a minus, and no zero in front. Too many
digits are too many whatever stands behind them. -/
def exactInt (text : List Char) : Except Mistake Int :=
  let negative := text.head? == some '-'
  let unsigned := if negative then text.drop 1 else text
  let digits := unsigned.takeWhile Text.isAsciiDigit
  let rest := unsigned.dropWhile Text.isAsciiDigit
  match digits with
  | [] => .error .unreadableInt
  | '0' :: more => if more.isEmpty && rest.isEmpty then .ok 0 else .error .unreadableInt
  | _ =>
      if mostDigits + unsigned.length < digits.length + text.length then .error .tooLarge
      else if !rest.isEmpty then .error .unreadableInt
      else
        let size : Int := Decimal.digitsValue 10 digits
        .ok (if negative then -size else size)

/-- Leaves out zeros before another digit, with the underscores that stand singly among them. A text
has to start with a digit or a minus; zeros behind a minus stay. -/
def withoutZeros? (text : List Char) : Option (List Char) :=
  match text with
  | '0' :: _ =>
      let zeros := text.takeWhile fun c => c == '0' || c == '_'
      let rest := text.drop zeros.length
      if Text.contains ['_', '_'] zeros then none
      else
        match rest with
        | [] | '.' :: _ => zeros.getLast?.map (· :: rest)
        | c :: _ => if Text.isAsciiDigit c then some rest else none
  | c :: _ => if c == '-' || Text.isAsciiDigit c then some text else none
  | [] => none

def withoutPlaces (text : List Char) : List Char :=
  match text.dropWhile (· != '.') with
  | '.' :: '0' :: zeros => if zeros.all (· == '0') then text.takeWhile (· != '.') else text
  | _ => text

/-- The digits of a whole number with blanks around it, a plus, zeros in front, places that are all
zero, or underscores. -/
def tidied? (text : List Char) : Option (List Char) :=
  let unsigned? :=
    match trimNumber text with
    | '+' :: '-' :: _ => none
    | '+' :: rest => some rest
    | trimmed => some trimmed
  (unsigned?.bind withoutZeros?).map fun found =>
    let whole := withoutPlaces found
    (joined? whole).getD whole

def intOfText (text : String) : Check Int :=
  let found :=
    match exactInt text.toList, tidied? text.toList with
    | .error .unreadableInt, some tidy => exactInt tidy
    | found, _ => found
  match found with
  | .ok n => .ok n
  | .error mistake => wrong mistake

def int (value : Datum) : Check Int :=
  match textIn? .unreadableInt value with
  | some found => found.bind intOfText
  | none =>
      match value with
      | .bool b => .ok (if b then 1 else 0)
      | .int n => .ok n
      | .float x => intOfFloat x
      | .member (.int n) => .ok n
      | _ => wrong .notAnInt

def floatOfInt (n : Int) : Check Float :=
  let size := Decimal.nearest n.natAbs 0
  if size.isInf then wrong .notAFloat else .ok (if n < 0 then -size else size)

def exactFloat? (text : List Char) : Option Float :=
  if text.contains '_' then none else Decimal.readFloat text

def floatOfText (text : String) : Check Float :=
  match (exactFloat? (trimNumber text.toList)).orElse fun _ =>
      (joined? text.toList).bind exactFloat? with
  | some x => .ok x
  | none => wrong .unreadableFloat

def float (value : Datum) : Check Float :=
  match textIn? .unreadableFloat value with
  | some found => found.bind floatOfText
  | none =>
      match value with
      | .bool b => .ok (if b then 1.0 else 0.0)
      | .int n => floatOfInt n
      | .float x => .ok x
      | _ => wrong .notAFloat

def text (value : Datum) : Check String :=
  match value with
  | .member held => .ok held.string
  | value => (textIn? .notUnicode value).getD (wrong .notText)

def texts : (index : Nat) → List Datum → Check (List String)
  | _, [] => .ok []
  | index, item :: rest =>
      apply ((inside (.index index) (text item)).map List.cons) (texts (index + 1) rest)

def names (value : Datum) : Check (List String) :=
  match value with
  | .text _ | .bytes _ | .mapping _ => wrong .notASet
  | value =>
      match value.items? with
      | some items => (texts 0 items).map Names.ordered
      | none => wrong .notASet

def theme (value : Datum) : Check Theme :=
  let refused : Check Theme := wrong (.notOffered (themes.map Theme.name))
  match value with
  | .text name =>
      match Theme.ofName? name with
      | some theme => .ok theme
      | none => refused
  | _ => refused

def pathName (value : Datum) : Check PathName :=
  match value with
  | .text text => .ok (.ofString text)
  | .path path => .ok path
  | _ => wrong .notAPath

/-- The place of a key that is no text. Numbers of more than 64 bits are places by their text. -/
def keyPlace : Datum → Place
  | .int n => if isShort n then .index n else .name (String.ofList (Text.ofInt n))
  | .bool b => .index (if b then 1 else 0)
  | key => .name (String.ofList key.listing)

def unknownFields (known : List String) (entries : List (Datum × Datum)) : List Issue :=
  entries.filterMap fun (key, _) =>
    match key with
    | .text name => if known.contains name then none else some ⟨[.name name], .unknownField⟩
    | _ => some ⟨[keyPlace key], .keyNotText⟩

def field {α : Type} (entries : List (Datum × Datum)) (name : String) (fallback : α)
    (read : Datum → Check α) : Check α :=
  match Datum.lookup (.text name) entries with
  | some value => inside (.name name) (read value)
  | none => .ok fallback

def issues {α : Type} : Check α → List Issue
  | .ok _ => []
  | .error issues => issues

def closed {α : Type} (known : List String) (entries : List (Datum × Datum)) (value : Check α) :
    Check α :=
  match unknownFields known entries with
  | [] => value
  | unknown => .error (issues value ++ unknown)

end Check

def monitoringFields : List String :=
  ["refresh_rate", "cpu_threshold", "memory_threshold", "load_threshold"]

def Monitoring.ofEntries (entries : List (Datum × Datum)) : Check Monitoring :=
  let base := Monitoring.standard
  let start := (Check.field entries "refresh_rate" base.refreshRate Check.int).map Monitoring.mk
  let first := Check.apply start (Check.field entries "cpu_threshold" base.cpuThreshold Check.int)
  let second :=
    Check.apply first (Check.field entries "memory_threshold" base.memoryThreshold Check.int)
  Check.closed monitoringFields entries
    (Check.apply second (Check.field entries "load_threshold" base.loadThreshold Check.float))

def Check.monitoring (value : Datum) : Check (Option Monitoring) :=
  match value with
  | .null => .ok none
  | .mapping entries => (Monitoring.ofEntries entries).map some
  | _ => wrong (.notAMapping "SystemMonitoring")

def configurationFields : List String :=
  ["features", "theme", "colors", "custom_emojis", "usage_integration", "logging",
    "system_monitoring"]

def Configuration.ofEntries (entries : List (Datum × Datum)) : Check Configuration :=
  let base := Configuration.standard
  let start := (Check.field entries "features" base.features Check.names).map Configuration.mk
  let themed := Check.apply start (Check.field entries "theme" base.theme Check.theme)
  let colored := Check.apply themed (Check.field entries "colors" base.colors Check.bool)
  let labelled :=
    Check.apply colored (Check.field entries "custom_emojis" base.customEmojis Check.bool)
  let counted :=
    Check.apply labelled (Check.field entries "usage_integration" base.usageIntegration Check.bool)
  let logged := Check.apply counted (Check.field entries "logging" base.logging Check.bool)
  Check.closed configurationFields entries
    (Check.apply logged (Check.field entries "system_monitoring" base.monitoring? Check.monitoring))

def Configuration.ofDatum (value : Datum) : Check Configuration :=
  match value with
  | .mapping entries => ofEntries entries
  | _ => Check.wrong (.notAMapping "StatuslineConfig")

end StatusLine

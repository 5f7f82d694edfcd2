import StatusLine.Audit.Quotes
import StatusLine.Datum.Record
import StatusLine.Names
import StatusLine.Text.Quoting

/-!
The audit of a shortened script against the raw one. A finding of high severity means that the
shortened text must not be shipped.
-/

namespace StatusLine.Audit

inductive Category
  | syntactic
  | behavior
  | performance
  deriving Repr, DecidableEq

/-- The category of a name; anything else counts as syntax. -/
def Category.ofName (name : String) : Category :=
  if name == "performance" then .performance
  else if name == "behavior" then .behavior else .syntactic

def Category.name : Category → String
  | syntactic => "syntax"
  | behavior => "behavior"
  | performance => "performance"

inductive Severity
  | low
  | medium
  | high
  deriving Repr, DecidableEq

def Severity.name : Severity → String
  | low => "low"
  | medium => "medium"
  | high => "high"

def Severity.all : List Severity :=
  [low, medium, high]

def Severity.ofDatum (value : Datum) : Except Failure Severity :=
  match all.find? fun severity => value == .text severity.name with
  | some severity => .ok severity
  | none => value.requireKey.bind fun _ => .error value.unknownKey

def Severity.rank : Severity → Nat
  | low => 0
  | medium => 1
  | high => 2

def Severity.max (a b : Severity) : Severity :=
  if a.rank < b.rank then b else a

structure Finding where
  category : Category
  severity : Severity
  message : String
  deriving Repr, DecidableEq

def Finding.datum (finding : Finding) : Datum :=
  .list [.text finding.category.name, .text finding.severity.name, .text finding.message]

def Finding.ofDatum (fields : Datum) : Except Failure Finding :=
  let parts := fields.items
  (Signature.requireArguments "ValidationFinding.__init__" ["category", "severity", "message"]
    parts.length).bind fun _ =>
      match parts with
      | [category, severity, message] =>
          (Severity.ofDatum severity).map fun found =>
            ⟨.ofName category.string, found, message.string⟩
      | _ => .ok ⟨.syntactic, .low, ""⟩

structure Report where
  isValid : Bool
  findings : List Finding
  deriving Repr, DecidableEq

namespace Report

def clean : Report :=
  ⟨true, []⟩

/-- The highest severity among the findings; low if there are none. -/
def severity (report : Report) : Severity :=
  report.findings.foldl (fun highest finding => highest.max finding.severity) .low

def bySeverity (report : Report) (severity : Severity) : List Finding :=
  report.findings.filter fun finding => finding.severity = severity

def messages (report : Report) (severity : Severity) : List String :=
  (report.bySeverity severity).map Finding.message

def datum (report : Report) : Datum :=
  .object [("is_valid", .bool report.isValid), ("severity", .text report.severity.name),
    ("findings", .list (report.findings.map Finding.datum))]

end Report

structure Brackets where
  opening : Char
  closing : Char
  deriving Repr, DecidableEq

def Brackets.name (brackets : Brackets) : String :=
  String.ofList [brackets.opening, brackets.closing]

def bracketKinds : List Brackets :=
  [⟨'[', ']'⟩, ⟨'\x7b', '\x7d'⟩, ⟨'(', ')'⟩]

def Brackets.balance (brackets : Brackets) (text : List Char) : Int :=
  (text.count brackets.opening : Int) - text.count brackets.closing

def isWordOrDash (c : Char) : Bool :=
  Text.isWord c || c == '-'

def follows (test : Char → Bool) : List Char → Bool
  | c :: _ => test c
  | [] => false

def afterWord? (word : List Char) (previous : Option Char) (text : List Char) :
    Option (List Char) :=
  if (previous.map isWordOrDash).getD false then none else Text.after? word text

def isExit (previous : Option Char) (text : List Char) : Bool :=
  match afterWord? "exit".toList previous text with
  | some rest => !follows isWordOrDash rest
  | none => false

def isWait (previous : Option Char) (text : List Char) : Bool :=
  match afterWord? "wait".toList previous text with
  | some rest => !follows isWordOrDash rest
  | none => false

def isSleep (previous : Option Char) (text : List Char) : Bool :=
  match afterWord? "sleep".toList previous text with
  | some rest => follows Text.isBlank rest
  | none => false

def hasTimeLimit : (fuel : Nat) → List Char → Bool
  | 0, _ => false
  | fuel + 1, text =>
      match text with
      | '-' :: 't' :: rest =>
          follows Text.isBlank rest || skipOption fuel ('t' :: rest)
      | '-' :: rest => skipOption fuel rest
      | _ => false
where
  /-- Goes on behind an option and the blanks after it. -/
  skipOption (fuel : Nat) (text : List Char) : Bool :=
    let behind := text.dropWhile Text.isWord
    follows Text.isWord text && follows Text.isBlank behind &&
      hasTimeLimit fuel (behind.dropWhile Text.isBlank)

def isTimedRead (previous : Option Char) (text : List Char) : Bool :=
  match afterWord? "read".toList previous text with
  | some rest =>
      follows Text.isBlank rest && hasTimeLimit (rest.length + 1) (rest.dropWhile Text.isBlank)
  | none => false

def isVmstatLoop (previous : Option Char) (text : List Char) : Bool :=
  match afterWord? "vmstat".toList previous text with
  | some rest => follows Text.isBlank rest && follows Text.isDigit (rest.dropWhile Text.isBlank)
  | none => false

structure BlockingCall where
  name : String
  isHere : Option Char → List Char → Bool

def blockingCalls : List BlockingCall :=
  [⟨"sleep", isSleep⟩, ⟨"wait", isWait⟩, ⟨"read -t", isTimedRead⟩, ⟨"vmstat N", isVmstatLoop⟩]

def BlockingCall.count (call : BlockingCall) (text : List Char) : Nat :=
  Text.countPlaces call.isHere none text

def exitCalls (text : List Char) : Nat :=
  Text.countPlaces isExit none text

def arrow (before after : List Char) : String :=
  String.ofList before ++ " -> " ++ String.ofList after

def findingIf (holds : Bool) (finding : Finding) : List Finding :=
  if holds then [finding] else []

def quoteFindings (raw optimized : List Char) : List Finding :=
  let before := scanQuotes raw
  let after := scanQuotes optimized
  if !after.balanced then [⟨.syntactic, .high, "Unbalanced quotes in optimized script"⟩]
  else
    findingIf
      (before.balanced &&
        (before.single % 2 != after.single % 2 || before.double % 2 != after.double % 2))
      ⟨.syntactic, .high, "Quote parity changed"⟩

def bracketFinding (raw optimized : List Char) (brackets : Brackets) : List Finding :=
  let before := brackets.balance raw
  let after := brackets.balance optimized
  findingIf (after != before)
    ⟨.syntactic, .high, "Bracket balance for " ++ brackets.name ++ " changed (" ++
      arrow (Text.ofInt before) (Text.ofInt after) ++ ")"⟩

def malformedMarkers : List (List Char) :=
  ["[[[".toList, "]]]".toList]

def markerFinding (raw optimized marker : List Char) : List Finding :=
  findingIf (Text.count marker raw < Text.count marker optimized)
    ⟨.syntactic, .high, "Malformed test bracket " ++ String.ofList marker⟩

def syntaxFindings (raw optimized : List Char) : List Finding :=
  quoteFindings raw optimized ++ bracketKinds.flatMap (bracketFinding raw optimized) ++
    malformedMarkers.flatMap (markerFinding raw optimized)

def firstLine (text : List Char) : List Char :=
  text.takeWhile (· != '\n')

def startsInterpreterLine (text : List Char) : Bool :=
  ['#', '!'].isPrefixOf text

def behaviorFindings (raw optimized : List Char) : List Finding :=
  let before := exitCalls raw
  let after := exitCalls optimized
  findingIf
    ((startsInterpreterLine raw || startsInterpreterLine optimized) &&
      firstLine raw != firstLine optimized)
    ⟨.behavior, .high, "Shebang line changed"⟩ ++
  findingIf (before != after)
    ⟨.behavior, .high, "Number of exit calls changed (" ++
      arrow (Text.ofNat before) (Text.ofNat after) ++ ")"⟩

def blockingFinding (raw optimized : List Char) (call : BlockingCall) : List Finding :=
  findingIf (call.count raw < call.count optimized)
    ⟨.performance, .medium, "New blocking call introduced: " ++ call.name⟩

def sizeFinding (raw optimized : List Char) : List Finding :=
  findingIf (raw.length < optimized.length)
    ⟨.performance, .low, "Optimized script is larger (" ++
      arrow (Text.ofNat raw.length) (Text.ofNat optimized.length) ++ " bytes)"⟩

def performanceFindings (raw optimized : List Char) : List Finding :=
  blockingCalls.flatMap (blockingFinding raw optimized) ++ sizeFinding raw optimized

def audit (raw optimized : List Char) : Report :=
  let findings := syntaxFindings raw optimized ++ behaviorFindings raw optimized ++
    performanceFindings raw optimized
  ⟨!findings.any fun finding => finding.severity = .high, findings⟩

end StatusLine.Audit

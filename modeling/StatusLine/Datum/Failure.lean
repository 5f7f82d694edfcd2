import StatusLine.Datum.Record

/-!
Failures that data describe: the name of a kind, and what a failure of that kind tells.
-/

namespace StatusLine

namespace Failure

def told (kind : String) : Option (List String) :=
  match kind with
  | "ConfigError" => some ["path", "reason"]
  | "GenerationError" => some ["reason"]
  | "TemplateGapError" => some ["template", "missing", "unexpected"]
  | "RefreshError" => some ["key", "reason"]
  | _ => none

def systemKinds : List (String × List Int) :=
  [("OSError", []), ("BlockingIOError", [11, 114, 115]), ("BrokenPipeError", [32, 108]),
    ("ChildProcessError", [10]), ("ConnectionError", []), ("ConnectionAbortedError", [103]),
    ("ConnectionRefusedError", [111]), ("ConnectionResetError", [104]), ("FileExistsError", [17]),
    ("FileNotFoundError", [2]), ("InterruptedError", [4]), ("IsADirectoryError", [21]),
    ("NotADirectoryError", [20]), ("PermissionError", [1, 13]), ("ProcessLookupError", [3]),
    ("TimeoutError", [110])]

def isSystemKind (kind : String) : Bool :=
  systemKinds.any fun entry => entry.1 == kind

/-- The kind that a name and what a failure tells stand for: a failure of the system that tells a
number and a reason is of the kind that the number stands for. -/
def kindOf (name : String) (arguments : List Datum) : String :=
  let kind := if name == "IOError" || name == "EnvironmentError" then "OSError" else name
  match arguments with
  | .int number :: _ :: rest =>
      if kind == "OSError" && rest.length ≤ 3 then
        ((systemKinds.find? fun entry => entry.2.contains number).map Prod.fst).getD kind
      else kind
  | _ => kind

/-- The text that a failure of the system makes of a number, a reason, and possibly the names of one
or two files; a part that is not used stands between these. -/
def systemText (number reason : Datum) (names : List Datum) : String :=
  let named (n : Nat) : Option String :=
    ((names[n]?).filter fun name => !name.isNull).map fun name => String.ofList name.listing
  let start := "[Errno " ++ number.string ++ "] " ++ reason.string
  match named 0, named 2 with
  | none, _ => start
  | some first, none => start ++ ": " ++ first
  | some first, some second => start ++ ": " ++ first ++ " -> " ++ second

def textOf (kind : String) (arguments : List Datum) : String :=
  match arguments with
  | [] => ""
  | [single] => if kind == "KeyError" then String.ofList single.listing else single.string
  | number :: reason :: rest =>
      if isSystemKind kind && rest.length ≤ 3 then systemText number reason rest
      else (Datum.tuple arguments).string

def ofData (name : String) (arguments : List Datum) : Except Failure Failure :=
  let kind := kindOf name arguments
  let word (n : Nat) : String := ((arguments[n]?).map Datum.string).getD ""
  let names (n : Nat) : List String :=
    ((arguments[n]?).map fun value => value.items.map Datum.string).getD []
  (Signature.requireArguments (kind ++ ".__init__") ((told kind).getD (arguments.map Datum.string))
    arguments.length).map fun _ =>
      match kind with
      | "SlcError" => .general (textOf kind arguments)
      | "ConfigError" => .configuration (word 0) (word 1)
      | "GenerationError" => .generation (word 0)
      | "TemplateGapError" => .gaps (word 0) (names 1) (names 2)
      | "RefreshError" => .refresh (word 0) (word 1)
      | _ => .other kind (textOf kind arguments)

def ofDatum (value : Datum) : Except Failure Failure :=
  match value.items with
  | [kind, arguments] => ofData kind.string arguments.items
  | [kind] => ofData kind.string []
  | _ => .ok (.general "")

end Failure

end StatusLine

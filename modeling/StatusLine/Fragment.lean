import StatusLine.Datum.Record

/-!
Fragments: the share that a feature has in a script.
-/

namespace StatusLine

/-- A value that the script takes from its input. Its parts are texts, or values of any kind where
fields come from data. -/
structure InputField (α : Type) where
  /-- The variable that gets the value. -/
  name : α
  /-- Where the value stands in the input. -/
  expression : α
  /-- What the variable holds otherwise. -/
  fallback : α
  deriving Repr, DecidableEq

namespace InputField

def signature : Signature :=
  ⟨⟨⟨"slc.compiler.spec", "JqField"⟩, false⟩,
    [("name", none), ("expr", none), ("default", some (.text ""))]⟩

def datum (field : InputField Datum) : Datum :=
  .record signature.made
    [("name", field.name), ("expr", field.expression), ("default", field.fallback)]

def ofDatum (fields : Datum) : Except Failure (InputField Datum) :=
  (signature.make fields).map fun made =>
    ⟨made.field "name", made.field "expr", made.field "default"⟩

def map {α β : Type} (f : α → β) (field : InputField α) : InputField β :=
  ⟨f field.name, f field.expression, f field.fallback⟩

def add {α : Type} [BEq α] (merged : List (InputField α)) (field : InputField α) :
    List (InputField α) :=
  if merged.any fun other => other.name == field.name then merged else merged ++ [field]

def merge {α : Type} [BEq α] (fields : List (InputField α)) : List (InputField α) :=
  fields.foldl add []

def mergeData (fields : List (InputField Datum)) : Except Failure (List (InputField Datum)) :=
  (Datum.requireKeys (fields.map InputField.name)).map fun _ => merge fields

def object (fields : List (InputField String)) : List Char :=
  '\x7b' :: Text.joinWith [',', ' '] (fields.map fun field =>
    field.name.toList ++ ": (".toList ++ field.expression.toList ++ [')']) ++ ['\x7d']

end InputField

structure Fragment where
  name : String
  /-- Functions and constants, before the input is read. -/
  setup : List Char
  /-- What is looked up once the input has been read. -/
  query : List Char
  /-- What is printed. -/
  display : List Char
  inputFields : List (InputField String)
  /-- The names of the shared routines that it calls. -/
  routines : List String
  deriving Repr, DecidableEq

namespace Fragment

def datum (fragment : Fragment) : Datum :=
  .object
    [("name", .text fragment.name), ("setup", .text (String.ofList fragment.setup)),
      ("query", .text (String.ofList fragment.query)),
      ("display", .text (String.ofList fragment.display)),
      ("input_fields", .list (fragment.inputFields.map fun field => (field.map .text).datum)),
      ("helpers", .list (fragment.routines.map .text))]

/-- The script text under a name; empty if there is none. -/
def lines (fields : Datum) (name : String) : Except Failure (List Char) :=
  match fields.get? name with
  | none => .ok []
  | some (.text text) => .ok text.toList
  | some other =>
      .error (.other "AttributeError" ("'" ++ other.kindName ++ "' object has no attribute 'strip'"))

def fieldsOf (fields : Datum) : Except Failure (List (InputField Datum)) :=
  (fields.field "input_fields").items.mapM InputField.ofDatum

def ofDatum (fields : Datum) : Except Failure Fragment := do
  let name := fields.field "name"
  let helpers := (fields.field "helpers").items
  let inputs ← fieldsOf fields
  Datum.requireKeys (name :: inputs.map InputField.name ++ helpers)
  let display ← lines fields "display"
  return ⟨name.string, ← lines fields "setup", ← lines fields "query", display,
    inputs.map (InputField.map Datum.string), helpers.map Datum.string⟩

end Fragment

end StatusLine

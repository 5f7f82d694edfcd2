import StatusLine.Template.Attribute
import StatusLine.Template.Syntax

/-!
Rendering templates. A template is rendered only when exactly its gaps are filled.
-/

namespace StatusLine

abbrev Scope := List (String × Datum)

def Scope.find? (scope : Scope) (name : String) : Option Datum :=
  (List.find? (fun entry => entry.1 == name) scope).map Prod.snd

def Scope.ofDatum (values : Datum) : Except Failure Scope :=
  match values with
  | .mapping entries =>
      match Signature.names? (entries.map Prod.fst) with
      | some names => .ok (names.zip (entries.map Prod.snd))
      | none => .error (.wrongKind "keywords must be strings")
  | other =>
      .error (.wrongKind ("slc.templating.ShellTemplate.render() argument after ** must be a " ++
        "mapping, not " ++ other.kindName))

def count (n : Nat) : String :=
  String.ofList (Text.ofNat n)

def Targets.bind (targets : Targets) (item : Datum) : Except Failure Scope :=
  match targets with
  | .one name => .ok [(name, item)]
  | .parts names => (item.unpack names.length).map fun parts => (names.zip parts).reverse

def Filter.apply (filter : Filter) (value : Datum) : Except String Datum :=
  let quoted (form : List Char → List Char) : Datum :=
    .text (String.ofList (form value.plainText))
  match filter with
  | .shellWord => .ok (quoted Text.shellWord)
  | .inQuotes => .ok (quoted Text.escapeInQuotes)
  | .unknown name => .error ("No filter named " ++ listed name ++ " found.")

def loopKind : ValueKind :=
  ⟨"jinja2.runtime", "LoopContext"⟩

def loopState (total index : Nat) (before after : Option Datum) : Datum :=
  let int (n : Nat) : Datum := .int n
  let neighbour (name : String) (item : Option Datum) : List (String × Datum) :=
    (item.map fun found => (name, found)).toList
  .thing loopKind
    ("<" ++ loopKind.name ++ " " ++ count (index + 1) ++ "/" ++ count total ++ ">")
    ([("index", int (index + 1)), ("index0", int index), ("revindex", int (total - index)),
      ("revindex0", int (total - index - 1)), ("first", .bool (index == 0)),
      ("last", .bool (index + 1 == total)), ("length", int total), ("depth", int 1),
      ("depth0", int 0)] ++ neighbour "previtem" before ++ neighbour "nextitem" after)

/-- Why a value lacks an attribute. The first turn of a loop has nothing before it, and the last one
has nothing after it. -/
def lacking (owner : Datum) (name : String) : String :=
  if owner.valueKind == loopKind && name == "previtem" then "there is no previous item"
  else if owner.valueKind == loopKind && name == "nextitem" then "there is no next item"
  else listed owner.ownerName ++ " has no attribute " ++ listed name

/-- The value of an expression, or what is missing for it. -/
def Expression.value (scope : Scope) : Expression → Except String Datum
  | .named name => .ok (((scope.find? name).orElse fun _ => Scope.find? provided name).getD .null)
  | .constant value => .ok value
  | .field subject name =>
      match value scope subject with
      | .error reason => .error reason
      | .ok owner =>
          match owner.attribute? name with
          | some found => .ok found
          | none => .error (lacking owner name)
  | .element subject number =>
      match value scope subject with
      | .error reason => .error reason
      | .ok owner =>
          match owner.entry? (.int number) with
          | some found => .ok found
          | none => .error (owner.ownerName ++ " has no element " ++ count number)
  | .filtered subject filter =>
      match value scope subject with
      | .error reason => .error reason
      | .ok found => filter.apply found

def turns (total : Nat) : (index : Nat) → (before : Option Datum) → List Datum →
    List (Datum × Datum)
  | _, _, [] => []
  | index, before, item :: rest =>
      (item, loopState total index before rest.head?) :: turns total (index + 1) (some item) rest

/-- What a loop over a value walks over. A template knows its own parts by name only, and none by
number. -/
def walked (value : Datum) : Except Failure (List Datum) :=
  if some value == Scope.find? provided selfName then .error (Datum.unknownKey (.int 0))
  else value.walk

def concatenated : List (Except Failure (List Char)) → Except Failure (List Char)
  | [] => .ok []
  | .error failure :: _ => .error failure
  | .ok text :: rest => (concatenated rest).map (text ++ ·)

namespace Piece

mutual

/-- The text of a piece. `failed` makes a failure of the reason that an expression has no value. -/
def render (failed : String → Failure) (scope : Scope) : Piece → Except Failure (List Char)
  | text words => .ok words.toList
  | output value =>
      match value.value scope with
      | .error reason => .error (failed reason)
      | .ok found => .ok found.plainText
  | branch test yes no =>
      match test.value scope with
      | .error reason => .error (failed reason)
      | .ok found => if found.isTruthy then renderAll failed scope yes else renderAll failed scope no
  | loop targets source body =>
      match source.value scope with
      | .error reason => .error (failed reason)
      | .ok found =>
          match walked found with
          | .error failure => .error failure
          | .ok items =>
              concatenated ((turns items.length 0 none items).map fun (item, turn) =>
                match targets.bind item with
                | .error failure => .error failure
                | .ok bound => renderAll failed (bound ++ (loopName, turn) :: scope) body)

def renderAll (failed : String → Failure) (scope : Scope) :
    List Piece → Except Failure (List Char)
  | [] => .ok []
  | piece :: rest =>
      match render failed scope piece with
      | .error failure => .error failure
      | .ok first => (renderAll failed scope rest).map (first ++ ·)

end

end Piece

namespace Template

def mismatch (template : Template) (names : List String) : List String × List String :=
  let gaps := template.gaps
  (gaps.filter fun name => !names.contains name, names.filter fun name => !gaps.contains name)

def failed (template : Template) (reason : String) : Failure :=
  .generation ("template '" ++ template.name ++ "' failed: " ++ reason)

def selfGiven : Failure :=
  .wrongKind ("ShellTemplate.render() got multiple values for argument " ++ listed selfName)

def render (template : Template) (values : Scope) : Except Failure (List Char) :=
  if (values.map Prod.fst).contains selfName then .error selfGiven
  else if template.isRefused then .error refusal
  else
    match template.mismatch (values.map Prod.fst) with
    | ([], []) => Piece.renderAll template.failed values template.pieces
    | (missing, unexpected) => .error (.gaps template.name missing unexpected)

end Template

end StatusLine

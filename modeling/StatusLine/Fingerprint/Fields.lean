import StatusLine.Datum.Record
import StatusLine.Fingerprint.Key

/-!
The fields that a key covers, by what the key is for.
-/

namespace StatusLine.Fingerprint

def scriptFields (features style logging encoders settings optimizes version : Datum) : Datum :=
  .object [("features", features), ("style", style), ("logging", logging), ("encoders", encoders),
    ("settings", settings), ("optimize", optimizes), ("version", version)]

def fragmentFields (feature options style settings : Datum) : Datum :=
  .object [("feature", feature), ("config", options), ("style", style), ("settings", settings)]

def commandFields (words : Datum) : Datum :=
  .object [("command", words)]

def metricFields (cpu memory load : Datum) : Datum :=
  .object [("cpu", cpu), ("memory", memory), ("load", load)]

def entryAt (index : Nat) (item : Datum) : Except Failure (Datum × Datum) :=
  let place := "dictionary update sequence element #" ++ String.ofList (Text.ofNat index)
  match item.items? with
  | some [key, value] => .ok (key, value)
  | some parts =>
      .error (.outOfRange (place ++ " has length " ++ String.ofList (Text.ofNat parts.length) ++
        "; 2 is required"))
  | none =>
      .error (.wrongKind ("cannot convert " ++ place ++ " to a sequence"))

def entriesFrom : (index : Nat) → List Datum → Except Failure (List (Datum × Datum))
  | _, [] => .ok []
  | index, item :: rest =>
      match entryAt index item with
      | .error failure => .error failure
      | .ok entry => (entriesFrom (index + 1) rest).map (entry :: ·)

def asMapping (value : Datum) : Except Failure Datum :=
  match value with
  | .mapping entries => .ok (.mapping entries)
  | other => other.walk.bind fun items => (entriesFrom 0 items).bind Datum.ofPairs

structure FieldFunction where
  name : String
  needs : List String
  options : Nat
  fields : List Datum → Except Failure Datum

def listed (value : Datum) : Except Failure Datum :=
  value.walk.map .list

def keyFunctions : List FieldFunction := [
  ⟨"canonicalize", ["value"], 0, fun arguments => (arguments.headD .null).canonical⟩,
  ⟨"digest", ["fields"], 0, fun arguments => (digest (arguments.headD .null)).map .text⟩,
  ⟨"make_key", ["domain", "fields"], 0, fun
    | [domain, fields] => (key domain.string fields).map .text
    | _ => .ok .null⟩]

/-- The functions of fields. The version is part of what a script depends on. -/
def fieldFunctions (version : String) : List FieldFunction := [
  ⟨"template_fields", ["features", "style", "logging", "feature_configs", "settings"], 1, fun
    | features :: style :: logging :: encoders :: settings :: optimizes => do
        return scriptFields (← listed features) style logging (← asMapping encoders) settings
          (optimizes.head?.getD (.bool true)) (.text version)
    | _ => .ok .null⟩,
  ⟨"fragment_fields", ["feature", "feature_config", "style", "settings"], 0, fun
    | [feature, options, style, settings] => .ok (fragmentFields feature options style settings)
    | _ => .ok .null⟩,
  ⟨"usage_fields", ["command"], 0, fun arguments =>
    (listed (arguments.head?.getD .null)).map commandFields⟩,
  ⟨"system_fields", ["cpu", "memory", "load"], 0, fun
    | [cpu, memory, load] => .ok (metricFields cpu memory load)
    | _ => .ok .null⟩,
  ⟨"git_fields", ["command"], 0, fun arguments =>
    (listed (arguments.head?.getD .null)).map commandFields⟩]

def FieldFunction.apply (function : FieldFunction) (arguments : List Datum) :
    Except Failure Datum :=
  let least := function.needs.length
  if least + function.options < arguments.length then
    .error (Signature.surplus function.name least (least + function.options) arguments.length)
  else
    match function.needs.drop arguments.length with
    | [] => function.fields arguments
    | lacking => .error (Signature.missing function.name lacking)

def fieldsOf (version name : String) (arguments : List Datum) : Except Failure Datum :=
  match (fieldFunctions version ++ keyFunctions).find? fun function => function.name == name with
  | some function => function.apply arguments
  | none =>
      .error (.other "AttributeError" ("module 'slc.cache.keys' has no attribute '" ++ name ++ "'"))

end StatusLine.Fingerprint

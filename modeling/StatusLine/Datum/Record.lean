import StatusLine.Datum.Key

/-!
Making records from named values. A signature lists the fields of a kind of records in order, with
the values of those that may be left out; fields hold whatever they are given.
-/

namespace StatusLine

structure Signature where
  made : RecordKind
  /-- The fields, and what they hold if nothing is given for them. -/
  fields : List (String × Option Datum)
  deriving Repr

namespace Signature

def enumerated : List String → String
  | [] => ""
  | [name] => listed name
  | [name, last] => listed name ++ " and " ++ listed last
  | names => Names.join ", " (names.dropLast.map listed) ++ ", and " ++
      listed (names.getLast?.getD "")

def missing (caller : String) (names : List String) : Failure :=
  .wrongKind (caller ++ "() missing " ++ String.ofList (Text.ofNat names.length) ++
    " required positional argument" ++ (if names.length == 1 then "" else "s") ++ ": " ++
    enumerated names)

def surplus (caller : String) (least most given : Nat) : Failure :=
  let number (n : Nat) : String := String.ofList (Text.ofNat n)
  .wrongKind (caller ++ "() takes " ++
    (if least == most then number most else "from " ++ number least ++ " to " ++ number most) ++
    " positional argument" ++ (if most == 1 then "" else "s") ++ " but " ++ number given ++
    (if given == 1 then " was given" else " were given"))

def requireArguments (caller : String) (names : List String) (given : Nat) : Except Failure Unit :=
  if names.length < given then
    .error (surplus caller (names.length + 1) (names.length + 1) (given + 1))
  else
    match names.drop given with
    | [] => .ok ()
    | lacking => .error (missing caller lacking)

def caller (signature : Signature) : String :=
  signature.made.name ++ ".__init__"

def refusedName (signature : Signature) (name : String) : Failure :=
  .wrongKind (signature.caller ++
    (if name == "self" then "() got multiple values for argument 'self'"
    else "() got an unexpected keyword argument '" ++ name ++ "'"))

def names? : List Datum → Option (List String)
  | [] => some []
  | .text name :: rest => (names? rest).map (name :: ·)
  | _ :: _ => none

def requireNames (signature : Signature) (keys : List Datum) : Except Failure Unit :=
  match names? keys with
  | none => .error (.wrongKind "keywords must be strings")
  | some names =>
      match names.find? fun name => !signature.fields.any fun field => field.1 == name with
      | some name => .error (signature.refusedName name)
      | none => .ok ()

def fill (given : Datum) : List (String × Option Datum) →
    List (String × Datum) × List String
  | [] => ([], [])
  | (name, fallback) :: rest =>
      let (filled, lacking) := fill given rest
      match (given.get? name).orElse fun _ => fallback with
      | some value => ((name, value) :: filled, lacking)
      | none => (filled, name :: lacking)

def make (signature : Signature) (given : Datum) : Except Failure Datum :=
  match given with
  | .mapping entries =>
      match signature.requireNames (entries.map Prod.fst) with
      | .error failure => .error failure
      | .ok () =>
          match fill given signature.fields with
          | (filled, []) => .ok (.record signature.made filled)
          | (_, lacking) => .error (missing signature.caller lacking)
  | value =>
      .error (.wrongKind (signature.made.fullName ++ "() argument after ** must be a mapping, not " ++
        value.kindName))

end Signature

end StatusLine

import StatusLine.Datum.Listing
import StatusLine.Failure

/-!
Which values can be the elements of sets and the keys of mappings: those that never change.
-/

namespace StatusLine.Datum

mutual

def changing? : Datum → Option String
  | list _ => some "list"
  | set _ => some "set"
  | mapping _ => some "dict"
  | tuple items => changingAmong? items
  | record _ fields => changingField? fields
  | _ => none

def changingAmong? : List Datum → Option String
  | [] => none
  | item :: rest => (changing? item).orElse fun _ => changingAmong? rest

def changingField? : List (String × Datum) → Option String
  | [] => none
  | (_, value) :: rest => (changing? value).orElse fun _ => changingField? rest

end

def requireKey (value : Datum) : Except Failure Unit :=
  match value.changing? with
  | some name => .error (.wrongKind ("unhashable type: '" ++ name ++ "'"))
  | none => .ok ()

def requireKeys : List Datum → Except Failure Unit
  | [] => .ok ()
  | value :: rest =>
      match value.requireKey with
      | .error failure => .error failure
      | .ok () => requireKeys rest

def unknownKey (key : Datum) : Failure :=
  .other "KeyError" (String.ofList key.listing)

def wholes? : List Datum → Option (List Int)
  | [] => some []
  | int n :: rest => (wholes? rest).map (n :: ·)
  | _ :: _ => none

def places (size : Nat) : Nat :=
  if size < 5 then 8 else if size < 19 then 32 else if size < 77 then 128 else 512

/-- Whole numbers in a set come by the place that each of them takes, all other elements by when
they came. -/
def settle (items : List Datum) : List Datum :=
  match wholes? items with
  | some numbers =>
      let place (n : Int) : Int := Int.emod n (places numbers.length)
      (numbers.mergeSort fun a b => place a ≤ place b).map int
  | none => items

def elements (items : List Datum) : Except Failure (List Datum) :=
  (requireKeys items).map fun _ => settle (distinct items)

def ofPairs (entries : List (Datum × Datum)) : Except Failure Datum :=
  (requireKeys (entries.map Prod.fst)).map fun _ => ofEntries entries

/-- What a walk through a value meets; not every kind of value has a way through it. -/
def walk (value : Datum) : Except Failure (List Datum) :=
  match value.items? with
  | some items => .ok items
  | none => .error (.wrongKind ("'" ++ value.kindName ++ "' object is not iterable"))

def unpack (count : Nat) (value : Datum) : Except Failure (List Datum) :=
  let number (n : Nat) : String := String.ofList (Text.ofNat n)
  match value.items? with
  | none => .error (.wrongKind ("cannot unpack non-iterable " ++ value.kindName ++ " object"))
  | some parts =>
      if parts.length < count then
        .error (.outOfRange ("not enough values to unpack (expected " ++ number count ++ ", got " ++
          number parts.length ++ ")"))
      else if count < parts.length then
        .error (.outOfRange ("too many values to unpack (expected " ++ number count ++ ")"))
      else .ok parts

def pathOf (value : Datum) : Except Failure PathName :=
  match value with
  | path name => .ok name
  | text name => .ok (.ofString name)
  | bytes _ =>
      .error (.wrongKind
        "argument should be a str object or an os.PathLike object returning str, not <class 'bytes'>")
  | value =>
      .error (.wrongKind ("expected str, bytes or os.PathLike object, not " ++ value.kindName))

end StatusLine.Datum

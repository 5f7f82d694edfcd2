import StatusLine.Configuration.Record
import StatusLine.Datum.Arithmetic
import StatusLine.Fragment
import StatusLine.Settings
import StatusLine.Style

/-!
Tagged data: an object whose only name is a tag stands for a value that plain data cannot say, made
from what the tag names. Everything inside is tagged data too. `Datum.untagged` gives the value that
stands behind data, or what keeps it from being made.
-/

namespace StatusLine.Datum

def hexValue? (c : Char) : Option Nat :=
  if Text.isAsciiDigit c then some (c.toNat - 48)
  else if 'a' ≤ c ∧ c ≤ 'f' then some (c.toNat - 87)
  else if 'A' ≤ c ∧ c ≤ 'F' then some (c.toNat - 55)
  else none

def notHex (place : Nat) : Failure :=
  .outOfRange ("non-hexadecimal number found in fromhex() arg at position " ++
    String.ofList (Text.ofNat place))

def hexBytesFrom : (place : Nat) → List Char → Except Failure (List UInt8)
  | _, [] => .ok []
  | place, c :: rest =>
      if Text.isBlank c && c.toNat < 128 then hexBytesFrom (place + 1) rest
      else
        match rest with
        | [] => .error (notHex (if (hexValue? c).isSome then place + 1 else place))
        | d :: more =>
            match hexValue? c, hexValue? d with
            | some high, some low =>
                (hexBytesFrom (place + 2) more).map ((high * 16 + low).toUInt8 :: ·)
            | some _, none => .error (notHex (place + 1))
            | none, _ => .error (notHex place)

def hexBytes (value : Datum) : Except Failure (List UInt8) :=
  match value with
  | text digits => hexBytesFrom 0 digits.toList
  | value =>
      .error (.wrongKind ("fromhex() argument must be str, not " ++
        (if value.isNull then "None" else value.kindName)))

def entryKind : RecordKind :=
  ⟨⟨"slc.cache.manager", "CacheEntry"⟩, false⟩

def entryFields : List String :=
  ["key", "value", "created_at", "ttl", "domain"]

def entryOf (given : Datum) : Except Failure Datum :=
  match given.entries.find? fun entry => !entryFields.any fun name => entry.1 == text name with
  | some (name, _) => .error (.wrongKind ("Unexpected keyword argument '" ++ name.string ++ "'"))
  | none =>
      match entryFields.find? fun name => (given.get? name).isNone with
      | some name => .error (.wrongKind ("Missing required argument '" ++ name ++ "'"))
      | none => .ok (record entryKind (entryFields.map fun name => (name, given.field name)))

def pairOf (value : Datum) : Except Failure (Datum × Datum) :=
  (value.unpack 2).map fun parts => (parts.headD null, parts.getLastD null)

def orEmpty (value : Datum) : Datum :=
  if value.isNull then mapping [] else value

def failing (result : Except Failure Datum) : Except Objection Datum :=
  result.mapError .failed

def checking (result : Check Datum) : Except Objection Datum :=
  result.mapError .invalid

/-- The value that a tag makes of its content; other names are no tags. Settings that are left out
are as in `base`. -/
def tagged? (base : Settings) (tag : String) (content : Datum) : Option (Except Objection Datum) :=
  match tag with
  | "$float" => some (failing (content.toFloat.map float))
  | "$set" => some (failing ((content.walk.bind elements).map set))
  | "$frozenset" => some (failing ((content.walk.bind elements).map frozenSet))
  | "$tuple" => some (failing (content.walk.map tuple))
  | "$dict" => some (failing (content.walk.bind fun pairs => (pairs.mapM pairOf).bind ofPairs))
  | "$path" => some (failing (content.pathOf.map path))
  | "$bytes" => some (failing ((hexBytes content).map bytes))
  | "$enum" => some (.ok (member content))
  | "$style" => some (failing (Style.signature.make content))
  | "$config" => some (checking ((Configuration.ofDatum content.orEmpty).map Configuration.datum))
  | "$settings" => some (checking ((Settings.ofDatum base content.orEmpty).map Settings.datum))
  | "$entry" => some (failing (entryOf content))
  | "$jqfield" => some (failing (InputField.signature.make content))
  | "$type" => some (.ok (kind Style.signature.made.toValueKind))
  | _ => none

def taggedObject (base : Settings) (entries : List (Datum × Datum)) : Except Objection Datum :=
  match entries with
  | [(text tag, content)] => (tagged? base tag content).getD (.ok (mapping entries))
  | _ => .ok (mapping entries)

mutual

def untagged (base : Settings) : Datum → Except Objection Datum
  | list items => (untaggedItems base items).map list
  | mapping entries => (untaggedEntries base entries).bind (taggedObject base)
  | value => .ok value

def untaggedItems (base : Settings) : List Datum → Except Objection (List Datum)
  | [] => .ok []
  | item :: rest =>
      match untagged base item with
      | .error objection => .error objection
      | .ok value => (untaggedItems base rest).map (value :: ·)

def untaggedEntries (base : Settings) :
    List (Datum × Datum) → Except Objection (List (Datum × Datum))
  | [] => .ok []
  | (name, item) :: rest =>
      match untagged base item with
      | .error objection => .error objection
      | .ok value => (untaggedEntries base rest).map ((name, value) :: ·)

end

end StatusLine.Datum

import StatusLine.Fingerprint.Encoding

/-!
Canonical data: the form of a value in which nothing depends on the order of sets and mappings.
Records become mappings, tuples become lists, path names become texts, and sets become lists in the
order of their encoded elements.
-/

namespace StatusLine.Datum

def withEncodings : List Datum → Except Failure (List (List Char × Datum))
  | [] => .ok []
  | item :: rest =>
      match Encoding.encode item with
      | .error failure => .error failure
      | .ok key => (withEncodings rest).map ((key, item) :: ·)

def orderedByEncoding (items : List Datum) : Except Failure (List Datum) :=
  (withEncodings items).map fun keyed => (Encoding.orderByKey keyed).map Prod.snd

mutual

def canonical : Datum → Except Failure Datum
  | list items | tuple items => (canonicalItems items).map list
  | set items | frozenSet items =>
      match canonicalItems items with
      | .error failure => .error failure
      | .ok plain => (orderedByEncoding plain).map list
  | mapping entries => (canonicalEntries entries).map ofEntries
  | record _ fields => (canonicalFields fields).map ofEntries
  | path value => .ok (text value.toString)
  | member value => canonical value
  | value => .ok value

def canonicalItems : List Datum → Except Failure (List Datum)
  | [] => .ok []
  | item :: rest =>
      match canonical item with
      | .error failure => .error failure
      | .ok plain => (canonicalItems rest).map (plain :: ·)

def canonicalEntries : List (Datum × Datum) → Except Failure (List (Datum × Datum))
  | [] => .ok []
  | (key, value) :: rest =>
      match canonical value with
      | .error failure => .error failure
      | .ok plain =>
          (canonicalEntries rest).map ((text (String.ofList key.plainText), plain) :: ·)

def canonicalFields : List (String × Datum) → Except Failure (List (Datum × Datum))
  | [] => .ok []
  | (name, value) :: rest =>
      match canonical value with
      | .error failure => .error failure
      | .ok plain => (canonicalFields rest).map ((text name, plain) :: ·)

end

def canonicalText (value : Datum) : Except Failure (List Char) :=
  match canonical value with
  | .error failure => .error failure
  | .ok plain => Encoding.encode plain

end StatusLine.Datum

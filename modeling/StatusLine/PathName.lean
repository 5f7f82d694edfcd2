import StatusLine.Text.Quoting

/-!
Path names in normal form: repeated and trailing slashes and single dots are gone, two dots stay,
and two leading slashes stay two.
-/

namespace StatusLine

inductive PathRoot
  | relative
  | absolute
  | doubled
  deriving Repr, DecidableEq

def PathRoot.text : PathRoot → List Char
  | .relative => []
  | .absolute => ['/']
  | .doubled => ['/', '/']

structure PathName where
  root : PathRoot
  parts : List (List Char)
  deriving Repr, DecidableEq

namespace PathName

def partsOf (text : List Char) : List (List Char) :=
  (Text.splitOn ['/'] text).filter fun part => part ≠ [] ∧ part ≠ ['.']

def rootOf : List Char → PathRoot
  | '/' :: '/' :: '/' :: _ => .absolute
  | '/' :: '/' :: _ => .doubled
  | '/' :: _ => .absolute
  | _ => .relative

def ofChars (text : List Char) : PathName :=
  ⟨rootOf text, partsOf text⟩

def ofString (text : String) : PathName :=
  ofChars text.toList

/-- The path name as text; the empty relative one is a single dot. -/
def chars (path : PathName) : List Char :=
  match path.root, path.parts with
  | .relative, [] => ['.']
  | root, parts => root.text ++ Text.joinWith ['/'] parts

def toString (path : PathName) : String :=
  String.ofList path.chars

instance : ToString PathName := ⟨PathName.toString⟩

/-- Appends a path name; an absolute one replaces what it is appended to. -/
def append (path other : PathName) : PathName :=
  match other.root with
  | .relative => ⟨path.root, path.parts ++ other.parts⟩
  | _ => other

instance : Append PathName := ⟨append⟩

def parent (path : PathName) : PathName :=
  ⟨path.root, path.parts.dropLast⟩

/-- The last part; empty for a root. -/
def baseName (path : PathName) : List Char :=
  path.parts.getLast?.getD []

/-- The place of the dot that starts the ending of a name. Neither the first nor the last character
of the name starts one. -/
def endingAt? (name : List Char) : Option Nat :=
  match name.reverse.findIdx? (· == '.') with
  | none => none
  | some behind =>
      let place := name.length - 1 - behind
      if behind = 0 ∨ place = 0 then none else some place

def stem (path : PathName) : List Char :=
  let name := path.baseName
  match endingAt? name with
  | some place => name.take place
  | none => name

def ending (path : PathName) : List Char :=
  let name := path.baseName
  match endingAt? name with
  | some place => name.drop place
  | none => []

def endings (path : PathName) : List (List Char) :=
  let name := path.baseName
  if name.getLast? == some '.' then []
  else
    ((Text.splitOn ['.'] (name.dropWhile (· == '.'))).drop 1).map ('.' :: ·)

def below? (path base : PathName) : Option (List (List Char)) :=
  if path.root = base.root then Text.after? base.parts path.parts else none

/-- The directory that a leading tilde stands for, given the text of the home variable. An unset or
tilde-like home is unknown. -/
def homeDirectory? (home : Option (List Char)) : Option PathName :=
  match home with
  | none => none
  | some text =>
      match Text.trimEndWhere (· == '/') text with
      | [] => some (ofChars ['/'])
      | '~' :: _ => none
      | trimmed => some (ofChars trimmed)

/-- Replaces a first part that starts with a tilde. Only the bare tilde has a known meaning. -/
def expandHome? (home : Option (List Char)) (path : PathName) : Option PathName :=
  match path.root, path.parts with
  | .relative, ('~' :: user) :: rest =>
      if user.isEmpty then
        (homeDirectory? home).map fun directory => ⟨directory.root, directory.parts ++ rest⟩
      else none
  | _, _ => some path

/-- A path name as it stands between double quotes of a script. Below the home directory it is
written relative to the home variable, so that a script keeps working when that directory moves. -/
def shellText (base path : PathName) : List Char :=
  match path.below? base with
  | none => Text.escapeInQuotes path.chars
  | some [] => "$\x7bHOME\x7d".toList
  | some rest => "$\x7bHOME\x7d/".toList ++ Text.escapeInQuotes (Text.joinWith ['/'] rest)

theorem partsOf_named (text part : List Char) (member : part ∈ partsOf text) :
    part ≠ [] ∧ part ≠ ['.'] := by
  have kept := (List.mem_filter.mp member).2
  simpa using kept

end PathName

end StatusLine

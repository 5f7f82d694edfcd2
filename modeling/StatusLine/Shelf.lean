import StatusLine.Configuration.Basic

/-!
The shelf: scripts of common configurations that are ready. Only configurations that are equal to
one of its table get a place.
-/

namespace StatusLine

structure Shelf where
  table : List (String × Configuration)
  /-- The texts that are ready, under the names of the table. -/
  texts : List (String × List Char)
  deriving Repr

namespace Shelf

def usageFeatures : List String :=
  ["directory", "git", "model", "session", "usage"]

def commonConfigurations : List (String × Configuration) :=
  let base := Configuration.standard
  [("default", base),
    ("minimal", { base with features := ["directory", "git"], theme := .minimal }),
    ("plain", { base with colors := false }),
    ("usage", { base with features := usageFeatures, usageIntegration := true })]

def ofTable (table : List (String × Configuration)) : Shelf :=
  ⟨table, []⟩

def standard : Shelf :=
  ofTable commonConfigurations

def orStandard : Option Shelf → Shelf
  | some shelf => if shelf.table.isEmpty then standard else shelf
  | none => standard

def match? (shelf : Shelf) (config : Configuration) : Option String :=
  (shelf.table.find? fun place => place.2 == config).map Prod.fst

/-- The name under which the configuration of a place itself is found. It is found even where it
is not equal to itself. -/
def placeOf (shelf : Shelf) (name : String) (config : Configuration) : Option String :=
  (shelf.table.find? fun place => place.1 == name || place.2 == config).map Prod.fst

def bind (name : String) (text : List Char) :
    List (String × List Char) → List (String × List Char)
  | [] => [(name, text)]
  | item :: rest =>
      if item.1 == name then (name, text) :: rest else item :: bind name text rest

def text? (shelf : Shelf) (name : String) : Option (List Char) :=
  (shelf.texts.find? fun item => item.1 == name).map Prod.snd

def put (shelf : Shelf) (name : String) (text : List Char) : Shelf :=
  { shelf with texts := bind name text shelf.texts }

def remember (shelf : Shelf) (place : Option String) (text : List Char) : Bool × Shelf :=
  match place with
  | some name => (true, shelf.put name text)
  | none => (false, shelf)

theorem find?_bind (name other : String) (text : List Char) (texts : List (String × List Char)) :
    (bind name text texts).find? (fun item => item.1 == other) =
      if name = other then some (name, text) else texts.find? fun item => item.1 == other := by
  induction texts with
  | nil => by_cases same : name = other <;> simp [bind, same]
  | cons item rest ih =>
      by_cases here : item.1 = name
      · by_cases same : name = other
        · simp [bind, here, same]
        · simp [bind, here, same]
      · by_cases found : item.1 = other
        · have apart : name ≠ other := fun same => here (found.trans same.symm)
          simp [bind, found, apart, Ne.symm apart]
        · simp [bind, here, found, ih]

theorem text?_put (shelf : Shelf) (name other : String) (text : List Char) :
    (shelf.put name text).text? other = if name = other then some text else shelf.text? other := by
  simp only [text?, put, find?_bind]
  split <;> rfl

end Shelf

end StatusLine

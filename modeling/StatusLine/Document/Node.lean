import StatusLine.Document.Scalar
import StatusLine.Document.Scan

/-!
The nodes of a document: scalars, sequences and mappings with their kinds, references resolved.
`Node.ofCursor` reads the only document of a text, if there is one. Every token is asked for where
it is needed, so that what comes first in the text is also what is found wrong first.
-/

namespace StatusLine.Document

inductive Node
  | scalar (kind : Kind) (text : List Char)
  | sequence (kind : Kind) (items : List Node)
  | mapping (kind : Kind) (entries : List (Node × Node))
  /-- A reference to a node around this place. -/
  | enclosing
  deriving Repr, Inhabited

namespace Node

/-- What is known while nodes are read: the scan for tokens, the meanings of tag handles, and the
anchored nodes so far. A node that is still open has no value yet. -/
structure Reading where
  scan : Scan
  handles : List (List Char × List Char)
  anchors : List (List Char × Option Node)

abbrev Reader := StateT Reading (Except Fault)

def scanned {α : Type} (step : Scanning α) : Reader α :=
  onPart Reading.scan (fun scan reading => { reading with scan := scan }) step

def peek? : Reader (Option Token) :=
  scanned Scan.peek?

def drop : Reader Unit :=
  scanned Scan.drop

def accept (token : Token) : Reader Bool := do
  if (← peek?) == some token then
    drop
    return true
  else return false

def expect (token : Token) : Reader Unit := do
  if !(← accept token) then refuse

def isBefore (tokens : List Token) : Reader Bool := do
  match ← peek? with
  | some token => return tokens.contains token
  | none => return true

def empty : Node :=
  .scalar .null []

/-- The whole text of a tag. A lone exclamation mark leaves the kind to the node's form. -/
def tagText (name : TagName) : Reader (List Char) := do
  match name.handle with
  | none => return name.suffix
  | some handle =>
      match (← get).handles.find? fun entry => entry.1 == handle with
      | some (_, meaning) => return meaning ++ name.suffix
      | none => refuse

def takeAnchor : Reader (Option (List Char)) := do
  match ← peek? with
  | some (.anchor name) =>
      drop
      return some name
  | _ => return none

def takeTag : Reader (Option TagName) := do
  match ← peek? with
  | some (.tag name) =>
      drop
      return some name
  | _ => return none

def takeProperties : Reader (Option (List Char) × Option (List Char)) := do
  let early ← takeAnchor
  let tag ← takeTag
  let anchor ← match early, tag with
    | none, some _ => takeAnchor
    | _, _ => pure early
  match tag with
  | none => return (anchor, none)
  | some name => return (anchor, some (← tagText name))

def openAnchor (anchor : Option (List Char)) : Reader Unit := do
  match anchor with
  | none => return ()
  | some name =>
      if (← get).anchors.any fun entry => entry.1 == name then refuse
      else modify fun reading => { reading with anchors := (name, none) :: reading.anchors }

def bindAnchor (anchor : Option (List Char)) (node : Node) : Reader Node := do
  match anchor with
  | none => return node
  | some name =>
      modify fun reading =>
        { reading with
          anchors := reading.anchors.map fun entry =>
            if entry.1 == name then (name, some node) else entry }
      return node

def resolve (name : List Char) : Reader Node := do
  match (← get).anchors.find? fun entry => entry.1 == name with
  | some (_, some node) => return node
  | some (_, none) => return .enclosing
  | none => refuse

def enter {α : Type} (room : Nat) (inside : Nat → Reader α) : Reader α :=
  match room with
  | 0 => throw (.unusable tooDeep)
  | room + 1 => inside room

def isUntagged (tag : Option (List Char)) : Bool :=
  tag.isNone || tag == some ['!']

def kindOr (fallback : Kind) (tag : Option (List Char)) : Kind :=
  match tag with
  | some text => if isUntagged tag then fallback else Kind.ofTag text
  | none => fallback

def scalarKind (plain : Bool) (tag : Option (List Char)) (text : List Char) : Kind :=
  kindOr (if plain || tag == some ['!'] then Kind.ofPlain text else .text) tag

def anchored (anchor : Option (List Char)) (node : Node) : Reader Node := do
  openAnchor anchor
  bindAnchor anchor node

def collection {α : Type} (anchor : Option (List Char)) (make : α → Node) (room : Nat)
    (inside : Nat → Reader α) : Reader Node := do
  openAnchor anchor
  let parts ← enter room inside
  bindAnchor anchor (make parts)

def emptyNode (anchor tag : Option (List Char)) : Reader Node :=
  if anchor.isNone && tag.isNone then refuse
  else anchored anchor (.scalar (kindOr (Kind.ofPlain []) tag) [])

mutual

/-- A node. `inBlock` says that block collections may start here, `dashes` that a sequence may
start at the column of the mapping around it, and `room` how many collections may lie in one
another from here on. -/
def node (inBlock dashes : Bool) (room : Nat) : (fuel : Nat) → Reader Node
  | 0 => refuse
  | fuel + 1 => do
      match ← peek? with
      | some (.reference name) =>
          drop
          resolve name
      | _ =>
          let (anchor, tag) ← takeProperties
          match ← peek? with
          | some (.scalar plain text) =>
              drop
              anchored anchor (.scalar (scalarKind plain tag text) text)
          | some (.halved text) =>
              drop
              let kind := kindOr .halved tag
              anchored anchor (.scalar (if kind == .text then .halved else kind) text)
          | some .bracketOpen =>
              drop
              collection anchor (.sequence (kindOr .sequence tag)) room
                fun room => flowItems true room fuel
          | some .braceOpen =>
              drop
              collection anchor (.mapping (kindOr .mapping tag)) room
                fun room => flowEntries true room fuel
          | some .dash =>
              if dashes then
                collection anchor (.sequence (kindOr .sequence tag)) room
                  fun room => dashItems room fuel
              else emptyNode anchor tag
          | some .sequenceStart =>
              if inBlock then
                drop
                collection anchor (.sequence (kindOr .sequence tag)) room
                  fun room => blockItems room fuel
              else emptyNode anchor tag
          | some .mappingStart =>
              if inBlock then
                drop
                collection anchor (.mapping (kindOr .mapping tag)) room
                  fun room => blockEntries room fuel
              else emptyNode anchor tag
          | _ => emptyNode anchor tag
termination_by structural fuel => fuel

def nodeUnless (tokens : List Token) (inBlock dashes : Bool) (room : Nat) :
    (fuel : Nat) → Reader Node
  | 0 => refuse
  | fuel + 1 => do
      if ← isBefore tokens then return empty else node inBlock dashes room fuel
termination_by structural fuel => fuel

def dashItems (room : Nat) : (fuel : Nat) → Reader (List Node)
  | 0 => refuse
  | fuel + 1 => do
      if ← accept .dash then
        let first ← nodeUnless [.dash, .key, .value, .blockEnd] true false room fuel
        let rest ← dashItems room fuel
        return first :: rest
      else return []
termination_by structural fuel => fuel

def blockItems (room : Nat) : (fuel : Nat) → Reader (List Node)
  | 0 => refuse
  | fuel + 1 => do
      if ← accept .dash then
        let first ← nodeUnless [.dash, .blockEnd] true false room fuel
        let rest ← blockItems room fuel
        return first :: rest
      else
        expect .blockEnd
        return []
termination_by structural fuel => fuel

def blockEntries (room : Nat) : (fuel : Nat) → Reader (List (Node × Node))
  | 0 => refuse
  | fuel + 1 => do
      if ← accept .key then
        let key ← nodeUnless [.key, .value, .blockEnd] true true room fuel
        let value ←
          if ← accept .value then nodeUnless [.key, .value, .blockEnd] true true room fuel
          else pure empty
        let rest ← blockEntries room fuel
        return (key, value) :: rest
      else
        expect .blockEnd
        return []
termination_by structural fuel => fuel

def flowEntry (close : Token) (room : Nat) : (fuel : Nat) → Reader (Node × Node)
  | 0 => refuse
  | fuel + 1 => do
      let key ← nodeUnless [.value, .comma, close] false false room fuel
      let value ←
        if ← accept .value then nodeUnless [.comma, close] false false room fuel
        else pure empty
      return (key, value)
termination_by structural fuel => fuel

/-- The items of a list in brackets. A key makes a mapping of one entry. -/
def flowItems (first : Bool) (room : Nat) : (fuel : Nat) → Reader (List Node)
  | 0 => refuse
  | fuel + 1 => do
      if ← accept .bracketClose then return []
      else
        if !first then expect .comma
        if ← accept .key then
          let entry ← enter room fun room => flowEntry .bracketClose room fuel
          let rest ← flowItems false room fuel
          return .mapping .mapping [entry] :: rest
        else if ← accept .bracketClose then return []
        else
          let item ← node false false room fuel
          let rest ← flowItems false room fuel
          return item :: rest
termination_by structural fuel => fuel

def flowEntries (first : Bool) (room : Nat) : (fuel : Nat) → Reader (List (Node × Node))
  | 0 => refuse
  | fuel + 1 => do
      if ← accept .braceClose then return []
      else
        if !first then expect .comma
        if ← accept .key then
          let entry ← flowEntry .braceClose room fuel
          let rest ← flowEntries false room fuel
          return entry :: rest
        else if ← accept .braceClose then return []
        else
          let key ← node false false room fuel
          let rest ← flowEntries false room fuel
          return (key, empty) :: rest
termination_by structural fuel => fuel

end

def standardHandles : List (List Char × List Char) :=
  [(['!'], ['!']), (['!', '!'], standardTag)]

/-- Reads directives: at most one version, which must be of the first generation, and at most one
meaning for every handle. -/
def directives : (fuel : Nat) → (versioned : Bool) → List (List Char × List Char) →
    Reader (List (List Char × List Char))
  | 0, _, handles => return handles
  | fuel + 1, versioned, handles => do
      match ← peek? with
      | some (.version major) =>
          drop
          if versioned || major != 1 then refuse else directives fuel true handles
      | some (.handle name meaning) =>
          drop
          if handles.any fun entry => entry.1 == name then refuse
          else directives fuel versioned ((name, meaning) :: handles)
      | some .directive =>
          drop
          directives fuel versioned handles
      | _ => return handles

def isDirective : Token → Bool
  | .version _ | .handle _ _ | .directive => true
  | _ => false

/-- Everything after the document must be marks of its end. Directives are still read. -/
def finish : (fuel : Nat) → Reader Unit
  | 0 => refuse
  | fuel + 1 => do
      if ← accept .documentEnd then finish fuel
      else if (← peek?).isSome then
        let _ ← directives fuel false []
        refuse

def markedRoot (room fuel : Nat) : Reader Node := do
  let handles ← directives fuel false []
  modify fun reading => { reading with handles := handles ++ standardHandles }
  expect .documentStart
  let next ← peek?
  let bare := (next.map isDirective).getD true || next == some .documentStart ||
    next == some .documentEnd
  if bare then return empty else node true false room fuel

def document (room fuel : Nat) : Reader (Option Node) := do
  match ← peek? with
  | none => return none
  | some token =>
      let root ←
        if isDirective token || token == .documentStart then markedRoot room fuel
        else node true false room fuel
      finish fuel
      return some root

/-- The root of the document that starts at a place, where collections may lie in one another as
often as `room` says. -/
def ofCursor (room : Nat) (place : Cursor) : Except Fault (Option Node) :=
  let fuel := 16 * place.rest.length + 24
  ((document room fuel).run ⟨.start place, standardHandles, []⟩).map Prod.fst

end Node

end StatusLine.Document

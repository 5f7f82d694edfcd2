import StatusLine.Document.Token

/-!
Scanning for tokens, one after the other as they are asked for. Indentation opens and closes block
collections, and a scalar turns out to be a key only when a colon follows it on the same line, so
the place where it started is remembered until then, and no token from that place on is given out.
-/

namespace StatusLine.Document

open Scanner

/-- A place where a key may have started: the number of the token there, and whether the
indentation leaves no other reading. -/
structure KeyPlace where
  token : Nat
  required : Bool
  index : Nat
  line : Nat
  column : Nat
  deriving Repr

/-- What is known halfway through a text. -/
structure Scan where
  here : Cursor
  /-- How many brackets and braces are open. -/
  level : Nat
  /-- The column of the innermost block collection, or -1. -/
  indent : Int
  outer : List Int
  keyAllowed : Bool
  /-- At most one open key place for every level. -/
  keys : List (Nat × KeyPlace)
  /-- How many tokens were given out. -/
  taken : Nat
  /-- The tokens found since then. -/
  found : List Token
  /-- Whether there are no more tokens to be found. -/
  ended : Bool
  deriving Repr

abbrev Scanning := StateT Scan (Except Fault)

namespace Scan

def start (here : Cursor) : Scan :=
  ⟨here, 0, -1, [], true, [], 0, [], false⟩

def inFlow (scan : Scan) : Bool :=
  scan.level != 0

def read {α : Type} (scanner : Scanner α) : Scanning α :=
  onPart Scan.here (fun here scan => { scan with here := here }) scanner

def push (token : Token) : Scanning Unit :=
  modify fun scan => { scan with found := scan.found ++ [token] }

def insertAt (number : Nat) (token : Token) : Scanning Unit :=
  modify fun scan => { scan with found := scan.found.insertIdx (number - scan.taken) token }

def allowKey (allowed : Bool) : Scanning Unit :=
  modify fun scan => { scan with keyAllowed := allowed }

def keyHere? (scan : Scan) : Option KeyPlace :=
  (scan.keys.find? fun entry => entry.1 == scan.level).map Prod.snd

def forgetKey : Scanning Unit :=
  modify fun scan => { scan with keys := scan.keys.filter fun entry => entry.1 != scan.level }

/-- Gives up the open key place of this level; a required one cannot be given up. -/
def dropKey : Scanning Unit := do
  match (← get).keyHere? with
  | some place => if place.required then refuse else forgetKey
  | none => return ()

def saveKey : Scanning Unit := do
  let scan ← get
  if scan.keyAllowed then
    let required := !scan.inFlow && scan.indent == (scan.here.column : Int)
    let place : KeyPlace :=
      ⟨scan.taken + scan.found.length, required, scan.here.index, scan.here.line, scan.here.column⟩
    dropKey
    modify fun scan => { scan with keys := (scan.level, place) :: scan.keys }

def KeyPlace.isStale (here : Cursor) (place : KeyPlace) : Bool :=
  place.line != here.line || 1024 < here.index - place.index

def hasLostKey (scan : Scan) : Bool :=
  scan.keys.any fun entry => KeyPlace.isStale scan.here entry.2 && entry.2.required

def dropStaleKeys : Scanning Unit := do
  if (← get).hasLostKey then refuse
  else
    modify fun scan =>
      { scan with keys := scan.keys.filter fun entry => !KeyPlace.isStale scan.here entry.2 }

def unwindFrom (column : Int) : (outer : List Int) → Scan → Scan
  | [], scan => scan
  | indent :: rest, scan =>
      if column < scan.indent then
        unwindFrom column rest
          { scan with indent := indent, outer := rest, found := scan.found ++ [.blockEnd] }
      else scan

def unwind (column : Int) : Scanning Unit :=
  modify fun scan => if scan.inFlow then scan else unwindFrom column scan.outer scan

def indentTo (column : Nat) : Scanning Unit :=
  modify fun scan => { scan with indent := column, outer := scan.indent :: scan.outer }

def deepen (column : Nat) : Scanning Bool := do
  if (← get).indent < (column : Int) then
    indentTo column
    return true
  else return false

/-- Skips blanks, comments and line ends. Behind a line end a key may start. -/
def skipGaps : (fuel : Nat) → Scanning Unit
  | 0 => return ()
  | fuel + 1 => do
      read skipSpaces
      read skipComment
      if (← read takeBreak).isEmpty then return ()
      else
        if !(← get).inFlow then allowKey true
        skipGaps fuel

def skipByteOrderMark : Scanning Unit := do
  if (← get).here.index == 0 then
    if (← read head) == '\ufeff' then read (forward 1)

def step (count : Nat) (token : Token) : Scanning Unit := do
  read (forward count)
  push token

def closeAll : Scanning Unit := do
  unwind (-1)
  dropKey
  allowKey false

def changeLevel (change : Nat → Nat) : Scanning Unit :=
  modify fun scan => { scan with level := change scan.level }

def documentMark (token : Token) : Scanning Unit := do
  closeAll
  step 3 token

def openFlow (token : Token) : Scanning Unit := do
  saveKey
  changeLevel (· + 1)
  allowKey true
  step 1 token

def closeFlow (token : Token) : Scanning Unit := do
  dropKey
  changeLevel (· - 1)
  allowKey false
  step 1 token

def comma : Scanning Unit := do
  allowKey true
  dropKey
  step 1 .comma

def openBlock (token : Token) : Scanning Unit := do
  let scan ← get
  if scan.inFlow then return ()
  else if !scan.keyAllowed then refuse
  else if ← deepen scan.here.column then push token

def dash : Scanning Unit := do
  openBlock .sequenceStart
  allowKey true
  dropKey
  step 1 .dash

def explicitMark (token : Token) : Scanning Unit := do
  openBlock .mappingStart
  allowKey (!(← get).inFlow)
  dropKey
  step 1 token

def value : Scanning Unit := do
  let scan ← get
  match scan.keyHere? with
  | some place =>
      forgetKey
      insertAt place.token .key
      if !scan.inFlow then
        if ← deepen place.column then insertAt place.token .mappingStart
      allowKey false
      step 1 .value
  | none => explicitMark .value

def keyLike (scanner : Scanner Token) : Scanning Unit := do
  saveKey
  allowKey false
  push (← read scanner)

def block : Scanning Unit := do
  allowKey true
  dropKey
  let text ← read (takeBlock (← get).indent)
  push (.scalar false text)

def plain : Scanning Unit := do
  saveKey
  let scan ← get
  let (text, lineEnded) ← read
    (takePlain scan.inFlow (scan.indent + 1) (scan.here.rest.length + 1) [] false)
  allowKey lineEnded
  push (.scalar true text)

def directive : Scanning Unit := do
  closeAll
  push (← read takeDirective)

def isApart : Scanning Bool := do
  if (← get).inFlow then return true else return isGap (← read (look 1))

/-- Finds the token that the given character starts, which is neither a gap nor the end. -/
def token (c : Char) : Scanning Unit := do
  let first := (← get).here.column == 0
  if ← (if first && c == '-' then read (isMarked '-') else pure false) then
    documentMark .documentStart
  else if ← (if first && c == '.' then read (isMarked '.') else pure false) then
    documentMark .documentEnd
  else if first && c == '%' then directive
  else if c == '[' then openFlow .bracketOpen
  else if c == '\x7b' then openFlow .braceOpen
  else if c == ']' then closeFlow .bracketClose
  else if c == '\x7d' then closeFlow .braceClose
  else if c == ',' then comma
  else if ← (if c == '-' then read (do return isGap (← look 1)) else pure false) then dash
  else if ← (if c == '?' then isApart else pure false) then explicitMark .key
  else if ← (if c == ':' then isApart else pure false) then value
  else if c == '*' then keyLike (do return .reference (← takeAnchorName))
  else if c == '&' then keyLike (do return .anchor (← takeAnchorName))
  else if c == '!' then keyLike (do return .tag (← takeTag))
  else if (c == '|' || c == '>') && !(← get).inFlow then block
  else if c == '\'' || c == '"' then keyLike takeQuotedToken
  else if ← read (startsPlain (← get).inFlow) then plain
  else refuse

def finish : Scanning Unit :=
  modify fun scan => { scan with keys := [], ended := true }

def fetch : Scanning Unit := do
  skipByteOrderMark
  skipGaps ((← get).here.rest.length + 1)
  dropStaleKeys
  unwind (← get).here.column
  let c ← read head
  if isEnd c then
    closeAll
    finish
  else token c

def isOpen (scan : Scan) : Bool :=
  scan.keys.any fun entry => entry.2.token == scan.taken

def supply : (fuel : Nat) → Scanning Unit
  | 0 => refuse
  | fuel + 1 => do
      if (← get).ended then return ()
      else if (← get).found.isEmpty then
        fetch
        supply fuel
      else
        dropStaleKeys
        if (← get).isOpen then
          fetch
          supply fuel

def peek? : Scanning (Option Token) := do
  supply ((← get).here.rest.length + 2)
  return (← get).found.head?

def drop : Scanning Unit :=
  modify fun scan => { scan with taken := scan.taken + 1, found := scan.found.tail }

end Scan

end StatusLine.Document

import StatusLine.Text.HereDocument

/-!
Quotes in shell text. A scan follows single and double quotes, command substitutions, comments and
here-documents, and says whether everything that was opened is closed again.
-/

namespace StatusLine.Audit

/-- What the scan is inside of. -/
inductive Frame
  | code
  | single
  | double
  | command
  deriving Repr, DecidableEq

structure QuoteState where
  /-- The innermost frame first. -/
  frames : List Frame
  /-- The open parentheses in every command, the innermost command first. -/
  depths : List Nat
  /-- The here-documents whose bodies have not started yet, in order. -/
  pending : List (List Char)
  /-- Single quotes that open or close something. -/
  singles : Nat
  doubles : Nat
  deriving Repr, DecidableEq

def QuoteState.start : QuoteState :=
  ⟨[.code], [], [], 0, 0⟩

def breaksWord (c : Char) : Bool :=
  c == ' ' || c == '\t' || c == '\n' || c == ';' || c == '&' || c == '|' || c == '(' || c == ')'

def startsWord : Option Char → Bool
  | some c => breaksWord c
  | none => true

/-- What follows the line that ends a here-document. `line` is the line so far, backwards. -/
def afterDelimiter (delimiter : List Char) : (line : List Char) → List Char → List Char
  | _, [] => []
  | line, c :: rest =>
      if c = '\n' then
        if Text.trim line.reverse = delimiter then rest else afterDelimiter delimiter [] rest
      else afterDelimiter delimiter (c :: line) rest

def afterBodies (delimiters : List (List Char)) (text : List Char) : List Char :=
  delimiters.foldl (fun rest delimiter => afterDelimiter delimiter [] rest) text

namespace QuoteState

def innermost (state : QuoteState) : Frame :=
  state.frames.headD .code

def enter (frame : Frame) (state : QuoteState) : QuoteState :=
  { state with frames := frame :: state.frames }

def leave (state : QuoteState) : QuoteState :=
  { state with frames := state.frames.tail }

def countSingle (state : QuoteState) : QuoteState :=
  { state with singles := state.singles + 1 }

def countDouble (state : QuoteState) : QuoteState :=
  { state with doubles := state.doubles + 1 }

def enterCommand (state : QuoteState) : QuoteState :=
  { state with frames := .command :: state.frames, depths := 0 :: state.depths }

def openParenthesis (state : QuoteState) : QuoteState :=
  match state.depths with
  | depth :: outer => { state with depths := (depth + 1) :: outer }
  | [] => state

def closeParenthesis (state : QuoteState) : QuoteState :=
  match state.depths with
  | 0 :: outer => { state.leave with depths := outer }
  | (depth + 1) :: outer => { state with depths := depth :: outer }
  | [] => state

def opensCommand (c : Char) (rest : List Char) : Bool :=
  c == '$' && rest.head? == some '('

/-- The here-document that starts here. Three angle brackets start none. -/
def document? (c : Char) (rest : List Char) : Option Text.HereDocument :=
  if c = '<' then
    match rest with
    | '<' :: '<' :: _ => none
    | _ => Text.hereDocument? (c :: rest)
  else none

def stepDouble (state : QuoteState) (c : Char) (rest : List Char) : QuoteState × Nat :=
  if c = '"' then (state.leave.countDouble, 0)
  else if opensCommand c rest then (state.enterCommand, 1)
  else (state, 0)

/-- One step in code. -/
def stepCode (state : QuoteState) (previous : Option Char) (c : Char) (rest : List Char) :
    QuoteState × Nat :=
  if c = '\'' then ((state.enter .single).countSingle, 0)
  else if c = '"' then ((state.enter .double).countDouble, 0)
  else if c = '#' ∧ startsWord previous then (state, (rest.takeWhile (· != '\n')).length)
  else if opensCommand c rest then (state.enterCommand, 1)
  else
    match document? c rest with
    | some found =>
        ({ state with pending := state.pending ++ [found.delimiter] },
          rest.length - found.rest.length)
    | none =>
        if state.innermost = .command ∧ c = '(' then (state.openParenthesis, 0)
        else if state.innermost = .command ∧ c = ')' then (state.closeParenthesis, 0)
        else if c = '\n' ∧ state.pending ≠ [] then
          ({ state with pending := [] }, rest.length - (afterBodies state.pending rest).length)
        else (state, 0)

def step (state : QuoteState) (previous : Option Char) (c : Char) (rest : List Char) :
    QuoteState × Nat :=
  if state.innermost = .single then
    if c = '\'' then (state.leave.countSingle, 0) else (state, 0)
  else if c = '\\' then (state, 1)
  else if state.innermost = .double then state.stepDouble c rest
  else state.stepCode previous c rest

end QuoteState

/-- The state behind a text; `skipped` characters belong to an earlier step. -/
def scanFrom : (skipped : Nat) → (previous : Option Char) → QuoteState → List Char → QuoteState
  | _, _, state, [] => state
  | skipped + 1, _, state, c :: rest => scanFrom skipped (some c) state rest
  | 0, previous, state, c :: rest =>
      let (next, skipped) := state.step previous c rest
      scanFrom skipped (some c) next rest

structure QuoteScan where
  balanced : Bool
  single : Nat
  double : Nat
  deriving Repr, DecidableEq

def scanQuotes (text : List Char) : QuoteScan :=
  let final := scanFrom 0 none .start text
  ⟨final.frames == [.code], final.singles, final.doubles⟩

end StatusLine.Audit

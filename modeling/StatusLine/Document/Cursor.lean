import StatusLine.Failure

/-!
A place in the text of a document, with its line and column, and the steps that move it on. The text
holds no NUL character, so that one marks the end. A text is asked for as it is needed: behind the
characters that can be had it ends, or it cannot be read on.
-/

namespace StatusLine.Document

/-- Why a text has no value. -/
inductive Fault
  /-- It does not follow the rules of documents. -/
  | malformed
  /-- It names a value that cannot be built, or cannot be read. -/
  | unusable (failure : Failure)
  deriving Repr, DecidableEq

def tooDeep : Failure :=
  .other "RecursionError" "maximum recursion depth exceeded"

structure Cursor where
  /-- The characters that can be had from here on. -/
  rest : List Char
  /-- Why there are no more of them, unless the text ends. -/
  cut : Option Fault
  index : Nat
  line : Nat
  column : Nat
  deriving Repr

def isBreak (c : Char) : Bool :=
  c == '\n' || c == '\x85' || c == '\u2028' || c == '\u2029'

def isEnd (c : Char) : Bool :=
  c == '\x00'

def isBreakOrEnd (c : Char) : Bool :=
  isBreak c || isEnd c

def isSpaceOrEnd (c : Char) : Bool :=
  c == ' ' || isBreakOrEnd c

def isGap (c : Char) : Bool :=
  c == '\t' || isSpaceOrEnd c

def isBlank (c : Char) : Bool :=
  c == ' ' || c == '\t'

def isNameChar (c : Char) : Bool :=
  Text.isAsciiLetter c || Text.isAsciiDigit c || c == '-' || c == '_'

def isHexDigit (c : Char) : Bool :=
  Text.isAsciiDigit c || ('a' ≤ c && c ≤ 'f') || ('A' ≤ c && c ≤ 'F')

namespace Cursor

def advance (place : Cursor) : Cursor :=
  match place.rest with
  | [] => place
  | c :: rest =>
      let next := { place with rest := rest, index := place.index + 1 }
      if isBreak c then { next with line := place.line + 1, column := 0 }
      else if c == '\ufeff' then next
      else { next with column := place.column + 1 }

def skip : Nat → Cursor → Cursor
  | 0, place => place
  | count + 1, place => skip count place.advance

end Cursor

abbrev Scanner := StateT Cursor (Except Fault)

def onPart {σ τ α : Type} (part : τ → σ) (put : σ → τ → τ) (step : StateT σ (Except Fault) α) :
    StateT τ (Except Fault) α := fun whole =>
  (step (part whole)).map fun (found, after) => (found, put after whole)

def ofExcept {σ α : Type} (result : Except Fault α) : StateT σ (Except Fault) α := fun state =>
  result.map fun value => (value, state)

def refuse {σ α : Type} : StateT σ (Except Fault) α :=
  throw .malformed

namespace Scanner

def look (ahead : Nat) : Scanner Char := fun place =>
  match place.rest[ahead]?, place.cut with
  | some c, _ => .ok (c, place)
  | none, none => .ok ('\x00', place)
  | none, some fault => .error fault

def head : Scanner Char :=
  look 0

def forward (count : Nat) : Scanner Unit := do
  let _ ← look count
  modify (Cursor.skip count)

def takeWhile (passes : Char → Bool) : Scanner (List Char) := do
  let run := (← get).rest.takeWhile passes
  forward run.length
  return run

def skipWhile (passes : Char → Bool) : Scanner Unit := do
  let _ ← takeWhile passes

def skipSpaces : Scanner Unit :=
  skipWhile (· == ' ')

def skipSpacesTo (column : Nat) : Scanner Unit := do
  let place ← get
  forward (min (column - place.column) (place.rest.takeWhile (· == ' ')).length)

def skipComment : Scanner Unit := do
  if (← head) == '#' then skipWhile fun c => !isBreakOrEnd c

def takeBreak : Scanner (List Char) := do
  let c ← head
  if isBreak c then
    forward 1
    return [if c == '\u2028' || c == '\u2029' then c else '\n']
  else return []

/-- Whether three equal marks followed by a gap stand here. All three are looked at in any case. -/
def isMarked (mark : Char) : Scanner Bool := do
  let third ← look 2
  if third == mark && (← look 0) == mark && (← look 1) == mark then return isGap (← look 3)
  else return false

def isDocumentMark : Scanner Bool := do
  if ← isMarked '-' then return true else isMarked '.'

def finishLine : Scanner Unit := do
  skipSpaces
  skipComment
  if isBreakOrEnd (← head) then
    let _ ← takeBreak
  else refuse

end Scanner

end StatusLine.Document

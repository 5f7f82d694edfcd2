import StatusLine.Text.HereDocument

/-!
Runs of blank lines. At most two blank lines stay next to each other, except inside here-documents,
whose lines all stay.
-/

namespace StatusLine.Shortening

def longestBlankRun : Nat := 2

structure BlankState where
  run : Nat
  openDelimiters : List (List Char)
  deriving Repr, DecidableEq

def BlankState.start : BlankState :=
  ⟨0, []⟩

def startsComment (stripped : List Char) : Bool :=
  stripped.head? == some '#'

def BlankState.step (state : BlankState) (line : List Char) : Bool × BlankState :=
  let stripped := Text.trim line
  match state.openDelimiters with
  | delimiter :: outer =>
      (true, if stripped = delimiter then { state with openDelimiters := outer } else state)
  | [] =>
      if stripped.isEmpty then
        (decide (state.run + 1 ≤ longestBlankRun), { state with run := state.run + 1 })
      else if startsComment stripped then (true, ⟨0, []⟩)
      else (true, ⟨0, (Text.delimiters line).reverse⟩)

def keptLines : BlankState → List (List Char) → List (List Char)
  | _, [] => []
  | state, line :: rest =>
      let (stays, next) := state.step line
      if stays then line :: keptLines next rest else keptLines next rest

def shortenBlankRuns (text : List Char) : List Char :=
  Text.joinLines (keptLines .start (Text.splitLines text))

theorem keptLines_sublist (state : BlankState) (lines : List (List Char)) :
    (keptLines state lines).Sublist lines := by
  induction lines generalizing state with
  | nil => simp [keptLines]
  | cons line rest ih =>
      simp only [keptLines]
      split
      · exact (ih _).cons_cons line
      · exact (ih _).cons line

end StatusLine.Shortening

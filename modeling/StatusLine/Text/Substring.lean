import StatusLine.Text.Lines

/-!
Finding, counting, splitting and replacing stretches of text, always from left to right and without
overlap.
-/

namespace StatusLine.Text

def after? {α : Type} [DecidableEq α] : (lead : List α) → List α → Option (List α)
  | [], rest => some rest
  | _ :: _, [] => none
  | a :: lead, b :: rest => if a = b then after? lead rest else none

theorem after?_append {α : Type} [DecidableEq α] (lead rest : List α) :
    after? lead (lead ++ rest) = some rest := by
  induction lead with
  | nil => rfl
  | cons a lead ih => simp [after?, ih]

theorem eq_append_of_after? {α : Type} [DecidableEq α] {lead list rest : List α}
    (found : after? lead list = some rest) : list = lead ++ rest := by
  fun_induction after? lead list with
  | case1 => simpa using found
  | case2 => simp at found
  | case3 a lead rest ih => simp [ih found]
  | case4 => simp at found

def contains (needle : List Char) : List Char → Bool
  | [] => needle.isPrefixOf []
  | c :: rest => needle.isPrefixOf (c :: rest) || contains needle rest

/-- How many occurrences fit side by side; `skipped` characters belong to the last one found. -/
def countFrom (needle : List Char) : (skipped : Nat) → List Char → Nat
  | _, [] => 0
  | skipped + 1, _ :: rest => countFrom needle skipped rest
  | 0, c :: rest =>
      if needle.isPrefixOf (c :: rest) then 1 + countFrom needle (needle.length - 1) rest
      else countFrom needle 0 rest

def count (needle text : List Char) : Nat :=
  countFrom needle 0 text

def splitFrom (separator : List Char) : (skipped : Nat) → List Char → List (List Char)
  | _, [] => [[]]
  | skipped + 1, _ :: rest => splitFrom separator skipped rest
  | 0, c :: rest =>
      if separator.isPrefixOf (c :: rest) then [] :: splitFrom separator (separator.length - 1) rest
      else match splitFrom separator 0 rest with
        | piece :: others => (c :: piece) :: others
        | [] => [[c]]

def splitOn (separator text : List Char) : List (List Char) :=
  splitFrom separator 0 text

/-- Puts `new` for every `old`. An empty `old` occurs before every character and at the end. -/
def replaceAll (old new text : List Char) : List Char :=
  match old with
  | [] => new ++ text.flatMap fun c => c :: new
  | _ => joinWith new (splitOn old text)

def cutAt (mark : Char) (text : List Char) : List Char × Option (List Char) :=
  match text.dropWhile (· != mark) with
  | [] => (text, none)
  | _ :: rest => (text.takeWhile (· != mark), some rest)

structure Replacement where
  span : Nat
  text : List Char

/-- Replaces every stretch that `findHere` reports. It is shown the character before the place and
the text from there on; a stretch of no characters puts its text before the character found. -/
def substitute (findHere : Option Char → List Char → Option Replacement) :
    (previous : Option Char) → (pending : Nat) → List Char → List Char
  | _, _ + 1, [] => []
  | previous, 0, [] =>
      match findHere previous [] with
      | some found => found.text
      | none => []
  | _, pending + 1, c :: rest => substitute findHere (some c) pending rest
  | previous, 0, c :: rest =>
      match findHere previous (c :: rest) with
      | none => c :: substitute findHere (some c) 0 rest
      | some found =>
          match found.span with
          | 0 => found.text ++ c :: substitute findHere (some c) 0 rest
          | span + 1 => found.text ++ substitute findHere (some c) span rest

/-- Whether some place of the text, its end included, passes a test on the character before it and
the text from there on. -/
def somewhere (here : Option Char → List Char → Bool) : (previous : Option Char) → List Char → Bool
  | previous, [] => here previous []
  | previous, c :: rest => here previous (c :: rest) || somewhere here (some c) rest

def countPlaces (here : Option Char → List Char → Bool) : (previous : Option Char) → List Char → Nat
  | _, [] => 0
  | previous, c :: rest =>
      (if here previous (c :: rest) then 1 else 0) + countPlaces here (some c) rest

theorem splitFrom_ne_nil (separator : List Char) (skipped : Nat) (text : List Char) :
    splitFrom separator skipped text ≠ [] := by
  fun_induction splitFrom separator skipped text <;> simp_all

end StatusLine.Text

import StatusLine.Text.Classes

/-!
Lines, trimming and line endings of a text held as a list of characters.
-/

namespace StatusLine.Text

/-- The pieces between line feeds; a text without one is a single line. -/
def splitLines : List Char → List (List Char)
  | [] => [[]]
  | c :: rest =>
      if c = '\n' then [] :: splitLines rest
      else match splitLines rest with
        | line :: others => (c :: line) :: others
        | [] => [[c]]

def joinWith (separator : List Char) : List (List Char) → List Char
  | [] => []
  | [piece] => piece
  | piece :: rest => piece ++ separator ++ joinWith separator rest

def joinLines (lines : List (List Char)) : List Char :=
  joinWith ['\n'] lines

def trimEndWhere (drops : Char → Bool) (text : List Char) : List Char :=
  (text.reverse.dropWhile drops).reverse

def trimWhere (drops : Char → Bool) (text : List Char) : List Char :=
  trimEndWhere drops (text.dropWhile drops)

def trim (text : List Char) : List Char :=
  trimWhere isBlank text

def isBlankLine (text : List Char) : Bool :=
  text.all isBlank

def unifyLineEnds : List Char → List Char
  | [] => []
  | '\r' :: '\n' :: rest => '\n' :: unifyLineEnds rest
  | c :: rest => (if c = '\r' then '\n' else c) :: unifyLineEnds rest

theorem splitLines_ne_nil (text : List Char) : splitLines text ≠ [] := by
  cases text with
  | nil => simp [splitLines]
  | cons c rest =>
      simp only [splitLines]
      split
      · simp
      · split <;> simp

theorem joinLines_splitLines (text : List Char) : joinLines (splitLines text) = text := by
  induction text with
  | nil => rfl
  | cons c rest ih =>
      obtain ⟨line, others, shape⟩ := List.exists_cons_of_ne_nil (splitLines_ne_nil rest)
      rw [shape] at ih
      by_cases newline : c = '\n'
      · subst newline
        simp only [splitLines, if_true, shape]
        simp only [joinLines, joinWith] at ih ⊢
        simpa using ih
      · simp only [splitLines, newline, if_false, shape]
        cases others with
        | nil => simpa [joinLines, joinWith] using ih
        | cons next more => simpa [joinLines, joinWith] using ih

theorem unifyLineEnds_eq_self (text : List Char) (free : '\r' ∉ text) :
    unifyLineEnds text = text := by
  fun_induction unifyLineEnds text with
  | case1 => rfl
  | case2 rest => simp at free
  | case3 c rest _ ih =>
      have different : c ≠ '\r' := by
        intro equal
        exact free (by simp [equal])
      have tail : '\r' ∉ rest := by
        intro member
        exact free (List.mem_cons_of_mem _ member)
      simp [different, ih tail]

end StatusLine.Text

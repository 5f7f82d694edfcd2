/-!
Names in code point order, each once, and joined texts.
-/

namespace StatusLine.Names

def join (separator : String) : List String → String
  | [] => ""
  | [piece] => piece
  | piece :: rest => piece ++ separator ++ join separator rest

def insert (name : String) : List String → List String
  | [] => [name]
  | first :: rest =>
      if name < first then name :: first :: rest
      else if name = first then first :: rest
      else first :: insert name rest

def ordered (names : List String) : List String :=
  names.foldr insert []

theorem mem_insert (name other : String) (names : List String) :
    other ∈ insert name names ↔ other = name ∨ other ∈ names := by
  induction names with
  | nil => simp [insert]
  | cons first rest ih =>
      simp only [insert]
      split
      · simp
      · split
        · rename_i same
          simp [same]
        · simp only [List.mem_cons, ih]
          exact or_left_comm

theorem mem_ordered (name : String) (names : List String) :
    name ∈ ordered names ↔ name ∈ names := by
  induction names with
  | nil => simp [ordered]
  | cons first rest ih =>
      rw [ordered, List.foldr_cons, mem_insert, ← ordered, ih, List.mem_cons]

end StatusLine.Names

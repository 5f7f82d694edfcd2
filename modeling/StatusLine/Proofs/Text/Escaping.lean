import StatusLine.Proofs.Text.Substring
import StatusLine.Text.Quoting

/-!
Escaping for double quotes, one mark after the other. Each replacement meets the backslashes of
those before it, so it matters that the backslash itself comes first; then the replacements together
put one backslash before every active character, and a shell that reads the result meets no active
quote, dollar sign or backtick.
-/

namespace StatusLine.Text

/-- The characters that are active between double quotes. The backslash comes first, because those
that are put before the others must not be escaped again. -/
def activeMarks : List Char := ['\\', '"', '$', '\x60']

/-- Puts a backslash before every occurrence of the marks, one mark after the other. -/
def escapeInTurn (marks text : List Char) : List Char :=
  marks.foldl (fun escaped mark => replaceAll [mark] ['\\', mark] escaped) text

def escapedChar (marks : List Char) (c : Char) : List Char :=
  if c ∈ marks then ['\\', c] else [c]

/-- How many backslashes a text ends in. -/
def backslashesAtEnd (text : List Char) : Nat :=
  (text.reverse.takeWhile (· == '\\')).length

theorem mem_activeMarks (c : Char) : c ∈ activeMarks ↔ isActiveInQuotes c = true := by
  simp [activeMarks, isActiveInQuotes, or_assoc]

/-! ### Replacing one mark after the other -/

theorem replaceAll_mark (mark : Char) (new text : List Char) :
    replaceAll [mark] new text = text.flatMap fun c => if c = mark then new else [c] := by
  rw [replaceAll_of_ne_nil _ _ _ (List.cons_ne_nil mark [])]
  induction text with
  | nil => rfl
  | cons c rest ih =>
      obtain ⟨piece, others, shape⟩ :=
        List.exists_cons_of_ne_nil (splitFrom_ne_nil [mark] 0 rest)
      rw [splitOn, shape] at ih
      rw [splitOn, List.flatMap_cons, ← ih]
      have starts : [mark].isPrefixOf (c :: rest) = decide (c = mark) := by
        simp [List.isPrefixOf, Bool.beq_eq_decide_eq, eq_comm]
      simp only [splitFrom, starts, decide_eq_true_eq]
      by_cases same : c = mark
      · rw [if_pos same, if_pos same, List.length_singleton, shape, joinWith_cons_cons]
        rfl
      · rw [if_neg same, if_neg same, shape, joinWith_cons_flatMap, joinWith_cons_flatMap]
        rfl

/-- One more mark. The backslashes that are there already stay as they are unless they are the mark;
so only the first mark may be the backslash. -/
theorem replaceAll_escaped {mark : Char} {marks : List Char} (new : mark ∉ marks)
    (lone : mark = '\\' → marks = []) (text : List Char) :
    replaceAll [mark] ['\\', mark] (text.flatMap (escapedChar marks)) =
      text.flatMap (escapedChar (marks ++ [mark])) := by
  rw [replaceAll_mark, List.flatMap_assoc]
  congr 1
  funext c
  by_cases earlier : c ∈ marks
  · have plain : '\\' ≠ mark := by
      rintro rfl
      rw [lone rfl] at earlier
      cases earlier
    have other : c ≠ mark := fun same => new (same ▸ earlier)
    simp [escapedChar, earlier, plain, other]
  · by_cases same : c = mark
    · rw [same]
      simp [escapedChar, new]
    · simp [escapedChar, earlier, same]

theorem escapeInTurn_escaped {marks later : List Char} (distinct : (marks ++ later).Nodup)
    (noBackslash : marks ≠ [] → '\\' ∉ later) (first : '\\' ∉ later.tail) (text : List Char) :
    escapeInTurn later (text.flatMap (escapedChar marks)) =
      text.flatMap (escapedChar (marks ++ later)) := by
  induction later generalizing marks with
  | nil => simp [escapeInTurn]
  | cons mark rest ih =>
      have new : mark ∉ marks := fun earlier =>
        (List.nodup_append.mp distinct).2.2 mark earlier mark List.mem_cons_self rfl
      have lone : mark = '\\' → marks = [] := by
        rintro rfl
        by_contra present
        exact noBackslash present List.mem_cons_self
      have step := replaceAll_escaped new lone text
      rw [escapeInTurn, List.foldl_cons, step, ← escapeInTurn]
      rw [ih (by simpa using distinct) (fun _ => first) fun later => first (List.mem_of_mem_tail later)]
      simp

theorem escapeInQuotes_eq (text : List Char) :
    escapeInQuotes text = text.flatMap (escapedChar activeMarks) := by
  rw [escapeInQuotes]
  congr 1
  funext c
  simp only [escapedChar, mem_activeMarks]

theorem escapeInTurn_activeMarks (text : List Char) :
    escapeInTurn activeMarks text = escapeInQuotes text := by
  have bare : text.flatMap (escapedChar []) = text := by
    rw [show escapedChar [] = List.singleton from rfl]
    exact List.flatMap_singleton' text
  have turns : escapeInTurn activeMarks (text.flatMap (escapedChar [])) =
      text.flatMap (escapedChar activeMarks) :=
    escapeInTurn_escaped (by decide) (fun present => absurd rfl present) (by decide) text
  rwa [bare, ← escapeInQuotes_eq] at turns

example : readInQuotes (escapeInTurn ['"', '\\'] ['"']) = ['\\', '"'] := by decide

/-! ### Runs of backslashes -/

theorem backslashesAtEnd_append (lead rest : List Char) :
    backslashesAtEnd (lead ++ rest) = backslashesAtEnd rest ∨
      backslashesAtEnd (lead ++ rest) = backslashesAtEnd rest + backslashesAtEnd lead := by
  simp only [backslashesAtEnd, List.reverse_append, List.takeWhile_append]
  split
  · next whole =>
    right
    rw [List.length_append, ← whole]
  · exact .inl rfl

theorem even_backslashesAtEnd_escapedChar {marks : List Char} (marked : '\\' ∈ marks) (c : Char) :
    backslashesAtEnd (escapedChar marks c) % 2 = 0 := by
  by_cases backslash : c = '\\'
  · rw [escapedChar, backslash, if_pos marked]
    rfl
  · have ends (lead : List Char) : backslashesAtEnd (lead ++ [c]) = 0 := by
      simp [backslashesAtEnd, backslash]
    unfold escapedChar
    split
    · exact congrArg (· % 2) (ends ['\\'])
    · exact congrArg (· % 2) (ends [])

/-- A mark in an escaped text stands behind an odd run of backslashes: its own one, and those that
stand for backslashes, which come in pairs. -/
theorem odd_backslashesAtEnd {marks : List Char} (marked : '\\' ∈ marks) {mark : Char}
    (isMark : mark ∈ marks) (other : mark ≠ '\\') {text before after : List Char}
    (shape : text.flatMap (escapedChar marks) = before ++ mark :: after) :
    backslashesAtEnd before % 2 = 1 := by
  induction text generalizing before with
  | nil => simp at shape
  | cons c rest ih =>
      have behind {lead : List Char} (later : rest.flatMap (escapedChar marks) = lead ++ mark :: after)
          (here : before = escapedChar marks c ++ lead) : backslashesAtEnd before % 2 = 1 := by
        have odd := ih later
        have even := even_backslashesAtEnd_escapedChar marked c
        rcases backslashesAtEnd_append (escapedChar marks c) lead with same | more
        · rw [here, same, odd]
        · rw [here, more]
          omega
      rw [List.flatMap_cons] at shape
      obtain ⟨lead, here, later⟩ | ⟨ending, here, later⟩ := List.append_eq_append_iff.mp shape
      · exact behind later here
      · cases ending with
        | nil =>
            have next : rest.flatMap (escapedChar marks) = [] ++ mark :: after := later.symm
            exact behind next (by simpa using here.symm)
        | cons first more =>
            obtain ⟨rfl, -⟩ := List.cons.inj later
            unfold escapedChar at here
            split at here
            · next known =>
              rcases before with _ | ⟨lead, _ | ⟨next, behind⟩⟩
              · exact absurd (List.cons.inj here).1.symm other
              · obtain ⟨rfl, -⟩ := List.cons.inj here
                rfl
              · simp at here
            · next unknown =>
              rcases before with _ | ⟨lead, behind⟩
              · exact absurd ((List.cons.inj here).1 ▸ isMark) unknown
              · simp at here

/-- What is escaped for double quotes is what comes of replacing the active characters in turn. A
shell reads the text back from it, and none of them is active in it. -/
theorem escapeInQuotes_round_trip (text : List Char) :
    escapeInQuotes text = escapeInTurn ['\\', '"', '$', '\x60'] text ∧
    readInQuotes (escapeInQuotes text) = text ∧
    ∀ before mark after, escapeInQuotes text = before ++ mark :: after →
      mark ∈ ['"', '$', '\x60'] → backslashesAtEnd before % 2 = 1 := by
  have turns := escapeInTurn_activeMarks text
  refine ⟨turns.symm, readInQuotes_escapeInQuotes text, fun before mark after shape isMark => ?_⟩
  rw [escapeInQuotes_eq] at shape
  have other : mark ≠ '\\' := by
    rintro rfl
    revert isMark
    decide
  exact odd_backslashesAtEnd (by decide) (List.mem_cons_of_mem '\\' isMark) other shape

end StatusLine.Text

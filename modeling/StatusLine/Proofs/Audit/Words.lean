import StatusLine.Audit.Report

/-!
Exit calls are the words of a text that read so. Everything about them follows from taking a text
apart at a character that belongs to no word.
-/

namespace StatusLine.Audit

def exitWord : List Char :=
  ['e', 'x', 'i', 't']

def isBreak (c : Char) : Bool :=
  !isWordOrDash c

def IsWhole (word : List Char) : Prop :=
  ∀ c ∈ word, isBreak c = false

theorem exitWord_whole : IsWhole exitWord := by
  simp only [IsWhole, exitWord, List.mem_cons, List.not_mem_nil, or_false]
  rintro c (rfl | rfl | rfl | rfl) <;> decide

def words (text : List Char) : List (List Char) :=
  text.splitOnP isBreak

theorem words_break {c : Char} (ends : isBreak c = true) (rest : List Char) :
    words (c :: rest) = [] :: words rest := by
  simp [words, List.splitOnP_cons_eq_if_modifyHead, ends]

theorem words_letter {c : Char} (letter : isBreak c = false) {rest first : List Char}
    {others : List (List Char)} (shape : words rest = first :: others) :
    words (c :: rest) = (c :: first) :: others := by
  have shape' : rest.splitOnP isBreak = first :: others := shape
  simp [words, List.splitOnP_cons_eq_if_modifyHead, letter, shape']

theorem words_eq_cons (text : List Char) :
    ∃ others, words text = text.takeWhile isWordOrDash :: others := by
  induction text with
  | nil => exact ⟨[], rfl⟩
  | cons c rest ih =>
      obtain ⟨others, shape⟩ := ih
      cases kind : isWordOrDash c with
      | false => exact ⟨words rest, by rw [words_break (by simp [isBreak, kind])]; simp [kind]⟩
      | true =>
          refine ⟨others, ?_⟩
          rw [words_letter (by simp [isBreak, kind]) shape, List.takeWhile_cons, kind]
          rfl

theorem isExit_iff {previous : Option Char} (apart : (previous.map isWordOrDash).getD false = false)
    (text : List Char) :
    isExit previous text = true ↔ text.takeWhile isWordOrDash = exitWord := by
  have lead : "exit".toList = exitWord := by
    rw [String.toList_ofList]
    rfl
  have inside : ∀ c ∈ exitWord, isWordOrDash c = true := fun c member => by
    simpa [isBreak] using exitWord_whole c member
  simp only [isExit, afterWord?, apart, lead, Bool.false_eq_true, if_false]
  constructor
  · intro here
    split at here
    · rename_i rest found
      rw [Text.eq_append_of_after? found, List.takeWhile_append_of_pos inside]
      cases rest with
      | nil => simp
      | cons c more => simp_all [follows]
    · exact Bool.noConfusion here
  · intro word
    have whole := List.takeWhile_append_dropWhile (p := isWordOrDash) (l := text)
    rw [word] at whole
    rw [← whole, Text.after?_append]
    cases rest : text.dropWhile isWordOrDash with
    | nil => rfl
    | cons c more =>
        have ends := List.head?_dropWhile_not isWordOrDash text
        rw [rest] at ends
        simpa [follows] using ends

theorem isExit_inside {previous : Option Char}
    (inside : (previous.map isWordOrDash).getD false = true) (text : List Char) :
    isExit previous text = false := by
  simp [isExit, afterWord?, inside]

theorem countPlaces_isExit (previous : Option Char) (text : List Char) :
    Text.countPlaces isExit previous text =
      (if (previous.map isWordOrDash).getD false then (words text).tail else words text).count
        exitWord := by
  induction text generalizing previous with
  | nil => cases (previous.map isWordOrDash).getD false <;> rfl
  | cons c rest ih =>
      rw [Text.countPlaces, ih]
      obtain ⟨others, shape⟩ := words_eq_cons rest
      simp only [Option.map_some, Option.getD_some]
      rcases Bool.eq_false_or_eq_true (isWordOrDash c) with kind | kind
      · rw [words_letter (by simp [isBreak, kind]) shape, shape]
        rcases Bool.eq_false_or_eq_true ((previous.map isWordOrDash).getD false) with inside | inside
        · simp [isExit_inside inside, kind, inside]
        · have here := isExit_iff inside (c :: rest)
          rw [List.takeWhile_cons, kind, if_pos rfl] at here
          by_cases word : c :: rest.takeWhile isWordOrDash = exitWord
          · simp [here.mpr word, word, inside, kind, Nat.add_comm]
          · simp [mt here.mp word, word, inside, kind]
      · have nothing : isExit previous (c :: rest) = false := by
          rcases Bool.eq_false_or_eq_true ((previous.map isWordOrDash).getD false) with
            inside | inside
          · exact isExit_inside inside _
          · rw [← Bool.not_eq_true, isExit_iff inside, List.takeWhile_cons, kind]
            simp [exitWord]
        rw [nothing, words_break (by simp [isBreak, kind])]
        simp only [kind, Bool.false_eq_true, if_false, List.tail_cons]
        split <;> simp [exitWord]

theorem exitCalls_eq_count (text : List Char) : exitCalls text = (words text).count exitWord :=
  countPlaces_isExit none text

theorem exitCalls_append_break {c : Char} (ends : isBreak c = true) (text rest : List Char) :
    exitCalls (text ++ c :: rest) = exitCalls text + exitCalls rest := by
  rw [exitCalls_eq_count, exitCalls_eq_count, exitCalls_eq_count, words,
    List.splitOnP_append_cons _ _ ends, List.count_append]
  rfl

theorem exitCalls_whole {word : List Char} (whole : IsWhole word) (other : word ≠ exitWord) :
    exitCalls word = 0 := by
  rw [exitCalls_eq_count, words, List.splitOnP_eq_singleton whole]
  exact List.count_eq_zero_of_not_mem (by simpa using Ne.symm other)

def EndsApart (text : List Char) : Prop :=
  text = [] ∨ ∃ lead c, text = lead ++ [c] ∧ isBreak c = true

def StartsApart (text : List Char) : Prop :=
  text = [] ∨ ∃ c more, text = c :: more ∧ isBreak c = true

theorem exitCalls_behind {text : List Char} (apart : EndsApart text) (rest : List Char) :
    exitCalls (text ++ rest) = exitCalls text + exitCalls rest := by
  have nothing : exitCalls [] = 0 := rfl
  rcases apart with rfl | ⟨lead, c, rfl, ends⟩
  · rw [List.nil_append, nothing, Nat.zero_add]
  · rw [exitCalls_append_break ends, List.append_assoc, List.singleton_append,
      exitCalls_append_break ends, nothing, Nat.add_zero]

theorem exitCalls_before {rest : List Char} (apart : StartsApart rest) (text : List Char) :
    exitCalls (text ++ rest) = exitCalls text + exitCalls rest := by
  have nothing : exitCalls [] = 0 := rfl
  rcases apart with rfl | ⟨c, more, rfl, ends⟩
  · rw [List.append_nil, nothing, Nat.add_zero]
  · have alone := exitCalls_append_break ends [] more
    rw [List.nil_append, nothing, Nat.zero_add] at alone
    rw [exitCalls_append_break ends, alone]

theorem exists_last_word (text : List Char) :
    ∃ lead word, text = lead ++ word ∧ EndsApart lead ∧ IsWhole word := by
  induction text with
  | nil => exact ⟨[], [], rfl, .inl rfl, by simp [IsWhole]⟩
  | cons c rest ih =>
      obtain ⟨lead, word, rfl, apart, whole⟩ := ih
      rcases apart with rfl | ⟨inner, d, rfl, ends⟩
      · cases kind : isBreak c with
        | true => exact ⟨[c], word, rfl, .inr ⟨[], c, rfl, kind⟩, whole⟩
        | false =>
            refine ⟨[], c :: word, rfl, .inl rfl, ?_⟩
            simpa [IsWhole, kind] using whole
      · exact ⟨c :: (inner ++ [d]), word, rfl, .inr ⟨c :: inner, d, rfl, ends⟩, whole⟩

theorem exists_first_word (text : List Char) :
    ∃ word rest, text = word ++ rest ∧ StartsApart rest ∧ IsWhole word := by
  induction text with
  | nil => exact ⟨[], [], rfl, .inl rfl, by simp [IsWhole]⟩
  | cons c rest ih =>
      obtain ⟨word, more, rfl, apart, whole⟩ := ih
      cases kind : isBreak c with
      | true => exact ⟨[], c :: (word ++ more), rfl, .inr ⟨c, _, rfl, kind⟩, by simp [IsWhole]⟩
      | false =>
          refine ⟨c :: word, more, rfl, apart, ?_⟩
          simpa [IsWhole, kind] using whole

theorem exitCalls_around (before rest : List Char) :
    ∃ number, ∀ word : List Char, IsWhole word → ¬ word <:+: exitWord →
      exitCalls (before ++ word ++ rest) = number := by
  obtain ⟨lead, first, rfl, leadApart, firstWhole⟩ := exists_last_word before
  obtain ⟨last, behind, rfl, behindApart, lastWhole⟩ := exists_first_word rest
  refine ⟨exitCalls lead + exitCalls behind, fun word whole other => ?_⟩
  have middle : exitCalls (first ++ word ++ last) = 0 := by
    refine exitCalls_whole ?_ fun same => other ⟨first, last, same⟩
    simp only [IsWhole, List.mem_append] at firstWhole whole lastWhole ⊢
    rintro c ((member | member) | member)
    · exact firstWhole c member
    · exact whole c member
    · exact lastWhole c member
  have split : lead ++ first ++ word ++ (last ++ behind) =
      lead ++ ((first ++ word ++ last) ++ behind) := by
    simp
  rw [split, exitCalls_behind leadApart, exitCalls_before behindApart, middle, Nat.zero_add]

end StatusLine.Audit

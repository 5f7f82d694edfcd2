import StatusLine.Proofs.Shortening.Finding

/-!
Shorter names, word by word. A script is a row of words and of characters that belong to none, and
`renamed` changes the words that are the long name and no others. So the change can be undone as
long as the short name did not occur, and two variables never become one.
-/

namespace StatusLine.Shortening

def bracedVariable (name : List Char) : List Char :=
  ['$', '\x7b'] ++ name ++ ['\x7d']

abbrev WordEnds (rest : List Char) : Prop :=
  isThere Text.isWord rest.head? = false

/-- A text in which every `${name}` without a word behind it is `$name`, the rest as it was. -/
inductive Unbraced (name : List Char) : List Char → List Char → Prop
  | nil : Unbraced name [] []
  | braced (rest changed : List Char) (ends : WordEnds rest) (behind : Unbraced name rest changed) :
      Unbraced name (bracedVariable name ++ rest) ('$' :: (name ++ changed))
  | kept (c : Char) (rest changed : List Char)
      (plain : ∀ tail, c :: rest = bracedVariable name ++ tail → ¬ WordEnds tail)
      (behind : Unbraced name rest changed) : Unbraced name (c :: rest) (c :: changed)

/-! Words. -/

section Words

variable {word other rest tail : List Char}

theorem wordEnds_nil : WordEnds [] := rfl

theorem wordEnds_cons {c : Char} (mark : Text.isWord c = false) : WordEnds (c :: rest) := mark

theorem word_unique (letters : ∀ c ∈ word, Text.isWord c = true)
    (others : ∀ c ∈ other, Text.isWord c = true) (ends : WordEnds rest) (stops : WordEnds tail)
    (same : word ++ rest = other ++ tail) : word = other ∧ rest = tail := by
  have equal : word = other := by
    rw [← takeWhile_run letters ends, same, takeWhile_run others stops]
  exact ⟨equal, List.append_cancel_left (equal ▸ same)⟩

theorem exists_word_of_not_wordEnds (goesOn : ¬ WordEnds rest) :
    ∃ word behind, IsRun Text.isWord word ∧ WordEnds behind ∧ rest = word ++ behind := by
  refine ⟨rest.takeWhile Text.isWord, rest.dropWhile Text.isWord, ⟨?_, ?_⟩, ?_,
    List.takeWhile_append_dropWhile.symm⟩
  · cases rest with
    | nil => exact absurd wordEnds_nil goesOn
    | cons c more =>
        have letter : Text.isWord c = true := by simpa [isThere] using goesOn
        simp [letter]
  · exact fun c member => List.all_eq_true.mp List.all_takeWhile c member
  · have stops := List.head?_dropWhile_not Text.isWord rest
    unfold WordEnds
    cases behind : (rest.dropWhile Text.isWord).head? with
    | none => rfl
    | some c =>
        rw [behind] at stops
        simpa [isThere] using stops

end Words

theorem words_induction (name : List Char) {motive : List Char → Prop} (nil : motive [])
    (braced : ∀ rest, WordEnds rest → motive rest → motive (bracedVariable name ++ rest))
    (mark : ∀ c rest, Text.isWord c = false →
      (∀ tail, c :: rest = bracedVariable name ++ tail → ¬ WordEnds tail) →
        motive rest → motive (c :: rest))
    (word : ∀ word rest, IsRun Text.isWord word → WordEnds rest → motive rest →
      motive (word ++ rest))
    (text : List Char) : motive text := by
  -- By the length, as a word and a braced variable are taken off as a whole.
  induction measured : text.length using Nat.strongRecOn generalizing text with
  | ind size ih =>
      by_cases goesOn : WordEnds text
      · cases text with
        | nil => exact nil
        | cons c rest =>
            by_cases whole : ∃ tail, c :: rest = bracedVariable name ++ tail ∧ WordEnds tail
            · obtain ⟨tail, whole, ends⟩ := whole
              rw [whole]
              refine braced tail ends (ih tail.length ?_ tail rfl)
              rw [← measured, whole]
              simp [bracedVariable]
              omega
            · refine mark c rest goesOn (fun tail same ends => whole ⟨tail, same, ends⟩) ?_
              exact ih rest.length (by rw [← measured]; simp) rest rfl
      · obtain ⟨first, rest, letters, ends, rfl⟩ := exists_word_of_not_wordEnds goesOn
        have positive := List.length_pos_iff.mpr letters.1
        refine word first rest letters ends (ih rest.length ?_ rest rfl)
        rw [← measured, List.length_append]
        omega

/-! What the patterns of a name find. -/

section Finding

variable {notAfter notBefore : Char → Bool} {stretch text rest : List Char} {previous : Option Char}

theorem find_literal (starts : isThere notAfter previous = false)
    (ends : isThere notBefore rest.head? = false) :
    (Pattern.mk notAfter [.literal stretch] notBefore).find previous (stretch ++ rest) =
      some ⟨[], rest⟩ := by
  simp [Pattern.find, findAll, Element.find, Text.after?_append, starts, ends]

theorem find_literal_eq_none
    (apart : ∀ rest, text = stretch ++ rest → isThere notAfter previous = false →
      isThere notBefore rest.head? = true) :
    (Pattern.mk notAfter [.literal stretch] notBefore).find previous text = none := by
  cases here : (Pattern.mk notAfter [.literal stretch] notBefore).find previous text with
  | none => rfl
  | some found =>
      obtain ⟨taken, whole, takes, starts, ends⟩ := Pattern.find_spec _ previous text found here
      obtain ⟨_, rfl, nothing⟩ := takesAll_literal takes
      obtain ⟨rfl, -⟩ := takesAll_nil nothing
      rw [List.append_nil] at whole
      rw [apart found.rest whole starts] at ends
      cases ends

end Finding

/-! Renaming, character by character and word by word. -/

section Renaming

variable {long short name word rest : List Char} {c : Char} {previous : Option Char}

/-- The whole words of a text that are a name, behind a given character, with another in their
place. -/
def tokensRenamed (long short : List Char) (previous : Option Char) (text : List Char) :
    List Char :=
  Text.substitute ((token long).replacement fun _ => short) previous 0 text

theorem find_token_of_mark (letters : IsRun Text.isWord name) (mark : Text.isWord c = false) :
    (token name).find previous (c :: rest) = none := by
  refine find_literal_eq_none fun behind whole => ?_
  obtain ⟨first, more, rfl⟩ := List.exists_cons_of_ne_nil letters.1
  obtain ⟨rfl, -⟩ := List.cons.inj whole
  rw [letters.2 c List.mem_cons_self] at mark
  cases mark

theorem find_token_nil (letters : IsRun Text.isWord name) :
    (token name).find previous [] = none := by
  refine find_literal_eq_none fun behind whole => ?_
  exact absurd (List.append_eq_nil_iff.mp whole.symm).1 letters.1

theorem find_token_of_word (letters : IsRun Text.isWord name) (whole : IsRun Text.isWord word)
    (ends : WordEnds rest) :
    (token name).find previous (word ++ rest) =
      if word = name ∧ isThere isWordOrDot previous = false then some ⟨[], rest⟩ else none := by
  split
  · rename_i here
    obtain ⟨rfl, starts⟩ := here
    exact find_literal starts ends
  · rename_i elsewhere
    refine find_literal_eq_none fun behind same starts => ?_
    cases stops : isThere Text.isWord behind.head? with
    | true => rfl
    | false =>
        exact absurd ⟨(word_unique whole.2 letters.2 ends stops same).1, starts⟩ elsewhere

theorem find_token_inside (before : Text.isWord c = true) :
    (token name).find (some c) rest = none := by
  simp [token, Pattern.find, isThere, isWordOrDot, before]

theorem tokensRenamed_nil (letters : IsRun Text.isWord long) :
    tokensRenamed long short previous [] = [] := by
  simp [tokensRenamed, Text.substitute, Pattern.replacement, find_token_nil letters]

theorem tokensRenamed_mark (letters : IsRun Text.isWord long) (mark : Text.isWord c = false) :
    tokensRenamed long short previous (c :: rest) =
      c :: tokensRenamed long short (some c) rest := by
  simp [tokensRenamed, Text.substitute, Pattern.replacement, find_token_of_mark letters mark]

theorem tokensRenamed_previous (letters : IsRun Text.isWord long) (ends : WordEnds rest)
    (previous : Option Char) :
    tokensRenamed long short previous rest = tokensRenamed long short none rest := by
  cases rest with
  | nil => rw [tokensRenamed_nil letters, tokensRenamed_nil letters]
  | cons c more => rw [tokensRenamed_mark letters ends, tokensRenamed_mark letters ends]

theorem tokensRenamed_inside (letters : IsRun Text.isWord long)
    (inside : ∀ d ∈ word, Text.isWord d = true) (before : Text.isWord c = true)
    (ends : WordEnds rest) :
    tokensRenamed long short (some c) (word ++ rest) =
      word ++ tokensRenamed long short none rest := by
  induction word generalizing c with
  | nil => exact tokensRenamed_previous letters ends _
  | cons d more ih =>
      have later := ih (fun e member => inside e (List.mem_cons_of_mem d member))
        (inside d List.mem_cons_self)
      simp only [tokensRenamed, List.cons_append, Text.substitute, Pattern.replacement,
        find_token_inside before, Option.map_none]
      exact congrArg (d :: ·) later

def wordRenamed (long short : List Char) (previous : Option Char) (word : List Char) : List Char :=
  if word = long ∧ isThere isWordOrDot previous = false then short else word

theorem tokensRenamed_word (letters : IsRun Text.isWord long) (whole : IsRun Text.isWord word)
    (ends : WordEnds rest) :
    tokensRenamed long short previous (word ++ rest) =
      wordRenamed long short previous word ++ tokensRenamed long short none rest := by
  have here : (token long).find previous (word ++ rest) = _ := find_token_of_word letters whole ends
  by_cases renamed : word = long ∧ isThere isWordOrDot previous = false
  · rw [if_pos renamed] at here
    rw [tokensRenamed, Text.substitute_found _ word rest previous ⟨word.length, short⟩
      (by simp [Pattern.replacement, here]) whole.1 rfl]
    rw [wordRenamed, if_pos renamed]
    exact congrArg (short ++ ·) (tokensRenamed_previous letters ends _)
  · rw [if_neg renamed] at here
    rw [wordRenamed, if_neg renamed]
    obtain ⟨c, more, rfl⟩ := List.exists_cons_of_ne_nil whole.1
    rw [List.cons_append] at here ⊢
    simp only [tokensRenamed, Text.substitute, Pattern.replacement, here, Option.map_none]
    exact congrArg (c :: ·) (tokensRenamed_inside letters
      (fun d member => whole.2 d (List.mem_cons_of_mem c member))
      (whole.2 c List.mem_cons_self) ends)

def variablesRenamed (long short text : List Char) : List Char :=
  (braced long).replace (fun _ => '$' :: short) text

theorem braced_previous (text : List Char) (previous : Option Char) :
    Text.substitute ((braced long).replacement fun _ => '$' :: short) previous 0 text =
      variablesRenamed long short text := by
  have same : (braced long).replacement (fun _ => '$' :: short) previous text =
      (braced long).replacement (fun _ => '$' :: short) none text := by
    cases previous <;> rfl
  have first : variablesRenamed long short text =
      Text.substitute ((braced long).replacement fun _ => '$' :: short) none 0 text := rfl
  rw [first]
  cases text <;> simp only [Text.substitute, same]

theorem find_braced_eq_none {text : List Char}
    (plain : ∀ tail, text = bracedVariable long ++ tail → ¬ WordEnds tail) :
    (braced long).find previous text = none := by
  refine find_literal_eq_none fun behind whole _ => ?_
  simpa using plain behind whole

theorem variablesRenamed_nil : variablesRenamed long short [] = [] := by
  have nowhere : (braced long).find none [] = none :=
    find_braced_eq_none fun tail whole => by simp [bracedVariable] at whole
  simp [variablesRenamed, Pattern.replace, Text.substitute, nowhere]

theorem variablesRenamed_braced (ends : WordEnds rest) :
    variablesRenamed long short (bracedVariable long ++ rest) =
      '$' :: (short ++ variablesRenamed long short rest) := by
  have here : (braced long).find none (bracedVariable long ++ rest) = some ⟨[], rest⟩ :=
    find_literal rfl ends
  have going := Text.substitute_found ((braced long).replacement fun _ => '$' :: short)
    (bracedVariable long) rest none ⟨(bracedVariable long).length, '$' :: short⟩
    (by simp [Pattern.replacement, here]) (by simp [bracedVariable]) rfl
  rw [braced_previous, braced_previous] at going
  exact going

theorem variablesRenamed_kept
    (plain : ∀ tail, c :: rest = bracedVariable long ++ tail → ¬ WordEnds tail) :
    variablesRenamed long short (c :: rest) = c :: variablesRenamed long short rest := by
  have going : Text.substitute ((braced long).replacement fun _ => '$' :: short) (some c) 0 rest =
      variablesRenamed long short rest := braced_previous rest (some c)
  simp only [variablesRenamed, Pattern.replace, Text.substitute, find_braced_eq_none plain,
    Option.map_none] at going ⊢
  exact congrArg (c :: ·) going

theorem variablesRenamed_word (letters : ∀ d ∈ word, Text.isWord d = true) :
    variablesRenamed long short (word ++ rest) = word ++ variablesRenamed long short rest := by
  induction word with
  | nil => rfl
  | cons d more ih =>
      have later := ih fun e member => letters e (List.mem_cons_of_mem d member)
      have letter := letters d List.mem_cons_self
      rw [List.cons_append, variablesRenamed_kept, later, List.cons_append]
      intro tail whole
      obtain ⟨rfl, -⟩ := List.cons.inj whole
      cases letter

def renamedBehind (long short : List Char) (previous : Option Char) (text : List Char) :
    List Char :=
  tokensRenamed long short previous (variablesRenamed long short text)

theorem renamedBehind_none (long short text : List Char) :
    renamedBehind long short none text = renamed long short text := rfl

theorem wordEnds_variablesRenamed (ends : WordEnds rest) :
    WordEnds (variablesRenamed long short rest) := by
  cases rest with
  | nil => rw [variablesRenamed_nil]; exact wordEnds_nil
  | cons c more =>
      by_cases whole : ∃ tail, c :: more = bracedVariable long ++ tail ∧ WordEnds tail
      · obtain ⟨tail, same, stops⟩ := whole
        rw [same, variablesRenamed_braced stops]
        exact wordEnds_cons (by decide)
      · rw [variablesRenamed_kept fun tail same stops => whole ⟨tail, same, stops⟩]
        exact wordEnds_cons ends

theorem renamedBehind_nil (letters : IsRun Text.isWord long) :
    renamedBehind long short previous [] = [] := by
  rw [renamedBehind, variablesRenamed_nil, tokensRenamed_nil letters]

theorem renamedBehind_mark (letters : IsRun Text.isWord long) (mark : Text.isWord c = false)
    (plain : ∀ tail, c :: rest = bracedVariable long ++ tail → ¬ WordEnds tail) :
    renamedBehind long short previous (c :: rest) =
      c :: renamedBehind long short (some c) rest := by
  rw [renamedBehind, variablesRenamed_kept plain, tokensRenamed_mark letters mark, renamedBehind]

theorem renamedBehind_word (letters : IsRun Text.isWord long) (whole : IsRun Text.isWord word)
    (ends : WordEnds rest) :
    renamedBehind long short previous (word ++ rest) =
      wordRenamed long short previous word ++ renamedBehind long short none rest := by
  rw [renamedBehind, variablesRenamed_word whole.2,
    tokensRenamed_word letters whole (wordEnds_variablesRenamed ends), renamedBehind]

theorem renamedBehind_braced (letters : IsRun Text.isWord long) (shorts : IsRun Text.isWord short)
    (ends : WordEnds rest) :
    renamedBehind long short previous (bracedVariable long ++ rest) =
      '$' :: (short ++ renamedBehind long short none rest) := by
  have stays : wordRenamed long short (some '$') short = short := by
    rw [wordRenamed, ite_self]
  rw [renamedBehind, variablesRenamed_braced ends, tokensRenamed_mark letters (by decide),
    tokensRenamed_word letters shorts (wordEnds_variablesRenamed ends), stays, renamedBehind]

theorem wordRenamed_isRun (shorts : IsRun Text.isWord short) (whole : IsRun Text.isWord word) :
    IsRun Text.isWord (wordRenamed long short previous word) := by
  rw [wordRenamed]
  split
  · exact shorts
  · exact whole

theorem wordEnds_renamedBehind (letters : IsRun Text.isWord long) (ends : WordEnds rest) :
    WordEnds (renamedBehind long short previous rest) := by
  have stops : WordEnds (variablesRenamed long short rest) := wordEnds_variablesRenamed ends
  rw [renamedBehind]
  cases same : variablesRenamed long short rest with
  | nil => rw [tokensRenamed_nil letters]; exact wordEnds_nil
  | cons c more =>
      rw [same] at stops
      rw [tokensRenamed_mark letters stops]
      exact wordEnds_cons stops

theorem not_wordEnds_append (whole : IsRun Text.isWord word) : ¬ WordEnds (word ++ rest) := by
  obtain ⟨d, more, rfl⟩ := List.exists_cons_of_ne_nil whole.1
  simp [isThere, whole.2 d List.mem_cons_self]

theorem wordEnds_of_renamedBehind (letters : IsRun Text.isWord long)
    (shorts : IsRun Text.isWord short) (ends : WordEnds (renamedBehind long short previous rest)) :
    WordEnds rest := by
  by_contra goesOn
  obtain ⟨word, behind, whole, stops, rfl⟩ := exists_word_of_not_wordEnds goesOn
  rw [renamedBehind_word letters whole stops] at ends
  exact not_wordEnds_append (wordRenamed_isRun shorts whole) ends

/-! Undoing it. -/

theorem renamedBehind_eq_cons (letters : IsRun Text.isWord long) (shorts : IsRun Text.isWord short)
    {text behind : List Char} (mark : Text.isWord c = false) (plain : c ≠ '$')
    (same : renamedBehind long short previous text = c :: behind) :
    ∃ rest, text = c :: rest ∧ behind = renamedBehind long short (some c) rest := by
  induction text using words_induction long with
  | nil => rw [renamedBehind_nil letters] at same; cases same
  | braced rest ends =>
      rw [renamedBehind_braced letters shorts ends] at same
      exact absurd (List.cons.inj same).1.symm plain
  | mark d rest kind apart =>
      rw [renamedBehind_mark letters kind apart] at same
      obtain ⟨rfl, rfl⟩ := List.cons.inj same
      exact ⟨rest, rfl, rfl⟩
  | word word rest whole ends =>
      rw [renamedBehind_word letters whole ends] at same
      exact absurd (same ▸ wordEnds_cons mark)
        (not_wordEnds_append (wordRenamed_isRun shorts whole))

/-- Whether a name is a whole word of a text behind a given character. -/
def occursBehind (name : List Char) (previous : Option Char) (text : List Char) : Bool :=
  Text.somewhere (fun before here => ((token name).find before here).isSome) previous text

theorem occursBehind_nil (letters : IsRun Text.isWord name) :
    occursBehind name previous [] = false := by
  simp [occursBehind, Text.somewhere, find_token_nil letters]

theorem occursBehind_mark (letters : IsRun Text.isWord name) (mark : Text.isWord c = false) :
    occursBehind name previous (c :: rest) = occursBehind name (some c) rest := by
  simp [occursBehind, Text.somewhere, find_token_of_mark letters mark]

theorem occursBehind_previous (letters : IsRun Text.isWord name) (ends : WordEnds rest)
    (previous : Option Char) : occursBehind name previous rest = occursBehind name none rest := by
  cases rest with
  | nil => rw [occursBehind_nil letters, occursBehind_nil letters]
  | cons c more => rw [occursBehind_mark letters ends, occursBehind_mark letters ends]

theorem occursBehind_inside (letters : IsRun Text.isWord name)
    (inside : ∀ d ∈ word, Text.isWord d = true) (before : Text.isWord c = true)
    (ends : WordEnds rest) :
    occursBehind name (some c) (word ++ rest) = occursBehind name none rest := by
  induction word generalizing c with
  | nil => exact occursBehind_previous letters ends _
  | cons d more ih =>
      rw [← ih (fun e member => inside e (List.mem_cons_of_mem d member))
        (inside d List.mem_cons_self)]
      simp [occursBehind, Text.somewhere, find_token_inside before]

theorem occursBehind_word (letters : IsRun Text.isWord name) (whole : IsRun Text.isWord word)
    (ends : WordEnds rest) :
    occursBehind name previous (word ++ rest) = true ↔
      (word = name ∧ isThere isWordOrDot previous = false) ∨
        occursBehind name none rest = true := by
  have here : (token name).find previous (word ++ rest) = _ := find_token_of_word letters whole ends
  obtain ⟨c, more, rfl⟩ := List.exists_cons_of_ne_nil whole.1
  have later : occursBehind name (some c) (more ++ rest) = occursBehind name none rest :=
    occursBehind_inside letters (fun d member => whole.2 d (List.mem_cons_of_mem c member))
      (whole.2 c List.mem_cons_self) ends
  rw [← later]
  rw [List.cons_append] at here ⊢
  simp only [occursBehind, Text.somewhere, here, Bool.or_eq_true]
  split <;> simp [*]

theorem occursBehind_between {before : List Char}
    (starts : isThere isWordOrDot before.getLast? = false) (ends : WordEnds rest) :
    occursBehind name none (before ++ (name ++ rest)) = true := by
  rw [occursBehind, Text.somewhere_iff]
  refine ⟨before, name ++ rest, rfl, ?_⟩
  have here : (token name).find (before.getLast?.or none) (name ++ rest) = some ⟨[], rest⟩ :=
    find_literal (by rwa [Option.or_none]) ends
  rw [here]
  rfl

theorem occursBehind_braced (letters : IsRun Text.isWord name) (longs : IsRun Text.isWord long)
    (ends : WordEnds rest) :
    occursBehind name previous (bracedVariable long ++ rest) = true ↔
      long = name ∨ occursBehind name none rest = true := by
  have shape : bracedVariable long ++ rest = '$' :: '\x7b' :: (long ++ '\x7d' :: rest) := by
    simp [bracedVariable]
  rw [shape, occursBehind_mark letters (by decide), occursBehind_mark letters (by decide),
    occursBehind_word letters longs (wordEnds_cons (by decide)),
    occursBehind_mark letters (by decide), occursBehind_previous letters ends]
  simp [isThere, isWordOrDot, (by decide : Text.isWord '\x7b' = false)]

theorem Unbraced.append {name text changed : List Char} (unbraced : Unbraced name text changed)
    (letters : ∀ d ∈ word, Text.isWord d = true) :
    Unbraced name (word ++ text) (word ++ changed) := by
  induction word with
  | nil => exact unbraced
  | cons d more ih =>
      refine .kept d _ _ (fun tail whole => ?_) (ih fun e member =>
        letters e (List.mem_cons_of_mem d member))
      have letter := letters d List.mem_cons_self
      obtain ⟨rfl, -⟩ := List.cons.inj whole
      cases letter

theorem bracedVariable_not_made (longs : IsRun Text.isWord long) (shorts : IsRun Text.isWord short)
    {behind : List Char} (plain : ∀ tail, c :: rest = bracedVariable long ++ tail → ¬ WordEnds tail)
    (free : occursBehind short (some c) rest = false)
    (made : c :: renamedBehind long short (some c) rest = bracedVariable short ++ behind) :
    ¬ WordEnds behind := by
  intro ends
  obtain ⟨rfl, opened⟩ := List.cons.inj made
  obtain ⟨inside, rfl, named⟩ := renamedBehind_eq_cons longs shorts (by decide) (by decide) opened
  have named : renamedBehind long short (some '\x7b') inside = short ++ '\x7d' :: behind := by
    simpa using named.symm
  rw [occursBehind_mark shorts (by decide)] at free
  have goesOn : ¬ WordEnds inside := fun stops =>
    not_wordEnds_append shorts (named ▸ wordEnds_renamedBehind longs stops)
  obtain ⟨word, tail, whole, stops, rfl⟩ := exists_word_of_not_wordEnds goesOn
  rw [renamedBehind_word longs whole stops] at named
  obtain ⟨became, closed⟩ := word_unique (wordRenamed_isRun shorts whole).2 shorts.2
    (wordEnds_renamedBehind longs stops) (wordEnds_cons (by decide)) named
  obtain ⟨last, rfl, rfl⟩ := renamedBehind_eq_cons longs shorts (by decide) (by decide) closed
  have unused := mt (occursBehind_word shorts whole stops).mpr (by simpa using free)
  rw [not_or] at unused
  have same : word = long := by
    by_contra different
    rw [wordRenamed, if_neg fun both => different both.1] at became
    exact unused.1 ⟨became, by decide⟩
  subst same
  refine plain last (by simp [bracedVariable]) (wordEnds_of_renamedBehind longs shorts ends)

theorem dollar_word_ne_bracedVariable (whole : IsRun Text.isWord word) {tail : List Char} :
    '$' :: (word ++ rest) ≠ bracedVariable name ++ tail := by
  intro same
  have opened : word ++ rest = '\x7b' :: (name ++ '\x7d' :: tail) := by
    simpa [bracedVariable] using same
  exact not_wordEnds_append whole (opened ▸ wordEnds_cons (by decide))

theorem wordRenamed_back (unused : ¬ (word = short ∧ isThere isWordOrDot previous = false)) :
    wordRenamed short long previous (wordRenamed long short previous word) = word := by
  by_cases renamed : word = long ∧ isThere isWordOrDot previous = false
  · obtain ⟨rfl, starts⟩ := renamed
    simp [wordRenamed, starts]
  · rw [wordRenamed, wordRenamed, if_neg renamed, if_neg unused]

theorem unbraced_renamedBehind (longs : IsRun Text.isWord long) (shorts : IsRun Text.isWord short)
    (text : List Char) (free : occursBehind short previous text = false) :
    Unbraced long text
      (renamedBehind short long previous (renamedBehind long short previous text)) := by
  induction text using words_induction long generalizing previous with
  | nil =>
      rw [renamedBehind_nil longs, renamedBehind_nil shorts]
      exact .nil
  | braced rest ends ih =>
      have unused := mt (occursBehind_braced shorts longs ends).mpr (by simpa using free)
      rw [not_or, Bool.not_eq_true] at unused
      have back : wordRenamed short long (some '$') short = long := by
        rw [wordRenamed, if_pos ⟨rfl, by decide⟩]
      rw [renamedBehind_braced longs shorts ends, renamedBehind_mark shorts (by decide),
        renamedBehind_word shorts shorts (wordEnds_renamedBehind longs ends), back]
      · exact .braced rest _ ends (ih unused.2)
      · exact fun tail whole => absurd whole (dollar_word_ne_bracedVariable shorts)
  | mark c rest mark plain ih =>
      rw [occursBehind_mark shorts mark] at free
      rw [renamedBehind_mark longs mark plain, renamedBehind_mark shorts mark]
      · exact .kept c rest _ plain (ih free)
      · exact fun tail made => bracedVariable_not_made longs shorts plain free made
  | word word rest whole ends ih =>
      have unused := mt (occursBehind_word shorts whole ends).mpr (by simpa using free)
      rw [not_or, Bool.not_eq_true] at unused
      rw [renamedBehind_word longs whole ends,
        renamedBehind_word shorts (wordRenamed_isRun shorts whole)
          (wordEnds_renamedBehind longs ends), wordRenamed_back unused.1]
      exact (ih unused.2).append whole.2

/-! Which names occur in a renamed text. -/

theorem occursBehind_renamedBehind (longs : IsRun Text.isWord long)
    (shorts : IsRun Text.isWord short) (names : IsRun Text.isWord name) (notLong : long ≠ name)
    (notShort : short ≠ name) (text : List Char) :
    occursBehind name previous (renamedBehind long short previous text) =
      occursBehind name previous text := by
  induction text using words_induction long generalizing previous with
  | nil => rw [renamedBehind_nil longs]
  | braced rest ends ih =>
      have stops : WordEnds (renamedBehind long short none rest) :=
        wordEnds_renamedBehind longs ends
      rw [renamedBehind_braced longs shorts ends, occursBehind_mark names (by decide),
        Bool.eq_iff_iff, occursBehind_word names shorts stops, occursBehind_braced names longs ends,
        ih]
      simp [notLong, notShort]
  | mark c rest mark plain ih =>
      rw [renamedBehind_mark longs mark plain, occursBehind_mark names mark,
        occursBehind_mark names mark, ih]
  | word word rest whole ends ih =>
      have stops : WordEnds (renamedBehind long short none rest) :=
        wordEnds_renamedBehind longs ends
      have same : wordRenamed long short previous word = name ↔ word = name := by
        by_cases renamed : word = long ∧ isThere isWordOrDot previous = false
        · rw [wordRenamed, if_pos renamed, renamed.1]
          simp [notLong, notShort]
        · rw [wordRenamed, if_neg renamed]
      rw [renamedBehind_word longs whole ends, Bool.eq_iff_iff,
        occursBehind_word names (wordRenamed_isRun shorts whole) stops,
        occursBehind_word names whole ends, ih, same]

theorem occursBehind_short (longs : IsRun Text.isWord long) (shorts : IsRun Text.isWord short)
    (text : List Char) (found : occursBehind long previous text = true) :
    occursBehind short previous (renamedBehind long short previous text) = true := by
  induction text using words_induction long generalizing previous with
  | nil => rw [occursBehind_nil longs] at found; cases found
  | braced rest ends =>
      rw [renamedBehind_braced longs shorts ends, occursBehind_mark shorts (by decide),
        occursBehind_word shorts shorts (wordEnds_renamedBehind longs ends)]
      exact .inl ⟨rfl, by decide⟩
  | mark c rest mark plain ih =>
      rw [occursBehind_mark longs mark] at found
      rw [renamedBehind_mark longs mark plain, occursBehind_mark shorts mark]
      exact ih found
  | word word rest whole ends ih =>
      rw [renamedBehind_word longs whole ends, occursBehind_word shorts
        (wordRenamed_isRun shorts whole) (wordEnds_renamedBehind longs ends)]
      rcases (occursBehind_word longs whole ends).mp found with here | behind
      · exact .inl ⟨by rw [wordRenamed, if_pos here], here.2⟩
      · exact .inr (ih behind)

theorem occursBehind_long (longs : IsRun Text.isWord long) (shorts : IsRun Text.isWord short)
    (different : short ≠ long) (text : List Char) :
    occursBehind long previous (renamedBehind long short previous text) = false := by
  induction text using words_induction long generalizing previous with
  | nil => rw [renamedBehind_nil longs, occursBehind_nil longs]
  | braced rest ends ih =>
      rw [renamedBehind_braced longs shorts ends, occursBehind_mark longs (by decide),
        Bool.eq_false_iff, ne_eq,
        occursBehind_word longs shorts (wordEnds_renamedBehind longs ends), ih]
      simp [different]
  | mark c rest mark plain ih =>
      rw [renamedBehind_mark longs mark plain, occursBehind_mark longs mark, ih]
  | word word rest whole ends ih =>
      have gone : ¬ (wordRenamed long short previous word = long ∧
          isThere isWordOrDot previous = false) := by
        rintro ⟨same, starts⟩
        by_cases equal : word = long
        · rw [wordRenamed, if_pos ⟨equal, starts⟩] at same
          exact different same
        · rw [wordRenamed, if_neg fun here => equal here.1] at same
          exact equal same
      rw [renamedBehind_word longs whole ends, Bool.eq_false_iff, ne_eq,
        occursBehind_word longs (wordRenamed_isRun shorts whole)
          (wordEnds_renamedBehind longs ends), ih]
      simpa using gone

end Renaming

theorem skip_identifierRule (long short text : List Char) :
    (identifierRule long short).skip text =
      (occursBehind short none text || !occursBehind long none text) := rfl

/-- Renaming a name that was shortened back gives the text again, up to the braces that went. -/
theorem identifierRule_undone (long short : List Char) (longs : IsRun Text.isWord long)
    (shorts : IsRun Text.isWord short) (text : List Char)
    (applies : (identifierRule long short).skip text = false) :
    ∃ changed back, (identifierRule long short).apply text = .ok changed ∧
      (identifierRule short long).edit changed = .ok back ∧ Unbraced long text back := by
  rw [skip_identifierRule, Bool.or_eq_false_iff] at applies
  refine ⟨renamed long short text, renamed short long (renamed long short text), ?_, rfl, ?_⟩
  · rw [Rule.apply, skip_identifierRule, applies.1, applies.2]
    rfl
  · exact unbraced_renamedBehind longs shorts text applies.1

theorem identifierRule_undone_tokens :
    (identifierRule "total_tokens".toList "tot_tokens".toList).skip
        "$\x7btotal_tokens\x7d .total_tokens $\x7btotal_tokens\x7ds total_tokens".toList = false ∧
      ∃ changed back,
        (identifierRule "total_tokens".toList "tot_tokens".toList).apply
            "$\x7btotal_tokens\x7d .total_tokens $\x7btotal_tokens\x7ds total_tokens".toList =
          .ok changed ∧
        (identifierRule "tot_tokens".toList "total_tokens".toList).edit changed = .ok back ∧
        Unbraced "total_tokens".toList
          "$\x7btotal_tokens\x7d .total_tokens $\x7btotal_tokens\x7ds total_tokens".toList back := by
  have names : ("total_tokens", "tot_tokens") ∈ shortNames := by decide
  obtain ⟨longs, shorts⟩ := isRun_of_mem_shortNames _ _ names
  have applies : (identifierRule "total_tokens".toList "tot_tokens".toList).skip
      "$\x7btotal_tokens\x7d .total_tokens $\x7btotal_tokens\x7ds total_tokens".toList = false := by
    decide +kernel
  exact ⟨applies, identifierRule_undone _ _ longs shorts _ applies⟩

end StatusLine.Shortening

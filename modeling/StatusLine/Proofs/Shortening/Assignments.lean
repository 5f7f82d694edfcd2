import StatusLine.Proofs.Shortening.Chain

/-!
What shortening does to a line that sets a variable to a text in double quotes. No rule looks for
quotes, so a rewrite inside the text is as good as one outside: a name that is shortened elsewhere
is shortened there as well. But a text in which no rule finds anything stays as it is.
-/

namespace StatusLine.Shortening

/-- Whether a text is all that stands between two double quotes: none of its own ends it, and its
end is not escaped. -/
def staysInQuotes : List Char → Bool
  | [] => true
  | [c] => c != '\\' && c != '"'
  | c :: next :: rest =>
      if c = '\\' then staysInQuotes rest else c != '"' && staysInQuotes (next :: rest)

/-- A text has a line that sets a variable to a value in double quotes. -/
structure Assigns (text : List Char) (name : String) (value : List Char) : Prop where
  quoted : staysInQuotes value = true
  line : ∃ before rest, (rest = [] ∨ rest.head? = some '\n') ∧
    text = before ++ ('\n' :: (name.toList ++ '=' :: '"' :: (value ++ ['"'])) ++ rest)

def HasName (text name : List Char) : Prop :=
  ∃ before rest, text = before ++ (name ++ rest) ∧ isThere isWordOrDot before.getLast? = false ∧
    isThere Text.isWord rest.head? = false

/-- No rule finds anything in a text that stands in double quotes. -/
structure OutOfReach (text : List Char) : Prop where
  names : ∀ names ∈ shortNames, ¬ HasName text names.1.toList
  clock : ¬ "$(date +%s)".toList <:+: text
  status : ¬ "[ $? -eq 0 ]".toList <:+: text
  blankLines : ∀ line, (∀ c ∈ line, Text.isBlank c = true) → ¬ '\n' :: line ++ ['\n'] <:+: text

/-! Quotes. -/

theorem staysInQuotes_cons {c : Char} (noEscape : c ≠ '\\') (noQuote : c ≠ '"')
    (rest : List Char) : staysInQuotes (c :: rest) = staysInQuotes rest := by
  cases rest <;> simp [staysInQuotes, noEscape, noQuote]

theorem staysInQuotes_escaped (c : Char) (rest : List Char) :
    staysInQuotes ('\\' :: c :: rest) = staysInQuotes rest := by
  simp [staysInQuotes]

theorem staysInQuotes_quote (rest : List Char) : staysInQuotes ('"' :: rest) = false := by
  cases rest <;> simp [staysInQuotes]

theorem not_quote_behind_blank {text : List Char} (stays : staysInQuotes text = true) :
    ¬ [' ', '"'] <:+: text := by
  fun_induction staysInQuotes text with
  | case1 => simp
  | case2 c => simp [List.infix_cons_iff]
  | case3 next rest ih =>
      intro inside
      rcases List.infix_cons_iff.mp inside with here | later
      · simp at here
      · rcases List.infix_cons_iff.mp later with here | behind
        · obtain ⟨-, quote⟩ := List.cons_prefix_cons.mp here
          obtain ⟨others, rfl⟩ := quote
          rw [List.singleton_append, staysInQuotes_quote] at stays
          cases stays
        · exact ih stays behind
  | case4 c next rest plain ih =>
      rw [Bool.and_eq_true, bne_iff_ne] at stays
      intro inside
      rcases List.infix_cons_iff.mp inside with here | later
      · obtain ⟨-, quote⟩ := List.cons_prefix_cons.mp here
        obtain ⟨rfl, -⟩ := List.cons_prefix_cons.mp quote
        rw [staysInQuotes_quote] at stays
        cases stays.2
      · exact ih stays.2 later

theorem staysInQuotes_escapeInQuotes (text rest : List Char) :
    staysInQuotes (Text.escapeInQuotes text ++ rest) = staysInQuotes rest := by
  induction text with
  | nil => rfl
  | cons c more ih =>
      simp only [Text.escapeInQuotes, List.flatMap_cons, List.append_assoc] at ih ⊢
      by_cases active : Text.isActiveInQuotes c = true
      · simp only [active, if_true, List.cons_append, List.nil_append, staysInQuotes_escaped, ih]
      · have noEscape : c ≠ '\\' := by
          rintro rfl
          exact active (by decide)
        have noQuote : c ≠ '"' := by
          rintro rfl
          exact active (by decide)
        simp only [active, Bool.false_eq_true, if_false, List.cons_append, List.nil_append,
          staysInQuotes_cons noEscape noQuote, ih]

/-! Texts out of reach. -/

namespace OutOfReach

theorem of_absent {text : List Char}
    (names : ∀ names ∈ shortNames, ¬ names.1.toList <:+: text)
    (clock : ¬ "$(date +%s)".toList <:+: text) (status : ¬ "[ $? -eq 0 ]".toList <:+: text)
    (single : '\n' ∉ text) : OutOfReach text where
  names := by
    rintro found known ⟨before, rest, rfl, -, -⟩
    exact names found known ⟨before, rest, by simp⟩
  clock := clock
  status := status
  blankLines := fun line _ inside => single (inside.subset (by simp))

theorem append_file {directory file : List Char} (reach : OutOfReach directory)
    (names : ∀ names ∈ shortNames, ¬ names.1.toList <:+: file)
    (clock : ¬ "$(date +%s)".toList <:+: file) (status : ¬ "[ $? -eq 0 ]".toList <:+: file)
    (single : '\n' ∉ file) : OutOfReach (directory ++ '/' :: file) where
  names := by
    rintro found known ⟨before, rest, whole, starts, ends⟩
    have letters := (isRun_of_mem_shortNames found.1 found.2 known).1
    have free := letters.not_mem (by decide : Text.isWord '/' = false)
    rcases Text.exists_or_infix_of_not_mem free letters.1 whole with ⟨between, rfl, rfl⟩ | inside
    · refine reach.names found known ⟨before, between, rfl, starts, ?_⟩
      cases between with
      | nil => rfl
      | cons c more => exact ends
    · exact names found known inside
  clock := Text.not_infix_append_cons (by decide) (by decide) reach.clock clock
  status := Text.not_infix_append_cons (by decide) (by decide) reach.status status
  blankLines := by
    intro line blank
    have free : '/' ∉ '\n' :: line ++ ['\n'] := by
      simpa using not_mem_of_blank blank (by decide : Text.isBlank '/' = false)
    exact Text.not_infix_append_cons free (by simp) (reach.blankLines line blank)
      fun inside => single (inside.subset (by simp))

end OutOfReach

/-! What a rewrite takes away. -/

/-- What a rewrite takes away, as far as a text in quotes can tell: a name, the clock, a test of a
status, something with a word in quotes behind a blank, or a blank line. -/
inductive Taken (before rest : List Char) : (stretch : List Char) → Prop
  | braced (names : String × String) (known : names ∈ shortNames) :
      Taken before rest ('$' :: '\x7b' :: (names.1.toList ++ ['\x7d']))
  | name (names : String × String) (known : names ∈ shortNames)
      (starts : isThere isWordOrDot before.getLast? = false)
      (ends : isThere Text.isWord rest.head? = false) : Taken before rest names.1.toList
  | clock : Taken before rest "$(date +%s)".toList
  | status : Taken before rest "[ $? -eq 0 ]".toList
  | quoted (c : Char) (lead more : List Char) (opens : c = '$' ∨ c = '[')
      (noQuote : '"' ∉ c :: lead) : Taken before rest (c :: (lead ++ ' ' :: '"' :: '$' :: more))
  | blankLine (line : List Char) (blank : ∀ c ∈ line, Text.isBlank c = true)
      (ends : rest = [] ∨ rest.head? = some '\n') : Taken before rest ('\n' :: line)

theorem QuotedVariable.start {name variableText : List Char}
    (quoted : QuotedVariable name variableText) : ∃ more, variableText = '"' :: '$' :: more := by
  cases quoted with
  | bare => exact ⟨_, rfl⟩
  | braced => exact ⟨_, rfl⟩

theorem flag_of_mem_variableTests {flag opening : List Char}
    (known : (flag, opening) ∈ variableTests) : ∃ lead, flag = lead ++ [' '] ∧ '"' ∉ lead := by
  have all : ∀ test ∈ variableTests, test.1 = test.1.dropLast ++ [' '] ∧
      '"' ∉ test.1.dropLast := by decide
  exact ⟨flag.dropLast, all (flag, opening) known⟩

section Starts

variable {before rest stretch replacement tail : List Char}

theorem Rewrite.taken (rewrite : Rewrite before rest stretch replacement) :
    Taken before rest stretch := by
  cases rewrite with
  | unbraced long short paired ends => simpa using Taken.braced (long, short) paired
  | shortened long short paired starts ends => exact .name (long, short) paired starts ends
  | command lookup name known named apart =>
      have taken := @Taken.quoted before rest '[' []
        ('(' :: lookup ++ name ++ ")\"".toList ++ [' ', ']']) (.inr rfl) (by decide)
      simpa using taken
  | homeDirectory name named =>
      have taken := @Taken.quoted before rest '$' "(echo".toList
        (name ++ "\" | sed \"s|^$HOME|~|g\")".toList) (.inl rfl) (by decide)
      simpa using taken
  | clock => exact .clock
  | contents name variableText named quoted =>
      obtain ⟨more, rfl⟩ := quoted.start
      have taken := @Taken.quoted before rest '$' "(cat".toList (more ++ [')']) (.inl rfl)
        (by decide)
      simpa using taken
  | status apart => exact .status
  | test flag opening name variableText known named quoted apart =>
      obtain ⟨lead, rfl, noQuote⟩ := flag_of_mem_variableTests known
      obtain ⟨more, rfl⟩ := quoted.start
      have taken := @Taken.quoted before rest '[' (' ' :: lead) (more ++ [' ', ']']) (.inr rfl)
        (by simp [noQuote])
      simpa using taken
  | blankLine line blank single ends => exact .blankLine line blank ends

theorem Taken.ne_nil (taken : Taken before rest stretch) : stretch ≠ [] := by
  cases taken with
  | name names known starts ends => exact (isRun_of_mem_shortNames names.1 names.2 known).1.1
  | clock => decide
  | status => decide
  | braced | quoted | blankLine => simp

theorem Taken.isName {c : Char} {more : List Char} (taken : Taken before rest (c :: more))
    (word : Text.isWord c = true) : ∃ names ∈ shortNames, names.1.toList = c :: more := by
  generalize shape : c :: more = stretch at taken
  have refused : ∀ {d : Char} {others : List Char}, Text.isWord d = false →
      c :: more ≠ d :: others := by
    intro d others plain same
    rw [(List.cons.inj same).1, plain] at word
    cases word
  cases taken with
  | braced names known => exact absurd shape (refused (by decide))
  | name names known starts ends => exact ⟨names, known, rfl⟩
  | clock => exact absurd shape (refused (by decide))
  | status => exact absurd shape (refused (by decide))
  | quoted c lead more opens noQuote =>
      exact absurd shape (refused (by rcases opens with rfl | rfl <;> decide))
  | blankLine line blank ends => exact absurd shape (refused (by decide))

theorem Taken.opening {c : Char} {more : List Char} (taken : Taken before rest (c :: more)) :
    Text.isWord c = true ∨ c ∈ ['$', '[', '\n'] := by
  generalize shape : c :: more = stretch at taken
  cases taken with
  | braced names known => simp [(List.cons.inj shape).1]
  | name names known starts ends =>
      have word := (isRun_of_mem_shortNames names.1 names.2 known).1
      exact .inl (word.2 c (by simp [← shape]))
  | clock =>
      obtain ⟨rfl, -⟩ := List.cons.inj shape
      exact .inr (by decide)
  | status =>
      obtain ⟨rfl, -⟩ := List.cons.inj shape
      exact .inr (by decide)
  | quoted d lead more opens noQuote =>
      obtain ⟨rfl, -⟩ := List.cons.inj shape
      rcases opens with rfl | rfl <;> simp
  | blankLine line blank ends => simp [(List.cons.inj shape).1]

/-! Where no rewrite starts. -/

structure Steady (name : List Char) : Prop where
  word : IsRun Text.isWord name
  visible : ∀ c ∈ name, Text.isBlank c = false
  free : ∀ names ∈ shortNames, ¬ names.1.toList <:+: name

theorem Rewrite.not_at_line_end {name more : List Char}
    (rewrite : Rewrite before rest ('\n' :: more) replacement) (steady : Steady name)
    (same : more ++ rest = name ++ tail) : False := by
  obtain ⟨line, shape, -, blank, -, ends⟩ := blank_of_rewrite rewrite List.mem_cons_self
  obtain ⟨-, rfl⟩ := List.cons.inj shape
  obtain ⟨letter, letters, rfl⟩ := List.exists_cons_of_ne_nil steady.word.1
  cases more with
  | nil =>
      obtain rfl : rest = letter :: letters ++ tail := same
      rcases ends with ends | ends
      · cases ends
      · cases ends
        exact absurd (steady.word.2 '\n' List.mem_cons_self) (by decide)
  | cons c blanks =>
      obtain ⟨rfl, -⟩ := List.cons.inj same
      have visible := steady.visible c List.mem_cons_self
      rw [blank c List.mem_cons_self] at visible
      cases visible

theorem Taken.not_in_word {first second : List Char} (taken : Taken before rest stretch)
    (steady : Steady (first ++ second)) (inside : second ≠ [])
    (same : stretch ++ rest = second ++ '=' :: tail) : False := by
  obtain ⟨c, more, rfl⟩ := List.exists_cons_of_ne_nil taken.ne_nil
  obtain ⟨d, others, rfl⟩ := List.exists_cons_of_ne_nil inside
  obtain ⟨rfl, -⟩ := List.cons.inj same
  obtain ⟨names, known, name⟩ := taken.isName (steady.word.2 c (by simp))
  have letters := (isRun_of_mem_shortNames names.1 names.2 known).1
  have free := letters.not_mem (by decide : Text.isWord '=' = false)
  rw [name] at free
  obtain ⟨between, whole, -⟩ := Text.exists_of_not_mem free same
  exact steady.free names known ⟨first, between, by rw [name, whole, List.append_assoc]⟩

theorem Rewrite.not_before_value {name first second : List Char}
    (rewrite : Rewrite before rest stretch replacement) (steady : Steady name)
    (inside : second ≠ []) (here : '\n' :: (name ++ ['=', '"']) = first ++ second)
    (same : stretch ++ rest = second ++ tail) : False := by
  have taken := rewrite.taken
  obtain ⟨c, more, rfl⟩ := List.exists_cons_of_ne_nil taken.ne_nil
  cases first with
  | nil =>
      obtain rfl : '\n' :: (name ++ ['=', '"']) = second := here
      obtain ⟨rfl, behind⟩ := List.cons.inj same
      exact rewrite.not_at_line_end steady (by simpa using behind)
  | cons e first =>
      obtain ⟨-, here⟩ := List.cons.inj here
      rcases List.append_eq_append_iff.mp here with ⟨between, rfl, signs⟩ | ⟨letters, rfl, rfl⟩
      · obtain ⟨d, others, rfl⟩ := List.exists_cons_of_ne_nil inside
        obtain ⟨rfl, -⟩ := List.cons.inj same
        have sign : c ∈ ['=', '"'] := signs ▸ List.mem_append_right between List.mem_cons_self
        simp only [List.mem_cons, List.not_mem_nil, or_false] at sign
        rcases sign with rfl | rfl <;> exact absurd taken.opening (by decide)
      · by_cases present : letters = []
        · subst present
          obtain ⟨rfl, -⟩ := List.cons.inj same
          exact absurd taken.opening (by decide)
        · exact taken.not_in_word steady present (by simpa using same)

theorem Taken.not_in_value {front first second : List Char}
    (taken : Taken (front ++ '"' :: first) rest stretch)
    (quoted : staysInQuotes (first ++ second) = true) (reach : OutOfReach (first ++ second))
    (ends : tail = [] ∨ tail.head? = some '\n')
    (same : stretch ++ rest = second ++ '"' :: tail) : False := by
  cases taken with
  | braced names known =>
      have letters := (isRun_of_mem_shortNames names.1 names.2 known).1
      have free := letters.not_mem (by decide : Text.isWord '"' = false)
      obtain ⟨between, rfl, -⟩ := Text.exists_of_not_mem (by simpa using free) same
      have opens : isThere isWordOrDot (first ++ ['$', '\x7b']).getLast? = false := by
        rw [getLast?_append_of_some first (rfl : ['$', '\x7b'].getLast? = some '\x7b')]
        decide
      exact reach.names names known ⟨first ++ ['$', '\x7b'], '\x7d' :: between, by simp, opens, rfl⟩
  | name names known starts stops =>
      have letters := (isRun_of_mem_shortNames names.1 names.2 known).1
      have free := letters.not_mem (by decide : Text.isWord '"' = false)
      obtain ⟨between, rfl, rfl⟩ := Text.exists_of_not_mem free same
      refine reach.names names known ⟨first, between, by simp, ?_, ?_⟩
      · cases first with
        | nil => rfl
        | cons c more =>
            rw [List.getLast?_append_cons, List.getLast?_cons_cons] at starts
            exact starts
      · cases between with
        | nil => rfl
        | cons c more => simpa using stops
  | clock =>
      obtain ⟨between, rfl, -⟩ := Text.exists_of_not_mem (by decide) same
      exact reach.clock ⟨first, between, by simp⟩
  | status =>
      obtain ⟨between, rfl, -⟩ := Text.exists_of_not_mem (by decide) same
      exact reach.status ⟨first, between, by simp⟩
  | quoted c lead more opens noQuote =>
      have free : '"' ∉ c :: (lead ++ [' ']) := by simpa using noQuote
      have split : c :: (lead ++ [' ']) ++ ('"' :: '$' :: more ++ rest) = second ++ '"' :: tail := by
        simpa using same
      obtain ⟨between, rfl, behind⟩ := Text.exists_of_not_mem free split
      cases between with
      | nil =>
          obtain ⟨-, rfl⟩ := List.cons.inj behind
          rcases ends with ends | ends <;> cases ends
      | cons d others =>
          obtain ⟨rfl, -⟩ := List.cons.inj behind
          exact not_quote_behind_blank quoted ⟨first ++ c :: lead, others, by simp⟩
  | blankLine line blank stops =>
      have free : '"' ∉ '\n' :: line := by
        simpa using not_mem_of_blank blank (by decide : Text.isBlank '"' = false)
      obtain ⟨between, rfl, rfl⟩ := Text.exists_of_not_mem free same
      cases between with
      | nil => rcases stops with stops | stops <;> cases stops
      | cons d others =>
          obtain rfl : d = '\n' := by simpa using stops
          exact reach.blankLines line blank ⟨first, others, by simp⟩

end Starts

/-! What stays. -/

section Stays

variable {text changed : List Char} {name : String} {value : List Char}

theorem Rewrite.not_in_line {lead first second rest stretch replacement tail : List Char}
    (rewrite : Rewrite (lead ++ first) rest stretch replacement) (steady : Steady name.toList)
    (quoted : staysInQuotes value = true) (reach : OutOfReach value)
    (ends : tail = [] ∨ tail.head? = some '\n') (inside : second ≠ [])
    (here : '\n' :: (name.toList ++ '=' :: '"' :: (value ++ ['"'])) = first ++ second)
    (same : stretch ++ rest = second ++ tail) : False := by
  have parted : '\n' :: (name.toList ++ ['=', '"']) ++ (value ++ ['"']) = first ++ second := by
    simpa using here
  have behind : ∀ begun, first = '\n' :: (name.toList ++ ['=', '"']) ++ begun →
      value ++ ['"'] = begun ++ second → False := by
    rintro begun rfl closed
    obtain ⟨left, last, rfl⟩ := (List.eq_nil_or_concat second).resolve_left inside
    rw [List.concat_eq_append, ← List.append_assoc] at closed
    obtain ⟨rfl, quote⟩ := List.append_inj' closed rfl
    obtain rfl : '"' = last := by simpa using quote
    have taken : Taken (lead ++ '\n' :: (name.toList ++ ['=']) ++ '"' :: begun) rest stretch := by
      simpa using rewrite.taken
    exact taken.not_in_value quoted reach ends (by simpa using same)
  rcases List.append_eq_append_iff.mp parted with ⟨begun, opened, closed⟩ | ⟨letters, opened, rfl⟩
  · exact behind begun opened closed
  · by_cases present : letters = []
    · subst present
      exact behind [] (by simpa using opened.symm) rfl
    · exact rewrite.not_before_value steady present opened (by simpa using same)

theorem Assigns.rewriting (assigns : Assigns text name value) (steady : Steady name.toList)
    (reach : OutOfReach value) (rewriting : Rewriting text changed) :
    Assigns changed name value := by
  obtain ⟨before, rest, stretch, replacement, rewrite, rfl, rfl⟩ := rewriting
  obtain ⟨quoted, lead, tail, ends, here⟩ := assigns
  rw [List.append_assoc] at here
  refine ⟨quoted, ?_⟩
  rcases Text.meeting_cases (by simp) here with ⟨between, rfl, behind⟩ | ⟨between, rfl, rfl⟩ |
    ⟨first, second, parted, inside, rfl, behind⟩ | ⟨first, second, parted, present, inside, -, behind⟩
  · refine ⟨lead, between ++ (replacement ++ rest), ?_, by simp⟩
    subst behind
    cases between with
    | nil =>
        obtain ⟨c, more, rfl⟩ := List.exists_cons_of_ne_nil rewrite.taken.ne_nil
        obtain rfl : c = '\n' := by simpa using ends
        obtain ⟨line, -, rfl, -, -, stops⟩ := blank_of_rewrite rewrite List.mem_cons_self
        exact stops
    | cons d others => exact .inr (by simpa using ends)
  · exact ⟨before ++ replacement ++ between, tail, ends, by simp⟩
  · exact (rewrite.not_in_line steady quoted reach ends inside parted behind).elim
  · obtain ⟨d, others, rfl⟩ := List.exists_cons_of_ne_nil present
    obtain ⟨e, letters, rfl⟩ := List.exists_cons_of_ne_nil inside
    obtain ⟨rfl, -⟩ := List.cons.inj behind
    obtain ⟨line, shape, -, -, single, -⟩ := blank_of_rewrite rewrite (by simp [parted])
    obtain ⟨-, rfl⟩ := List.cons.inj (shape.symm.trans parted)
    exact absurd (by simp) single

theorem Assigns.rewritten (assigns : Assigns text name value) (steady : Steady name.toList)
    (reach : OutOfReach value) (chain : Rewritten text changed) : Assigns changed name value := by
  induction chain with
  | refl => exact assigns
  | tail _ step kept => exact kept.rewriting steady reach step

theorem Assigns.optimize (assigns : Assigns text name value) (steady : Steady name.toList)
    (reach : OutOfReach value) (options : Options) :
    Assigns (Shortening.optimize options text).text name value :=
  assigns.rewritten steady reach (optimize_rewritten options text)

end Stays

end StatusLine.Shortening

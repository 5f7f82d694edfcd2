import StatusLine.Proofs.Shortening.Swaps

/-!
The idioms as swaps. Each of them looks for a test in single brackets or for a command and for
nothing that holds a mark, and puts in a text that opens neither and has a mark at its front.
-/

namespace StatusLine.Shortening

theorem IsRun.markFree {name : List Char} (named : IsRun isCommandChar name) : MarkFree name := by
  have refused : ∀ mark ∈ barriers, isCommandChar mark = false := by decide
  exact fun mark known => named.not_mem (refused mark known)

theorem QuotedVariable.markFree {name variableText : List Char} (named : IsRun Text.isWord name)
    (quoted : QuotedVariable name variableText) : MarkFree variableText := by
  have refused : ∀ mark ∈ barriers,
      Text.isWord mark = false ∧ mark ∉ ['"', '$', '\x7b', '\x7d'] := by
    decide
  exact fun mark known => quoted.not_mem named (refused mark known).1 (refused mark known).2

theorem markFree_append {text more : List Char} (free : MarkFree text) (later : MarkFree more) :
    MarkFree (text ++ more) := by
  intro mark known member
  exact (List.mem_append.mp member).elim (free mark known) (later mark known)

theorem shut_of_plain {letters text : List Char} {previous : Option Char}
    (plain : ∀ c ∈ text, c ≠ '[' ∧ c ≠ '$') : Shut letters previous text := by
  have shut : Shut letters previous (text ++ []) := shut_word plain trivial
  rwa [List.append_nil] at shut

theorem IsRun.plain {name : List Char} (named : IsRun Text.isWord name) :
    ∀ c ∈ name, c ≠ '[' ∧ c ≠ '$' := by
  intro c member
  have word := named.2 c member
  constructor <;> rintro rfl <;> exact absurd word (by decide)

theorem not_opens_word {letters word : List Char} (whole : IsRun Text.isWord word) :
    ¬ Opens letters none word := by
  obtain ⟨c, more, rfl⟩ := List.exists_cons_of_ne_nil whole.1
  obtain ⟨noBracket, noDollar⟩ := whole.plain c List.mem_cons_self
  simp [Opens, Ne.symm noBracket, Ne.symm noDollar]

theorem shut_variable {letters name rest : List Char} {previous : Option Char}
    (named : IsRun Text.isWord name) (shut : Shut letters none rest) :
    Shut letters previous ('$' :: (name ++ rest)) := by
  refine ⟨fun behind opens => ?_, shut_word named.plain shut⟩
  obtain ⟨c, more, rfl⟩ := List.exists_cons_of_ne_nil named.1
  have noParenthesis : '(' ≠ c := by
    rintro rfl
    exact absurd (named.2 _ List.mem_cons_self) (by decide)
  simp [Opens, noParenthesis] at opens

theorem closer_not_mem {name : List Char} (named : IsRun isCommandChar name) {closer : Char}
    (closes : closer ∈ closers) : closer ∉ name := by
  have refused : ∀ closer ∈ closers, isCommandChar closer = false := by decide
  exact named.not_mem (refused closer closes)

def idiomLetters : List Char :=
  ['e', 'c']

def commandLetters : List Char :=
  ['e', 'c', 'd']

theorem swap_command (lookup name : List Char) (named : IsRun isCommandChar name) :
    Swap commandLetters
      (['[', ' '] ++ "\"$(".toList ++ lookup ++ name ++ ")\"".toList ++ [' ', ']'])
      ("command -v ".toList ++ name ++ " >/dev/null 2>&1".toList) where
  starts := ⟨'[', by simp⟩
  ends := ⟨']', by decide, getLast?_append_of_some _ (by decide)⟩
  shut := by
    have plain : ∀ c ∈ "command -v ".toList ++ name ++ " >/dev/null 2>&1".toList,
        c ≠ '[' ∧ c ≠ '$' := by
      have noBracket := named.not_mem (by decide : isCommandChar '[' = false)
      have noDollar := named.not_mem (by decide : isCommandChar '$' = false)
      intro c member
      constructor <;> rintro rfl <;> simp [noBracket, noDollar] at member
    exact shut_of_plain plain
  barrier := by
    refine ⟨'>', by decide, "command -v ".toList ++ name ++ [' '], "/dev/null 2>&1".toList,
      by simp, fun closer closes => ?_⟩
    have free := closer_not_mem named closes
    simp only [closers, List.mem_cons, List.not_mem_nil, or_false] at closes
    rcases closes with rfl | rfl <;> simp [free]

theorem swap_homeDirectory (name : List Char) (named : IsRun Text.isWord name) :
    Swap commandLetters ("$(echo \"$".toList ++ name ++ "\" | sed \"s|^$HOME|~|g\")".toList)
      ("$\x7b".toList ++ name ++ "/#$HOME/\\~\x7d".toList) where
  starts := ⟨'$', by simp⟩
  ends := ⟨')', by decide, getLast?_append_of_some _ (by decide)⟩
  shut := by
    have tail : Shut commandLetters none "/#$HOME/\\~\x7d".toList := by simp [Shut, Opens]
    have inner : Shut commandLetters (some '\x7b') (name ++ "/#$HOME/\\~\x7d".toList) :=
      shut_word named.plain tail
    have opening : Shut commandLetters none ('$' :: '\x7b' :: (name ++ "/#$HOME/\\~\x7d".toList)) :=
      ⟨by simp [Opens], by simp [Opens], inner⟩
    simpa using opening
  barrier := by
    refine ⟨'/', by decide, "$\x7b".toList ++ name, "#$HOME/\\~\x7d".toList, by simp,
      fun closer closes => ?_⟩
    have free := closer_not_mem named.command closes
    simp only [closers, List.mem_cons, List.not_mem_nil, or_false] at closes
    rcases closes with rfl | rfl <;> simp [free]

theorem swap_contents (name variableText : List Char) (named : IsRun Text.isWord name) :
    Swap commandLetters ("$(cat ".toList ++ variableText ++ [')'])
      ("$(<\"$".toList ++ name ++ "\")".toList) where
  starts := ⟨'$', by simp⟩
  ends := ⟨')', by decide, getLast?_append_of_some _ (by decide)⟩
  shut := by
    have tail : Shut commandLetters none "\")".toList := by simp [Shut, Opens]
    have inner : Shut commandLetters (some '"') ('$' :: (name ++ "\")".toList)) :=
      shut_variable named tail
    have opening : Shut commandLetters none
        ('$' :: '(' :: '<' :: '"' :: '$' :: (name ++ "\")".toList)) :=
      ⟨by simp [Opens, commandLetters], by simp [Opens], by simp [Opens], by simp [Opens], inner⟩
    simpa using opening
  barrier := ⟨'<', by decide, "$(".toList, '"' :: '$' :: (name ++ "\")".toList), by simp, by decide⟩

theorem swap_status :
    Swap commandLetters (['[', ' '] ++ "$? -eq 0".toList ++ [' ', ']']) "((! $?))".toList where
  starts := ⟨'[', by simp⟩
  ends := ⟨']', by decide, by decide⟩
  shut := by simp [Shut, Opens]
  barrier := ⟨'!', by decide, "((".toList, " $?))".toList, by decide, by decide⟩

theorem opening_of_mem_variableTests {flag opening : List Char}
    (known : (flag, opening) ∈ variableTests) :
    ∃ middle, opening = ['[', '[', ' '] ++ middle ++ ['$'] ∧ ∀ c ∈ middle, c ≠ '[' ∧ c ≠ '$' := by
  have all : ∀ test ∈ variableTests,
      test.2 = ['[', '[', ' '] ++ (test.2.drop 3).dropLast ++ ['$'] ∧
        ∀ c ∈ (test.2.drop 3).dropLast, c ≠ '[' ∧ c ≠ '$' := by
    decide
  exact ⟨_, all (flag, opening) known⟩

theorem swap_test (flag opening name variableText : List Char)
    (known : (flag, opening) ∈ variableTests) (named : IsRun Text.isWord name) :
    Swap commandLetters (['[', ' '] ++ flag ++ variableText ++ [' ', ']'])
      (opening ++ name ++ " ]]".toList) where
  starts := ⟨'[', by simp⟩
  ends := ⟨']', by decide, getLast?_append_of_some _ (by decide)⟩
  shut := by
    obtain ⟨middle, rfl, plain⟩ := opening_of_mem_variableTests known
    have tail : Shut commandLetters none " ]]".toList := by simp [Shut, Opens]
    have inner : Shut commandLetters (some ' ') (middle ++ '$' :: (name ++ " ]]".toList)) :=
      shut_word plain (shut_variable named tail)
    have brackets : Shut commandLetters none
        ('[' :: '[' :: ' ' :: (middle ++ '$' :: (name ++ " ]]".toList))) :=
      ⟨by simp [Opens], by simp [Opens, isThere, isOpenBracket], by simp [Opens], inner⟩
    simpa using brackets
  barrier := by
    obtain ⟨middle, rfl, -⟩ := opening_of_mem_variableTests known
    exact ⟨'[', by decide, [], '[' :: ' ' :: (middle ++ '$' :: (name ++ " ]]".toList)), by simp,
      by simp⟩

theorem Rewrite.swap {before rest stretch replacement : List Char}
    (rewrite : Rewrite before rest stretch replacement)
    (opens : Opens idiomLetters none stretch) : Swap commandLetters stretch replacement := by
  cases rewrite with
  | command lookup name known named apart => exact swap_command lookup name named
  | homeDirectory name named => exact swap_homeDirectory name named
  | contents name variableText named quoted => exact swap_contents name variableText named
  | status apart => exact swap_status
  | test flag opening name variableText known named quoted apart =>
      exact swap_test flag opening name variableText known named
  | shortened long short paired starts ends =>
      exact absurd opens (not_opens_word (isRun_of_mem_shortNames long short paired).1)
  | unbraced | clock | blankLine => simp [Opens, idiomLetters] at opens

theorem Rewrite.markFree {before rest stretch replacement : List Char}
    (rewrite : Rewrite before rest stretch replacement)
    (opens : Opens idiomLetters none stretch) : MarkFree stretch.tail := by
  cases rewrite with
  | command lookup name known named apart =>
      have asked : MarkFree lookup := by
        have all : ∀ lookup ∈ commandLookups, MarkFree lookup := by decide
        exact all lookup known
      have free :
          MarkFree ([' '] ++ "\"$(".toList ++ lookup ++ name ++ ")\"".toList ++ [' ', ']']) :=
        markFree_append (markFree_append (markFree_append (markFree_append (by decide) asked)
          named.markFree) (by decide)) (by decide)
      simpa using free
  | homeDirectory name named =>
      have free : MarkFree ("(echo \"$".toList ++ name ++ "\" | sed \"s|^$HOME|~|g\")".toList) :=
        markFree_append (markFree_append (by decide) named.command.markFree) (by decide)
      simpa using free
  | contents name variableText named quoted =>
      have free : MarkFree ("(cat ".toList ++ variableText ++ [')']) :=
        markFree_append (markFree_append (by decide) (quoted.markFree named)) (by decide)
      simpa using free
  | status apart => decide
  | test flag opening name variableText known named quoted apart =>
      have flagged : MarkFree flag := by
        have all : ∀ test ∈ variableTests, MarkFree test.1 := by decide
        exact all _ known
      have free : MarkFree ([' '] ++ flag ++ variableText ++ [' ', ']']) :=
        markFree_append (markFree_append (markFree_append (by decide) flagged)
          (quoted.markFree named)) (by decide)
      simpa using free
  | shortened long short paired starts ends =>
      have word := (isRun_of_mem_shortNames long short paired).1.command.markFree
      exact fun mark known member => word mark known (List.mem_of_mem_tail member)
  | unbraced | clock | blankLine => simp [Opens, idiomLetters] at opens

theorem opens_of_takesAll {idiom : Idiom} (member : idiom ∈ idioms) {previous : Option Char}
    {stretch : List Char} {captures : List (List Char)}
    (takes : TakesAll idiom.pattern.elements stretch captures)
    (starts : isThere idiom.pattern.notAfter previous = false) (rest : List Char) :
    Opens idiomLetters previous (stretch ++ rest) := by
  simp only [idioms, List.mem_cons, List.not_mem_nil, or_false] at member
  rcases member with rfl | rfl | rfl | rfl | rfl | rfl | rfl <;>
    obtain ⟨_, rfl, -⟩ := takesAll_literal takes
  case inr.inl => exact .inr ⟨'e', by decide, by simp⟩
  case inr.inr.inl => exact .inr ⟨'c', by decide, by simp⟩
  all_goals exact .inl ⟨by simp, starts⟩

theorem opens_idiom {idiom : Idiom} (member : idiom ∈ idioms) {stretch : List Char}
    {captures : List (List Char)} (takes : TakesAll idiom.pattern.elements stretch captures) :
    Opens idiomLetters none stretch := by
  have unguarded : isThere idiom.pattern.notAfter none = false := rfl
  simpa using opens_of_takesAll member takes unguarded []

theorem notAfter_idiom {idiom : Idiom} (member : idiom ∈ idioms) (c : Char)
    (refused : idiom.pattern.notAfter c = true) : c = '[' := by
  simp only [idioms, List.mem_cons, List.not_mem_nil, or_false] at member
  rcases member with rfl | rfl | rfl | rfl | rfl | rfl | rfl
  case inr.inl | inr.inr.inl => cases refused
  all_goals exact beq_iff_eq.mp refused

theorem notBefore_idiom {idiom : Idiom} (member : idiom ∈ idioms) (c : Char)
    (refused : idiom.pattern.notBefore c = true) : c = ']' := by
  simp only [idioms, List.mem_cons, List.not_mem_nil, or_false] at member
  rcases member with rfl | rfl | rfl | rfl | rfl | rfl | rfl
  case inr.inl | inr.inr.inl => cases refused
  all_goals exact beq_iff_eq.mp refused

theorem isDetermined_idiom {idiom : Idiom} (member : idiom ∈ idioms) :
    isDetermined idiom.pattern.elements = true := by
  simp only [idioms, List.mem_cons, List.not_mem_nil, or_false] at member
  rcases member with rfl | rfl | rfl | rfl | rfl | rfl | rfl <;> decide

theorem rewrite_of_takesAll {idiom : Idiom} (member : idiom ∈ idioms) {stretch : List Char}
    {captures : List (List Char)} (takes : TakesAll idiom.pattern.elements stretch captures) :
    Rewrite [] [] stretch (idiom.form captures) :=
  (rewrites_idiom idiom member [] [] stretch captures takes rfl rfl).2.1

theorem swap_idiom {idiom : Idiom} (member : idiom ∈ idioms) {stretch : List Char}
    {captures : List (List Char)} (takes : TakesAll idiom.pattern.elements stretch captures) :
    Swap commandLetters stretch (idiom.form captures) :=
  (rewrite_of_takesAll member takes).swap (opens_idiom member takes)

theorem seeks_idiom {idiom : Idiom} (member : idiom ∈ idioms) :
    idiom.pattern.Seeks idiomLetters where
  notAfter := notAfter_idiom member
  notBefore := notBefore_idiom member
  sought _ _ _ takes starts :=
    ⟨opens_of_takesAll member takes starts,
      (rewrite_of_takesAll member takes).markFree (opens_idiom member takes),
      (swap_idiom member takes).ends⟩

theorem idiomLetters_known : ∀ letter ∈ idiomLetters, letter ∈ commandLetters := by decide

end StatusLine.Shortening

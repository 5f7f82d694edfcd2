import Mathlib.Data.List.TakeWhile
import Mathlib.Logic.Relation
import StatusLine.Proofs.Text.Substring
import StatusLine.Shortening.Passes

/-!
Shortening as rewriting. `Rewrite` lists everything that a rule may put in place of a stretch of
text, together with what has to stand around it, and `optimize_rewritten` says that a shortened
text comes out of the raw one by a chain of such rewrites, one after the other. What every single
rewrite keeps, shortening keeps.
-/

namespace StatusLine.Shortening

/-- A run of at least one accepted character. -/
def IsRun (accepts : Char → Bool) (name : List Char) : Prop :=
  name ≠ [] ∧ ∀ c ∈ name, accepts c = true

inductive QuotedVariable (name : List Char) : List Char → Prop
  | bare : QuotedVariable name (['"', '$'] ++ name ++ ['"'])
  | braced : QuotedVariable name (['"', '$', '\x7b'] ++ name ++ ['\x7d', '"'])

def Unbracketed (before rest : List Char) : Prop :=
  isThere isOpenBracket before.getLast? = false ∧ isThere isCloseBracket rest.head? = false

def commandLookups : List (List Char) :=
  ["command -v ".toList, "which ".toList]

def variableTests : List (List Char × List Char) :=
  [("-n ".toList, "[[ $".toList), ("-z ".toList, "[[ ! $".toList),
    ("-f ".toList, "[[ -f $".toList), ("-d ".toList, "[[ -d $".toList),
    ("-r ".toList, "[[ -r $".toList), ("-e ".toList, "[[ -e $".toList)]

inductive Rewrite (before rest : List Char) : (stretch replacement : List Char) → Prop
  | unbraced (long short : String) (paired : (long, short) ∈ shortNames)
      (ends : isThere Text.isWord rest.head? = false) :
      Rewrite before rest (['$', '\x7b'] ++ long.toList ++ ['\x7d']) ('$' :: short.toList)
  | shortened (long short : String) (paired : (long, short) ∈ shortNames)
      (starts : isThere isWordOrDot before.getLast? = false)
      (ends : isThere Text.isWord rest.head? = false) :
      Rewrite before rest long.toList short.toList
  | command (lookup name : List Char) (known : lookup ∈ commandLookups)
      (named : IsRun isCommandChar name) (apart : Unbracketed before rest) :
      Rewrite before rest
        (['[', ' '] ++ "\"$(".toList ++ lookup ++ name ++ ")\"".toList ++ [' ', ']'])
        ("command -v ".toList ++ name ++ " >/dev/null 2>&1".toList)
  | homeDirectory (name : List Char) (named : IsRun Text.isWord name) :
      Rewrite before rest
        ("$(echo \"$".toList ++ name ++ "\" | sed \"s|^$HOME|~|g\")".toList)
        ("$\x7b".toList ++ name ++ "/#$HOME/\\~\x7d".toList)
  | clock :
      Rewrite before rest "$(date +%s)".toList "$\x7bEPOCHSECONDS:-$(date +%s)\x7d".toList
  | contents (name variableText : List Char) (named : IsRun Text.isWord name)
      (quoted : QuotedVariable name variableText) :
      Rewrite before rest ("$(cat ".toList ++ variableText ++ [')'])
        ("$(<\"$".toList ++ name ++ "\")".toList)
  | status (apart : Unbracketed before rest) :
      Rewrite before rest (['[', ' '] ++ "$? -eq 0".toList ++ [' ', ']']) "((! $?))".toList
  | test (flag opening name variableText : List Char) (known : (flag, opening) ∈ variableTests)
      (named : IsRun Text.isWord name) (quoted : QuotedVariable name variableText)
      (apart : Unbracketed before rest) :
      Rewrite before rest (['[', ' '] ++ flag ++ variableText ++ [' ', ']'])
        (opening ++ name ++ " ]]".toList)
  | blankLine (line : List Char) (blank : ∀ c ∈ line, Text.isBlank c = true)
      (single : '\n' ∉ line) (ends : rest = [] ∨ rest.head? = some '\n') :
      Rewrite before rest ('\n' :: line) []

def Rewriting (text changed : List Char) : Prop :=
  ∃ before rest stretch replacement, Rewrite before rest stretch replacement ∧
    text = before ++ stretch ++ rest ∧ changed = before ++ replacement ++ rest

/-- Rewrites one after the other. -/
abbrev Rewritten : List Char → List Char → Prop :=
  Relation.ReflTransGen Rewriting

theorem Rewrite.rewritten {before rest stretch replacement : List Char}
    (rewrite : Rewrite before rest stretch replacement) :
    Rewritten (before ++ stretch ++ rest) (before ++ replacement ++ rest) :=
  Relation.ReflTransGen.single ⟨before, rest, stretch, replacement, rewrite, rfl, rfl⟩

/-! What names, blank lines and rewritten stretches hold. -/

theorem IsRun.not_mem {accepts : Char → Bool} {name : List Char} (named : IsRun accepts name)
    {c : Char} (refused : accepts c = false) : c ∉ name := by
  intro member
  rw [named.2 c member] at refused
  exact Bool.noConfusion refused

theorem QuotedVariable.not_mem {name variableText : List Char} (named : IsRun Text.isWord name)
    (quoted : QuotedVariable name variableText) {c : Char} (refused : Text.isWord c = false)
    (plain : c ∉ ['"', '$', '\x7b', '\x7d']) : c ∉ variableText := by
  have free := named.not_mem refused
  cases quoted <;> simp_all

theorem isCommandChar_of_isWord (c : Char) (word : Text.isWord c = true) :
    isCommandChar c = true := by
  simp [isCommandChar, word]

theorem IsRun.command {name : List Char} (named : IsRun Text.isWord name) :
    IsRun isCommandChar name :=
  ⟨named.1, fun c member => isCommandChar_of_isWord c (named.2 c member)⟩

theorem not_mem_of_blank {line : List Char} (blank : ∀ c ∈ line, Text.isBlank c = true) {c : Char}
    (visible : Text.isBlank c = false) : c ∉ line := by
  intro member
  rw [blank c member] at visible
  exact Bool.noConfusion visible

theorem isRun_of_mem_shortNames (long short : String) (paired : (long, short) ∈ shortNames) :
    IsRun Text.isWord long.toList ∧ IsRun Text.isWord short.toList := by
  have words : ∀ names ∈ shortNames,
      (!names.1.toList.isEmpty && names.1.toList.all Text.isWord &&
        (!names.2.toList.isEmpty && names.2.toList.all Text.isWord)) = true := by
    simp only [shortNames, List.forall_mem_cons]
    repeat rw [String.toList_ofList]
    decide
  have found := words (long, short) paired
  simp only [Bool.and_eq_true, Bool.not_eq_true', List.isEmpty_eq_false_iff, List.all_eq_true]
    at found
  exact ⟨found.1, found.2⟩

theorem blank_of_rewrite {before rest stretch replacement : List Char}
    (rewrite : Rewrite before rest stretch replacement) (newline : '\n' ∈ stretch) :
    ∃ line, stretch = '\n' :: line ∧ replacement = [] ∧ (∀ c ∈ line, Text.isBlank c = true) ∧
      '\n' ∉ line ∧ (rest = [] ∨ rest.head? = some '\n') := by
  cases rewrite with
  | blankLine line blank single ends => exact ⟨line, rfl, rfl, blank, single, ends⟩
  | unbraced long short paired =>
      have free := (isRun_of_mem_shortNames long short paired).1.not_mem (c := '\n') (by decide)
      exact absurd newline (by simp [free])
  | shortened long short paired =>
      exact absurd newline ((isRun_of_mem_shortNames long short paired).1.not_mem (by decide))
  | command lookup name known named apart =>
      have free := named.not_mem (c := '\n') (by decide)
      simp only [commandLookups, List.mem_cons, List.not_mem_nil, or_false] at known
      rcases known with rfl | rfl <;> exact absurd newline (by simp [free])
  | homeDirectory name named =>
      have free := named.not_mem (c := '\n') (by decide)
      exact absurd newline (by simp [free])
  | clock => exact absurd newline (by simp)
  | contents name variableText named quoted =>
      have free := named.not_mem (c := '\n') (by decide)
      cases quoted <;> exact absurd newline (by simp [free])
  | status apart => exact absurd newline (by simp)
  | test flag opening name variableText known named quoted apart =>
      have free := named.not_mem (c := '\n') (by decide)
      simp only [variableTests, List.mem_cons, List.not_mem_nil, or_false, Prod.mk.injEq] at known
      rcases known with ⟨rfl, _⟩ | ⟨rfl, _⟩ | ⟨rfl, _⟩ | ⟨rfl, _⟩ | ⟨rfl, _⟩ | ⟨rfl, _⟩ <;>
        cases quoted <;> exact absurd newline (by simp [free])

/-! What a pattern finds. -/

/-- What an element takes up, and what it captures of it. -/
inductive Element.Takes : Element → (stretch : List Char) → (captures : List (List Char)) → Prop
  | literal (stretch : List Char) : Takes (.literal stretch) stretch []
  | either {options : List (List Char)} (stretch : List Char) (member : stretch ∈ options) :
      Takes (.either options) stretch []
  | run {accepts : Char → Bool} (stretch : List Char) (accepted : IsRun accepts stretch) :
      Takes (.run accepts) stretch [stretch]
  | oneOf {options : List Char} (c : Char) (member : c ∈ options) :
      Takes (.oneOf options) [c] [[c]]
  | quotedVariable (name stretch : List Char) (named : IsRun Text.isWord name)
      (quoted : QuotedVariable name stretch) : Takes .quotedVariable stretch [name]

inductive TakesAll : List Element → (stretch : List Char) → (captures : List (List Char)) → Prop
  | nil : TakesAll [] [] []
  | cons {element : Element} {more : List Element} {stretch others : List Char}
      {captures later : List (List Char)} (first : element.Takes stretch captures)
      (rest : TakesAll more others later) :
      TakesAll (element :: more) (stretch ++ others) (captures ++ later)

theorem takeRun_spec (accepts : Char → Bool) (text run rest : List Char)
    (taken : takeRun accepts text = some (run, rest)) :
    text = run ++ rest ∧ IsRun accepts run := by
  simp only [takeRun] at taken
  split at taken
  · simp at taken
  · rename_i present
    simp only [Option.some.injEq, Prod.mk.injEq] at taken
    obtain ⟨rfl, rfl⟩ := taken
    refine ⟨(List.takeWhile_append_dropWhile).symm, present, fun c member => ?_⟩
    exact List.all_eq_true.mp List.all_takeWhile c member

theorem takeNamed_spec (close text name rest : List Char)
    (taken : takeNamed close text = some (name, rest)) :
    text = name ++ close ++ rest ∧ IsRun Text.isWord name := by
  simp only [takeNamed] at taken
  split at taken
  · simp at taken
  · rename_i found behind run
    obtain ⟨after, closed, same⟩ := Option.map_eq_some_iff.mp taken
    simp only [Prod.mk.injEq] at same
    obtain ⟨rfl, rfl⟩ := same
    obtain ⟨whole, named⟩ := takeRun_spec _ _ _ _ run
    have tail := Text.eq_append_of_after? closed
    exact ⟨by rw [whole, tail, List.append_assoc], named⟩

theorem takeVariable_spec (text name rest : List Char)
    (taken : takeVariable text = some (name, rest)) :
    ∃ stretch, text = stretch ++ rest ∧ IsRun Text.isWord name ∧ QuotedVariable name stretch := by
  simp only [takeVariable] at taken
  split at taken
  · simp at taken
  · rename_i inside opened
    have whole := Text.eq_append_of_after? opened
    obtain ⟨closed, named⟩ := takeNamed_spec _ _ _ _ taken
    exact ⟨_, by rw [whole, closed]; simp, named, .braced⟩
  · rename_i inside _ opened
    have whole := Text.eq_append_of_after? opened
    obtain ⟨closed, named⟩ := takeNamed_spec _ _ _ _ taken
    exact ⟨_, by rw [whole, closed]; simp, named, .bare⟩

theorem Element.find_spec (element : Element) (text : List Char) (found : Found)
    (here : element.find text = some found) :
    ∃ stretch, text = stretch ++ found.rest ∧ element.Takes stretch found.captures := by
  cases element with
  | literal stretch =>
      obtain ⟨rest, after, rfl⟩ := Option.map_eq_some_iff.mp here
      exact ⟨stretch, Text.eq_append_of_after? after, .literal stretch⟩
  | either options =>
      obtain ⟨rest, first, rfl⟩ := Option.map_eq_some_iff.mp here
      obtain ⟨stretch, member, after⟩ := List.exists_of_findSome?_eq_some first
      exact ⟨stretch, Text.eq_append_of_after? after, .either stretch member⟩
  | run accepts =>
      obtain ⟨⟨stretch, rest⟩, taken, rfl⟩ := Option.map_eq_some_iff.mp here
      obtain ⟨whole, accepted⟩ := takeRun_spec _ _ _ _ taken
      exact ⟨stretch, whole, .run stretch accepted⟩
  | oneOf options =>
      cases text with
      | nil => simp [Element.find] at here
      | cons c rest =>
          simp only [Element.find] at here
          split at here
          · rename_i member
            obtain rfl := Option.some.inj here
            exact ⟨[c], rfl, .oneOf c (by simpa using member)⟩
          · simp at here
  | quotedVariable =>
      obtain ⟨⟨name, rest⟩, taken, rfl⟩ := Option.map_eq_some_iff.mp here
      obtain ⟨stretch, whole, named, quoted⟩ := takeVariable_spec _ _ _ taken
      exact ⟨stretch, whole, .quotedVariable name stretch named quoted⟩

theorem findAll_spec (elements : List Element) (text : List Char) (found : Found)
    (here : findAll elements text = some found) :
    ∃ stretch, text = stretch ++ found.rest ∧ TakesAll elements stretch found.captures := by
  induction elements generalizing text found with
  | nil =>
      obtain rfl := Option.some.inj here
      exact ⟨[], rfl, .nil⟩
  | cons element more ih =>
      simp only [findAll] at here
      split at here
      · simp at here
      · rename_i first taken
        obtain ⟨last, later, rfl⟩ := Option.map_eq_some_iff.mp here
        obtain ⟨stretch, whole, takes⟩ := element.find_spec text first taken
        obtain ⟨others, tail, takesAll⟩ := ih first.rest last later
        exact ⟨stretch ++ others, by rw [whole, tail, List.append_assoc], .cons takes takesAll⟩

theorem Pattern.find_spec (pattern : Pattern) (previous : Option Char) (text : List Char)
    (found : Found) (here : pattern.find previous text = some found) :
    ∃ stretch, text = stretch ++ found.rest ∧ TakesAll pattern.elements stretch found.captures ∧
      isThere pattern.notAfter previous = false ∧
      isThere pattern.notBefore found.rest.head? = false := by
  simp only [Pattern.find] at here
  split at here
  · simp at here
  · rename_i starts
    split at here
    · simp at here
    · rename_i inner taken
      split at here
      · simp at here
      · rename_i ends
        obtain rfl := Option.some.inj here
        obtain ⟨stretch, whole, takes⟩ := findAll_spec _ _ _ taken
        exact ⟨stretch, whole, takes, by simpa using starts, by simpa using ends⟩

end StatusLine.Shortening

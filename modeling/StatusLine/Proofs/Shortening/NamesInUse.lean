import StatusLine.Proofs.Shortening.AllOrNothing
import StatusLine.Proofs.Shortening.BlankRuns
import StatusLine.Proofs.Shortening.Repetition

/-!
Which names stand in a text that idioms are replaced in. Words are parted by the marks between
them, so that the names of a text can be read off its parts wherever a mark stands. All idioms but
one leave the names as they are; the lookup of a command may grow together with what stands next to
it, which hides names and brings up none.
-/

namespace StatusLine.Shortening

/-! Names in texts that are put together. -/

section Names

variable {name word text rest : List Char} {c : Char} {previous : Option Char}

theorem wordEnds_append {tail : List Char} (ends : WordEnds rest) (stops : WordEnds tail) :
    WordEnds (rest ++ tail) := by
  cases rest with
  | nil => exact stops
  | cons c more => exact ends

theorem wordEnds_append_of_ne_nil {tail : List Char} (ends : WordEnds rest) (present : rest ≠ []) :
    WordEnds (rest ++ tail) := by
  cases rest with
  | nil => exact absurd rfl present
  | cons c more => exact ends

theorem isWord_of_isWordOrDot (refused : isWordOrDot c = false) : Text.isWord c = false := by
  simp only [isWordOrDot, Bool.or_eq_false_iff] at refused
  exact refused.1

theorem IsRun.append {accepts : Char → Bool} {one other : List Char} (first : IsRun accepts one)
    (second : IsRun accepts other) : IsRun accepts (one ++ other) :=
  ⟨by simp [first.1], fun c member =>
    (List.mem_append.mp member).elim (first.2 c) (second.2 c)⟩

theorem occursBehind_append_mark (letters : IsRun Text.isWord name)
    (mark : Text.isWord c = false) (text rest : List Char) :
    occursBehind name previous (text ++ c :: rest) =
      (occursBehind name previous text || occursBehind name (some c) rest) := by
  have stops : WordEnds (c :: rest) := mark
  induction text using words_induction name generalizing previous with
  | nil => rw [List.nil_append, occursBehind_mark letters mark, occursBehind_nil letters,
      Bool.false_or]
  | braced tail ends ih =>
      rw [List.append_assoc, Bool.eq_iff_iff, Bool.or_eq_true,
        occursBehind_braced letters letters ends,
        occursBehind_braced letters letters (wordEnds_append ends stops)]
      simp
  | mark d tail mark plain ih =>
      rw [List.cons_append, occursBehind_mark letters mark, occursBehind_mark letters mark, ih]
  | word word tail whole ends ih =>
      rw [List.append_assoc, Bool.eq_iff_iff, Bool.or_eq_true,
        occursBehind_word letters whole ends,
        occursBehind_word letters whole (wordEnds_append ends stops), ih, Bool.or_eq_true, or_assoc]

theorem occursBehind_append_word (letters : IsRun Text.isWord name)
    (whole : IsRun Text.isWord word) (other : ¬ word <:+ name) (text : List Char)
    (found : occursBehind name previous (text ++ word) = true) :
    occursBehind name previous text = true := by
  induction text using words_induction name generalizing previous with
  | nil =>
      have alone := (occursBehind_word letters whole wordEnds_nil).mp (by simpa using found)
      rcases alone with ⟨rfl, -⟩ | nothing
      · exact absurd (List.suffix_refl word) other
      · rw [occursBehind_nil letters] at nothing
        cases nothing
  | braced tail ends ih => exact (occursBehind_braced letters letters ends).mpr (.inl rfl)
  | mark d tail mark plain ih =>
      rw [List.cons_append, occursBehind_mark letters mark] at found
      rw [occursBehind_mark letters mark]
      exact ih found
  | word first tail whole' ends ih =>
      rw [occursBehind_word letters whole' ends]
      by_cases present : tail = []
      · subst present
        have alone := (occursBehind_word letters (whole'.append whole) wordEnds_nil).mp
          (by simpa using found)
        rcases alone with ⟨rfl, -⟩ | nothing
        · exact absurd (List.suffix_append first word) other
        · rw [occursBehind_nil letters] at nothing
          cases nothing
      · rw [List.append_assoc, occursBehind_word letters whole'
          (wordEnds_append_of_ne_nil ends present)] at found
        exact found.imp_right ih

theorem occursBehind_word_append (letters : IsRun Text.isWord name)
    (whole : IsRun Text.isWord word) (other : ¬ word <+: name) (rest : List Char)
    (found : occursBehind name previous (word ++ rest) = true) :
    occursBehind name none rest = true := by
  by_cases ends : WordEnds rest
  · rcases (occursBehind_word letters whole ends).mp found with ⟨rfl, -⟩ | behind
    · exact absurd (List.prefix_refl word) other
    · exact behind
  · obtain ⟨next, tail, letters', stops, rfl⟩ := exists_word_of_not_wordEnds ends
    rw [← List.append_assoc, occursBehind_word letters (whole.append letters') stops] at found
    rw [occursBehind_word letters letters' stops]
    rcases found with ⟨rfl, -⟩ | behind
    · exact absurd (List.prefix_append word next) other
    · exact .inr behind

def wordsOf (text : List Char) : List (List Char) :=
  text.splitOnP fun c => !Text.isWord c

theorem mem_wordsOf_append (letters : IsRun Text.isWord name) (ends : WordEnds rest) :
    name ∈ wordsOf (name ++ rest) := by
  have whole : ∀ c ∈ name, (!Text.isWord c) = false := fun c member => by
    rw [letters.2 c member, Bool.not_true]
  cases rest with
  | nil => rw [List.append_nil, wordsOf, List.splitOnP_eq_singleton whole]; simp
  | cons c more =>
      rw [wordsOf, List.splitOnP_append_cons _ _ (by rw [show Text.isWord c = false from ends]; rfl),
        List.splitOnP_eq_singleton whole]
      simp

theorem mem_wordsOf (letters : IsRun Text.isWord name)
    (found : occursBehind name none text = true) : name ∈ wordsOf text := by
  rw [occursBehind, Text.somewhere_iff] at found
  obtain ⟨before, here, rfl, taken⟩ := found
  obtain ⟨inner, taken⟩ := Option.isSome_iff_exists.mp taken
  obtain ⟨stretch, rfl, takes, starts, ends⟩ := (token name).find_spec _ here inner taken
  obtain ⟨_, rfl, nothing⟩ := takesAll_literal takes
  obtain ⟨rfl, -⟩ := takesAll_nil nothing
  rw [List.append_nil]
  have behind := mem_wordsOf_append letters ends
  rcases List.eq_nil_or_concat before with rfl | ⟨lead, d, rfl⟩
  · exact behind
  · have mark : Text.isWord d = false := by
      have refused : isWordOrDot d = false := by simpa [isThere, token] using starts
      exact isWord_of_isWordOrDot refused
    rw [List.concat_eq_append, List.append_assoc, List.singleton_append, wordsOf,
      List.splitOnP_append_cons _ _ (by rw [mark]; rfl)]
    exact List.mem_append_right _ behind

end Names

/-! What the rules for idioms do to names. -/

def knownNames : List (List Char) :=
  shortNames.flatMap fun names => [names.1.toList, names.2.toList]

theorem isRun_of_mem_knownNames {name : List Char} (known : name ∈ knownNames) :
    IsRun Text.isWord name := by
  obtain ⟨names, paired, member⟩ := List.mem_flatMap.mp known
  obtain ⟨longs, shorts⟩ := isRun_of_mem_shortNames names.1 names.2 paired
  simp only [List.mem_cons, List.not_mem_nil, or_false] at member
  rcases member with rfl | rfl
  · exact longs
  · exact shorts

def singleWords : List (List Char) :=
  [['c', 'w', 'd'], ['p', 'c', 't'], ['t', 'p', 'm'], ['h', 'o', 'm', 'e']]

def isOther (word : List Char) : Bool :=
  !word.contains '_' && !singleWords.contains word

theorem isOther_of_mem_knownNames {name : List Char} (known : name ∈ knownNames) :
    isOther name = false := by
  have all : ∀ name ∈ knownNames, isOther name = false := by
    simp only [knownNames, shortNames, List.flatMap_cons, List.flatMap_nil]
    repeat rw [String.toList_ofList]
    decide +kernel
  exact all name known

def isClear (text : List Char) : Bool :=
  text.head?.any (!Text.isWord ·) && text.getLast?.any (!isWordOrDot ·) &&
    (wordsOf text).all isOther

section Clear

variable {name gap lead word tail : List Char} {previous : Option Char}

theorem occursBehind_after {c : Char} (letters : IsRun Text.isWord name)
    (clear : isWordOrDot c = false) (text : List Char) :
    occursBehind name (some c) text = occursBehind name none text := by
  have mark := isWord_of_isWordOrDot clear
  by_cases ends : WordEnds text
  · exact occursBehind_previous letters ends _
  · obtain ⟨first, rest, whole, stops, rfl⟩ := exists_word_of_not_wordEnds ends
    rw [Bool.eq_iff_iff, occursBehind_word letters whole stops, occursBehind_word letters whole stops]
    simp [isThere, clear]

theorem occursBehind_clear (known : name ∈ knownNames) (clear : isClear gap = true)
    (before rest : List Char) :
    occursBehind name previous (before ++ (gap ++ rest)) =
      (occursBehind name previous before || occursBehind name none rest) := by
  have letters := isRun_of_mem_knownNames known
  simp only [isClear, Bool.and_eq_true, List.all_eq_true] at clear
  obtain ⟨⟨starts, ends⟩, free⟩ := clear
  have nowhere : occursBehind name none gap = false := by
    by_contra found
    have other := free name (mem_wordsOf letters (by simpa using found))
    rw [isOther_of_mem_knownNames known] at other
    cases other
  obtain ⟨d, last, refused⟩ := (Option.any_eq_true _ _).mp ends
  obtain ⟨front, rfl⟩ := List.getLast?_eq_some_iff.mp last
  have closed : isWordOrDot d = false := by simpa using refused
  have mark := isWord_of_isWordOrDot closed
  have split : before ++ (front ++ [d] ++ rest) = (before ++ front) ++ d :: rest := by simp
  rw [split, occursBehind_append_mark letters mark, occursBehind_after letters closed]
  congr 1
  cases front with
  | nil => rw [List.append_nil]
  | cons c more =>
      have opened : Text.isWord c = false := by simpa using starts
      rw [occursBehind_append_mark letters mark, Bool.or_eq_false_iff,
        occursBehind_mark letters opened] at nowhere
      rw [occursBehind_append_mark letters opened, nowhere.1, Bool.or_false]

def KeepsNames (stretch replacement : List Char) : Prop :=
  ∀ name ∈ knownNames, ∀ before rest,
    occursBehind name none (before ++ (replacement ++ rest)) =
      occursBehind name none (before ++ (stretch ++ rest))

theorem keepsNames_of_clear {stretch replacement : List Char} (old : isClear stretch = true)
    (new : isClear replacement = true) : KeepsNames stretch replacement := by
  intro name known before rest
  rw [occursBehind_clear known old, occursBehind_clear known new]

theorem occursBehind_framed (known : name ∈ knownNames)
    (frame : isClear lead = true ∧ isClear tail = true) (before word rest : List Char) :
    occursBehind name none (before ++ (lead ++ word ++ tail ++ rest)) =
      (occursBehind name none before ||
        (occursBehind name none word || occursBehind name none rest)) := by
  have split : before ++ (lead ++ word ++ tail ++ rest) =
      before ++ (lead ++ (word ++ (tail ++ rest))) := by simp
  rw [split, occursBehind_clear known frame.1, occursBehind_clear known frame.2]

theorem keepsNames_of_framed {opening closing : List Char}
    (old : isClear lead = true ∧ isClear tail = true)
    (new : isClear opening = true ∧ isClear closing = true) (word : List Char) :
    KeepsNames (lead ++ word ++ tail) (opening ++ word ++ closing) := by
  intro name known before rest
  rw [occursBehind_framed known old, occursBehind_framed known new]

structure FixedTexts (Frames : List Char → List Char → Prop) : Prop where
  lookups : ∀ lookup ∈ commandLookups,
    Frames (['[', ' '] ++ "\"$(".toList ++ lookup) (")\"".toList ++ [' ', ']'])
  command : Frames [' ', '-', 'v', ' '] " >/dev/null 2>&".toList
  home : Frames "$(echo \"$".toList "\" | sed \"s|^$HOME|~|g\")".toList
  homeShort : Frames "$\x7b".toList "/#$HOME/\\~\x7d".toList
  clock : Frames clockCommand clockVariable
  contents : Frames ("$(cat ".toList ++ ['"', '$']) ['"', ')']
  contentsBraced : Frames ("$(cat ".toList ++ ['"', '$', '\x7b']) ['\x7d', '"', ')']
  contentsShort : Frames "$(<\"$".toList "\")".toList
  status : Frames (['[', ' '] ++ "$? -eq 0".toList ++ [' ', ']']) "((! $?))".toList
  tests : ∀ test ∈ variableTests, Frames (['[', ' '] ++ test.1 ++ ['"', '$']) ['"', ' ', ']'] ∧
    Frames (['[', ' '] ++ test.1 ++ ['"', '$', '\x7b']) ['\x7d', '"', ' ', ']'] ∧
      Frames test.2 " ]]".toList

theorem fixedTexts : FixedTexts fun lead tail => isClear lead = true ∧ isClear tail = true := by
  constructor
  all_goals decide +kernel

theorem keepsNames_contents {name variableText : List Char}
    (quoted : QuotedVariable name variableText) :
    KeepsNames ("$(cat ".toList ++ variableText ++ [')']) ("$(<\"$".toList ++ name ++ "\")".toList) := by
  cases quoted with
  | bare =>
      have framed := keepsNames_of_framed fixedTexts.contents fixedTexts.contentsShort name
      simpa using framed
  | braced =>
      have framed :=
        keepsNames_of_framed fixedTexts.contentsBraced fixedTexts.contentsShort name
      simpa using framed

theorem keepsNames_test {flag opening name variableText : List Char}
    (known : (flag, opening) ∈ variableTests) (quoted : QuotedVariable name variableText) :
    KeepsNames (['[', ' '] ++ flag ++ variableText ++ [' ', ']'])
      (opening ++ name ++ " ]]".toList) := by
  obtain ⟨bare, braced, double⟩ := fixedTexts.tests (flag, opening) known
  cases quoted with
  | bare => simpa using keepsNames_of_framed bare double name
  | braced => simpa using keepsNames_of_framed braced double name

end Clear

inductive IsLookup : (stretch replacement : List Char) → Prop
  | command (lookup name : List Char) (known : lookup ∈ commandLookups)
      (named : IsRun isCommandChar name) :
      IsLookup (['[', ' '] ++ "\"$(".toList ++ lookup ++ name ++ ")\"".toList ++ [' ', ']'])
        ("command -v ".toList ++ name ++ " >/dev/null 2>&1".toList)

theorem Rewrite.isLookup_or_keepsNames {before rest stretch replacement : List Char}
    (rewrite : Rewrite before rest stretch replacement) (opens : Opens idiomLetters none stretch) :
    IsLookup stretch replacement ∨ KeepsNames stretch replacement := by
  cases rewrite with
  | command lookup name known named apart => exact .inl (.command lookup name known named)
  | homeDirectory name named =>
      exact .inr (keepsNames_of_framed fixedTexts.home fixedTexts.homeShort name)
  | contents name variableText named quoted => exact .inr (keepsNames_contents quoted)
  | status apart =>
      obtain ⟨old, new⟩ := fixedTexts.status
      exact .inr (keepsNames_of_clear old new)
  | test flag opening name variableText known named quoted apart =>
      exact .inr (keepsNames_test known quoted)
  | shortened long short paired starts ends =>
      exact absurd opens (not_opens_word (isRun_of_mem_shortNames long short paired).1)
  | unbraced | clock | blankLine => simp [Opens, idiomLetters] at opens

theorem not_joined {name : List Char} (known : name ∈ knownNames) :
    ¬ "command".toList <:+ name ∧ ¬ ['1'] <+: name := by
  have all : ∀ name ∈ knownNames, ¬ "command".toList <:+ name ∧ ¬ ['1'] <+: name := by
    simp only [knownNames, shortNames, List.flatMap_cons, List.flatMap_nil]
    repeat rw [String.toList_ofList]
    decide +kernel
  exact all name known

theorem IsLookup.occursBehind {stretch replacement name : List Char}
    (isLookup : IsLookup stretch replacement) (known : name ∈ knownNames) (before rest : List Char)
    (found : occursBehind name none (before ++ (replacement ++ rest)) = true) :
    Shortening.occursBehind name none (before ++ (stretch ++ rest)) = true := by
  obtain ⟨lookup, command, asked, named⟩ := isLookup
  have letters := isRun_of_mem_knownNames known
  obtain ⟨noEnd, noStart⟩ := not_joined known
  have split : before ++ ("command -v ".toList ++ command ++ " >/dev/null 2>&1".toList ++ rest) =
      (before ++ "command".toList) ++
        ([' ', '-', 'v', ' '] ++ command ++ " >/dev/null 2>&".toList ++ (['1'] ++ rest)) := by
    simp
  have splitToo : before ++ (['[', ' '] ++ "\"$(".toList ++ lookup ++ command ++ ")\"".toList ++
      [' ', ']'] ++ rest) = before ++ (['[', ' '] ++ "\"$(".toList ++ lookup ++ command ++
        (")\"".toList ++ [' ', ']']) ++ rest) := by
    simp
  rw [split, occursBehind_framed known fixedTexts.command, Bool.or_eq_true,
    Bool.or_eq_true] at found
  rw [splitToo, occursBehind_framed known (fixedTexts.lookups lookup asked), Bool.or_eq_true,
    Bool.or_eq_true]
  refine found.imp ?_ (Or.imp_right ?_)
  · exact occursBehind_append_word letters ⟨by decide, by decide⟩ noEnd before
  · exact occursBehind_word_append letters ⟨by decide, by decide⟩ noStart rest

end StatusLine.Shortening

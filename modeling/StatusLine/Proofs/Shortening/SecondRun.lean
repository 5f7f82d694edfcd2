import StatusLine.Proofs.Shortening.RenamedLookups

/-!
What a second run does to a text. The idioms and the clock are at rest after the first one, and a
shorter name brings up no lookup of a command. So a second run can only shorten names, and it does
so where the first one left a long name whose short name is gone; a third run changes nothing.
-/

namespace StatusLine.Shortening

/-! Blank lines that go. -/

def wideBlanks : List Nat :=
  [0x85, 0xa0, 0x1680, 0x2000, 0x2001, 0x2002, 0x2003, 0x2004, 0x2005, 0x2006, 0x2007, 0x2008,
    0x2009, 0x200a, 0x2028, 0x2029, 0x202f, 0x205f, 0x3000]

theorem isWord_of_isBlank {c : Char} (blank : Text.isBlank c = true) : Text.isWord c = false := by
  have noLetter : Text.isDelimiterChar c = false := by
    cases letter : Text.isDelimiterChar c with
    | false => rfl
    | true =>
        rw [Text.isBlank_of_isDelimiterChar letter] at blank
        cases blank
  have noWide : ∀ point ∈ wideBlanks, Text.inRanges Text.letterRanges point = false := by
    decide +kernel
  have wide : 128 ≤ c.toNat → c.toNat ∈ wideBlanks := by
    intro large
    simp only [Text.isBlank, Bool.or_eq_true, Bool.and_eq_true, decide_eq_true_eq,
      beq_iff_eq] at blank
    simp only [wideBlanks, List.mem_cons, List.not_mem_nil, or_false]
    omega
  simp only [Text.isDelimiterChar] at noLetter
  rw [Text.isWord, noLetter, Bool.false_or, Bool.and_eq_false_iff, decide_eq_false_iff_not]
  by_cases large : 128 ≤ c.toNat
  · exact .inr (noWide _ (wide large))
  · exact .inl large

section BlankLines

variable {name needle line before rest lead tail : List Char} {previous : Option Char}

theorem occursBehind_append_of_wordEnds (letters : IsRun Text.isWord name) (ends : WordEnds rest)
    (before : List Char) : occursBehind name previous (before ++ rest) =
      (occursBehind name previous before || occursBehind name none rest) := by
  cases rest with
  | nil => rw [List.append_nil, occursBehind_nil letters, Bool.or_false]
  | cons c more => rw [occursBehind_append_mark letters ends, occursBehind_mark letters ends]

theorem occursBehind_marks (letters : IsRun Text.isWord name)
    (marks : ∀ c ∈ line, Text.isWord c = false) (ends : WordEnds rest) :
    occursBehind name previous (line ++ rest) = occursBehind name none rest := by
  induction line generalizing previous with
  | nil => exact occursBehind_previous letters ends previous
  | cons c more ih =>
      obtain ⟨mark, others⟩ := List.forall_mem_cons.mp marks
      rw [List.cons_append, occursBehind_mark letters mark, ih others]

structure BlankLine (line rest : List Char) : Prop where
  blank : ∀ c ∈ line, Text.isBlank c = true
  ends : rest = [] ∨ rest.head? = some '\n'

theorem BlankLine.occursBehind (blankLine : BlankLine line rest) (letters : IsRun Text.isWord name)
    (before : List Char) : Shortening.occursBehind name none (before ++ rest) =
      Shortening.occursBehind name none (before ++ ('\n' :: line ++ rest)) := by
  have stops : WordEnds rest := by
    rcases blankLine.ends with rfl | first
    · rfl
    · rw [WordEnds, first]
      decide
  have marks : ∀ c ∈ line, Text.isWord c = false := fun c member =>
    isWord_of_isBlank (blankLine.blank c member)
  rw [List.cons_append, occursBehind_append_mark letters (by decide),
    occursBehind_marks letters marks stops, occursBehind_append_of_wordEnds letters stops]

theorem BlankLine.apart (blankLine : BlankLine line rest) (single : '\n' ∉ needle)
    (present : needle ≠ []) (same : before ++ rest = lead ++ (needle ++ tail)) :
    (∃ between, before = lead ++ needle ++ between ∧ tail = between ++ rest) ∨
      ∃ between, lead = before ++ '\n' :: between ∧
        rest = '\n' :: (between ++ (needle ++ tail)) := by
  rcases blankLine.ends with rfl | first
  · exact .inl ⟨tail, by simpa using same, by simp⟩
  · obtain ⟨behind, rfl⟩ := List.head?_eq_some_iff.mp first
    have parted : before ++ (['\n'] ++ behind) = lead ++ (needle ++ tail) := same
    rcases Text.meeting_cases present parted with earlier | ⟨between, rfl, rfl⟩ |
      ⟨front, back, rfl, inside, rfl, goesOn⟩ | ⟨front, back, split, given, inside, -, -⟩
    · exact .inl earlier
    · exact .inr ⟨between, by simp, rfl⟩
    · obtain ⟨c, more, rfl⟩ := List.exists_cons_of_ne_nil inside
      obtain ⟨rfl, -⟩ := List.cons.inj goesOn
      exact absurd (List.mem_append_right front List.mem_cons_self) single
    · have sizes := congrArg List.length split
      have positive := List.length_pos_iff.mpr given
      have alsoPositive := List.length_pos_iff.mpr inside
      simp only [List.length_cons, List.length_nil, List.length_append] at sizes
      omega

theorem newline_not_mem_of_takesAll {idiom : Idiom} (member : idiom ∈ idioms)
    {captures : List (List Char)} (takes : TakesAll idiom.pattern.elements needle captures) :
    '\n' ∉ needle := by
  intro newline
  obtain ⟨_, -, nothing, -⟩ := blank_of_rewrite (rewrite_of_takesAll member takes) newline
  exact (swap_idiom member takes).given nothing

theorem BlankLine.absent (blankLine : BlankLine line rest) {idiom : Idiom}
    (member : idiom ∈ idioms)
    (absent : idiom.pattern.Absent (before ++ ('\n' :: line ++ rest))) :
    idiom.pattern.Absent (before ++ rest) := by
  rintro lead ⟨needle, tail, captures, same, takes, starts, ends⟩
  rcases blankLine.apart (newline_not_mem_of_takesAll member takes)
    (swap_idiom member takes).ne_nil same with ⟨between, rfl, rfl⟩ | ⟨between, rfl, rfl⟩
  · refine absent lead ⟨needle, between ++ ('\n' :: line ++ rest), captures, by simp, takes, starts,
      ?_⟩
    cases between with
    | nil => exact isThere_of_imp (notBefore_idiom member) (by simp)
    | cons c more => exact ends
  · refine absent (before ++ '\n' :: line ++ '\n' :: between) ⟨needle, tail, captures, by simp,
      takes, ?_, ends⟩
    rw [List.getLast?_append_of_ne_nil _ (List.cons_ne_nil '\n' between)] at starts ⊢
    exact starts

theorem BlankLine.clockSettled (blankLine : BlankLine line rest)
    (settled : ClockSettled (before ++ ('\n' :: line ++ rest))) :
    ClockSettled (before ++ rest) := by
  intro lead tail same
  rcases blankLine.apart (by decide) clockCommand_ne_nil same with
    ⟨between, rfl, rfl⟩ | ⟨between, rfl, rfl⟩
  · obtain ⟨opened, closed⟩ := settled lead (between ++ ('\n' :: line ++ rest)) (by simp)
    refine ⟨opened, ?_⟩
    cases between with
    | nil =>
        obtain ⟨more, shape⟩ := closed
        exact absurd (List.cons.inj shape).1 (by decide)
    | cons c more =>
        obtain ⟨rfl, -⟩ := List.cons_prefix_cons.mp closed
        simp
  · obtain ⟨opened, closed⟩ := settled (before ++ '\n' :: line ++ '\n' :: between) tail (by simp)
    refine ⟨?_, closed⟩
    exact (Text.suffix_of_not_mem (by decide) opened).trans
      ((List.suffix_cons '\n' between).trans (List.suffix_append before _))

end BlankLines

theorem occursBehind_shortenBlankRuns {name : List Char} (letters : IsRun Text.isWord name)
    (text : List Char) :
    occursBehind name none (shortenBlankRuns text) = occursBehind name none text := by
  refine @shortenBlankRuns_keeps
    (fun changed => occursBehind name none changed = occursBehind name none text)
    (fun before line rest blank _ ends same => ?_) text rfl
  exact (BlankLine.occursBehind ⟨blank, ends⟩ letters before).trans same

theorem IdiomPlace.Rests.shortenBlankRuns {place : IdiomPlace} {text : List Char}
    (rests : place.Rests text) : place.Rests (shortenBlankRuns text) := by
  refine shortenBlankRuns_keeps (fun before line rest blank _ ends now => ?_) text rests
  have blankLine : BlankLine line rest := ⟨blank, ends⟩
  cases place with
  | none => exact blankLine.clockSettled now
  | some idiom => exact blankLine.absent idiom.2 now

/-! What the rules of a run do to the names. -/

theorem Applied.keeps {rules : List Rule} (Holds : List Char → Prop)
    (each : ∀ rule ∈ rules, ∀ text changed, Holds text → rule.apply text = .ok changed →
      Holds changed)
    {text changed : List Char} (applied : Applied rules text changed) (holds : Holds text) :
    Holds changed := by
  induction applied with
  | done text => exact holds
  | next step _ ih =>
      exact ih (fun rule member => each rule (List.mem_cons_of_mem _ member))
        (each _ List.mem_cons_self _ _ holds step)

/-- Whether a name stands in a text on its own. -/
abbrev Stands (name text : List Char) : Prop :=
  occursBehind name none text = true

/-- The long name stands in a text, and the short one does not, so that it could be shortened. -/
def ShortName.IsOpen (names : ShortName) (text : List Char) : Prop :=
  Stands names.long text ∧ ¬ Stands names.short text

namespace ShortName

variable {names : ShortName} {text changed : List Char}

theorem skip_iff (names : ShortName) (text : List Char) :
    names.rule.skip text = true ↔ ¬ names.IsOpen text := by
  rw [rule, skip_identifierRule]
  simp only [IsOpen, Stands]
  cases occursBehind names.short none text <;> cases occursBehind names.long none text <;> simp

theorem short_ne_long (names : ShortName) : names.short ≠ names.long := by
  have all : ∀ names ∈ shortNames, names.2 ≠ names.1 := by decide
  exact fun same => all names.1 names.2 (String.toList_inj.mp same)

theorem known (names : ShortName) : names.long ∈ knownNames ∧ names.short ∈ knownNames :=
  ⟨List.mem_flatMap.mpr ⟨names.1, names.2, by simp [long]⟩,
    List.mem_flatMap.mpr ⟨names.1, names.2, by simp [short]⟩⟩

theorem exists_of_mem_identifierRules {rule : Rule} (member : rule ∈ identifierRules) :
    ∃ names : ShortName, rule = names.rule := by
  rw [identifierRules_eq] at member
  obtain ⟨names, -, rfl⟩ := List.mem_map.mp member
  exact ⟨names, rfl⟩

def Remains (names : ShortName) (text changed : List Char) : Prop :=
  Stands names.long changed →
    Stands names.long text ∧ (Stands names.short changed → Stands names.short text)

theorem remains_of_applied (names : ShortName) (applied : Applied identifierRules text changed) :
    names.Remains text changed := by
  refine applied.keeps (names.Remains text) (fun rule member now next remains step => ?_)
    fun there => ⟨there, id⟩
  obtain ⟨others, rfl⟩ := exists_of_mem_identifierRules member
  obtain rfl := Except.ok.inj ((others.apply_rule now).symm.trans step)
  split
  · exact remains
  · by_cases same : names = others
    · subst same
      have gone : occursBehind names.long none (renamed names.long names.short now) = false :=
        occursBehind_long names.isRun.1 names.isRun.2 names.short_ne_long now
      exact fun there => absurd there (Bool.eq_false_iff.mp gone)
    · obtain ⟨sameLong, sameShort⟩ := names.occursBehind_renamed_other others same now
      intro there
      exact (remains (sameLong.symm.trans there)).imp_right fun kept shorter =>
        kept (sameShort.symm.trans shorter)

theorem not_mem_lookupWords (names : ShortName) : names.short ∉ lookupWords := by
  have others : ∀ word ∈ lookupWords, isOther word = true := by decide
  intro member
  have other := others names.short member
  rw [isOther_of_mem_knownNames names.known.2] at other
  cases other

theorem absent_of_applied (applied : Applied identifierRules text changed)
    (absent : commandCheck.pattern.Absent text) : commandCheck.pattern.Absent changed := by
  refine applied.keeps commandCheck.pattern.Absent (fun rule member now next absent step => ?_)
    absent
  obtain ⟨names, rfl⟩ := exists_of_mem_identifierRules member
  obtain rfl := Except.ok.inj ((names.apply_rule now).symm.trans step)
  split
  · exact absent
  · exact commandCheck_absent_renamed names.isRun.1 names.isRun.2 names.not_mem_lookupWords absent

end ShortName

namespace IdiomPlace

variable {place : IdiomPlace} {name text changed : List Char}

theorem exists_of_mem_idiomRules {rule : Rule} (member : rule ∈ idiomRules) :
    ∃ place : IdiomPlace, place ∈ idiomPlaces ∧ rule = place.rule := by
  rw [idiomRules_eq] at member
  obtain ⟨place, there, rfl⟩ := List.mem_map.mp member
  exact ⟨place, there, rfl⟩

theorem isLookup_or_keepsNames {idiom : Idiom} (member : idiom ∈ idioms) {stretch : List Char}
    {captures : List (List Char)} (takes : TakesAll idiom.pattern.elements stretch captures) :
    IsLookup stretch (idiom.form captures) ∨ KeepsNames stretch (idiom.form captures) :=
  (rewrite_of_takesAll member takes).isLookup_or_keepsNames (opens_idiom member takes)

theorem stands_of_apply (known : name ∈ knownNames) (applied : place.rule.apply text = .ok changed)
    (there : Stands name changed) : Stands name text := by
  by_contra missing
  refine absurd there ?_
  cases place with
  | none =>
      refine @epochSeconds_keeps text (fun now => ¬ Stands name now) (fun before rest now => ?_)
        missing changed applied
      rwa [Stands, keepsNames_of_clear fixedTexts.clock.1 fixedTexts.clock.2 name known before rest]
  | some idiom =>
      refine @rule_keeps _ idiom.2 (fun now => ¬ Stands name now)
        (fun before stretch captures rest takes now => ?_) text changed missing applied
      rcases isLookup_or_keepsNames idiom.2 takes with isLookup | keeps
      · exact mt (isLookup.occursBehind known before rest) now
      · rwa [Stands, keeps name known before rest]

theorem keepsNames_idiom {idiom : Idiom} (member : idiom ∈ idioms) :
    idiom = commandCheck ∨ ∀ stretch captures, TakesAll idiom.pattern.elements stretch captures →
      KeepsNames stretch (idiom.form captures) := by
  have quoted : ∀ {stretch replacement : List Char}, IsLookup stretch replacement →
      ['[', ' ', '"'] <+: stretch := by
    rintro _ _ ⟨lookup, command, -, -⟩
    simp
  have known := member
  simp only [idioms, List.mem_cons, List.not_mem_nil, or_false] at member
  refine (em (idiom = commandCheck)).imp_right fun other stretch captures takes =>
    (isLookup_or_keepsNames known takes).resolve_left fun isLookup => ?_
  have shape := quoted isLookup
  rcases member.resolve_left other with rfl | rfl | rfl | rfl | rfl | rfl <;>
    obtain ⟨_, rfl, behind⟩ := takesAll_literal takes
  case inl | inr.inl => simp at shape
  all_goals
    obtain ⟨_, rfl, -⟩ := takesAll_literal behind
    simp at shape

theorem stands_iff_of_apply (known : name ∈ knownNames) (absent : commandCheck.pattern.Absent text)
    (applied : place.rule.apply text = .ok changed) : Stands name changed ↔ Stands name text := by
  refine ⟨stands_of_apply known applied, fun there => ?_⟩
  cases place with
  | none =>
      refine epochSeconds_keeps (fun before rest now => ?_) there applied
      exact (keepsNames_of_clear fixedTexts.clock.1 fixedTexts.clock.2 name known before rest).trans
        now
  | some idiom =>
      rcases keepsNames_idiom idiom.2 with lookup | keeps
      · have still := settleTogether.still (some idiom) text (by rwa [Rests, lookup])
        obtain rfl := Except.ok.inj (still.symm.trans applied)
        exact there
      · refine rule_keeps idiom.2 (fun before stretch captures rest takes now => ?_) there applied
        exact (keeps stretch captures takes name known before rest).trans now

theorem stands_of_applied (known : name ∈ knownNames) (applied : Applied idiomRules text changed)
    (there : Stands name changed) : Stands name text := by
  by_contra absent
  refine applied.keeps (fun now => ¬ Stands name now) (fun rule member now next absent step => ?_)
    absent there
  obtain ⟨place, -, rfl⟩ := exists_of_mem_idiomRules member
  exact mt (stands_of_apply known step) absent

theorem stands_iff_of_applied (known : name ∈ knownNames)
    (absent : commandCheck.pattern.Absent text) (applied : Applied idiomRules text changed) :
    Stands name changed ↔ Stands name text := by
  have kept := applied.keeps
    (fun now => commandCheck.pattern.Absent now ∧ (Stands name now ↔ Stands name text))
    (fun rule member now next holds step => ?_) ⟨absent, Iff.rfl⟩
  · exact kept.2
  · obtain ⟨place, -, rfl⟩ := exists_of_mem_idiomRules member
    exact ⟨settleTogether.keeps (some ⟨commandCheck, by simp [idioms]⟩) place now next holds.1 step,
      (stands_iff_of_apply known holds.1 step).trans holds.2⟩

end IdiomPlace

/-! Two runs, and a third one. -/

structure Shortened (text named changed : List Char) : Prop where
  names : Applied identifierRules text named
  idioms : Applied idiomRules named changed
  settled : ∀ names : ShortName, ¬ names.IsOpen named
  rests : ∀ place ∈ idiomPlaces, place.Rests changed

theorem optimize_of_applied {text named changed : List Char}
    (names : Applied identifierRules text named) (idioms : Applied idiomRules named changed) :
    (optimize .all text).text = shortenBlankRuns changed := by
  refine run_of_applied ?_ true
  have rules : rulesOf (passes .all) = identifierRules ++ idiomRules := rfl
  rw [rules, ← applyAll_eq_ok_iff, applyAll_append,
    (applyAll_eq_ok_iff identifierRules text named).mpr names]
  exact (applyAll_eq_ok_iff idiomRules named changed).mpr idioms

theorem exists_shortened (text : List Char) : ∃ named changed,
    Shortened text named changed ∧ (optimize .all text).text = shortenBlankRuns changed := by
  obtain ⟨named, names, settled⟩ :=
    ShortName.settleTogether.applied_rests shortNames.attach text
  obtain ⟨changed, idioms, rests⟩ := IdiomPlace.settleTogether.applied_rests idiomPlaces named
  refine ⟨named, changed, ⟨names, idioms, fun pair => ?_, rests⟩, optimize_of_applied names idioms⟩
  exact (pair.skip_iff named).mp (settled pair (List.mem_attach _ pair))

namespace Shortened

variable {text named changed : List Char} {name : List Char}

theorem stands_named (shortened : Shortened text named changed) (known : name ∈ knownNames)
    (there : Stands name (shortenBlankRuns changed)) : Stands name named := by
  rw [Stands, occursBehind_shortenBlankRuns (isRun_of_mem_knownNames known)] at there
  exact IdiomPlace.stands_of_applied known shortened.idioms there

theorem stands_named_iff (shortened : Shortened text named changed) (known : name ∈ knownNames)
    (absent : commandCheck.pattern.Absent text) :
    Stands name (shortenBlankRuns changed) ↔ Stands name named := by
  rw [Stands, occursBehind_shortenBlankRuns (isRun_of_mem_knownNames known)]
  exact IdiomPlace.stands_iff_of_applied known
    (ShortName.absent_of_applied shortened.names absent) shortened.idioms

theorem still (shortened : Shortened text named changed)
    (closed : ∀ names : ShortName, ¬ names.IsOpen (shortenBlankRuns changed)) :
    (optimize .all (shortenBlankRuns changed)).text = shortenBlankRuns changed := by
  have names : Applied identifierRules (shortenBlankRuns changed) (shortenBlankRuns changed) :=
    ShortName.settleTogether.applied_still shortNames.attach fun pair _ =>
      (pair.skip_iff _).mpr (closed pair)
  have idioms : Applied idiomRules (shortenBlankRuns changed) (shortenBlankRuns changed) :=
    IdiomPlace.settleTogether.applied_still idiomPlaces fun place member =>
      (shortened.rests place member).shortenBlankRuns
  rw [optimize_of_applied names idioms, shortenBlankRuns_twice]

theorem gone (shortened : Shortened text named changed) {names : ShortName}
    (unused : ¬ Stands names.short text) : ¬ Stands names.long (shortenBlankRuns changed) := by
  intro there
  have long := shortened.stands_named names.known.1 there
  obtain ⟨-, kept⟩ := names.remains_of_applied shortened.names long
  by_cases short : Stands names.short named
  · exact unused (kept short)
  · exact shortened.settled names ⟨long, short⟩

end Shortened

theorem not_stands_optimize {text : List Char} {names : ShortName}
    (unused : ¬ Stands names.short text) : ¬ Stands names.long (optimize .all text).text := by
  obtain ⟨named, changed, shortened, once⟩ := exists_shortened text
  rw [once]
  exact shortened.gone unused

theorem optimize_twice_of_absent {text : List Char} (absent : commandCheck.pattern.Absent text) :
    (optimize .all (optimize .all text).text).text = (optimize .all text).text := by
  obtain ⟨named, changed, shortened, once⟩ := exists_shortened text
  rw [once]
  refine shortened.still fun names isOpen => shortened.settled names ⟨?_, fun short => ?_⟩
  · exact (shortened.stands_named_iff names.known.1 absent).mp isOpen.1
  · exact isOpen.2 ((shortened.stands_named_iff names.known.2 absent).mpr short)

/-- The second run changes a text exactly where a long name is left whose short name is gone, and a
third run never changes anything. -/
theorem optimize_settles (text : List Char) :
    let once := (optimize .all text).text
    let twice := (optimize .all once).text
    (twice = once ↔ ∀ names : ShortName, ¬ names.IsOpen once) ∧
      (commandCheck.pattern.occursIn text = false → twice = once) ∧
      ((∀ names : ShortName, ¬ (Stands names.long text ∧ Stands names.short text)) →
        twice = once) ∧
      (optimize .all twice).text = twice := by
  obtain ⟨named, changed, shortened, once⟩ := exists_shortened text
  have determined := isDetermined_idiom (show commandCheck ∈ idioms by simp [idioms])
  refine ⟨⟨fun same names isOpen => ?_, fun closed => ?_⟩, fun nowhere => ?_, fun apart => ?_, ?_⟩
  · obtain ⟨_, _, again, twice⟩ := exists_shortened (optimize .all text).text
    rw [same] at twice
    exact again.gone isOpen.2 (twice ▸ isOpen.1)
  · rw [once] at closed ⊢
    exact shortened.still closed
  · exact optimize_twice_of_absent ((Pattern.absent_iff determined).mpr nowhere)
  · rw [once]
    refine shortened.still fun names isOpen => ?_
    have long := shortened.stands_named names.known.1 isOpen.1
    obtain ⟨longBefore, kept⟩ := names.remains_of_applied shortened.names long
    refine apart names ⟨longBefore, kept ?_⟩
    by_contra short
    exact shortened.settled names ⟨long, short⟩
  · have rests : IdiomPlace.Rests (some ⟨commandCheck, by simp [idioms]⟩)
        (shortenBlankRuns changed) :=
      (shortened.rests _ (by simp [idiomPlaces])).shortenBlankRuns
    rw [once]
    exact optimize_twice_of_absent rests

end StatusLine.Shortening

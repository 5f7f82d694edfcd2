import StatusLine.Proofs.Shortening.Finding

/-!
Why a replacement brings up nothing new to replace. What a rule for idioms looks for opens like a
test in single brackets or like a command, and ends in a closing bracket. What it puts in opens
nothing of the kind, and none of what is looked for reaches into it or over it, since a mark stands
in the way that no rule looks for.
-/

namespace StatusLine.Shortening

instance (priority := high) decidableForallChars (text : List Char) (test : Char → Prop)
    [DecidablePred test] :
    Decidable (∀ c ∈ text, test c) :=
  List.decidableBAll test text

def barriers : List Char :=
  ['>', '/', ':', '<', '!', '[']

def closers : List Char :=
  [')', ']']

def MarkFree (text : List Char) : Prop :=
  ∀ mark ∈ barriers, mark ∉ text

instance (text : List Char) : Decidable (MarkFree text) :=
  inferInstanceAs (Decidable (∀ mark ∈ barriers, mark ∉ text))

def Opens (letters : List Char) (previous : Option Char) (here : List Char) : Prop :=
  (['[', ' '] <+: here ∧ isThere isOpenBracket previous = false) ∨
    ∃ letter ∈ letters, ['$', '(', letter] <+: here

structure Sought (letters : List Char) (previous : Option Char) (stretch : List Char) : Prop where
  opens : ∀ rest, Opens letters previous (stretch ++ rest)
  free : MarkFree stretch.tail
  closes : ∃ closer ∈ closers, stretch.getLast? = some closer

def Shut (letters : List Char) : (previous : Option Char) → List Char → Prop
  | _, [] => True
  | previous, c :: rest =>
      (∀ behind, ¬ Opens letters previous (c :: (rest ++ behind))) ∧ Shut letters (some c) rest

/-- A replacement that nothing reaches into: something that is looked for would have to pass a mark
that it does not hold. -/
structure Swap (letters stretch replacement : List Char) : Prop where
  starts : ∃ opener ∈ ['[', '$'], stretch.head? = some opener
  ends : ∃ closer ∈ closers, stretch.getLast? = some closer
  shut : Shut letters none replacement
  barrier : ∃ mark ∈ barriers, ∃ lead rest, replacement = lead ++ mark :: rest ∧
    ∀ closer ∈ closers, closer ∉ lead

section Opening

variable {letters rest stretch : List Char} {previous : Option Char}

theorem Opens.first {here : List Char} (opens : Opens letters previous here) :
    Opens letters none here := by
  rcases opens with ⟨test, -⟩ | command
  · exact .inl ⟨test, rfl⟩
  · exact .inr command

theorem Shut.behind (shut : Shut letters none rest) : Shut letters previous rest := by
  cases rest with
  | nil => exact trivial
  | cons c more => exact ⟨fun behind opens => shut.1 behind opens.first, shut.2⟩

theorem shut_word {name : List Char} (plain : ∀ c ∈ name, c ≠ '[' ∧ c ≠ '$')
    (shut : Shut letters none rest) : Shut letters previous (name ++ rest) := by
  induction name generalizing previous with
  | nil => exact shut.behind
  | cons c more ih =>
      refine ⟨fun behind opens => ?_, ih fun d member => plain d (List.mem_cons_of_mem c member)⟩
      obtain ⟨noBracket, noDollar⟩ := plain c List.mem_cons_self
      simp [Opens, Ne.symm noBracket, Ne.symm noDollar] at opens

theorem Shut.not_opens {first second : List Char} (shut : Shut letters previous (first ++ second))
    (present : second ≠ []) (behind : List Char) :
    ¬ Opens letters (first.getLast?.or previous) (second ++ behind) := by
  induction first generalizing previous with
  | nil =>
      obtain ⟨c, more, rfl⟩ := List.exists_cons_of_ne_nil present
      exact shut.1 behind
  | cons c more ih =>
      have later := ih shut.2
      cases more with
      | nil => exact later
      | cons d others => simpa [List.getLast?_cons] using later

theorem Sought.mono (sought : Sought letters previous stretch) {more : List Char}
    (known : ∀ letter ∈ letters, letter ∈ more) : Sought more previous stretch where
  opens rest := (sought.opens rest).imp_right fun ⟨letter, member, command⟩ =>
    ⟨letter, known letter member, command⟩
  free := sought.free
  closes := sought.closes

theorem Sought.ne_nil (sought : Sought letters previous stretch) : stretch ≠ [] := by
  rintro rfl
  obtain ⟨closer, -, last⟩ := sought.closes
  cases last

theorem Swap.ne_nil {replacement : List Char} (swap : Swap letters stretch replacement) :
    stretch ≠ [] := by
  rintro rfl
  obtain ⟨opener, -, first⟩ := swap.starts
  cases first

theorem Swap.given {replacement : List Char} (swap : Swap letters stretch replacement) :
    replacement ≠ [] := by
  obtain ⟨mark, -, lead, rest, rfl, -⟩ := swap.barrier
  simp

end Opening

/-! What is looked for lies before a replacement or behind it. -/

section Apart

variable {letters before stretch replacement rest lead needle tail : List Char}

theorem Sought.apart (sought : Sought letters lead.getLast? needle)
    (swap : Swap letters stretch replacement)
    (same : before ++ (replacement ++ rest) = lead ++ (needle ++ tail)) :
    (∃ between, before = lead ++ needle ++ between ∧ tail = between ++ (replacement ++ rest)) ∨
      ∃ between, lead = before ++ replacement ++ between ∧ rest = between ++ (needle ++ tail) := by
  rcases Text.meeting_cases sought.ne_nil same with earlier | later |
    ⟨first, second, rfl, inside, rfl, goesOn⟩ | ⟨first, second, rfl, present, inside, rfl, opened⟩
  · exact .inl earlier
  · exact .inr later
  · cases first with
    | nil =>
        have opens := (sought.opens tail).first
        rw [List.nil_append, ← goesOn] at opens
        obtain ⟨c, more, shape⟩ := List.exists_cons_of_ne_nil swap.given
        have shut := swap.shut
        rw [shape] at shut opens
        exact absurd opens (shut.1 rest)
    | cons c more =>
        obtain ⟨mark, known, front, back, rfl, unclosed⟩ := swap.barrier
        have free : mark ∉ second := fun member =>
          sought.free mark known (List.mem_append_right more member)
        obtain ⟨between, rfl, -⟩ :=
          Text.exists_of_not_mem free (by simpa using goesOn.symm)
        obtain ⟨closer, closes, last⟩ := sought.closes
        have member := List.mem_of_getLast?
          ((List.getLast?_append_of_ne_nil _ inside).symm.trans last)
        exact absurd (List.mem_append_left between member) (unclosed closer closes)
  · have opens := sought.opens tail
    rw [← opened] at opens
    have shut := swap.shut.not_opens inside rest
    rw [List.getLast?_append_of_ne_nil _ present] at opens
    rw [Option.or_none] at shut
    exact absurd opens shut

end Apart

/-! What patterns look for. -/

def Pattern.OccursAt (pattern : Pattern) (before text : List Char) : Prop :=
  ∃ stretch rest captures, text = before ++ (stretch ++ rest) ∧
    TakesAll pattern.elements stretch captures ∧
    isThere pattern.notAfter before.getLast? = false ∧
    isThere pattern.notBefore rest.head? = false

def Pattern.Absent (pattern : Pattern) (text : List Char) : Prop :=
  ∀ before, ¬ pattern.OccursAt before text

structure Pattern.Seeks (pattern : Pattern) (letters : List Char) : Prop where
  notAfter : ∀ c, pattern.notAfter c = true → c = '['
  notBefore : ∀ c, pattern.notBefore c = true → c = ']'
  sought : ∀ previous stretch captures, TakesAll pattern.elements stretch captures →
    isThere pattern.notAfter previous = false → Sought letters previous stretch

theorem Pattern.Seeks.mono {pattern : Pattern} {letters more : List Char}
    (seeks : pattern.Seeks letters) (known : ∀ letter ∈ letters, letter ∈ more) :
    pattern.Seeks more where
  notAfter := seeks.notAfter
  notBefore := seeks.notBefore
  sought previous stretch captures takes starts :=
    (seeks.sought previous stretch captures takes starts).mono known

section Seeking

variable {pattern : Pattern} {letters before stretch replacement rest lead : List Char}

theorem isThere_of_imp {test : Char → Bool} {c : Char} (only : ∀ d, test d = true → d = c)
    {place : Option Char} (other : place ≠ some c) : isThere test place = false := by
  cases place with
  | none => rfl
  | some d =>
      cases passed : test d with
      | false => exact passed
      | true => exact absurd (congrArg some (only d passed)) other

theorem Swap.head_allowed (swap : Swap letters stretch replacement) {test : Char → Bool}
    (only : ∀ c, test c = true → c = ']') : isThere test (stretch ++ rest).head? = false := by
  obtain ⟨opener, opens, first⟩ := swap.starts
  have head : (stretch ++ rest).head? = some opener := by
    rw [List.head?_append, first]
    rfl
  rw [head]
  refine isThere_of_imp only fun same => ?_
  cases Option.some.inj same
  revert opens
  decide

theorem Swap.last_allowed (swap : Swap letters stretch replacement) (before : List Char)
    {test : Char → Bool}
    (only : ∀ c, test c = true → c = '[') : isThere test (before ++ stretch).getLast? = false := by
  obtain ⟨closer, closes, last⟩ := swap.ends
  rw [getLast?_append_of_some before last]
  refine isThere_of_imp only fun same => ?_
  cases Option.some.inj same
  revert closes
  decide

theorem Pattern.OccursAt.back (seeks : pattern.Seeks letters)
    (swap : Swap letters stretch replacement)
    (occurs : pattern.OccursAt lead (before ++ (replacement ++ rest))) :
    (lead.length < before.length ∧ pattern.OccursAt lead (before ++ (stretch ++ rest))) ∨
      ∃ between, lead = before ++ replacement ++ between ∧
        pattern.OccursAt (before ++ stretch ++ between) (before ++ (stretch ++ rest)) := by
  obtain ⟨needle, tail, captures, same, takes, starts, ends⟩ := occurs
  have sought := seeks.sought _ needle captures takes starts
  rcases sought.apart swap same with ⟨between, rfl, rfl⟩ | ⟨between, rfl, rfl⟩
  · have positive := List.length_pos_iff.mpr sought.ne_nil
    refine .inl ⟨by simp; omega, needle, between ++ (stretch ++ rest), captures, by simp, takes,
      starts, ?_⟩
    cases between with
    | nil => exact swap.head_allowed seeks.notBefore
    | cons c more => exact ends
  · refine .inr ⟨between, rfl, needle, tail, captures, by simp, takes, ?_, ends⟩
    cases between with
    | nil =>
        rw [List.append_nil]
        exact swap.last_allowed before seeks.notAfter
    | cons c more =>
        rw [List.getLast?_append_of_ne_nil _ (List.cons_ne_nil c more)] at starts ⊢
        exact starts

theorem Pattern.Absent.swap (absent : pattern.Absent (before ++ (stretch ++ rest)))
    (seeks : pattern.Seeks letters) (swap : Swap letters stretch replacement) :
    pattern.Absent (before ++ (replacement ++ rest)) := by
  intro lead occurs
  rcases occurs.back seeks swap with ⟨-, earlier⟩ | ⟨between, -, later⟩
  · exact absent _ earlier
  · exact absent _ later

theorem Pattern.OccursAt.length_lt {text : List Char} (occurs : pattern.OccursAt lead text)
    (seeks : pattern.Seeks letters) : lead.length < text.length := by
  obtain ⟨needle, tail, captures, rfl, takes, starts, -⟩ := occurs
  have positive := List.length_pos_iff.mpr (seeks.sought _ needle captures takes starts).ne_nil
  simp
  omega

theorem Pattern.not_occursAt_of_missed (determined : isDetermined pattern.elements = true)
    {previous : Option Char} {here : List Char} (missed : pattern.find previous here = none)
    (guarded : isThere pattern.notAfter previous = true →
      isThere pattern.notAfter before.getLast? = true) :
    ¬ pattern.OccursAt before (before ++ here) := by
  rintro ⟨stretch, rest, captures, whole, takes, starts, ends⟩
  obtain rfl := List.append_cancel_left whole
  have allowed : isThere pattern.notAfter previous = false := by
    cases blocked : isThere pattern.notAfter previous with
    | false => rfl
    | true =>
        rw [guarded blocked] at starts
        cases starts
  rw [pattern.find_of_takesAll determined takes allowed ends] at missed
  cases missed

end Seeking

theorem Pattern.absent_iff {pattern : Pattern} (determined : isDetermined pattern.elements = true)
    {text : List Char} : pattern.Absent text ↔ pattern.occursIn text = false := by
  rw [← Bool.not_eq_true, Pattern.occursIn, Text.somewhere_iff]
  constructor
  · rintro absent ⟨before, rest, rfl, found⟩
    obtain ⟨inner, here⟩ := Option.isSome_iff_exists.mp found
    obtain ⟨stretch, whole, takes, starts, ends⟩ := pattern.find_spec _ rest inner here
    rw [Option.or_none] at starts
    exact absent before ⟨stretch, inner.rest, inner.captures, by rw [whole], takes, starts, ends⟩
  · rintro nowhere before ⟨stretch, rest, captures, rfl, takes, starts, ends⟩
    refine nowhere ⟨before, stretch ++ rest, rfl, ?_⟩
    rw [Option.or_none, pattern.find_of_takesAll determined takes starts ends]
    rfl

/-! Replacing everything that a pattern takes up. -/

section Replacing

variable {pattern : Pattern} {form : List (List Char) → List Char} {letters : List Char}

theorem Pattern.replace_keeps {Holds : List Char → Prop}
    (swap : ∀ before stretch rest captures, TakesAll pattern.elements stretch captures →
      stretch ≠ [] ∧
        (Holds (before ++ (stretch ++ rest)) → Holds (before ++ (form captures ++ rest))))
    (text : List Char) (holds : Holds text) : Holds (pattern.replace form text) := by
  have kept := Text.substitute_keeps (pattern.replacement form)
    (fun done _ rest => Holds (done ++ rest))
    (fun done previous c rest _ now => by simpa using now)
    (fun done previous here found replaced now => by
      obtain ⟨stretch, rest, captures, rfl, takes, -, -, rfl⟩ := replacement_eq_some replaced
      obtain ⟨present, keeps⟩ := swap done stretch rest captures takes
      exact ⟨stretch, rest, rfl, present, rfl, by simpa using keeps now⟩)
    [] none text holds
  obtain ⟨-, kept⟩ := kept
  rwa [List.nil_append, List.append_nil] at kept

structure Pattern.AbsentIn (pattern : Pattern) (done : List Char) (previous : Option Char)
    (rest : List Char) : Prop where
  behind : ∀ lead, pattern.OccursAt lead (done ++ rest) → done.length ≤ lead.length
  guarded : isThere pattern.notAfter previous = true →
    isThere pattern.notAfter done.getLast? = true

theorem Pattern.AbsentIn.passes (determined : isDetermined pattern.elements = true)
    {done rest : List Char} {previous : Option Char} {c : Char}
    (missed : pattern.find previous (c :: rest) = none)
    (absent : pattern.AbsentIn done previous (c :: rest)) :
    pattern.AbsentIn (done ++ [c]) (some c) rest := by
  refine ⟨fun lead occurs => ?_, by simp⟩
  rw [List.append_assoc] at occurs
  have later := absent.behind lead occurs
  have elsewhere : done.length ≠ lead.length := by
    intro same
    obtain ⟨stretch, rest, captures, whole, -⟩ := id occurs
    obtain ⟨rfl, -⟩ := List.append_inj whole same
    exact not_occursAt_of_missed determined missed absent.guarded occurs
  simp
  omega

theorem Pattern.AbsentIn.replaces (seeks : pattern.Seeks letters)
    {done stretch replacement rest : List Char} {previous : Option Char}
    (swap : Swap letters stretch replacement)
    (absent : pattern.AbsentIn done previous (stretch ++ rest)) :
    pattern.AbsentIn (done ++ replacement) stretch.getLast? rest := by
  have allowed : isThere pattern.notAfter stretch.getLast? = false :=
    swap.last_allowed [] seeks.notAfter
  refine ⟨fun lead occurs => ?_, by simp [allowed]⟩
  rw [List.append_assoc] at occurs
  rcases occurs.back seeks swap with ⟨earlier, again⟩ | ⟨between, rfl, -⟩
  · exact absurd (absent.behind lead again) (by omega)
  · simp

theorem Pattern.replace_absent (determined : isDetermined pattern.elements = true)
    (seeks : pattern.Seeks letters)
    (swaps : ∀ stretch captures, TakesAll pattern.elements stretch captures →
      Swap letters stretch (form captures)) (text : List Char) :
    pattern.Absent (pattern.replace form text) := by
  have replaces : ∀ done previous here found,
      pattern.replacement form previous here = some found → pattern.AbsentIn done previous here →
      ∃ stretch rest, here = stretch ++ rest ∧ stretch ≠ [] ∧ found.span = stretch.length ∧
        pattern.AbsentIn (done ++ found.text) stretch.getLast? rest := by
    intro done previous here found replaced absent
    obtain ⟨stretch, rest, captures, rfl, takes, -, -, rfl⟩ := replacement_eq_some replaced
    have swap := swaps stretch captures takes
    exact ⟨stretch, rest, rfl, swap.ne_nil, rfl, absent.replaces seeks swap⟩
  have start : pattern.AbsentIn [] none text := ⟨fun _ _ => Nat.zero_le _, by simp [isThere]⟩
  obtain ⟨last, nothing, -⟩ := Text.substitute_keeps (pattern.replacement form) pattern.AbsentIn
    (fun done previous c rest missed absent =>
      absent.passes determined (Option.map_eq_none_iff.mp missed)) replaces [] none text start
  intro lead occurs
  rw [List.nil_append, List.append_nil] at nothing
  exact absurd (nothing lead occurs) (Nat.not_le.mpr (occurs.length_lt seeks))

end Replacing

end StatusLine.Shortening

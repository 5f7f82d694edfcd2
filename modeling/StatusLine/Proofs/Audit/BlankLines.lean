import StatusLine.Proofs.Audit.ScanSteps
import StatusLine.Proofs.Shortening.Chain

/-!
Blank lines and the scan of quotes. A blank line behind another one can be taken away, and the scan
comes to the same: step by step it either stops before the line or jumps over it, whether the line
is there or not. Shortening runs of blank lines takes away such lines only.
-/

namespace StatusLine.Audit

open Text (AtLineEnd IsDelimiter)

def EndsBlank (text : List Char) : Prop :=
  ∀ last, last <:+ text → '\n' ∉ last → ∀ c ∈ last, Text.isBlank c = true

theorem EndsBlank.suffix {text more : List Char} (ends : EndsBlank text) (suffix : more <:+ text) :
    EndsBlank more :=
  fun last there single => ends last (there.trans suffix) single

theorem endsBlank_append_line (before : List Char) {line : List Char}
    (blank : ∀ c ∈ line, Text.isBlank c = true) : EndsBlank (before ++ '\n' :: line) := by
  intro last there single c member
  rcases List.suffix_or_suffix_of_suffix there (List.suffix_append before ('\n' :: line)) with
    inside | around
  · rcases List.suffix_cons_iff.mp inside with rfl | within
    · exact absurd List.mem_cons_self single
    · exact blank c (within.subset member)
  · exact absurd (around.subset List.mem_cons_self) single

structure IsGap (line rest : List Char) : Prop where
  blank : ∀ c ∈ line, Text.isBlank c = true
  single : '\n' ∉ line
  atEnd : AtLineEnd rest

/-- Two places, in a text with a blank line and in the text without it, that are the same: both are
before the line, or both are behind it. -/
inductive Meets (before line rest : List Char) : (withLine without : List Char) → Prop
  | inside {more : List Char} (suffix : more <:+ before) :
      Meets before line rest (more ++ '\n' :: (line ++ rest)) (more ++ rest)
  | beyond {behind : List Char} (suffix : behind <:+ rest)
      (moved : behind.length < rest.length ∨ behind = []) : Meets before line rest behind behind

section Gap

variable {before line rest : List Char}

theorem Meets.mono {more withLine without : List Char}
    (meets : Meets more line rest withLine without) (suffix : more <:+ before) : Meets before line rest withLine without := by
  cases meets with
  | inside within => exact .inside (within.trans suffix)
  | beyond within moved => exact .beyond within moved

/-! Bodies of here-documents. -/

theorem afterDelimiter_gap (gap : IsGap line rest) {delimiter : List Char}
    (present : delimiter ≠ []) {start : List Char}
    (blank : ∀ c ∈ start.reverse, Text.isBlank c = true) :
    Meets [] line rest (afterDelimiter delimiter start ('\n' :: (line ++ rest)))
      (afterDelimiter delimiter start rest) := by
  have none : '\n' ∉ ([] : List Char) := List.not_mem_nil
  have passed := afterDelimiter_blankLine present start (line ++ rest) none (by simpa using blank)
  rw [List.nil_append] at passed
  rw [passed]
  by_cases empty : rest = []
  · subst empty
    rw [List.append_nil, afterDelimiter_of_not_mem delimiter [] gap.single]
    exact .beyond (List.suffix_refl []) (.inr rfl)
  · obtain ⟨more, rfl⟩ := gap.atEnd.eq_newline empty
    have passing := afterDelimiter_blankLine present [] more gap.single (by simpa using gap.blank)
    have here := afterDelimiter_blankLine present start more none (by simpa using blank)
    rw [List.nil_append] at here
    rw [passing, here]
    have suffix := afterDelimiter_suffix delimiter [] more
    refine .beyond (suffix.trans (List.suffix_cons '\n' more)) (.inl ?_)
    have shorter := suffix.length_le
    simp only [List.length_cons]
    omega

theorem afterDelimiter_meets (gap : IsGap line rest) {delimiter : List Char}
    (present : delimiter ≠ []) (start : List Char) (single : '\n' ∉ start)
    (ends : EndsBlank (start.reverse ++ before)) :
    Meets before line rest (afterDelimiter delimiter start (before ++ '\n' :: (line ++ rest)))
      (afterDelimiter delimiter start (before ++ rest)) := by
  induction before generalizing start with
  | nil =>
      rw [List.append_nil] at ends
      have blank := ends _ (List.suffix_refl _) (by simpa using single)
      exact afterDelimiter_gap gap present blank
  | cons c more ih =>
      simp only [List.cons_append, afterDelimiter]
      by_cases newline : c = '\n'
      · subst newline
        by_cases found : Text.trim start.reverse = delimiter
        · simp only [found, if_true]
          exact .inside (List.suffix_cons '\n' more)
        · simp only [found, if_true, if_false]
          have later : EndsBlank more :=
            ends.suffix ((List.suffix_cons '\n' more).trans (List.suffix_append _ _))
          exact (ih [] List.not_mem_nil later).mono (List.suffix_cons '\n' more)
      · simp only [newline, if_false]
        have still : '\n' ∉ c :: start := by simp [Ne.symm newline, single]
        exact (ih (c :: start) still (by simpa using ends)).mono (List.suffix_cons c more)

theorem afterBodies_meets (gap : IsGap line rest) {delimiters : List (List Char)}
    (present : ∀ delimiter ∈ delimiters, delimiter ≠ []) (ends : EndsBlank before) :
    Meets before line rest (afterBodies delimiters (before ++ '\n' :: (line ++ rest)))
      (afterBodies delimiters (before ++ rest)) := by
  induction delimiters generalizing before with
  | nil => exact .inside (List.suffix_refl before)
  | cons delimiter others ih =>
      have later : ∀ other ∈ others, other ≠ [] := fun other member =>
        present other (List.mem_cons_of_mem delimiter member)
      have first := afterDelimiter_meets gap (present delimiter List.mem_cons_self) []
        List.not_mem_nil (by simpa using ends)
      rw [afterBodies_cons, afterBodies_cons]
      revert first
      generalize afterDelimiter delimiter [] (before ++ '\n' :: (line ++ rest)) = withLine
      generalize afterDelimiter delimiter [] (before ++ rest) = without
      intro first
      cases first with
      | inside suffix => exact (ih later (ends.suffix suffix)).mono suffix
      | beyond suffix moved =>
          have further := afterBodies_suffix others withLine
          refine .beyond (further.trans suffix) ?_
          rcases moved with moved | rfl
          · have shorter := further.length_le
            left
            omega
          · right
            exact List.suffix_nil.mp further

/-! Starts of here-documents. -/

theorem IsGap.inert (gap : IsGap line rest) : ∀ c ∈ line, isInert c = true := by
  intro c member
  refine isInert_of_blank (gap.blank c member) ?_
  rintro rfl
  exact gap.single member

theorem IsGap.dropWhile (gap : IsGap line rest) :
    ('\n' :: (line ++ rest)).dropWhile Text.isBlank = rest.dropWhile Text.isBlank := by
  rw [List.dropWhile_cons_of_pos (by decide), List.dropWhile_append_of_pos gap.blank]

theorem takeDelimiter_meets (gap : IsGap line rest) (before : List Char) :
    let withLine := Text.takeDelimiter
      ((before ++ '\n' :: (line ++ rest)).dropWhile Text.isBlank)
    let without := Text.takeDelimiter ((before ++ rest).dropWhile Text.isBlank)
    (withLine = none ∧ without = none) ∨
      ∃ delimiter here there, IsDelimiter delimiter ∧ Meets before line rest here there ∧
        withLine = some ⟨delimiter, here⟩ ∧ without = some ⟨delimiter, there⟩ := by
  intro withLine without
  simp only [withLine, without, List.dropWhile_append]
  by_cases empty : (before.dropWhile Text.isBlank).isEmpty = true
  · simp only [empty, if_true, gap.dropWhile]
    cases taken : Text.takeDelimiter (rest.dropWhile Text.isBlank) with
    | none => exact .inl ⟨rfl, rfl⟩
    | some found =>
        obtain ⟨lead, present, split⟩ := Text.exists_of_takeDelimiter taken
        have suffix : found.rest <:+ rest.dropWhile Text.isBlank := ⟨lead, split.symm⟩
        have whole := suffix.trans (List.dropWhile_suffix _)
        refine .inr ⟨found.delimiter, found.rest, found.rest,
          Text.isDelimiter_of_takeDelimiter taken, .beyond whole (.inl ?_), rfl, rfl⟩
        have longer := (List.dropWhile_suffix (l := rest) Text.isBlank).length_le
        have length := congrArg List.length split
        have some := List.length_pos_iff.mpr present
        rw [List.length_append] at length
        omega
  · simp only [empty, if_false, Bool.false_eq_true]
    rw [(Text.atLineEnd_newline (line ++ rest)).takeDelimiter, gap.atEnd.takeDelimiter]
    cases taken : Text.takeDelimiter (before.dropWhile Text.isBlank) with
    | none => exact .inl ⟨rfl, rfl⟩
    | some found =>
        obtain ⟨lead, -, split⟩ := Text.exists_of_takeDelimiter taken
        have suffix : found.rest <:+ before.dropWhile Text.isBlank := ⟨lead, split.symm⟩
        exact .inr ⟨found.delimiter, _, _, Text.isDelimiter_of_takeDelimiter taken,
          .inside (suffix.trans (List.dropWhile_suffix _)), rfl, rfl⟩

theorem document?_meets (gap : IsGap line rest) (c : Char) (before : List Char) :
    (QuoteState.document? c (before ++ '\n' :: (line ++ rest)) = none ∧
        QuoteState.document? c (before ++ rest) = none) ∨
      ∃ delimiter here there, IsDelimiter delimiter ∧ Meets before line rest here there ∧
        QuoteState.document? c (before ++ '\n' :: (line ++ rest)) = some ⟨delimiter, here⟩ ∧
        QuoteState.document? c (before ++ rest) = some ⟨delimiter, there⟩ := by
  have gapEnd := Text.atLineEnd_newline (line ++ rest)
  by_cases less : c = '<'
  · subst less
    cases before with
    | nil => exact .inl ⟨document?_atLineEnd gapEnd, document?_atLineEnd gap.atEnd⟩
    | cons d more =>
        by_cases double : d = '<'
        · subst double
          by_cases triple : more.head? = some '<'
          · obtain ⟨others, rfl⟩ := List.head?_eq_some_iff.mp triple
            exact .inl ⟨rfl, rfl⟩
          · have withLine := (gapEnd.head?_append (by decide) more).not.mpr triple
            have without := (gap.atEnd.head?_append (by decide) more).not.mpr triple
            simp only [List.cons_append]
            rw [document?_double withLine, document?_double without, gapEnd.dropOne (by decide),
              gap.atEnd.dropOne (by decide)]
            rcases takeDelimiter_meets gap (Text.dropOne (· == '-') more) with
              none | ⟨delimiter, here, there, isDelimiter, meets, found⟩
            · exact .inl none
            · have suffix := (Text.dropOne_suffix (· == '-') more).trans (List.suffix_cons '<' more)
              exact .inr ⟨delimiter, here, there, isDelimiter, meets.mono suffix, found⟩
        · exact .inl ⟨document?_single _ double, document?_single _ double⟩
  · exact .inl ⟨document?_of_ne c _ less, document?_of_ne c _ less⟩

/-! Steps of the scan. -/

def QuoteState.AwaitsWords (state : QuoteState) : Prop :=
  ∀ delimiter ∈ state.pending, delimiter ≠ []

theorem awaitsWords_start : QuoteState.start.AwaitsWords := by
  intro delimiter member
  cases member

def StepsAlike (state : QuoteState) (previous : Option Char) (c : Char)
    (before line rest : List Char) : Prop :=
  ∃ next here there, next.AwaitsWords ∧ Meets before line rest here there ∧
    state.step previous c (before ++ '\n' :: (line ++ rest)) =
      (next, (before ++ '\n' :: (line ++ rest)).length - here.length) ∧
    state.step previous c (before ++ rest) = (next, (before ++ rest).length - there.length)

section Steps

variable {state next : QuoteState} {previous : Option Char} {c : Char}

theorem stepsAlike_of_steps (lead : List Char) {more : List Char} (awaits : next.AwaitsWords)
    (split : before = lead ++ more)
    (withLine : state.step previous c (before ++ '\n' :: (line ++ rest)) = (next, lead.length))
    (without : state.step previous c (before ++ rest) = (next, lead.length)) :
    StepsAlike state previous c before line rest := by
  have distance (tail : List Char) :
      (before ++ tail).length - (more ++ tail).length = lead.length := by
    rw [split]
    simp only [List.length_append]
    omega
  refine ⟨next, _, _, awaits, .inside ⟨lead, split.symm⟩, ?_, ?_⟩
  · rw [distance]
    exact withLine
  · rw [distance]
    exact without

theorem stepsAlike_of_inside (gap : IsGap line rest) (next : QuoteState) (lead : List Char)
    {more : List Char} (awaits : next.AwaitsWords) (split : before = lead ++ more)
    (steps : ∀ tail, AtLineEnd tail →
      state.step previous c (before ++ tail) = (next, lead.length)) :
    StepsAlike state previous c before line rest :=
  stepsAlike_of_steps lead awaits split (steps _ (Text.atLineEnd_newline _)) (steps rest gap.atEnd)

theorem stepsAlike_of_still (gap : IsGap line rest) (next : QuoteState) (awaits : next.AwaitsWords)
    (steps : ∀ tail, AtLineEnd tail → state.step previous c (before ++ tail) = (next, 0)) :
    StepsAlike state previous c before line rest :=
  stepsAlike_of_inside gap next [] awaits (List.nil_append before).symm steps

theorem stepsAlike_single (gap : IsGap line rest) (awaits : state.AwaitsWords)
    (inner : state.innermost = .single) : StepsAlike state previous c before line rest := by
  by_cases ends : c = '\''
  · refine stepsAlike_of_still gap state.leave.countSingle awaits fun tail _ => ?_
    simp [QuoteState.step, inner, ends]
  · refine stepsAlike_of_still gap state awaits fun tail _ => ?_
    simp [QuoteState.step, inner, ends]

theorem stepsAlike_backslash (gap : IsGap line rest) (awaits : state.AwaitsWords)
    (ends : EndsBlank ('\\' :: before)) (outside : state.innermost ≠ .single) :
    StepsAlike state previous '\\' before line rest := by
  cases before with
  | nil =>
      have blank := ends ['\\'] (List.suffix_refl _) (by decide) '\\' List.mem_cons_self
      exact absurd blank (by decide)
  | cons d more =>
      refine stepsAlike_of_inside gap state [d] awaits rfl fun tail _ => ?_
      simp [QuoteState.step, outside]

theorem opensCommand_append (c : Char) {tail : List Char} (atEnd : AtLineEnd tail) :
    QuoteState.opensCommand c (before ++ tail) = QuoteState.opensCommand c before := by
  have head := atEnd.head?_append (c := '(') (by decide) before
  rw [Bool.eq_iff_iff]
  simp only [QuoteState.opensCommand, Bool.and_eq_true, beq_iff_eq, head]

theorem exists_of_opensCommand (opens : QuoteState.opensCommand c before = true) :
    ∃ more, before = '(' :: more := by
  simp only [QuoteState.opensCommand, Bool.and_eq_true, beq_iff_eq] at opens
  exact List.head?_eq_some_iff.mp opens.2

theorem stepsAlike_double (gap : IsGap line rest) (awaits : state.AwaitsWords)
    (inner : state.innermost = .double) (unescaped : c ≠ '\\') :
    StepsAlike state previous c before line rest := by
  have step (tail : List Char) :
      state.step previous c (before ++ tail) = state.stepDouble c (before ++ tail) := by
    simp [QuoteState.step, inner, unescaped]
  by_cases quote : c = '"'
  · refine stepsAlike_of_still gap state.leave.countDouble awaits fun tail _ => ?_
    rw [step, QuoteState.stepDouble, if_pos quote]
  · by_cases opens : QuoteState.opensCommand c before = true
    · obtain ⟨more, split⟩ := exists_of_opensCommand opens
      refine stepsAlike_of_inside gap state.enterCommand ['('] awaits split
        fun tail atEnd => ?_
      simp [step, QuoteState.stepDouble, quote, opensCommand_append c atEnd, opens]
    · refine stepsAlike_of_still gap state awaits fun tail atEnd => ?_
      simp [step, QuoteState.stepDouble, quote, opensCommand_append c atEnd, opens]

theorem stepsAlike_newline (gap : IsGap line rest) (awaits : state.AwaitsWords)
    (ends : EndsBlank before) : StepsAlike state previous '\n' before line rest := by
  by_cases bodies : (state.innermost = .code ∨ state.innermost = .command) ∧ state.pending ≠ []
  · have here (text : List Char) := (step_newline state previous text).trans (if_pos bodies)
    exact ⟨{ state with pending := [] }, _, _, by simp [QuoteState.AwaitsWords],
      afterBodies_meets gap awaits ends, here _, here _⟩
  · exact stepsAlike_of_still gap state awaits fun tail _ =>
      (step_newline state previous _).trans (if_neg bodies)

/-- The start of a here-document is seen with the line just if it is without, and ends at the same
place. -/
theorem stepsAlike_less (gap : IsGap line rest) (awaits : state.AwaitsWords)
    (inCode : state.innermost = .code ∨ state.innermost = .command) :
    StepsAlike state previous '<' before line rest := by
  rcases document?_meets gap '<' before with
    ⟨withLine, without⟩ | ⟨delimiter, here, there, isDelimiter, meets, withLine, without⟩
  · refine stepsAlike_of_steps [] awaits (List.nil_append before).symm ?_ ?_
    · rw [step_less inCode, withLine]
      rfl
    · rw [step_less inCode, without]
      rfl
  · refine ⟨{ state with pending := state.pending ++ [delimiter] }, here, there, ?_, meets, ?_, ?_⟩
    · intro other member
      rcases List.mem_append.mp member with known | new
      · exact awaits other known
      · rw [List.mem_singleton.mp new]
        exact isDelimiter.ne_nil
    · rw [step_less inCode, withLine]
    · rw [step_less inCode, without]

theorem awaitsWords_closeParenthesis (awaits : state.AwaitsWords) :
    state.closeParenthesis.AwaitsWords := by
  unfold QuoteState.closeParenthesis
  split <;> exact awaits

theorem awaitsWords_openParenthesis (awaits : state.AwaitsWords) :
    state.openParenthesis.AwaitsWords := by
  unfold QuoteState.openParenthesis
  split <;> exact awaits

theorem stepsAlike_code (gap : IsGap line rest) (awaits : state.AwaitsWords)
    (ends : EndsBlank before) (inCode : state.innermost = .code ∨ state.innermost = .command)
    (unescaped : c ≠ '\\') : StepsAlike state previous c before line rest := by
  have step := step_eq_stepCode inCode unescaped previous
  by_cases single : c = '\''
  · refine stepsAlike_of_still gap (state.enter .single).countSingle awaits
      fun tail _ => ?_
    rw [step, QuoteState.stepCode, if_pos single]
  by_cases double : c = '"'
  · refine stepsAlike_of_still gap (state.enter .double).countDouble awaits
      fun tail _ => ?_
    rw [step, QuoteState.stepCode, if_neg single, if_pos double]
  by_cases comment : c = '#' ∧ startsWord previous = true
  · have split := (List.takeWhile_append_dropWhile (p := (· != '\n')) (l := before)).symm
    refine stepsAlike_of_inside gap state _ awaits split fun tail atEnd => ?_
    have sameLine : (before ++ tail).takeWhile (· != '\n') = before.takeWhile (· != '\n') :=
      atEnd.takeWhile (by decide) before
    rw [step, QuoteState.stepCode, if_neg single, if_neg double, if_pos comment, sameLine]
  by_cases opens : QuoteState.opensCommand c before = true
  · obtain ⟨more, split⟩ := exists_of_opensCommand opens
    refine stepsAlike_of_inside gap state.enterCommand ['('] awaits split
      fun tail atEnd => ?_
    rw [step, QuoteState.stepCode, if_neg single, if_neg double, if_neg comment,
      opensCommand_append c atEnd, if_pos opens]
    rfl
  by_cases less : c = '<'
  · subst less
    exact stepsAlike_less gap awaits inCode
  by_cases newline : c = '\n'
  · subst newline
    exact stepsAlike_newline gap awaits ends
  have unopened (tail : List Char) (atEnd : AtLineEnd tail) :
      QuoteState.opensCommand c (before ++ tail) = false := by
    rw [opensCommand_append c atEnd]
    simpa using opens
  by_cases opening : state.innermost = .command ∧ c = '('
  · have later := awaitsWords_openParenthesis awaits
    refine stepsAlike_of_still gap state.openParenthesis later fun tail atEnd => ?_
    rw [step, QuoteState.stepCode, if_neg single, if_neg double, if_neg comment,
      unopened tail atEnd, if_neg Bool.false_ne_true, document?_of_ne c _ less]
    exact if_pos opening
  by_cases closing : state.innermost = .command ∧ c = ')'
  · have later := awaitsWords_closeParenthesis awaits
    refine stepsAlike_of_still gap state.closeParenthesis later fun tail atEnd => ?_
    rw [step, QuoteState.stepCode, if_neg single, if_neg double, if_neg comment,
      unopened tail atEnd, if_neg Bool.false_ne_true, document?_of_ne c _ less]
    exact (if_neg opening).trans (if_pos closing)
  refine stepsAlike_of_still gap state awaits fun tail atEnd => ?_
  refine step_quiet inCode unescaped single double comment (unopened tail atEnd)
    (document?_of_ne c _ less) (fun command => ?_) fun same => absurd same newline
  exact ⟨fun same => opening ⟨command, same⟩, fun same => closing ⟨command, same⟩⟩

theorem stepsAlike (gap : IsGap line rest) (awaits : state.AwaitsWords)
    (ends : EndsBlank (c :: before)) (previous : Option Char) :
    StepsAlike state previous c before line rest := by
  have later := ends.suffix (List.suffix_cons c before)
  by_cases single : state.innermost = .single
  · exact stepsAlike_single gap awaits single
  by_cases escaped : c = '\\'
  · subst escaped
    exact stepsAlike_backslash gap awaits ends single
  cases inner : state.innermost with
  | single => exact absurd inner single
  | double => exact stepsAlike_double gap awaits inner escaped
  | code => exact stepsAlike_code gap awaits later (.inl inner) escaped
  | command => exact stepsAlike_code gap awaits later (.inr inner) escaped

end Steps

/-! Whole scans. -/

def QuoteState.verdict (state : QuoteState) : QuoteScan :=
  ⟨state.frames == [.code], state.singles, state.doubles⟩

theorem verdict_gap (gap : IsGap line rest) {state : QuoteState} (awaits : state.AwaitsWords)
    (previous : Option Char) :
    (scanFrom 0 previous state ('\n' :: (line ++ rest))).verdict =
      (scanFrom 0 previous state rest).verdict := by
  by_cases bodies : (state.innermost = .code ∨ state.innermost = .command) ∧ state.pending ≠ []
  · obtain ⟨delimiter, others, shape⟩ := List.exists_cons_of_ne_nil bodies.2
    have present : delimiter ≠ [] := awaits delimiter (by simp [shape])
    rw [scanFrom_bodies bodies]
    by_cases empty : rest = []
    · have gone : afterBodies state.pending line = [] := by
        rw [shape, afterBodies_cons, afterDelimiter_of_not_mem delimiter [] gap.single,
          afterBodies_nil]
      rw [empty, List.append_nil, gone]
      rfl
    · obtain ⟨more, rfl⟩ := gap.atEnd.eq_newline empty
      have passing : afterBodies state.pending (line ++ '\n' :: more) =
          afterBodies state.pending more := by
        rw [shape, afterBodies_cons, afterBodies_cons,
          afterDelimiter_blankLine present [] more gap.single (by simpa using gap.blank)]
      rw [scanFrom_bodies bodies, passing]
  · have here := (step_newline state previous (line ++ rest)).trans (if_neg bodies)
    rw [scanFrom_step previous state '\n' _ _ here, scanFrom_inert gap.inert]
    by_cases empty : rest = []
    · rw [empty]
      rfl
    · obtain ⟨more, rfl⟩ := gap.atEnd.eq_newline empty
      rw [scanFrom_newline _ previous]

theorem verdict_blankLine (gap : IsGap line rest) (ends : EndsBlank before) {state : QuoteState}
    (awaits : state.AwaitsWords) (previous : Option Char) :
    (scanFrom 0 previous state (before ++ '\n' :: (line ++ rest))).verdict =
      (scanFrom 0 previous state (before ++ rest)).verdict := by
  -- The scan jumps, so the induction is on how much of the text before the line is left.
  induction measured : before.length using Nat.strongRecOn generalizing before previous state with
  | ind size ih =>
      subst measured
      cases before with
      | nil => exact verdict_gap gap awaits previous
      | cons c lead =>
          obtain ⟨next, here, there, awaitsNext, meets, withLine, without⟩ :=
            stepsAlike gap awaits ends previous
          rw [List.cons_append, List.cons_append, scanFrom, scanFrom, withLine, without]
          simp only
          cases meets with
          | @inside more suffix =>
              obtain ⟨taken, rfl⟩ := suffix
              have later : EndsBlank more := ends.suffix
                ((List.suffix_append taken more).trans (List.suffix_cons c _))
              have shorter : more.length < (c :: (taken ++ more)).length := by
                simp only [List.length_cons, List.length_append]
                omega
              have next := ih more.length shorter later awaitsNext (taken.getLast?.or (some c)) rfl
              rw [List.append_assoc, List.append_assoc, scanFrom_jump, scanFrom_jump]
              exact next
          | beyond suffix moved =>
              obtain ⟨taken, split⟩ := suffix
              generalize here = behind at split moved ⊢
              subst split
              have withLine := scanFrom_jump (lead ++ '\n' :: (line ++ taken)) behind (some c) next
              have without := scanFrom_jump (lead ++ taken) behind (some c) next
              simp only [List.append_assoc, List.cons_append] at withLine without
              rw [withLine, without]
              rcases moved with moved | rfl
              · have present : taken ≠ [] := by
                  rintro rfl
                  simp at moved
                have found := List.getLast?_eq_some_getLast present
                simp [List.getLast?_append, List.getLast?_cons, found]
              · rfl

end Gap

/-! Shortening runs of blank lines. -/

section BlankRuns

open Shortening

def Counts (state : BlankState) (before : List Char) : Prop :=
  state.run ≠ 0 → state.openDelimiters = [] ∧ EndsBlank before

theorem counts_start : Counts .start [] :=
  absurd rfl

theorem counts_step {state : BlankState} {before : List Char} (counts : Counts state before)
    (line : List Char) :
    ((state.step line).1 = true ∧ Counts (state.step line).2 (before ++ '\n' :: line)) ∨
      ((state.step line).1 = false ∧ Counts (state.step line).2 before ∧ state.run ≠ 0 ∧
        ∀ c ∈ line, Text.isBlank c = true) := by
  unfold BlankState.step
  cases opened : state.openDelimiters with
  | cons delimiter outer =>
      refine .inl ⟨rfl, fun counting => ?_⟩
      have same : state.run ≠ 0 := by
        by_cases ends : Text.trim line = delimiter <;> simpa [ends] using counting
      rw [(counts same).1] at opened
      cases opened
  | nil =>
      by_cases empty : (Text.trim line).isEmpty = true
      · have blank := isBlank_of_trim_eq_nil line (by simpa using empty)
        simp only [empty, if_true]
        by_cases stays : state.run + 1 ≤ longestBlankRun
        · exact .inl ⟨by simpa using stays, fun _ => ⟨rfl, endsBlank_append_line before blank⟩⟩
        · have counting : state.run ≠ 0 := by
            simp only [longestBlankRun] at stays
            omega
          exact .inr ⟨by simpa using stays, fun _ => ⟨rfl, (counts counting).2⟩, counting, blank⟩
      · left
        simp only [empty, Bool.false_eq_true, if_false]
        by_cases comment : startsComment (Text.trim line) = true
        · simp only [comment, if_true, true_and]
          exact fun counting => absurd rfl counting
        · simp only [comment, Bool.false_eq_true, if_false, true_and]
          exact fun counting => absurd rfl counting

theorem scanQuotes_keptLines (state : BlankState) (before : List Char)
    (lines : List (List Char)) (single : ∀ line ∈ lines, '\n' ∉ line)
    (counts : Counts state before) :
    scanQuotes (before ++ (keptLines state lines).flatMap fun line => '\n' :: line) =
      scanQuotes (before ++ lines.flatMap fun line => '\n' :: line) := by
  induction lines generalizing state before with
  | nil => rfl
  | cons line rest ih =>
      have others : ∀ other ∈ rest, '\n' ∉ other := fun other member =>
        single other (List.mem_cons_of_mem line member)
      rcases counts_step counts line with ⟨stays, next⟩ | ⟨goes, next, counting, blank⟩
      · have later := ih (state.step line).2 (before ++ '\n' :: line) others next
        simpa [keptLines, stays, List.flatMap_cons] using later
      · have later := ih (state.step line).2 before others next
        have atEnd : AtLineEnd (rest.flatMap fun other => '\n' :: other) := by
          cases rest with
          | nil => exact .inl rfl
          | cons other more => exact .inr rfl
        have gone := verdict_blankLine ⟨blank, single line List.mem_cons_self, atEnd⟩
          (counts counting).2 awaitsWords_start none
        simp only [keptLines, goes, Bool.false_eq_true, if_false, List.flatMap_cons,
          List.cons_append]
        exact later.trans gone.symm

/-- Shortening runs of blank lines is nothing to the scan of quotes. -/
theorem scanQuotes_shortenBlankRuns (text : List Char) :
    scanQuotes (shortenBlankRuns text) = scanQuotes text := by
  obtain ⟨line, rest, shape⟩ := List.exists_cons_of_ne_nil (Text.splitLines_ne_nil text)
  have single := Text.newline_not_mem_splitLines text
  rw [shape] at single
  rcases counts_step counts_start line with ⟨stays, next⟩ | ⟨-, -, counting, -⟩
  · have counts : Counts (BlankState.start.step line).2 line := fun counting =>
      ⟨(next counting).1, (next counting).2.suffix (List.suffix_cons '\n' line)⟩
    have kept := scanQuotes_keptLines (BlankState.start.step line).2 line rest
      (fun other member => single other (List.mem_cons_of_mem line member)) counts
    rw [← Text.eq_append_of_splitLines shape] at kept
    simpa only [shortenBlankRuns, shape, keptLines, stays, if_true, Text.joinLines_cons] using kept
  · exact absurd rfl counting

end BlankRuns

end StatusLine.Audit

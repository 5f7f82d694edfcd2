import StatusLine.Proofs.Audit.QuoteSimulation
import StatusLine.Proofs.Shortening.Brackets

/-!
Quotes under shortening. From any state, the cautious reader either gives up on what is rewritten or
ends in the same state behind what stands in for it. So if it closes everything in a text, it does
so in every text that comes out of it by rewriting.
-/

namespace StatusLine.Audit

open Shortening
open QuoteReading (reader)

def QuoteReading.readMarks (reading : QuoteReading) (marks : List Mark) : QuoteReading :=
  marks.foldl QuoteReading.step reading

theorem QuoteReading.read_eq_readMarks (reading : QuoteReading) (text : List Char) :
    reader.read reading text = reading.readMarks (text.map Mark.of) := by
  rw [readMarks, List.foldl_map]
  rfl

def Keeps (stretch replacement : List Mark) : Prop :=
  ∀ reading : QuoteReading, reading.readMarks stretch = .lost ∨
    reading.readMarks replacement = reading.readMarks stretch

def QuoteReading.isSteady : QuoteReading → Bool
  | inside _ _ | awaiting | body .other | lost => true
  | _ => false

/-- The marks of the characters of names. A blank that ends no word is among them, since it is read
like any other character here. -/
def IsWordMarks (marks : List Mark) : Prop :=
  marks ≠ [] ∧ ∀ mark ∈ marks, mark = .other ∨ mark = .blank ∨ mark = .first ∨ mark = .second

theorem isWordMarks_of_name {name : List Char} (named : IsRun isCommandChar name) :
    IsWordMarks (name.map Mark.of) := by
  refine ⟨by simpa using named.1, fun mark member => ?_⟩
  obtain ⟨c, inside, rfl⟩ := List.mem_map.mp member
  have accepted := named.2 c inside
  have means := Mark.means_of c
  cases marked : Mark.of c <;> rw [marked] at means
  case other => exact .inl rfl
  case blank => exact .inr (.inl rfl)
  case first => exact .inr (.inr (.inl rfl))
  case second => exact .inr (.inr (.inr rfl))
  case space => rcases means with rfl | rfl <;> exact absurd accepted (by decide)
  all_goals
    obtain rfl := means
    exact absurd accepted (by decide)

theorem QuoteReading.step_word (reading : QuoteReading) (steady : reading.isSteady = true)
    (mark : Mark)
    (word : mark = .other ∨ mark = .blank ∨ mark = .first ∨ mark = .second) :
    reading.step mark = reading.step .other ∧ (reading.step .other).isSteady = true ∧
      (reading.step .other).step .other = reading.step .other := by
  rcases word with rfl | rfl | rfl | rfl <;>
    rcases reading with ⟨⟨⟨⟩⟩ | ⟨⟨⟩⟩ | _ | _, commands⟩ | _ | _ | ⟨⟨⟩⟩ | _ <;>
    first | exact ⟨rfl, rfl, rfl⟩ | exact Bool.noConfusion steady

theorem QuoteReading.readMarks_words (reading : QuoteReading) (steady : reading.isSteady = true)
    (marks : List Mark) (words : IsWordMarks marks) :
    reading.readMarks marks = reading.step .other := by
  obtain ⟨present, each⟩ := words
  induction marks generalizing reading with
  | nil => exact absurd rfl present
  | cons mark rest ih =>
      obtain ⟨same, steadily, settled⟩ := reading.step_word steady mark
        (each mark List.mem_cons_self)
      rw [readMarks, List.foldl_cons, same]
      cases rest with
      | nil => rfl
      | cons next more =>
          have later := ih (reading.step .other) steadily (by simp) fun found member =>
            each found (List.mem_cons_of_mem mark member)
          exact later.trans settled

def isLead : List Mark → Bool
  | .bracket :: more | .dollar :: more | .other :: more =>
      !more.contains .newline && !more.contains .less
  | _ => false

theorem QuoteReading.step_steady (reading : QuoteReading) (steady : reading.isSteady = true)
    (mark : Mark) (inLine : mark ≠ .newline) (known : mark ≠ .less) :
    (reading.step mark).isSteady = true := by
  rcases reading with ⟨⟨⟨⟩⟩ | ⟨⟨⟩⟩ | _ | _, (_ | ⟨⟨_ | depth, _ | _⟩, outer⟩)⟩ | _ | _ | ⟨⟨⟩⟩ | _ <;>
    first
    | exact Bool.noConfusion steady
    | cases mark <;> first | rfl | exact absurd rfl inLine | exact absurd rfl known

theorem QuoteReading.readMarks_steady (reading : QuoteReading) (steady : reading.isSteady = true)
    {marks : List Mark} (inLine : .newline ∉ marks) (known : .less ∉ marks) :
    (reading.readMarks marks).isSteady = true := by
  induction marks generalizing reading with
  | nil => exact steady
  | cons mark more ih =>
      simp only [List.mem_cons, not_or] at inLine known
      have next := reading.step_steady steady mark (Ne.symm inLine.1) (Ne.symm known.1)
      exact ih (reading.step mark) next inLine.2 known.2

theorem QuoteReading.readMarks_lead {lead : List Mark} (leads : isLead lead = true)
    (reading : QuoteReading) : (reading.readMarks lead).isSteady = true := by
  unfold isLead at leads
  split at leads
  case h_4 => exact Bool.noConfusion leads
  all_goals
    simp only [Bool.and_eq_true, Bool.not_eq_true', List.contains_eq_mem, decide_eq_false_iff_not]
      at leads
    refine readMarks_steady (reading.step _) ?_ leads.1 leads.2
    rcases reading with ⟨⟨⟨⟩⟩ | ⟨⟨⟩⟩ | _ | _, commands⟩ | ⟨⟨⟩⟩ | _ | ⟨⟨⟩⟩ | _ <;> rfl

theorem keeps_named {lead tail newLead newTail : List Mark} {name : List Char}
    (named : IsRun isCommandChar name)
    (steady : ∀ reading : QuoteReading, (reading.readMarks lead).isSteady = true)
    (newSteady : ∀ reading : QuoteReading, (reading.readMarks newLead).isSteady = true)
    (sample : Keeps (lead ++ .other :: tail) (newLead ++ .other :: newTail)) :
    Keeps (lead ++ name.map Mark.of ++ tail) (newLead ++ name.map Mark.of ++ newTail) := by
  intro reading
  have words := isWordMarks_of_name named
  have here := (reading.readMarks lead).readMarks_words (steady reading) _ words
  have there := (reading.readMarks newLead).readMarks_words (newSteady reading) _ words
  have kept := sample reading
  simp only [QuoteReading.readMarks, List.foldl_append, List.foldl_cons] at here there kept ⊢
  rw [here, there]
  exact kept

/-! Only code and text between double quotes is left to look at. -/

def isTame (marks : List Mark) : Bool :=
  !marks.contains .single && !marks.contains .newline

theorem QuoteReading.readMarks_tame {reading : QuoteReading} {marks : List Mark}
    (tame : isTame marks = true)
    (stays : ∀ mark, mark ≠ .single → mark ≠ .newline → reading.step mark = reading) :
    reading.readMarks marks = reading := by
  induction marks with
  | nil => rfl
  | cons mark more ih =>
      simp only [isTame, List.contains_cons, Bool.not_or, Bool.and_eq_true, Bool.not_eq_true',
        beq_eq_false_iff_ne] at tame ih
      obtain ⟨⟨noSingle, singles⟩, noNewline, newlines⟩ := tame
      rw [readMarks, List.foldl_cons, stays mark (Ne.symm noSingle) (Ne.symm noNewline)]
      exact ih ⟨singles, newlines⟩

theorem QuoteReading.readMarks_awaiting {marks : List Mark} (tame : isTame marks = true)
    (dollar : .dollar ∈ marks) : awaiting.readMarks marks = lost := by
  induction marks with
  | nil => simp at dollar
  | cons mark more ih =>
      have lostBehind : lost.readMarks more = lost := by
        rw [readMarks_tame (by simp_all [isTame]) fun _ _ _ => rfl]
      cases mark with
      | newline => simp [isTame] at tame
      | backslash | single | double | hash | dollar | less => exact lostBehind
      | _ => exact ih (by simp_all [isTame]) (by simpa using dollar)

def QuoteReading.IsElsewhere (reading : QuoteReading) : Prop :=
  reading = body .other ∨ reading = lost ∨
    ∃ commands, reading = inside .single commands ∨ reading = inside .comment commands

theorem QuoteReading.IsElsewhere.readMarks {reading : QuoteReading}
    (elsewhere : reading.IsElsewhere) {marks : List Mark} (tame : isTame marks = true) :
    reading.readMarks marks = reading := by
  refine readMarks_tame tame fun mark noSingle noNewline => ?_
  rcases elsewhere with rfl | rfl | ⟨commands, rfl | rfl⟩ <;>
    simp [step, DocumentLine.step, noSingle, noNewline]

theorem QuoteReading.step_first (reading : QuoteReading) {mark : Mark}
    (first : mark = .bracket ∨ mark = .dollar) :
    (reading.step mark).IsElsewhere ∨ mark = .bracket ∧ reading.step mark = awaiting ∨
      ∃ before commands, (before = .other ∨ mark = .dollar ∧ before = .dollar) ∧
        (reading.step mark = inside (.plain before) commands ∨
          reading.step mark = inside (.double before) commands) := by
  rcases first with rfl | rfl <;>
    rcases reading with ⟨⟨⟨⟩⟩ | ⟨⟨⟩⟩ | _ | _, commands⟩ | ⟨⟨⟩⟩ | _ | ⟨⟨⟩⟩ | _ <;>
    first
    | exact .inl (.inl rfl)
    | exact .inl (.inr (.inl rfl))
    | exact .inl (.inr (.inr ⟨_, .inl rfl⟩))
    | exact .inl (.inr (.inr ⟨_, .inr rfl⟩))
    | exact .inr (.inl ⟨rfl, rfl⟩)
    | exact .inr (.inr ⟨_, _, .inl rfl, .inl rfl⟩)
    | exact .inr (.inr ⟨_, _, .inl rfl, .inr rfl⟩)
    | exact .inr (.inr ⟨_, _, .inr ⟨rfl, rfl⟩, .inl rfl⟩)
    | exact .inr (.inr ⟨_, _, .inr ⟨rfl, rfl⟩, .inr rfl⟩)

theorem QuoteReading.step_bracket (reading : QuoteReading) :
    reading.step .bracket = lost ∨ reading.step .other = reading.step .bracket := by
  rcases reading with ⟨⟨⟨⟩⟩ | ⟨⟨⟩⟩ | _ | _, commands⟩ | ⟨⟨⟩⟩ | _ | ⟨⟨⟩⟩ | _ <;>
    first | exact .inl rfl | exact .inr rfl

theorem keeps_bracket {stretch replacement : List Mark} {mark : Mark}
    (starts : mark = .bracket ∨ mark = .other) (tame : isTame stretch = true)
    (newTame : isTame replacement = true) (dollar : .dollar ∈ stretch)
    (plain : ∀ commands, (QuoteReading.inside (.plain .other) commands).readMarks replacement =
      (QuoteReading.inside (.plain .other) commands).readMarks stretch)
    (double : ∀ commands, (QuoteReading.inside (.double .other) commands).readMarks replacement =
      (QuoteReading.inside (.double .other) commands).readMarks stretch) :
    Keeps (.bracket :: stretch) (mark :: replacement) := by
  intro reading
  have same : reading.step .bracket = .lost ∨ reading.step mark = reading.step .bracket := by
    rcases starts with rfl | rfl
    · exact .inr rfl
    · exact reading.step_bracket
  simp only [QuoteReading.readMarks, List.foldl_cons] at plain double ⊢
  rcases same with gone | same
  · rw [gone]
    exact .inl (QuoteReading.readMarks_tame tame fun _ _ _ => rfl)
  · rw [same]
    rcases reading.step_first (.inl rfl) with
      elsewhere | ⟨-, here⟩ | ⟨before, commands, rfl | ⟨other, -⟩, here | here⟩
    · exact .inr ((elsewhere.readMarks newTame).trans (elsewhere.readMarks tame).symm)
    · rw [here]
      exact .inl (QuoteReading.readMarks_awaiting tame dollar)
    · rw [here]
      exact .inr (plain commands)
    · rw [here]
      exact .inr (double commands)
    all_goals exact Mark.noConfusion other

theorem keeps_dollar {stretch replacement : List Mark} (tame : isTame stretch = true)
    (newTame : isTame replacement = true)
    (plain : ∀ before, before = .dollar ∨ before = .other → ∀ commands,
      (QuoteReading.inside (.plain before) commands).readMarks replacement =
        (QuoteReading.inside (.plain before) commands).readMarks stretch)
    (double : ∀ before, before = .dollar ∨ before = .other → ∀ commands,
      (QuoteReading.inside (.double before) commands).readMarks replacement =
        (QuoteReading.inside (.double before) commands).readMarks stretch) :
    Keeps (.dollar :: stretch) (.dollar :: replacement) := by
  intro reading
  refine .inr ?_
  simp only [QuoteReading.readMarks, List.foldl_cons] at plain double ⊢
  rcases reading.step_first (.inr rfl) with
    elsewhere | ⟨other, -⟩ | ⟨before, commands, known, here | here⟩
  · exact (elsewhere.readMarks newTame).trans (elsewhere.readMarks tame).symm
  · exact Mark.noConfusion other
  · rw [here]
    exact plain before (by rcases known with rfl | ⟨-, rfl⟩ <;> simp) commands
  · rw [here]
    exact double before (by rcases known with rfl | ⟨-, rfl⟩ <;> simp) commands

/-! The stretches of the rules and what is put in their place. -/

theorem keeps_lookup {name : List Char} (named : IsRun isCommandChar name) :
    Keeps (([.bracket, .space, .double, .dollar, .opening, .other, .other, .other, .other,
        .other, .other, .other, .space, .other, .other, .space] : List Mark) ++ name.map Mark.of
        ++ ([.closing, .double, .space, .other] : List Mark))
      (([.other, .other, .other, .other, .other, .other, .other, .space, .other, .other, .space]
        : List Mark) ++ name.map Mark.of ++ ([.space, .other, .slash, .other, .other, .other,
        .slash, .other, .other, .other, .other, .space, .other, .other, .other, .other] : List
        Mark)) := by
  refine keeps_named named (QuoteReading.readMarks_lead rfl) (QuoteReading.readMarks_lead rfl)
      (keeps_bracket (.inr rfl) rfl rfl (by decide) ?_ ?_) <;>
    exact fun commands => rfl

theorem keeps_search {name : List Char} (named : IsRun isCommandChar name) :
    Keeps (([.bracket, .space, .double, .dollar, .opening, .other, .other, .other, .other,
        .other, .space] : List Mark) ++ name.map Mark.of ++ ([.closing, .double, .space, .other]
        : List Mark))
      (([.other, .other, .other, .other, .other, .other, .other, .space, .other, .other, .space]
        : List Mark) ++ name.map Mark.of ++ ([.space, .other, .slash, .other, .other, .other,
        .slash, .other, .other, .other, .other, .space, .other, .other, .other, .other] : List
        Mark)) := by
  refine keeps_named named (QuoteReading.readMarks_lead rfl) (QuoteReading.readMarks_lead rfl)
      (keeps_bracket (.inr rfl) rfl rfl (by decide) ?_ ?_) <;>
    exact fun commands => rfl

theorem keeps_homeDirectory {name : List Char} (named : IsRun Text.isWord name) :
    Keeps (([.dollar, .opening, .other, .other, .other, .other, .space, .double, .dollar] : List
        Mark) ++ name.map Mark.of ++ ([.double, .space, .other, .space, .other, .other, .other,
        .space, .double, .other, .other, .other, .dollar, .other, .other, .other, .other,
        .other, .other, .other, .other, .double, .closing] : List Mark))
      (([.dollar, .other] : List Mark) ++ name.map Mark.of ++ ([.slash, .hash, .dollar, .other,
        .other, .other, .other, .slash, .backslash, .other, .other] : List Mark)) := by
  refine keeps_named named.command (QuoteReading.readMarks_lead rfl) (QuoteReading.readMarks_lead rfl)
      (keeps_dollar rfl rfl ?_ ?_)
  · rintro before (rfl | rfl) (_ | ⟨⟨depth, quoted⟩, outer⟩) <;> exact rfl
  · rintro before (rfl | rfl) commands <;> exact rfl

theorem behind_contents (reading : QuoteReading) :
    (reading.readMarks [.dollar, .opening, .less, .double, .dollar]).isSteady = true := by
  rcases reading with ⟨⟨⟨⟩⟩ | ⟨⟨⟩⟩ | _ | _, commands⟩ | ⟨⟨⟩⟩ | _ | ⟨⟨⟩⟩ | _ <;> rfl

theorem keeps_contents {name : List Char} (named : IsRun Text.isWord name) :
    Keeps (([.dollar, .opening, .other, .other, .other, .space, .double, .dollar] : List Mark)
        ++ name.map Mark.of ++ ([.double, .closing] : List Mark))
      (([.dollar, .opening, .less, .double, .dollar] : List Mark) ++ name.map Mark.of ++
        ([.double, .closing] : List Mark)) := by
  refine keeps_named named.command (QuoteReading.readMarks_lead rfl) behind_contents
      (keeps_dollar rfl rfl ?_ ?_)
  · rintro before (rfl | rfl) (_ | ⟨⟨depth, quoted⟩, outer⟩) <;> exact rfl
  · rintro before (rfl | rfl) commands <;> exact rfl

theorem keeps_bracedContents {name : List Char} (named : IsRun Text.isWord name) :
    Keeps (([.dollar, .opening, .other, .other, .other, .space, .double, .dollar, .other] : List
        Mark) ++ name.map Mark.of ++ ([.other, .double, .closing] : List Mark))
      (([.dollar, .opening, .less, .double, .dollar] : List Mark) ++ name.map Mark.of ++
        ([.double, .closing] : List Mark)) := by
  refine keeps_named named.command (QuoteReading.readMarks_lead rfl) behind_contents
      (keeps_dollar rfl rfl ?_ ?_)
  · rintro before (rfl | rfl) (_ | ⟨⟨depth, quoted⟩, outer⟩) <;> exact rfl
  · rintro before (rfl | rfl) commands <;> exact rfl

theorem keeps_clock :
    Keeps [.dollar, .opening, .other, .other, .other, .other, .space, .other, .other, .other, .closing]
      [.dollar, .other, .other, .first, .other, .other, .other, .other, .other, .other, .other,
        .other, .other, .other, .other, .other, .dollar, .opening, .other, .other, .other,
        .other, .space, .other, .other, .other, .closing, .other] := by
  refine keeps_dollar rfl rfl ?_ ?_
  · rintro before (rfl | rfl) (_ | ⟨⟨depth, quoted⟩, outer⟩) <;> exact rfl
  · rintro before (rfl | rfl) commands <;> exact rfl

theorem keeps_status :
    Keeps [.bracket, .space, .dollar, .other, .space, .other, .other, .other, .space, .other, .space, .other]
      [.opening, .opening, .other, .space, .dollar, .other, .closing, .closing] := by
  rintro (⟨⟨⟨⟩⟩ | ⟨⟨⟩⟩ | _ | _, (_ | ⟨⟨depth, quoted⟩, outer⟩)⟩ | ⟨⟨⟩⟩ | _ | ⟨⟨⟩⟩ | _) <;>
    first | exact .inr rfl | exact .inl rfl

def testLeads : List (List Mark) :=
  [[.bracket, .bracket, .space, .dollar], [.bracket, .bracket, .space, .other, .space, .dollar],
    [.bracket, .bracket, .space, .other, .other, .space, .dollar]]

theorem keeps_test {newLead : List Mark} {name : List Char} (named : IsRun Text.isWord name)
    (leads : newLead ∈ testLeads) :
    Keeps (([.bracket, .space, .other, .other, .space, .double, .dollar] : List Mark) ++ name.map Mark.of ++
        ([.double, .space, .other] : List Mark))
      (newLead ++ name.map Mark.of ++ ([.space, .other, .other] : List Mark)) := by
  simp only [testLeads, List.mem_cons, List.not_mem_nil, or_false] at leads
  rcases leads with rfl | rfl | rfl <;>
    refine keeps_named named.command (QuoteReading.readMarks_lead rfl) (QuoteReading.readMarks_lead rfl)
      (keeps_bracket (.inl rfl) rfl rfl (by decide) ?_ ?_) <;>
    exact fun commands => rfl

theorem keeps_bracedTest {newLead : List Mark} {name : List Char} (named : IsRun Text.isWord name)
    (leads : newLead ∈ testLeads) :
    Keeps (([.bracket, .space, .other, .other, .space, .double, .dollar, .other] : List Mark) ++
        name.map Mark.of ++ ([.other, .double, .space, .other] : List Mark))
      (newLead ++ name.map Mark.of ++ ([.space, .other, .other] : List Mark)) := by
  simp only [testLeads, List.mem_cons, List.not_mem_nil, or_false] at leads
  rcases leads with rfl | rfl | rfl <;>
    refine keeps_named named.command (QuoteReading.readMarks_lead rfl) (QuoteReading.readMarks_lead rfl)
      (keeps_bracket (.inl rfl) rfl rfl (by decide) ?_ ?_) <;>
    exact fun commands => rfl

/-! Names that are shortened. -/

theorem QuoteReading.readMarks_others (reading : QuoteReading) {marks : List Mark}
    (present : marks ≠ []) (others : ∀ mark ∈ marks, mark = .other) :
    reading.readMarks marks = reading.step .other := by
  induction marks generalizing reading with
  | nil => exact absurd rfl present
  | cons mark more ih =>
      obtain rfl := others mark List.mem_cons_self
      cases more with
      | nil => rfl
      | cons next rest =>
          have later := ih (reading.step .other) (by simp) fun found member =>
            others found (List.mem_cons_of_mem _ member)
          refine later.trans ?_
          rcases reading with ⟨⟨⟨⟩⟩ | ⟨⟨⟩⟩ | _ | _, commands⟩ | ⟨⟨⟩⟩ | _ | ⟨⟨⟩⟩ | _ <;> rfl

theorem keeps_others {stretch replacement : List Mark} (present : stretch ≠ [])
    (newPresent : replacement ≠ []) (others : ∀ mark ∈ stretch, mark = .other)
    (newOthers : ∀ mark ∈ replacement, mark = .other) : Keeps stretch replacement := fun reading =>
  .inr ((reading.readMarks_others newPresent newOthers).trans
    (reading.readMarks_others present others).symm)

theorem keeps_cons (mark : Mark) {stretch replacement : List Mark}
    (kept : Keeps stretch replacement) : Keeps (mark :: stretch) (mark :: replacement) :=
  fun reading => kept (reading.step mark)

theorem marks_of_mem_shortNames (long short : String) (paired : (long, short) ∈ shortNames) :
    (∀ mark ∈ long.toList.map Mark.of, mark = .other) ∧
      ∀ mark ∈ short.toList.map Mark.of, mark = .other := by
  have others : ∀ names ∈ shortNames,
      ((names.1.toList.map Mark.of).all (· = .other) &&
        (names.2.toList.map Mark.of).all (· = .other)) = true := by
    simp only [shortNames, List.forall_mem_cons]
    repeat rw [String.toList_ofList]
    decide
  simpa using others (long, short) paired

theorem keeps_of_rewrite {before rest stretch replacement : List Char}
    (rewrite : Rewrite before rest stretch replacement) (inLine : '\n' ∉ stretch) :
    Keeps (stretch.map Mark.of) (replacement.map Mark.of) := by
  cases rewrite with
  | unbraced long short paired ends =>
      obtain ⟨longWords, shortWords⟩ := isRun_of_mem_shortNames long short paired
      obtain ⟨longOthers, shortOthers⟩ := marks_of_mem_shortNames long short paired
      have kept : Keeps (.other :: (long.toList.map Mark.of ++ [.other]))
          (short.toList.map Mark.of) := by
        refine keeps_others (by simp) (by simpa using shortWords.1) ?_ shortOthers
        simp only [List.mem_cons, List.mem_append, List.not_mem_nil, or_false]
        rintro mark (rfl | inside | rfl)
        · rfl
        · exact longOthers mark inside
        · rfl
      simp only [List.map_append]
      exact keeps_cons .dollar kept
  | shortened long short paired starts ends =>
      obtain ⟨longWords, shortWords⟩ := isRun_of_mem_shortNames long short paired
      obtain ⟨longOthers, shortOthers⟩ := marks_of_mem_shortNames long short paired
      exact keeps_others (by simpa using longWords.1) (by simpa using shortWords.1) longOthers
        shortOthers
  | command lookup name known named apart =>
      simp only [commandLookups, List.mem_cons, List.not_mem_nil, or_false] at known
      rcases known with rfl | rfl
      · rw [String.toList_ofList, String.toList_ofList, String.toList_ofList, String.toList_ofList]
        simp only [List.map_append]
        rw [List.append_assoc (_ ++ name.map Mark.of)]
        exact keeps_lookup named
      · rw [String.toList_ofList, String.toList_ofList, String.toList_ofList, String.toList_ofList,
          String.toList_ofList]
        simp only [List.map_append]
        rw [List.append_assoc (_ ++ name.map Mark.of)]
        exact keeps_search named
  | homeDirectory name named =>
      rw [String.toList_ofList, String.toList_ofList, String.toList_ofList, String.toList_ofList]
      simp only [List.map_append]
      exact keeps_homeDirectory named
  | clock =>
      rw [String.toList_ofList, String.toList_ofList]
      exact keeps_clock
  | contents name variableText named quoted =>
      rw [String.toList_ofList, String.toList_ofList, String.toList_ofList]
      cases quoted
      · simp only [List.map_append]
        rw [← List.append_assoc, ← List.append_assoc, List.append_assoc (_ ++ name.map Mark.of)]
        exact keeps_contents named
      · simp only [List.map_append]
        rw [← List.append_assoc, ← List.append_assoc, List.append_assoc (_ ++ name.map Mark.of)]
        exact keeps_bracedContents named
  | status apart =>
      rw [String.toList_ofList, String.toList_ofList]
      exact keeps_status
  | test flag opening name variableText known named quoted apart =>
      simp only [variableTests, List.mem_cons, List.not_mem_nil, or_false, Prod.mk.injEq] at known
      rcases known with ⟨rfl, rfl⟩ | ⟨rfl, rfl⟩ | ⟨rfl, rfl⟩ | ⟨rfl, rfl⟩ | ⟨rfl, rfl⟩ | ⟨rfl, rfl⟩ <;>
        rw [String.toList_ofList, String.toList_ofList, String.toList_ofList] <;>
        cases quoted <;>
        simp only [List.map_append] <;>
        rw [← List.append_assoc, ← List.append_assoc, List.append_assoc (_ ++ name.map Mark.of)]
      · exact keeps_test named (.head _)
      · exact keeps_bracedTest named (.head _)
      · exact keeps_test named (.tail _ (.head _))
      · exact keeps_bracedTest named (.tail _ (.head _))
      all_goals first
        | exact keeps_test named (.tail _ (.tail _ (.head _)))
        | exact keeps_bracedTest named (.tail _ (.tail _ (.head _)))
  | blankLine line blank single ends => exact absurd List.mem_cons_self inLine

/-! Blank lines. -/

def QuoteReading.IsFresh (reading : QuoteReading) : Prop :=
  reading = body .blank ∨ reading = lost ∨ ∃ commands,
    reading = inside (.plain .space) commands ∨ reading = inside (.double .other) commands ∨
      reading = inside .single commands

theorem QuoteReading.isFresh_newline (reading : QuoteReading) : (reading.step .newline).IsFresh := by
  rcases reading with ⟨⟨⟨⟩⟩ | ⟨⟨⟩⟩ | _ | _, commands⟩ | ⟨⟨⟩⟩ | _ | ⟨⟨⟩⟩ | _ <;>
    first
    | exact .inl rfl
    | exact .inr (.inl rfl)
    | exact .inr (.inr ⟨_, .inl rfl⟩)
    | exact .inr (.inr ⟨_, .inr (.inl rfl)⟩)
    | exact .inr (.inr ⟨_, .inr (.inr rfl)⟩)

def QuoteReading.IsBlankened (fresh reading : QuoteReading) : Prop :=
  reading = fresh ∨
    ∃ commands, fresh = inside (.plain .space) commands ∧ reading = inside (.plain .other) commands

theorem QuoteReading.step_blank {fresh reading : QuoteReading} (settled : fresh.IsFresh)
    (blankened : fresh.IsBlankened reading) {mark : Mark} (blank : mark.isBlank = true)
    (inLine : mark ≠ .newline) : fresh.IsBlankened (reading.step mark) := by
  rcases blankened with rfl | ⟨commands, rfl, rfl⟩
  · rcases settled with rfl | rfl | ⟨commands, rfl | rfl | rfl⟩ <;> cases mark <;>
      first
      | exact absurd rfl inLine
      | exact Bool.noConfusion blank
      | exact .inl rfl
      | exact .inr ⟨commands, rfl, rfl⟩
  · cases mark <;>
      first
      | exact absurd rfl inLine
      | exact Bool.noConfusion blank
      | exact .inl rfl
      | exact .inr ⟨commands, rfl, rfl⟩

theorem QuoteReading.read_blank {fresh reading : QuoteReading} (settled : fresh.IsFresh)
    (blankened : fresh.IsBlankened reading) {line : List Char}
    (blank : ∀ c ∈ line, Text.isBlank c = true) (inLine : '\n' ∉ line) :
    fresh.IsBlankened (reader.read reading line) := by
  induction line generalizing reading with
  | nil => exact blankened
  | cons c more ih =>
      simp only [List.mem_cons, not_or] at inLine
      refine ih (step_blank settled blankened ?_ fun newline => ?_)
        (fun d member => blank d (List.mem_cons_of_mem c member)) inLine.2
      · rw [Mark.isBlank_of]
        exact blank c List.mem_cons_self
      · exact inLine.1 (Mark.eq_of_newline newline).symm

theorem QuoteReading.isClosed_of_blank {reading fresh : QuoteReading}
    (blankened : (reading.step .newline).IsBlankened fresh) (closed : fresh.isClosed = true) :
    reading.isClosed = true := by
  have settled : (reading.step .newline).isClosed = true := by
    rcases blankened with rfl | ⟨commands, same, rfl⟩
    · exact closed
    · rw [same]
      cases commands with
      | nil => rfl
      | cons command outer => exact Bool.noConfusion closed
  rcases reading with ⟨⟨⟨⟩⟩ | ⟨⟨⟩⟩ | _ | _, (_ | ⟨command, outer⟩)⟩ | ⟨⟨⟩⟩ | _ | ⟨⟨⟩⟩ | _ <;>
    first | rfl | exact Bool.noConfusion settled

theorem QuoteReading.step_newline_of_blank {fresh reading : QuoteReading} (settled : fresh.IsFresh)
    (blankened : fresh.IsBlankened reading) : reading.step .newline = fresh := by
  rcases blankened with rfl | ⟨commands, rfl, rfl⟩
  · rcases settled with rfl | rfl | ⟨commands, rfl | rfl | rfl⟩ <;> rfl
  · rfl

/-! Whole texts. -/

theorem closed_of_rewriting {text changed : List Char} (step : Rewriting text changed)
    (closed : (reader.read reader.start text).isClosed = true) :
    (reader.read reader.start changed).isClosed = true := by
  obtain ⟨before, rest, stretch, replacement, rewrite, rfl, rfl⟩ := step
  by_cases newline : '\n' ∈ stretch
  · obtain ⟨line, rfl, rfl, blank, single, ends⟩ := blank_of_rewrite rewrite newline
    simp only [LineReader.read_append, LineReader.read_cons, List.append_nil] at closed ⊢
    generalize reader.read reader.start before = reading at closed ⊢
    have fresh := reading.isFresh_newline
    have blankened := QuoteReading.read_blank fresh (.inl rfl) blank single
    rcases ends with rfl | head
    · exact QuoteReading.isClosed_of_blank blankened closed
    · obtain ⟨more, rfl⟩ : ∃ more, rest = '\n' :: more := by
        cases rest with
        | nil => simp at head
        | cons c more => exact ⟨more, by simpa using head⟩
      have same : reader.step (reader.read (reader.step reading '\n') line) '\n' =
          reader.step reading '\n' := QuoteReading.step_newline_of_blank fresh blankened
      rw [LineReader.read_cons, same] at closed
      exact closed
  · have kept := keeps_of_rewrite rewrite newline (reader.read reader.start before)
    rw [← QuoteReading.read_eq_readMarks, ← QuoteReading.read_eq_readMarks] at kept
    simp only [LineReader.read_append] at closed ⊢
    rcases kept with gone | same
    · rw [gone, QuoteReading.read_lost] at closed
      exact Bool.noConfusion closed
    · rw [same]
      exact closed

theorem closed_of_rewritten {text changed : List Char} (chain : Rewritten text changed)
    (closed : (reader.read reader.start text).isClosed = true) :
    (reader.read reader.start changed).isClosed = true := by
  induction chain with
  | refl => exact closed
  | tail _ step ih => exact closed_of_rewriting step ih

end StatusLine.Audit

import Mathlib.Algebra.Order.BigOperators.Group.List
import Mathlib.Algebra.Order.Ring.Nat
import StatusLine.Proofs.Audit.Sizes
import StatusLine.Proofs.Shortening.AllOrNothing
import StatusLine.Proofs.Shortening.Repetition
import StatusLine.Proofs.Text.Occurrences

/-!
How much longer shortening can make a text. Two rules put in more than they take out, for the sake
of speed: the one for commands that are asked for, and the one for the clock. Every other rule takes
out at least as much, and none brings up anything that the two would take.
-/

namespace StatusLine.Shortening

open Audit (Savings.size Savings.size_append Savings.size_cons Savings.size_eq_foldr)
open Text (StandsApart occurrences)

/-- How a test starts that asks for a command. -/
def commandTest : List Char :=
  "[ \"$(command -v ".toList

/-- How such a test starts in its other form. -/
def whichTest : List Char :=
  "[ \"$(which ".toList

def costly : List (List Char) :=
  [commandTest, whichTest, clockCommand]

structure NotBeyond (text changed : List Char) : Prop where
  size : Savings.size changed ≤ Savings.size text
  few : ∀ needle ∈ costly, occurrences needle changed ≤ occurrences needle text

theorem NotBeyond.refl (text : List Char) : NotBeyond text text :=
  ⟨Nat.le_refl _, fun _ _ => Nat.le_refl _⟩

theorem NotBeyond.trans {text changed last : List Char} (first : NotBeyond text changed)
    (second : NotBeyond changed last) : NotBeyond text last where
  size := Nat.le_trans second.size first.size
  few needle known := Nat.le_trans (second.few needle known) (first.few needle known)

theorem ne_nil_of_costly {needle : List Char} (known : needle ∈ costly) : needle ≠ [] := by
  have all : ∀ needle ∈ costly, needle ≠ [] := by decide
  exact all needle known

theorem NotBeyond.swap {before stretch replacement rest : List Char}
    (smaller : Savings.size replacement ≤ Savings.size stretch)
    (apart : ∀ needle ∈ costly, StandsApart needle before replacement rest) :
    NotBeyond (before ++ (stretch ++ rest)) (before ++ (replacement ++ rest)) where
  size := by
    simp only [Savings.size_append]
    omega
  few needle known := (apart needle known).occurrences_le (ne_nil_of_costly known) stretch

/-! Names. -/

namespace ShortName

theorem size_short_le (names : ShortName) :
    Savings.size names.short ≤ Savings.size names.long := by
  have all : ∀ names ∈ shortNames,
      Savings.size names.2.toList ≤ Savings.size names.1.toList := by
    simp only [shortNames, List.forall_mem_cons]
    repeat rw [String.toList_ofList]
    decide +kernel
  exact all names.1 names.2

theorem standsApart_short (names : ShortName) {needle : List Char} (known : needle ∈ costly)
    (before rest : List Char) : StandsApart needle before names.short rest := by
  have foreign : ∀ needle ∈ costly, ∀ names ∈ shortNames, ¬ names.2.toList <:+: needle := by
    decide +kernel
  have word := names.isRun.2.2
  have foreign := foreign needle known names.1 names.2
  simp only [costly, List.mem_cons, List.not_mem_nil, or_false] at known
  rcases known with rfl | rfl | rfl
  · exact Text.standsApart_word '[' ' ' rfl rfl rfl rfl word foreign before rest
  · exact Text.standsApart_word '[' ' ' rfl rfl rfl rfl word foreign before rest
  · exact Text.standsApart_word '$' ')' rfl rfl rfl rfl word foreign before rest

theorem standsApart_variable (names : ShortName) {needle : List Char} (known : needle ∈ costly)
    (before rest : List Char) : StandsApart needle before ('$' :: names.short) rest := by
  intro lead tail same
  rcases names.standsApart_short known (before ++ ['$']) rest lead tail (by simpa using same) with
    ⟨between, whole⟩ | ⟨between, whole⟩
  · rcases List.eq_nil_or_concat between with rfl | ⟨front, last, rfl⟩
    · have ends : needle.getLast? = some '$' := by
        have last := congrArg List.getLast? whole
        rwa [List.append_nil, List.getLast?_append_of_ne_nil _ (ne_nil_of_costly known),
          List.getLast?_concat, eq_comm] at last
      have never : ∀ needle ∈ costly, needle.getLast? ≠ some '$' := by decide
      exact absurd ends (never needle known)
    · rw [List.concat_eq_append, ← List.append_assoc] at whole
      exact .inl ⟨front, (List.append_inj' whole rfl).1⟩
  · exact .inr ⟨between, by simpa using whole⟩

theorem notBeyond_renamed (names : ShortName) (text : List Char) :
    NotBeyond text (renamed names.long names.short text) := by
  have smaller := names.size_short_le
  have unbraced : NotBeyond text ((braced names.long).replace (fun _ => '$' :: names.short) text) := by
    refine Pattern.replace_keeps (fun before stretch rest captures takes => ?_) text (.refl text)
    obtain ⟨_, rfl, nothing⟩ := takesAll_literal takes
    obtain ⟨rfl, rfl⟩ := takesAll_nil nothing
    refine ⟨by simp, fun now => now.trans (.swap ?_ fun needle known =>
      names.standsApart_variable known before rest)⟩
    rw [List.append_nil, Savings.size_append, Savings.size_append, Savings.size_cons]
    have opening : Savings.size ['$', '{'] = 2 := by rw [Savings.size_eq_foldr]; decide
    have closing : Savings.size ['}'] = 1 := by rw [Savings.size_eq_foldr]; decide
    have dollar : '$'.utf8Size = 1 := by decide
    omega
  rw [renamed]
  refine Pattern.replace_keeps (fun before stretch rest captures takes => ?_) _ unbraced
  obtain ⟨_, rfl, nothing⟩ := takesAll_literal takes
  obtain ⟨rfl, rfl⟩ := takesAll_nil nothing
  refine ⟨by simpa using names.isRun.1.1, fun now => now.trans (.swap ?_ fun needle known =>
    names.standsApart_short known before rest)⟩
  rwa [List.append_nil]

theorem skip_of_absent (names : ShortName) {text : List Char} (absent : ¬ names.long <:+: text) :
    names.rule.skip text = true := by
  have nowhere : (token names.long).occursIn text = false := by
    rw [← Bool.not_eq_true, Pattern.occursIn, Text.somewhere_iff]
    rintro ⟨before, rest, rfl, found⟩
    obtain ⟨inner, here⟩ := Option.isSome_iff_exists.mp found
    obtain ⟨stretch, rfl, takes, -⟩ := Pattern.find_spec _ _ rest inner here
    obtain ⟨others, rfl, -⟩ := takesAll_literal takes
    exact absent ⟨before, others ++ inner.rest, by simp⟩
  have skips : names.rule.skip text =
      ((token names.short).occursIn text || !(token names.long).occursIn text) := rfl
  rw [skips, nowhere, Bool.not_false, Bool.or_true]

theorem notBeyond_apply (names : ShortName) {text changed : List Char}
    (applied : names.rule.apply text = .ok changed) : NotBeyond text changed := by
  rw [apply_rule] at applied
  obtain rfl := Except.ok.inj applied
  split
  · exact .refl text
  · exact names.notBeyond_renamed text

end ShortName

/-! Idioms. -/

theorem QuotedVariable.size_ge {name variableText : List Char}
    (quoted : QuotedVariable name variableText) :
    Savings.size name + 3 ≤ Savings.size variableText := by
  have opening : Savings.size ['"', '$'] = 2 := by rw [Savings.size_eq_foldr]; decide
  have closing : Savings.size ['"'] = 1 := by rw [Savings.size_eq_foldr]; decide
  have braces : Savings.size ['"', '$', '{'] = 3 ∧ Savings.size ['}', '"'] = 2 := by
    simp only [Savings.size_eq_foldr]
    decide
  cases quoted with
  | bare =>
      simp only [Savings.size_append]
      omega
  | braced =>
      simp only [Savings.size_append]
      omega

theorem Rewrite.size_le {before rest stretch replacement : List Char}
    (rewrite : Rewrite before rest stretch replacement) (opens : Opens idiomLetters none stretch)
    (quiet : replacement.head? ≠ some 'c') : Savings.size replacement ≤ Savings.size stretch := by
  cases rewrite with
  | unbraced long short paired ends => simp [Opens, idiomLetters] at opens
  | shortened long short paired starts ends => exact ShortName.size_short_le ⟨_, paired⟩
  | command lookup name known named apart => exact absurd rfl quiet
  | homeDirectory name named =>
      have before : Savings.size "$(echo \"$".toList = 9 := by rw [Savings.size_eq_foldr]; decide
      have behind : Savings.size "\" | sed \"s|^$HOME|~|g\")".toList = 23 := by
        rw [Savings.size_eq_foldr]
        decide
      have lead : Savings.size "$\x7b".toList = 2 := by rw [Savings.size_eq_foldr]; decide
      have tail : Savings.size "/#$HOME/\\~\x7d".toList = 11 := by
        rw [Savings.size_eq_foldr]
        decide
      simp only [Savings.size_append, before, behind, lead, tail]
      omega
  | clock => simp [Opens, idiomLetters] at opens
  | contents name variableText named quoted =>
      have before : Savings.size "$(cat ".toList = 6 := by rw [Savings.size_eq_foldr]; decide
      have behind : Savings.size [')'] = 1 := by rw [Savings.size_eq_foldr]; decide
      have lead : Savings.size "$(<\"$".toList = 5 := by rw [Savings.size_eq_foldr]; decide
      have tail : Savings.size "\")".toList = 2 := by rw [Savings.size_eq_foldr]; decide
      have inner := quoted.size_ge
      simp only [Savings.size_append, before, behind, lead, tail]
      omega
  | status apart =>
      simp only [Savings.size_eq_foldr]
      decide
  | test flag opening name variableText known named quoted apart =>
      have flagged : ∀ test ∈ variableTests,
          Savings.size test.2 ≤ Savings.size test.1 + 4 := by
        simp only [Savings.size_eq_foldr]
        decide
      have before : Savings.size ['[', ' '] = 2 := by rw [Savings.size_eq_foldr]; decide
      have behind : Savings.size [' ', ']'] = 2 := by rw [Savings.size_eq_foldr]; decide
      have tail : Savings.size " ]]".toList = 3 := by rw [Savings.size_eq_foldr]; decide
      have lead := flagged _ known
      have inner := quoted.size_ge
      simp only [Savings.size_append, before, behind, tail] at lead ⊢
      omega
  | blankLine line blank single ends =>
      rw [Savings.size_eq_foldr]
      exact Nat.zero_le _

theorem standsApart_swap {stretch replacement : List Char}
    (swap : Swap commandLetters stretch replacement) (before rest : List Char) :
    StandsApart clockCommand before replacement rest := by
  intro lead tail same
  rcases (sought_clock lead.getLast?).apart swap same with ⟨between, whole, -⟩ | ⟨between, whole, -⟩
  · exact .inl ⟨between, whole⟩
  · exact .inr ⟨between, whole⟩

theorem clocks_le {idiom : Idiom} (member : idiom ∈ idioms) {text changed : List Char}
    (applied : (idiom.rule none).apply text = .ok changed) :
    occurrences clockCommand changed ≤ occurrences clockCommand text := by
  refine @IdiomPlace.rule_keeps idiom member
    (fun now => occurrences clockCommand now ≤ occurrences clockCommand text)
    (fun before stretch captures rest takes now => ?_) text changed (Nat.le_refl _) applied
  have apart := standsApart_swap (swap_idiom member takes) before rest
  exact Nat.le_trans (apart.occurrences_le clockCommand_ne_nil stretch) now

def quietIdioms : List Idiom :=
  [homeAbbreviation, catRedirect, statusCheck, nonemptyTest, emptyTest, fileTest]

theorem mem_idioms_of_quiet {idiom : Idiom} (quiet : idiom ∈ quietIdioms) : idiom ∈ idioms :=
  List.mem_cons_of_mem commandCheck quiet

theorem size_le_of_quiet {idiom : Idiom} (quiet : idiom ∈ quietIdioms) {text changed : List Char}
    (applied : (idiom.rule none).apply text = .ok changed) :
    Savings.size changed ≤ Savings.size text := by
  have member := mem_idioms_of_quiet quiet
  have other : ∀ captures, (idiom.form captures).head? ≠ some 'c' := by
    intro captures
    simp only [quietIdioms, List.mem_cons, List.not_mem_nil, or_false] at quiet
    rcases quiet with rfl | rfl | rfl | rfl | rfl | rfl <;>
      simp [homeAbbreviation, catRedirect, statusCheck, nonemptyTest, emptyTest, fileTest]
  rw [IdiomPlace.apply_rule] at applied
  obtain rfl := Except.ok.inj applied
  split
  · refine @Pattern.replace_keeps _ _ (fun now => Savings.size now ≤ Savings.size text)
      (fun before stretch rest captures takes => ⟨(swap_idiom member takes).ne_nil, fun now => ?_⟩)
      text (Nat.le_refl _)
    have smaller := (rewrite_of_takesAll member takes).size_le (opens_idiom member takes)
      (other captures)
    simp only [Savings.size_append] at now ⊢
    omega
  · exact Nat.le_refl _

/-! Commands that are asked for. -/

def commandCost (text : List Char) : Nat :=
  7 * occurrences commandTest text + 12 * occurrences whichTest text

theorem commandCost_append_le (text more : List Char) :
    commandCost text + commandCost more ≤ commandCost (text ++ more) := by
  have tests := Text.occurrences_append_le commandTest text more
  have others := Text.occurrences_append_le whichTest text more
  simp only [commandCost]
  omega

theorem size_commandCheck {stretch : List Char} {captures : List (List Char)}
    (takes : TakesAll commandCheck.pattern.elements stretch captures) :
    Savings.size (commandCheck.form captures) ≤ Savings.size stretch + commandCost stretch := by
  obtain ⟨_, rfl, opened⟩ := takesAll_literal takes
  obtain ⟨_, rfl, asked⟩ := takesAll_literal opened
  obtain ⟨lookup, known, _, rfl, looked⟩ := takesAll_either asked
  obtain ⟨name, _, _, named, rfl, rfl, behind⟩ := takesAll_run looked
  obtain ⟨_, rfl, closed⟩ := takesAll_literal behind
  obtain ⟨_, rfl, nothing⟩ := takesAll_literal closed
  obtain ⟨rfl, rfl⟩ := takesAll_nil nothing
  have form : Savings.size (commandCheck.form [name]) = Savings.size name + 27 := by
    have lead : Savings.size "command -v ".toList = 11 := by rw [Savings.size_eq_foldr]; decide
    have tail : Savings.size " >/dev/null 2>&1".toList = 16 := by rw [Savings.size_eq_foldr]; decide
    simp only [commandCheck, capture, List.getD_cons_zero, Savings.size_append, lead, tail]
    omega
  have closing : Savings.size (")\"".toList ++ ([' ', ']'] ++ [])) = 4 := by
    rw [Savings.size_eq_foldr]
    decide
  have tested (test : List Char) (cost : Nat) (costs : commandCost test = cost)
      (sized : Savings.size test + cost = 23) :
      Savings.size (commandCheck.form [name]) ≤
        Savings.size (test ++ (name ++ (")\"".toList ++ ([' ', ']'] ++ [])))) +
          commandCost (test ++ (name ++ (")\"".toList ++ ([' ', ']'] ++ [])))) := by
    have costly := commandCost_append_le test (name ++ (")\"".toList ++ ([' ', ']'] ++ [])))
    simp only [form, Savings.size_append test, Savings.size_append name, closing]
    omega
  simp only [List.mem_cons, List.not_mem_nil, or_false] at known
  rcases known with rfl | rfl
  · exact tested commandTest 7 (by decide +kernel) (by rw [Savings.size_eq_foldr]; decide)
  · exact tested whichTest 12 (by decide +kernel) (by rw [Savings.size_eq_foldr]; decide)

theorem size_le_of_commandCheck {text changed : List Char}
    (applied : (commandCheck.rule none).apply text = .ok changed) :
    Savings.size changed ≤ Savings.size text + commandCost text := by
  rw [IdiomPlace.apply_rule] at applied
  obtain rfl := Except.ok.inj applied
  split
  · obtain ⟨-, paid⟩ := Text.substitute_keeps (commandCheck.pattern.replacement commandCheck.form)
      (fun done _ rest =>
        Savings.size (done ++ rest) + commandCost rest ≤ Savings.size text + commandCost text)
      (fun done _ c rest _ now => by
        have fewer := commandCost_append_le [c] rest
        rw [List.append_assoc, List.singleton_append] at *
        omega)
      (fun done previous here found replaced now => by
        obtain ⟨stretch, rest, captures, rfl, takes, -, -, rfl⟩ :=
          Pattern.replacement_eq_some replaced
        have costs := size_commandCheck takes
        have fewer := commandCost_append_le stretch rest
        refine ⟨stretch, rest, rfl, (swap_idiom (by simp [idioms]) takes).ne_nil, rfl, ?_⟩
        simp only [Savings.size_append] at now ⊢
        omega)
      [] none text (Nat.le_refl _)
    rw [List.nil_append, List.append_nil] at paid
    exact Nat.le_trans (Nat.le_add_right _ _) paid
  · exact Nat.le_add_right _ _

/-! The clock. -/

theorem length_le_occurrences {needle : List Char} (present : needle ≠ [])
    (piece : List Char) (pieces : List (List Char)) :
    pieces.length ≤ occurrences needle (Text.joinWith needle (piece :: pieces)) := by
  induction pieces generalizing piece with
  | nil => exact Nat.zero_le _
  | cons next more ih =>
      have here := Text.occurrences_self_pos present
      have later := ih next
      have lead := Text.occurrences_append_le needle (piece ++ needle)
        (Text.joinWith needle (next :: more))
      have inner := Text.occurrences_append_le needle piece needle
      rw [Text.joinWith_cons_cons, List.length_cons]
      omega

theorem size_joinWith (separator piece : List Char) (pieces : List (List Char)) :
    Savings.size (Text.joinWith separator (piece :: pieces)) =
      ((piece :: pieces).map Savings.size).sum + pieces.length * Savings.size separator := by
  induction pieces generalizing piece with
  | nil => simp [Text.joinWith]
  | cons next more ih =>
      rw [Text.joinWith_cons_cons, Savings.size_append, Savings.size_append, ih]
      simp only [List.map_cons, List.sum_cons, List.length_cons, Nat.add_mul]
      omega

theorem size_replaceAll_clock (text : List Char) :
    Savings.size (Text.replaceAll clockCommand clockVariable text) ≤
      Savings.size text + 17 * occurrences clockCommand text := by
  obtain ⟨piece, pieces, shape⟩ := List.exists_cons_of_ne_nil
    (Text.splitFrom_ne_nil clockCommand 0 text)
  have whole := Text.joinWith_splitOn clockCommand clockCommand_ne_nil text
  rw [Text.replaceAll_of_ne_nil _ _ _ clockCommand_ne_nil]
  replace shape : Text.splitOn clockCommand text = piece :: pieces := shape
  rw [shape] at whole ⊢
  have often := length_le_occurrences clockCommand_ne_nil piece pieces
  have before := size_joinWith clockCommand piece pieces
  have command : Savings.size clockCommand = 11 := by rw [Savings.size_eq_foldr]; decide
  have target : Savings.size clockVariable = 28 := by rw [Savings.size_eq_foldr]; decide
  rw [whole] at often before
  rw [size_joinWith, before, command, target]
  omega

theorem size_clockReplaced (text : List Char) :
    Savings.size (clockReplaced text) ≤ Savings.size text + 17 * occurrences clockCommand text := by
  have pieces : ∀ pieces : List (List Char),
      Savings.size (Text.joinWith clockVariable
        (pieces.map (Text.replaceAll clockCommand clockVariable))) ≤
        Savings.size (Text.joinWith clockVariable pieces) +
          17 * occurrences clockCommand (Text.joinWith clockVariable pieces) := by
    intro pieces
    induction pieces with
    | nil => exact Nat.le_add_right _ _
    | cons piece more ih =>
        cases more with
        | nil => exact size_replaceAll_clock piece
        | cons next others =>
            have here := size_replaceAll_clock piece
            have lead := Text.occurrences_append_le clockCommand piece clockVariable
            have all := Text.occurrences_append_le clockCommand (piece ++ clockVariable)
              (Text.joinWith clockVariable (next :: others))
            rw [List.map_cons, List.map_cons, Text.joinWith_cons_cons, Text.joinWith_cons_cons]
            rw [List.map_cons] at ih
            simp only [Savings.size_append]
            omega
  have whole := pieces (Text.splitOn clockVariable text)
  rwa [Text.joinWith_splitOn clockVariable clockVariable_ne_nil text] at whole

theorem size_le_of_epochSeconds {text changed : List Char}
    (applied : epochSeconds.apply text = .ok changed) :
    Savings.size changed ≤ Savings.size text + 17 * occurrences clockCommand text := by
  rw [apply_epochSeconds] at applied
  obtain rfl := Except.ok.inj applied
  exact size_clockReplaced text

/-! Blank lines. -/

theorem size_shortenBlankRuns_le (text : List Char) :
    Savings.size (shortenBlankRuns text) ≤ Savings.size text := by
  have sized (lines : List (List Char)) : Savings.size (Text.joinLines lines) =
      (lines.map Savings.size).sum + (lines.length - 1) := by
    have newline : Savings.size ['\n'] = 1 := by rw [Savings.size_eq_foldr]; decide
    cases lines with
    | nil =>
        rw [Savings.size_eq_foldr]
        rfl
    | cons line rest =>
        rw [Text.joinLines, size_joinWith, newline, Nat.mul_one]
        rfl
  have kept := keptLines_sublist .start (Text.splitLines text)
  have fewer := kept.length_le
  have smaller := (kept.map Savings.size).sum_le_sum fun _ _ => Nat.zero_le _
  have whole := sized (Text.splitLines text)
  rw [Text.joinLines_splitLines] at whole
  rw [shortenBlankRuns, sized, whole]
  omega

/-! A whole run. -/

theorem Applied.split {rules more : List Rule} {text changed : List Char}
    (chain : Applied (rules ++ more) text changed) :
    ∃ between, Applied rules text between ∧ Applied more between changed := by
  induction rules generalizing text with
  | nil => exact ⟨text, .done text, chain⟩
  | cons rule rules ih =>
      cases chain with
      | next applied others =>
          obtain ⟨between, first, second⟩ := ih others
          exact ⟨between, .next applied first, second⟩

theorem Applied.size_le {rules : List Rule}
    (each : ∀ rule ∈ rules, ∀ text changed, rule.apply text = .ok changed →
      Savings.size changed ≤ Savings.size text)
    {text changed : List Char} (chain : Applied rules text changed) :
    Savings.size changed ≤ Savings.size text := by
  induction chain with
  | done text => exact Nat.le_refl _
  | next applied _ ih =>
      have later := ih fun rule member => each rule (List.mem_cons_of_mem _ member)
      exact Nat.le_trans later (each _ List.mem_cons_self _ _ applied)

theorem Applied.notBeyond {names : List ShortName} {text changed : List Char}
    (chain : Applied (names.map ShortName.rule) text changed) : NotBeyond text changed := by
  induction names generalizing text with
  | nil =>
      cases chain
      exact .refl _
  | cons name names ih =>
      cases chain with
      | next applied others => exact (name.notBeyond_apply applied).trans (ih others)

def cost (text : List Char) : Nat :=
  commandCost text + 17 * occurrences clockCommand text

theorem NotBeyond.cost_le {text changed : List Char} (within : NotBeyond text changed) :
    cost changed ≤ cost text := by
  have tests := within.few commandTest (by simp [costly])
  have others := within.few whichTest (by simp [costly])
  have clocks := within.few clockCommand (by simp [costly])
  simp only [cost, commandCost]
  omega

theorem Applied.size_idioms_le {text changed : List Char}
    (chain : Applied idiomRules text changed) :
    Savings.size changed ≤ Savings.size text + cost text := by
  have apart : Applied ([commandCheck.rule none, homeAbbreviation.rule none, epochSeconds] ++
      [catRedirect, statusCheck, nonemptyTest, emptyTest, fileTest].map (Idiom.rule · none))
      text changed := chain
  obtain ⟨timed, first, quiet⟩ := apart.split
  rcases first with _ | ⟨asked, _ | ⟨abbreviated, _ | ⟨read, _ | _⟩⟩⟩
  have later : Savings.size changed ≤ Savings.size timed := by
    refine quiet.size_le fun rule member before after applied => ?_
    obtain ⟨idiom, known, rfl⟩ := List.mem_map.mp member
    exact size_le_of_quiet (List.mem_cons_of_mem homeAbbreviation known) applied
  have command := size_le_of_commandCheck asked
  have home := size_le_of_quiet (.head _) abbreviated
  have clock := size_le_of_epochSeconds read
  have fewer := clocks_le (by simp [idioms]) asked
  have still := clocks_le (by simp [idioms]) abbreviated
  simp only [cost]
  omega

theorem Applied.size_passes_le {options : Options} {text changed : List Char}
    (chain : Applied (rulesOf (passes options)) text changed) :
    Savings.size changed ≤ Savings.size text + cost text := by
  rw [rulesOf, passes, List.flatMap_append] at chain
  obtain ⟨named, first, second⟩ := chain.split
  have within : NotBeyond text named := by
    split at first
    · have first : Applied identifierRules text named := by simpa using first
      have renamed : Applied (shortNames.attach.map ShortName.rule) text named := first
      exact renamed.notBeyond
    · cases first
      exact .refl text
  have asked : Savings.size changed ≤ Savings.size named + cost named := by
    split at second
    · exact Applied.size_idioms_le (by simpa using second)
    · cases second
      exact Nat.le_add_right _ _
  have smaller := within.size
  have fewer := within.cost_le
  omega

theorem optimize_of_absent {text : List Char} (absent : ∀ names : ShortName, ¬ names.long <:+: text) :
    optimize .all text = optimize ⟨false, true, true⟩ text := by
  have still : Progress.applyPass ⟨[], .ok text⟩ ⟨"identifiers", identifierRules⟩ =
      ⟨[], .ok text⟩ :=
    ShortName.settleTogether.apply_still "identifiers" shortNames.attach [] text
      fun names _ => names.skip_of_absent (absent names)
  have both : passes .all = ⟨"identifiers", identifierRules⟩ :: passes ⟨false, true, true⟩ := rfl
  rw [optimize, optimize, both, run, List.foldl_cons, still]
  rfl

/-- A shortened text is larger than the raw one by no more than some bytes for each test that asks
for a command and for each time that the clock is read. -/
theorem size_optimize_le (options : Options) (text : List Char) :
    Savings.size (optimize options text).text ≤ Savings.size text +
      7 * Text.count commandTest text + 12 * Text.count whichTest text +
        17 * Text.count clockCommand text := by
  have tests : Text.count commandTest text = occurrences commandTest text :=
    Text.count_eq_occurrences '[' rfl (by decide) text
  have others : Text.count whichTest text = occurrences whichTest text :=
    Text.count_eq_occurrences '[' rfl (by decide) text
  have clocks : Text.count clockCommand text = occurrences clockCommand text :=
    Text.count_eq_occurrences '$' rfl (by decide) text
  have bounded : Savings.size (optimize options text).text ≤ Savings.size text + cost text := by
    rw [optimize]
    rcases applied_or_fails (rulesOf (passes options)) text with ⟨failure, fails⟩ | ⟨changed, chain⟩
    · rw [(run_of_fails fails options.blankRuns).1]
      exact Nat.le_add_right _ _
    · have within := chain.size_passes_le
      rw [run_of_applied chain options.blankRuns]
      split
      · exact Nat.le_trans (size_shortenBlankRuns_le changed) within
      · exact within
  simp only [cost, commandCost] at bounded
  omega

end StatusLine.Shortening

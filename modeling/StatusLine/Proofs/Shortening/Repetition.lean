import StatusLine.Proofs.Shortening.AllOrNothing
import StatusLine.Proofs.Shortening.Clock
import StatusLine.Proofs.Shortening.Renaming

/-!
Shortening twice. Every rule leaves a text in which it finds nothing more to do, and no other rule
of its pass brings anything up for it, so a pass has settled after one run. Two passes together have
not: a lookup of a command loses the brackets around it, and what stood next to them can grow
together with it, so that a short name that kept a long one from being shortened is gone for the
second run.
-/

namespace StatusLine.Shortening

/-- A second run of a pass changes nothing, and notes nothing. -/
def Pass.SettlesAtOnce (pass : Pass) : Prop :=
  ∀ text, ∃ log changed, Progress.applyPass ⟨[], .ok text⟩ pass = ⟨log, .ok changed⟩ ∧
    Progress.applyPass ⟨[], .ok changed⟩ pass = ⟨[], .ok changed⟩

structure SettleTogether {ι : Type} (rule : ι → Rule) (Rests : ι → List Char → Prop) : Prop where
  still : ∀ i text, Rests i text → (rule i).apply text = .ok text
  acts : ∀ i text, ∃ changed, (rule i).apply text = .ok changed ∧ Rests i changed
  keeps : ∀ i j text changed, Rests i text → (rule j).apply text = .ok changed → Rests i changed

namespace SettleTogether

variable {ι : Type} {rule : ι → Rule} {Rests : ι → List Char → Prop}

theorem apply_still (together : SettleTogether rule Rests) (name : String) (ids : List ι)
    (log : List String) (text : List Char) (rests : ∀ i ∈ ids, Rests i text) :
    (ids.map rule).foldl (Progress.apply name) ⟨log, .ok text⟩ = ⟨log, .ok text⟩ := by
  induction ids with
  | nil => rfl
  | cons i more ih =>
      have here := together.still i text (rests i List.mem_cons_self)
      have step : Progress.apply name ⟨log, .ok text⟩ (rule i) = ⟨log, .ok text⟩ := by
        simp [Progress.apply, here]
      rw [List.map_cons, List.foldl_cons, step]
      exact ih fun j member => rests j (List.mem_cons_of_mem i member)

theorem apply_rests (together : SettleTogether rule Rests) (name : String) (ids done : List ι)
    (log : List String) (text : List Char) (rests : ∀ i ∈ done, Rests i text) :
    ∃ notes changed, (ids.map rule).foldl (Progress.apply name) ⟨log, .ok text⟩ =
      ⟨notes, .ok changed⟩ ∧ ∀ i, i ∈ done ∨ i ∈ ids → Rests i changed := by
  -- What has run is at rest, and the next rule keeps it so: `done` grows by one rule in each step.
  induction ids generalizing done log text with
  | nil => exact ⟨log, text, rfl, fun i member => rests i (by simpa using member)⟩
  | cons i more ih =>
      obtain ⟨next, applied, settled⟩ := together.acts i text
      have kept : ∀ j ∈ i :: done, Rests j next := by
        intro j member
        rcases List.mem_cons.mp member with rfl | before
        · exact settled
        · exact together.keeps j i text next (rests j before) applied
      obtain ⟨notes, changed, run, rest⟩ := ih (i :: done)
        (if next = text then log else log ++ [name ++ ": applied " ++ (rule i).name]) next kept
      refine ⟨notes, changed, ?_, fun j member => rest j ?_⟩
      · rw [List.map_cons, List.foldl_cons, ← run]
        simp only [Progress.apply, applied]
      · simpa [or_assoc, or_left_comm, or_comm] using member

theorem applied_still (together : SettleTogether rule Rests) (ids : List ι) {text : List Char}
    (rests : ∀ i ∈ ids, Rests i text) : Applied (ids.map rule) text text := by
  induction ids with
  | nil => exact .done text
  | cons i more ih =>
      exact .next (together.still i text (rests i List.mem_cons_self))
        (ih fun j member => rests j (List.mem_cons_of_mem i member))

theorem applied_rests (together : SettleTogether rule Rests) (ids : List ι) (text : List Char) :
    ∃ changed, Applied (ids.map rule) text changed ∧ ∀ i ∈ ids, Rests i changed := by
  obtain ⟨notes, changed, run, rests⟩ := together.apply_rests "" ids [] [] text (by simp)
  have reached := Progress.result_applyPass ⟨[], .ok text⟩ ⟨"", ids.map rule⟩
  rw [Progress.applyPass, run] at reached
  exact ⟨changed, (applyAll_eq_ok_iff _ text changed).mp reached.symm, fun i member =>
    rests i (.inr member)⟩

theorem settlesAtOnce (together : SettleTogether rule Rests) (name : String) (ids : List ι) :
    Pass.SettlesAtOnce ⟨name, ids.map rule⟩ := by
  intro text
  obtain ⟨log, changed, run, rests⟩ := together.apply_rests name ids [] [] text (by simp)
  exact ⟨log, changed, run, together.apply_still name ids [] changed fun i member =>
    rests i (.inr member)⟩

end SettleTogether

/-! The names. -/

abbrev ShortName : Type :=
  { names : String × String // names ∈ shortNames }

namespace ShortName

def long (names : ShortName) : List Char := names.1.1.toList

def short (names : ShortName) : List Char := names.1.2.toList

def rule (names : ShortName) : Rule := identifierRule names.long names.short

theorem isRun (names : ShortName) : IsRun Text.isWord names.long ∧ IsRun Text.isWord names.short :=
  isRun_of_mem_shortNames names.1.1 names.1.2 names.2

theorem apart (names others : ShortName) (different : names ≠ others) :
    others.long ≠ names.long ∧ others.short ≠ names.long ∧ others.long ≠ names.short ∧
      others.short ≠ names.short := by
  have all : ∀ names ∈ shortNames, ∀ others ∈ shortNames, names ≠ others →
      others.1 ≠ names.1 ∧ others.2 ≠ names.1 ∧ others.1 ≠ names.2 ∧ others.2 ≠ names.2 := by
    decide +kernel
  have strings := all names.1 names.2 others.1 others.2 fun same => different (Subtype.ext same)
  simpa only [long, short, ne_eq, String.toList_inj] using strings

theorem apply_rule (names : ShortName) (text : List Char) :
    names.rule.apply text = .ok (if names.rule.skip text then text
      else renamed names.long names.short text) := by
  rw [Rule.apply]
  split <;> rfl

theorem skip_renamed (names : ShortName) (text : List Char) (acts : names.rule.skip text = false) :
    names.rule.skip (renamed names.long names.short text) = true := by
  rw [rule, skip_identifierRule, Bool.or_eq_false_iff, Bool.not_eq_false'] at acts
  have found := occursBehind_short names.isRun.1 names.isRun.2 text acts.2
  rw [renamedBehind_none] at found
  rw [rule, skip_identifierRule, found, Bool.true_or]

theorem occursBehind_renamed_other (names others : ShortName) (different : names ≠ others)
    (text : List Char) :
    occursBehind names.long none (renamed others.long others.short text) =
        occursBehind names.long none text ∧
      occursBehind names.short none (renamed others.long others.short text) =
        occursBehind names.short none text := by
  obtain ⟨longLong, shortLong, longShort, shortShort⟩ := names.apart others different
  have kept : ∀ name, IsRun Text.isWord name → others.long ≠ name → others.short ≠ name →
      occursBehind name none (renamed others.long others.short text) =
        occursBehind name none text := fun name letters notLong notShort =>
    occursBehind_renamedBehind others.isRun.1 others.isRun.2 letters notLong notShort text
  exact ⟨kept _ names.isRun.1 longLong shortLong, kept _ names.isRun.2 longShort shortShort⟩

theorem skip_renamed_other (names others : ShortName) (different : names ≠ others)
    (text : List Char) :
    names.rule.skip (renamed others.long others.short text) = names.rule.skip text := by
  obtain ⟨sameLong, sameShort⟩ := names.occursBehind_renamed_other others different text
  rw [rule, skip_identifierRule, skip_identifierRule, sameLong, sameShort]

theorem settleTogether : SettleTogether rule fun names text => names.rule.skip text = true where
  still names text skips := names.rule.apply_of_skip text skips
  acts names text := by
    refine ⟨_, names.apply_rule text, ?_⟩
    split
    · assumption
    · rename_i acts
      exact names.skip_renamed text (by simpa using acts)
  keeps := by
    intro names others text changed skips applied
    obtain rfl := Except.ok.inj ((others.apply_rule text).symm.trans applied)
    split
    · exact skips
    · rename_i acts
      have different : names ≠ others := by
        rintro rfl
        exact acts skips
      rw [names.skip_renamed_other others different, skips]

end ShortName

/-! The idioms. -/

abbrev IdiomPlace : Type :=
  Option { idiom : Idiom // idiom ∈ idioms }

namespace IdiomPlace

def rule : IdiomPlace → Rule
  | some idiom => idiom.1.rule none
  | none => epochSeconds

def Rests : IdiomPlace → List Char → Prop
  | some idiom => idiom.1.pattern.Absent
  | none => ClockSettled

theorem apply_rule (idiom : Idiom) (text : List Char) :
    (idiom.rule none).apply text =
      .ok (if idiom.pattern.occursIn text then idiom.pattern.replace idiom.form text
        else text) := by
  have skips : (idiom.rule none).skip text = !idiom.pattern.occursIn text := rfl
  rw [Rule.apply, skips]
  cases idiom.pattern.occursIn text <;> rfl

theorem rule_keeps {idiom : Idiom} (member : idiom ∈ idioms) {Holds : List Char → Prop}
    (kept : ∀ before stretch captures rest, TakesAll idiom.pattern.elements stretch captures →
      Holds (before ++ (stretch ++ rest)) → Holds (before ++ (idiom.form captures ++ rest)))
    {text changed : List Char} (holds : Holds text)
    (applied : (idiom.rule none).apply text = .ok changed) : Holds changed := by
  rw [apply_rule] at applied
  obtain rfl := Except.ok.inj applied
  split
  · refine Pattern.replace_keeps (fun before stretch rest captures takes => ?_) text holds
    exact ⟨(swap_idiom member takes).ne_nil, kept before stretch captures rest takes⟩
  · exact holds

theorem settleTogether : SettleTogether rule Rests where
  still
    | none, _, settled => epochSeconds_still settled
    | some ⟨idiom, member⟩, text, absent => by
        have nowhere := (Pattern.absent_iff (isDetermined_idiom member)).mp absent
        rw [rule, apply_rule, nowhere]
        rfl
  acts
    | none, text => epochSeconds_acts text
    | some ⟨idiom, member⟩, text => by
        refine ⟨_, apply_rule idiom text, ?_⟩
        split
        · exact Pattern.replace_absent (isDetermined_idiom member)
            ((seeks_idiom member).mono idiomLetters_known) (fun _ _ => swap_idiom member) text
        · rename_i nowhere
          exact (Pattern.absent_iff (isDetermined_idiom member)).mpr (by simpa using nowhere)
  keeps
    | none, none, text, changed, settled, applied => by
        obtain rfl := Except.ok.inj ((epochSeconds_still settled).symm.trans applied)
        exact settled
    | some ⟨idiom, member⟩, none, _, _, absent, applied =>
        epochSeconds_absent (seeks_idiom member) absent applied
    | none, some ⟨idiom, member⟩, _, _, settled, applied =>
        rule_keeps member (fun _ _ _ _ takes now => ClockSettled.swap now (swap_idiom member takes))
          settled applied
    | some ⟨idiom, member⟩, some ⟨other, known⟩, _, _, absent, applied =>
        rule_keeps known (fun _ _ _ _ takes now =>
          Pattern.Absent.swap now ((seeks_idiom member).mono idiomLetters_known)
            (swap_idiom known takes))
        absent applied

end IdiomPlace

theorem identifierRules_eq : identifierRules = shortNames.attach.map ShortName.rule := rfl

def idiomPlaces : List IdiomPlace :=
  [some ⟨commandCheck, by simp [idioms]⟩, some ⟨homeAbbreviation, by simp [idioms]⟩, none,
    some ⟨catRedirect, by simp [idioms]⟩, some ⟨statusCheck, by simp [idioms]⟩,
    some ⟨nonemptyTest, by simp [idioms]⟩, some ⟨emptyTest, by simp [idioms]⟩,
    some ⟨fileTest, by simp [idioms]⟩]

theorem idiomRules_eq : idiomRules = idiomPlaces.map IdiomPlace.rule := rfl

/-- Each pass settles: a second run of its rules gives the text of the first. -/
theorem passes_settle_at_once (name : String) :
    Pass.SettlesAtOnce ⟨name, identifierRules⟩ ∧ Pass.SettlesAtOnce ⟨name, idiomRules⟩ := by
  rw [identifierRules_eq, idiomRules_eq]
  exact ⟨ShortName.settleTogether.settlesAtOnce name _,
    IdiomPlace.settleTogether.settlesAtOnce name _⟩

/-! Two passes. -/

theorem optimize_twice_goes_on :
    (optimize .all "cwd[ \"$(which foo)\" ] current_directory_path".toList).text =
        "cwdcommand -v foo >/dev/null 2>&1 current_directory_path".toList ∧
      (optimize .all "cwdcommand -v foo >/dev/null 2>&1 current_directory_path".toList).text =
        "cwdcommand -v foo >/dev/null 2>&1 cwd".toList := by
  decide +kernel

end StatusLine.Shortening

import StatusLine.Proofs.Shortening.IdiomSwaps
import StatusLine.Proofs.Shortening.Substitution

/-!
The clock. The command that asks for the time stays a part of what is put in its place, so the rule
for it is done when the command stands nowhere else, and not when the command is gone.
-/

namespace StatusLine.Shortening

def clockCommand : List Char :=
  "$(date +%s)".toList

def clockLead : List Char :=
  "$\x7bEPOCHSECONDS:-".toList

def clockVariable : List Char :=
  clockLead ++ (clockCommand ++ ['\x7d'])

def ClockSettled (text : List Char) : Prop :=
  ∀ before rest, text = before ++ (clockCommand ++ rest) → clockLead <:+ before ∧ ['\x7d'] <+: rest

variable {text more : List Char}

theorem sought_clock (previous : Option Char) : Sought commandLetters previous clockCommand where
  opens rest := .inr ⟨'d', by decide, "ate +%s)".toList ++ rest, rfl⟩
  free := by decide
  closes := ⟨')', by decide, by decide⟩

theorem swap_clock : Swap idiomLetters clockCommand clockVariable where
  starts := ⟨'$', by decide, by decide⟩
  ends := ⟨')', by decide, by decide⟩
  shut := by
    have tail : Shut idiomLetters (some '$') "(date +%s)\x7d".toList := shut_of_plain (by decide)
    have command : Shut idiomLetters none ('$' :: "(date +%s)\x7d".toList) :=
      ⟨by simp [Opens, idiomLetters], tail⟩
    have inner : Shut idiomLetters (some '$')
        ("\x7bEPOCHSECONDS:-".toList ++ '$' :: "(date +%s)\x7d".toList) :=
      shut_word (by decide) command
    have shape : clockVariable =
        '$' :: ("\x7bEPOCHSECONDS:-".toList ++ '$' :: "(date +%s)\x7d".toList) := by decide
    rw [shape]
    exact ⟨by simp [Opens], inner⟩
  barrier := ⟨':', by decide, "$\x7bEPOCHSECONDS".toList, "-$(date +%s)\x7d".toList, by decide,
    by decide⟩

theorem ClockSettled.swap {before stretch replacement rest : List Char}
    (settled : ClockSettled (before ++ (stretch ++ rest)))
    (swap : Swap commandLetters stretch replacement) :
    ClockSettled (before ++ (replacement ++ rest)) := by
  intro lead tail same
  rcases (sought_clock lead.getLast?).apart swap same with ⟨between, rfl, rfl⟩ | ⟨between, rfl, rfl⟩
  · obtain ⟨opened, closed⟩ := settled lead (between ++ (stretch ++ rest)) (by simp)
    refine ⟨opened, ?_⟩
    cases between with
    | nil =>
        obtain ⟨opener, opens, first⟩ := swap.starts
        obtain ⟨c, more, rfl⟩ := List.exists_cons_of_ne_nil swap.ne_nil
        obtain rfl : c = opener := Option.some.inj first
        obtain ⟨rfl, -⟩ := List.cons_prefix_cons.mp closed
        exact absurd opens (by decide)
    | cons c more =>
        obtain ⟨rfl, -⟩ := List.cons_prefix_cons.mp closed
        simp
  · obtain ⟨opened, closed⟩ := settled (before ++ stretch ++ between) tail (by simp)
    refine ⟨?_, closed⟩
    obtain ⟨closer, closes, last⟩ := swap.ends
    obtain ⟨front, rfl⟩ := List.getLast?_eq_some_iff.mp last
    have free : closer ∉ clockLead := by
      have all : ∀ closer ∈ closers, closer ∉ clockLead := by decide
      exact all closer closes
    have opened : clockLead <:+ before ++ front ++ closer :: between := by simpa using opened
    exact (Text.suffix_of_not_mem free opened).trans (List.suffix_append _ between)

theorem clockVariable_split {first second rest tail : List Char} (given : first ≠ [])
    (present : second ≠ []) (parted : clockVariable = first ++ second)
    (same : second ++ rest = clockCommand ++ tail) :
    first = clockLead ∧ tail = '\x7d' :: rest := by
  have dollars : ∀ place ∈ List.range clockVariable.length,
      (clockVariable.drop place).head? = some '$' → place = 0 ∨ place = clockLead.length := by
    decide
  have front : clockVariable.take first.length = first := by simp [parted]
  have back : clockVariable.drop first.length = second := by simp [parted]
  have inside : first.length < clockVariable.length := by
    have positive := List.length_pos_iff.mpr present
    rw [parted, List.length_append]
    omega
  have starts : second.head? = some '$' := by
    obtain ⟨c, more, rfl⟩ := List.exists_cons_of_ne_nil present
    obtain ⟨rfl, -⟩ := List.cons.inj same
    rfl
  have place := (dollars first.length (List.mem_range.mpr inside) (back ▸ starts)).resolve_left
    (List.length_pos_iff.mpr given).ne'
  rw [place] at front back
  have behind : second = clockCommand ++ ['\x7d'] := back.symm
  rw [behind, List.append_assoc] at same
  exact ⟨front.symm, (List.append_cancel_left same).symm⟩

theorem ClockSettled.join (left : ClockSettled text) (right : ClockSettled more) :
    ClockSettled (text ++ (clockVariable ++ more)) := by
  intro lead tail same
  rcases Text.meeting_cases (by decide) same with ⟨between, rfl, rfl⟩ | ⟨between, rfl, rfl⟩ |
    ⟨first, second, parted, inside, rfl, goesOn⟩ |
      ⟨first, second, parted, given, present, rfl, goesOn⟩
  · obtain ⟨opened, closed⟩ := left lead between (by simp)
    exact ⟨opened, closed.trans (List.prefix_append between _)⟩
  · obtain ⟨opened, closed⟩ := right between tail rfl
    exact ⟨opened.trans (List.suffix_append _ between), closed⟩
  · cases first with
    | nil =>
        have braced : some '\x7b' = (second ++ tail)[1]? := congrArg (·[1]?) goesOn
        rw [← List.nil_append second, ← parted] at braced
        exact absurd (show some '\x7b' = some '(' from braced) (by decide)
    | cons e first =>
        obtain ⟨d, others, rfl⟩ := List.exists_cons_of_ne_nil inside
        have dollar : some '$' = some d := congrArg List.head? goesOn
        have behind : clockCommand.tail = first ++ d :: others := congrArg List.tail parted
        have member : d ∈ clockCommand.tail :=
          behind ▸ List.mem_append_right first List.mem_cons_self
        rw [← Option.some.inj dollar] at member
        exact absurd member (by decide)
  · obtain ⟨rfl, rfl⟩ := clockVariable_split given present parted goesOn
    exact ⟨List.suffix_append text _, by simp⟩

theorem ClockSettled.left (settled : ClockSettled (text ++ (clockVariable ++ more))) :
    ClockSettled text := by
  rintro lead tail rfl
  obtain ⟨opened, closed⟩ := settled lead (tail ++ (clockVariable ++ more)) (by simp)
  refine ⟨opened, ?_⟩
  cases tail with
  | nil =>
      obtain ⟨rest, same⟩ := closed
      have brace : some '\x7d' = some '$' := congrArg List.head? same
      exact absurd brace (by decide)
  | cons c tail =>
      obtain ⟨rfl, -⟩ := List.cons_prefix_cons.mp closed
      simp

theorem ClockSettled.right (settled : ClockSettled (text ++ (clockVariable ++ more))) :
    ClockSettled more := by
  rintro lead tail rfl
  obtain ⟨opened, closed⟩ := settled (text ++ (clockVariable ++ lead)) tail (by simp)
  have behind : clockLead <:+ text ++ (clockLead ++ clockCommand) ++ '\x7d' :: lead := by
    simpa [clockVariable] using opened
  exact ⟨Text.suffix_of_not_mem (by decide) behind, closed⟩

theorem clockSettled_of_absent (free : ¬ clockCommand <:+: text) : ClockSettled text := by
  rintro before rest rfl
  exact absurd ⟨before, rest, by simp⟩ free

theorem ClockSettled.absent (settled : ClockSettled text) (free : ¬ clockVariable <:+: text) :
    ¬ clockCommand <:+: text := by
  rintro ⟨before, rest, rfl⟩
  obtain ⟨⟨front, rfl⟩, back, rfl⟩ := settled before rest (by simp)
  exact free ⟨front, back, by simp [clockVariable]⟩

theorem clockSettled_joinWith (pieces : List (List Char)) :
    ClockSettled (Text.joinWith clockVariable pieces) ↔ ∀ piece ∈ pieces, ClockSettled piece := by
  induction pieces with
  | nil =>
      have free : ¬ clockCommand <:+: Text.joinWith clockVariable [] := by decide
      simp [clockSettled_of_absent free]
  | cons piece rest ih =>
      cases rest with
      | nil => simp [Text.joinWith]
      | cons next others =>
          rw [Text.joinWith_cons_cons, List.append_assoc, List.forall_mem_cons, ← ih]
          exact ⟨fun settled => ⟨settled.left, settled.right⟩, fun both => both.1.join both.2⟩

/-! The rule. -/

def clockReplaced (text : List Char) : List Char :=
  Text.joinWith clockVariable
    ((Text.splitOn clockVariable text).map (Text.replaceAll clockCommand clockVariable))

theorem clockVariable_ne_nil : clockVariable ≠ [] := by decide

theorem clockCommand_ne_nil : clockCommand ≠ [] := by decide

theorem apply_epochSeconds (text : List Char) :
    epochSeconds.apply text = .ok (clockReplaced text) :=
  apply_substringRule "epoch-seconds" clockCommand_ne_nil clockVariable_ne_nil text

theorem clockReplaced_of_settled (settled : ClockSettled text) : clockReplaced text = text := by
  rw [← Text.joinWith_splitOn clockVariable clockVariable_ne_nil text,
    clockSettled_joinWith] at settled
  exact substituted_of_free clockCommand_ne_nil clockVariable_ne_nil fun piece member =>
    (settled piece member).absent (Text.not_infix_of_mem_splitOn clockVariable_ne_nil member)

theorem settled_clockReplaced (text : List Char) : ClockSettled (clockReplaced text) := by
  rw [clockReplaced, clockSettled_joinWith]
  intro piece member
  obtain ⟨original, -, rfl⟩ := List.mem_map.mp member
  rw [Text.replaceAll_of_ne_nil _ _ _ clockCommand_ne_nil, clockSettled_joinWith]
  exact fun part inside =>
    clockSettled_of_absent (Text.not_infix_of_mem_splitOn clockCommand_ne_nil inside)

theorem epochSeconds_still (settled : ClockSettled text) : epochSeconds.apply text = .ok text := by
  rw [apply_epochSeconds, clockReplaced_of_settled settled]

theorem epochSeconds_acts (text : List Char) :
    ∃ changed, epochSeconds.apply text = .ok changed ∧ ClockSettled changed :=
  ⟨clockReplaced text, apply_epochSeconds text, settled_clockReplaced text⟩

theorem epochSeconds_keeps {Holds : List Char → Prop}
    (swap : ∀ before rest, Holds (before ++ (clockCommand ++ rest)) →
      Holds (before ++ (clockVariable ++ rest)))
    (holds : Holds text) {changed : List Char} (applied : epochSeconds.apply text = .ok changed) :
    Holds changed := by
  obtain ⟨edited, whole, kept⟩ := substringRule_keeps "epoch-seconds" clockCommand_ne_nil
    clockVariable_ne_nil (fun before rest => by simpa using swap before rest) text holds
  rw [Rule.apply] at applied
  split at applied
  · exact Except.ok.inj applied ▸ holds
  · exact Except.ok.inj (whole.symm.trans applied) ▸ kept

theorem epochSeconds_absent {pattern : Pattern} (seeks : pattern.Seeks idiomLetters)
    (absent : pattern.Absent text) {changed : List Char}
    (applied : epochSeconds.apply text = .ok changed) : pattern.Absent changed :=
  epochSeconds_keeps (fun _ _ now => now.swap seeks swap_clock) absent applied

end StatusLine.Shortening

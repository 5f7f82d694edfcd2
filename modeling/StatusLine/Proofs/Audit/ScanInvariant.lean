import StatusLine.Proofs.Audit.ScanSteps

/-!
What the scan of quotes keeps at every place that it looks at, on malformed text as well. A step is
one of eight moves on the frames, and every move keeps the code at the bottom, a depth for each open
command, and a single quote at the top only.
-/

namespace StatusLine.Audit

def IsBased (frames : List Frame) : Prop :=
  ∃ upper, frames = upper ++ [.code] ∧ .code ∉ upper

theorem IsBased.push {frames : List Frame} (based : IsBased frames) {frame : Frame}
    (special : frame ≠ .code) : IsBased (frame :: frames) := by
  obtain ⟨upper, rfl, once⟩ := based
  refine ⟨frame :: upper, rfl, ?_⟩
  rw [List.mem_cons, not_or]
  exact ⟨special.symm, once⟩

theorem IsBased.pop {frame : Frame} {frames : List Frame} (based : IsBased (frame :: frames))
    (special : frame ≠ .code) : IsBased frames := by
  obtain ⟨upper, shape, once⟩ := based
  cases upper with
  | nil => exact absurd (List.cons.inj shape).1 special
  | cons first others =>
      obtain ⟨-, rest⟩ := List.cons.inj shape
      exact ⟨others, rest, fun member => once (List.mem_cons_of_mem first member)⟩

/-! What a step can do. -/

namespace QuoteState

inductive Move (state : QuoteState) : QuoteState → Prop
  | stays (pending : List (List Char)) : Move state { state with pending := pending }
  | openSingle (unquoted : state.innermost ≠ .single) : Move state (state.enter .single).countSingle
  | closeSingle (inner : state.innermost = .single) : Move state state.leave.countSingle
  | openDouble (unquoted : state.innermost ≠ .single) : Move state (state.enter .double).countDouble
  | closeDouble (inner : state.innermost = .double) : Move state state.leave.countDouble
  | openCommand (unquoted : state.innermost ≠ .single) : Move state state.enterCommand
  | openParenthesis (inner : state.innermost = .command) : Move state state.openParenthesis
  | closeParenthesis (inner : state.innermost = .command) : Move state state.closeParenthesis

theorem move_stepDouble (state : QuoteState) (inner : state.innermost = .double) (c : Char)
    (rest : List Char) : state.Move (state.stepDouble c rest).1 := by
  rw [stepDouble]
  split
  · exact .closeDouble inner
  split
  · exact .openCommand (by simp [inner])
  · exact .stays state.pending

theorem move_stepCode (state : QuoteState) (unquoted : state.innermost ≠ .single)
    (previous : Option Char) (c : Char) (rest : List Char) :
    state.Move (state.stepCode previous c rest).1 := by
  rw [stepCode]
  split
  · exact .openSingle unquoted
  split
  · exact .openDouble unquoted
  split
  · exact .stays state.pending
  split
  · exact .openCommand unquoted
  split
  · exact .stays _
  split
  · rename_i opens
    exact .openParenthesis opens.1
  split
  · rename_i closes
    exact .closeParenthesis closes.1
  split
  · exact .stays []
  · exact .stays state.pending

theorem move_step (state : QuoteState) (previous : Option Char) (c : Char) (rest : List Char) :
    state.Move (state.step previous c rest).1 := by
  rw [step]
  split
  · rename_i inner
    split
    · exact .closeSingle inner
    · exact .stays state.pending
  rename_i unquoted
  split
  · exact .stays state.pending
  split
  · rename_i inner
    exact state.move_stepDouble inner c rest
  · exact state.move_stepCode unquoted previous c rest

/-! What a move keeps. -/

structure IsConsistent (state : QuoteState) : Prop where
  based : IsBased state.frames
  commands : state.depths.length = state.frames.count .command
  top : .single ∉ state.frames.tail
  paired : state.IsPaired

theorem isConsistent_start : IsConsistent start where
  based := ⟨[], rfl, by simp⟩
  commands := rfl
  top := by simp [start]
  paired := ⟨rfl, rfl⟩

namespace IsConsistent

variable {state next : QuoteState} (consistent : state.IsConsistent)

include consistent

theorem frames_ne_nil : state.frames ≠ [] := by
  obtain ⟨upper, shape, -⟩ := consistent.based
  simp [shape]

theorem not_mem_of_unquoted (unquoted : state.innermost ≠ .single) : .single ∉ state.frames := by
  obtain ⟨frame, outer, shape⟩ := List.exists_cons_of_ne_nil consistent.frames_ne_nil
  have top := consistent.top
  rw [innermost, shape, List.headD_cons] at unquoted
  rw [shape, List.tail_cons] at top
  rw [shape, List.mem_cons, not_or]
  exact ⟨unquoted.symm, top⟩

theorem enterSingle (unquoted : state.innermost ≠ .single) :
    (state.enter .single).countSingle.IsConsistent where
  based := consistent.based.push (by decide)
  commands := by simpa [enter, countSingle, List.count_cons] using consistent.commands
  top := consistent.not_mem_of_unquoted unquoted
  paired := consistent.paired.enterSingle

theorem enterDouble (unquoted : state.innermost ≠ .single) :
    (state.enter .double).countDouble.IsConsistent where
  based := consistent.based.push (by decide)
  commands := by simpa [enter, countDouble, List.count_cons] using consistent.commands
  top := consistent.not_mem_of_unquoted unquoted
  paired := consistent.paired.enterDouble

theorem enterCommand (unquoted : state.innermost ≠ .single) : state.enterCommand.IsConsistent where
  based := consistent.based.push (by decide)
  commands := by simpa [QuoteState.enterCommand] using consistent.commands
  top := consistent.not_mem_of_unquoted unquoted
  paired := consistent.paired.enterCommand

theorem leave {frame : Frame} (inner : state.innermost = frame) (special : frame ≠ .code) :
    IsBased state.leave.frames ∧ .single ∉ state.leave.frames.tail ∧
      state.depths.length = state.leave.frames.count .command + [frame].count .command := by
  have shape := state.frames_of_innermost frame inner special
  obtain ⟨based, commands, top, -⟩ := consistent
  rw [shape] at based commands
  refine ⟨based.pop special, fun member => top (List.mem_of_mem_tail member), ?_⟩
  rw [commands, ← List.singleton_append, List.count_append, Nat.add_comm]
  rfl

theorem leaveSingle (inner : state.innermost = .single) :
    state.leave.countSingle.IsConsistent := by
  obtain ⟨based, top, commands⟩ := consistent.leave inner (by decide)
  exact ⟨based, commands, top, consistent.paired.leaveSingle inner⟩

theorem leaveDouble (inner : state.innermost = .double) :
    state.leave.countDouble.IsConsistent := by
  obtain ⟨based, top, commands⟩ := consistent.leave inner (by decide)
  exact ⟨based, commands, top, consistent.paired.leaveDouble inner⟩

theorem depths_of_command (inner : state.innermost = .command) :
    ∃ depth outer, state.depths = depth :: outer := by
  obtain ⟨-, -, commands⟩ := consistent.leave inner (by decide)
  refine List.exists_cons_of_length_pos ?_
  rw [commands]
  exact Nat.succ_pos _

theorem openParenthesis (inner : state.innermost = .command) :
    state.openParenthesis.IsConsistent := by
  obtain ⟨depth, outer, shape⟩ := consistent.depths_of_command inner
  have paired := consistent.paired.openParenthesis
  obtain ⟨based, commands, top, -⟩ := consistent
  rw [shape] at commands
  simp only [QuoteState.openParenthesis, shape] at paired ⊢
  exact ⟨based, commands, top, paired⟩

theorem closeParenthesis (inner : state.innermost = .command) :
    state.closeParenthesis.IsConsistent := by
  obtain ⟨depth, outer, shape⟩ := consistent.depths_of_command inner
  have paired := consistent.paired.closeParenthesis inner
  cases depth with
  | zero =>
      obtain ⟨based, top, commands⟩ := consistent.leave inner (by decide)
      rw [shape] at commands
      simp only [QuoteState.closeParenthesis, shape] at paired ⊢
      exact ⟨based, Nat.succ.inj commands, top, paired⟩
  | succ depth =>
      obtain ⟨based, commands, top, -⟩ := consistent
      rw [shape] at commands
      simp only [QuoteState.closeParenthesis, shape] at paired ⊢
      exact ⟨based, commands, top, paired⟩

theorem move (moved : state.Move next) : next.IsConsistent := by
  cases moved with
  | stays pending =>
      obtain ⟨based, commands, top, paired⟩ := consistent
      exact ⟨based, commands, top, paired⟩
  | openSingle unquoted => exact consistent.enterSingle unquoted
  | closeSingle inner => exact consistent.leaveSingle inner
  | openDouble unquoted => exact consistent.enterDouble unquoted
  | closeDouble inner => exact consistent.leaveDouble inner
  | openCommand unquoted => exact consistent.enterCommand unquoted
  | openParenthesis inner => exact consistent.openParenthesis inner
  | closeParenthesis inner => exact consistent.closeParenthesis inner

theorem singles_odd_iff : state.singles % 2 = 1 ↔ .single ∈ state.frames := by
  obtain ⟨frame, outer, shape⟩ := List.exists_cons_of_ne_nil consistent.frames_ne_nil
  have top := consistent.top
  have singles := consistent.paired.1
  rw [shape, List.tail_cons] at top
  rw [shape, List.count_cons, List.count_eq_zero.mpr top] at singles
  rw [singles, shape, List.mem_cons]
  by_cases quoted : frame = .single
  · simp [quoted]
  · simp [quoted, top, Ne.symm quoted]

end IsConsistent

theorem Move.frames {state next : QuoteState} (moved : state.Move next) :
    next.frames = state.frames ∨ (∃ frame, next.frames = frame :: state.frames) ∨
      ∃ frame, frame ≠ .code ∧ state.frames = frame :: next.frames := by
  cases moved with
  | stays pending => exact .inl rfl
  | openSingle unquoted => exact .inr (.inl ⟨.single, rfl⟩)
  | closeSingle inner =>
      exact .inr (.inr ⟨.single, by decide, state.frames_of_innermost _ inner (by decide)⟩)
  | openDouble unquoted => exact .inr (.inl ⟨.double, rfl⟩)
  | closeDouble inner =>
      exact .inr (.inr ⟨.double, by decide, state.frames_of_innermost _ inner (by decide)⟩)
  | openCommand unquoted => exact .inr (.inl ⟨.command, rfl⟩)
  | openParenthesis inner =>
      rw [QuoteState.openParenthesis]
      split <;> exact .inl rfl
  | closeParenthesis inner =>
      rw [QuoteState.closeParenthesis]
      split
      · exact .inr (.inr ⟨.command, by decide, state.frames_of_innermost _ inner (by decide)⟩)
      · exact .inl rfl
      · exact .inl rfl

/-! How far a step goes. -/

theorem skipped_stepDouble_le (state : QuoteState) (c : Char) (rest : List Char) :
    (state.stepDouble c rest).2 ≤ rest.length := by
  rw [stepDouble]
  split
  · exact Nat.zero_le _
  split
  · rename_i opens
    cases rest with
    | nil => simp [opensCommand] at opens
    | cons d more => exact Nat.succ_le_succ (Nat.zero_le _)
  · exact Nat.zero_le _

theorem skipped_stepCode_le (state : QuoteState) (previous : Option Char) (c : Char)
    (rest : List Char) : (state.stepCode previous c rest).2 ≤ rest.length := by
  rw [stepCode]
  split
  · exact Nat.zero_le _
  split
  · exact Nat.zero_le _
  split
  · exact (List.takeWhile_sublist _).length_le
  split
  · rename_i opens
    cases rest with
    | nil => simp [opensCommand] at opens
    | cons d more => exact Nat.succ_le_succ (Nat.zero_le _)
  split
  · exact Nat.sub_le _ _
  split
  · exact Nat.zero_le _
  split
  · exact Nat.zero_le _
  split
  · exact Nat.sub_le _ _
  · exact Nat.zero_le _

theorem skipped_step_le (state : QuoteState) (previous : Option Char) (c : Char)
    (rest : List Char) :
    (state.step previous c rest).2 ≤ rest.length ∨
      c = '\\' ∧ rest = [] ∧ (state.step previous c rest).2 = 1 := by
  rw [step]
  split
  · split <;> exact .inl (Nat.zero_le _)
  split
  · rename_i backslash
    cases rest with
    | nil => exact .inr ⟨backslash, rfl, rfl⟩
    | cons d more => exact .inl (Nat.succ_le_succ (Nat.zero_le _))
  split
  · exact .inl (state.skipped_stepDouble_le c rest)
  · exact .inl (state.skipped_stepCode_le previous c rest)

end QuoteState

/-! The places of a scan. -/

/-- The step that a scan takes at a place in the text. -/
structure Advances (text : List Char) (place : Nat) (state : QuoteState) (next : Nat)
    (after : QuoteState) : Prop where
  inside : place < text.length
  stepped : ∃ skipped, next = place + 1 + skipped ∧
    state.step (text.take place).getLast? text[place] (text.drop (place + 1)) = (after, skipped)

/-- The scan looks at this place in this state. -/
inductive Visits (text : List Char) : Nat → QuoteState → Prop
  | start : Visits text 0 .start
  | step {place next : Nat} {state after : QuoteState} (visited : Visits text place state)
      (advances : Advances text place state next after) : Visits text next after

theorem Advances.lt {text : List Char} {place next : Nat} {state after : QuoteState}
    (advances : Advances text place state next after) : place < next := by
  obtain ⟨-, skipped, rfl, -⟩ := advances
  omega

theorem Advances.le {text : List Char} {place next : Nat} {state after : QuoteState}
    (advances : Advances text place state next after) : next ≤ text.length + 1 := by
  obtain ⟨inside, skipped, rfl, stepped⟩ := advances
  have bound := state.skipped_step_le (text.take place).getLast? text[place] (text.drop (place + 1))
  rw [stepped, List.length_drop] at bound
  rcases bound with within | ⟨-, -, beyond⟩
  · dsimp only at within
    omega
  · dsimp only at beyond
    omega

theorem Visits.le {text : List Char} {place : Nat} {state : QuoteState}
    (visited : Visits text place state) : place ≤ text.length + 1 := by
  cases visited with
  | start => exact Nat.zero_le _
  | step _ advances => exact advances.le

theorem Advances.move {text : List Char} {place next : Nat} {state after : QuoteState}
    (advances : Advances text place state next after) : state.Move after := by
  obtain ⟨inside, skipped, -, stepped⟩ := advances
  have moved := state.move_step (text.take place).getLast? text[place] (text.drop (place + 1))
  rwa [stepped] at moved

theorem Visits.isConsistent {text : List Char} {place : Nat} {state : QuoteState}
    (visited : Visits text place state) : state.IsConsistent := by
  induction visited with
  | start => exact QuoteState.isConsistent_start
  | step _ advances ih => exact ih.move advances.move

theorem scanFrom_drop (skipped : Nat) (previous : Option Char) (state : QuoteState)
    (text : List Char) :
    scanFrom skipped previous state text =
      scanFrom 0 ((text.take skipped).getLast?.or previous) state (text.drop skipped) := by
  rcases Nat.lt_or_ge text.length skipped with beyond | within
  · rw [List.drop_eq_nil_of_le (Nat.le_of_lt beyond)]
    induction text generalizing skipped previous with
    | nil => cases skipped <;> rfl
    | cons c rest ih =>
        obtain ⟨fewer, rfl⟩ := Nat.exists_eq_succ_of_ne_zero (Nat.ne_zero_of_lt beyond)
        exact ih fewer (some c) (Nat.lt_of_succ_lt_succ beyond)
  · have jump := scanFrom_skipped (text.take skipped) (text.drop skipped) previous state
    rwa [List.length_take_of_le within, List.take_append_drop] at jump

theorem Advances.scanFrom_eq {text : List Char} {place next : Nat} {state after : QuoteState}
    (advances : Advances text place state next after) :
    scanFrom 0 (text.take place).getLast? state (text.drop place) =
      scanFrom 0 (text.take next).getLast? after (text.drop next) := by
  obtain ⟨inside, skipped, rfl, stepped⟩ := advances
  have before : text.take (place + 1 + skipped) =
      text.take place ++ text[place] :: (text.drop (place + 1)).take skipped := by
    rw [List.take_add, List.take_add_one, List.getElem?_eq_getElem inside, List.append_assoc]
    rfl
  have further : scanFrom 0 (text.take place).getLast? state (text.drop place) =
      scanFrom skipped (some text[place]) after (text.drop (place + 1)) := by
    rw [List.drop_eq_getElem_cons inside, scanFrom, stepped]
  rw [further, scanFrom_drop, List.drop_drop, before, List.getLast?_append, List.getLast?_cons]
  cases ((text.drop (place + 1)).take skipped).getLast? <;> rfl

theorem Visits.ends {text : List Char} {place : Nat} {state : QuoteState}
    (visited : Visits text place state) :
    ∃ last, Visits text last (scanFrom 0 (text.take place).getLast? state (text.drop place)) ∧
      text.length ≤ last := by
  rcases Nat.lt_or_ge place text.length with inside | behind
  · have advances : Advances text place state _ _ := ⟨inside, _, rfl, rfl⟩
    have further := advances.lt
    rw [advances.scanFrom_eq]
    exact (visited.step advances).ends
  · rw [List.drop_eq_nil_of_le behind]
    exact ⟨place, visited, behind⟩
termination_by text.length - place
decreasing_by omega

/-- At every place that the scan looks at the stack is consistent with its counts. A step takes no
code off it and leads to a later place, and the scan ends behind the text. -/
theorem scanQuotes_invariant (text : List Char) :
    (∀ place state, Visits text place state →
      (∃ upper, state.frames = upper ++ [.code] ∧ .code ∉ upper) ∧
      state.depths.length = state.frames.count .command ∧
      (state.innermost = .command → state.depths ≠ []) ∧
      .single ∉ state.frames.tail ∧
      (state.singles % 2 = 1 ↔ .single ∈ state.frames) ∧
      state.doubles % 2 = state.frames.count .double % 2) ∧
    (∀ place state next after, Visits text place state → Advances text place state next after →
      place < next ∧ next ≤ text.length + 1 ∧
      (after.frames = state.frames ∨ (∃ frame, after.frames = frame :: state.frames) ∨
        ∃ frame, frame ≠ .code ∧ state.frames = frame :: after.frames)) ∧
    ∃ last final, Visits text last final ∧ text.length ≤ last ∧ last ≤ text.length + 1 ∧
      scanQuotes text = ⟨final.frames == [.code], final.singles, final.doubles⟩ := by
  refine ⟨fun place state visited => ?_, fun place state next after _ advances =>
    ⟨advances.lt, advances.le, advances.move.frames⟩, ?_⟩
  · have consistent := visited.isConsistent
    refine ⟨consistent.based, consistent.commands, fun inner => ?_, consistent.top,
      consistent.singles_odd_iff, consistent.paired.2⟩
    obtain ⟨depth, outer, shape⟩ := consistent.depths_of_command inner
    simp [shape]
  · have first : Visits text 0 .start := .start
    obtain ⟨last, visited, behind⟩ := first.ends
    exact ⟨last, _, visited, behind, visited.le, rfl⟩

end StatusLine.Audit

import Mathlib.Data.List.TakeWhile
import StatusLine.Proofs.Audit.QuoteReading

/-!
The cautious reader agrees with the scan of quotes: where it ends with everything closed, the scan
finds the quotes balanced. Behind balanced quotes the number of quotes of each kind is even.
-/

namespace StatusLine.Audit

open QuoteReading (reader)

theorem scanFrom_skipped (lead rest : List Char) (previous : Option Char) (state : QuoteState) :
    scanFrom lead.length previous state (lead ++ rest) =
      scanFrom 0 (lead.getLast?.or previous) state rest := by
  induction lead generalizing previous with
  | nil => rfl
  | cons c more ih =>
      rw [List.length_cons, List.cons_append, scanFrom, ih]
      cases more with
      | nil => simp
      | cons next others => simp [List.getLast?_cons]

/-! Even numbers of quotes. -/

def QuoteState.IsPaired (state : QuoteState) : Prop :=
  state.singles % 2 = state.frames.count .single % 2 ∧
    state.doubles % 2 = state.frames.count .double % 2

theorem QuoteState.frames_of_innermost (state : QuoteState) (frame : Frame)
    (inner : state.innermost = frame) (special : frame ≠ .code) :
    state.frames = frame :: state.frames.tail := by
  cases shape : state.frames with
  | nil =>
      simp only [innermost, shape, List.headD_nil] at inner
      exact absurd inner.symm special
  | cons first rest =>
      simp only [innermost, shape, List.headD_cons] at inner
      rw [inner, List.tail_cons]

theorem QuoteState.IsPaired.leaveCommand {state : QuoteState} (paired : state.IsPaired)
    (inner : state.innermost = .command) (depths : List Nat) :
    IsPaired { state.leave with depths := depths } := by
  have shape := state.frames_of_innermost .command inner (by decide)
  obtain ⟨singles, doubles⟩ := paired
  rw [shape, List.count_cons] at singles doubles
  exact ⟨by simpa [QuoteState.leave] using singles, by simpa [QuoteState.leave] using doubles⟩

theorem QuoteState.IsPaired.closeParenthesis {state : QuoteState} (paired : state.IsPaired)
    (inner : state.innermost = .command) : state.closeParenthesis.IsPaired := by
  simp only [QuoteState.closeParenthesis]
  split
  · exact paired.leaveCommand inner _
  · exact paired
  · exact paired

theorem QuoteState.IsPaired.openParenthesis {state : QuoteState} (paired : state.IsPaired) :
    state.openParenthesis.IsPaired := by
  simp only [QuoteState.openParenthesis]
  split <;> exact paired

theorem QuoteState.IsPaired.enterCommand {state : QuoteState} (paired : state.IsPaired) :
    state.enterCommand.IsPaired := by
  obtain ⟨singles, doubles⟩ := paired
  constructor
  · simpa [QuoteState.enterCommand, List.count_cons] using singles
  · simpa [QuoteState.enterCommand, List.count_cons] using doubles

theorem QuoteState.IsPaired.enterSingle {state : QuoteState} (paired : state.IsPaired) :
    (state.enter .single).countSingle.IsPaired := by
  obtain ⟨singles, doubles⟩ := paired
  constructor
  · simp only [QuoteState.enter, QuoteState.countSingle, List.count_cons_self]
    omega
  · simpa [QuoteState.enter, QuoteState.countSingle, List.count_cons] using doubles

theorem QuoteState.IsPaired.enterDouble {state : QuoteState} (paired : state.IsPaired) :
    (state.enter .double).countDouble.IsPaired := by
  obtain ⟨singles, doubles⟩ := paired
  constructor
  · simpa [QuoteState.enter, QuoteState.countDouble, List.count_cons] using singles
  · simp only [QuoteState.enter, QuoteState.countDouble, List.count_cons_self]
    omega

theorem QuoteState.IsPaired.leaveSingle {state : QuoteState} (paired : state.IsPaired)
    (inner : state.innermost = .single) : state.leave.countSingle.IsPaired := by
  have shape := state.frames_of_innermost .single inner (by decide)
  obtain ⟨singles, doubles⟩ := paired
  rw [shape, List.count_cons] at singles doubles
  simp only [beq_self_eq_true, if_true] at singles
  constructor
  · simp only [QuoteState.leave, QuoteState.countSingle]
    omega
  · simpa [QuoteState.leave, QuoteState.countSingle] using doubles

theorem QuoteState.IsPaired.leaveDouble {state : QuoteState} (paired : state.IsPaired)
    (inner : state.innermost = .double) : state.leave.countDouble.IsPaired := by
  have shape := state.frames_of_innermost .double inner (by decide)
  obtain ⟨singles, doubles⟩ := paired
  rw [shape, List.count_cons] at singles doubles
  simp only [beq_self_eq_true, if_true] at doubles
  constructor
  · simpa [QuoteState.leave, QuoteState.countDouble] using singles
  · simp only [QuoteState.leave, QuoteState.countDouble]
    omega

theorem QuoteState.IsPaired.stepDouble {state : QuoteState} (paired : state.IsPaired)
    (inner : state.innermost = .double) (c : Char) (rest : List Char) :
    (state.stepDouble c rest).1.IsPaired := by
  rw [QuoteState.stepDouble]
  split
  · exact paired.leaveDouble inner
  · split
    · exact paired.enterCommand
    · exact paired

theorem QuoteState.IsPaired.stepCode {state : QuoteState} (paired : state.IsPaired)
    (previous : Option Char) (c : Char) (rest : List Char) :
    (state.stepCode previous c rest).1.IsPaired := by
  rw [QuoteState.stepCode]
  split
  · exact paired.enterSingle
  split
  · exact paired.enterDouble
  split
  · exact paired
  split
  · exact paired.enterCommand
  split
  · exact paired
  split
  · exact paired.openParenthesis
  split
  · rename_i closes
    exact paired.closeParenthesis closes.1
  split <;> exact paired

theorem QuoteState.IsPaired.step {state : QuoteState} (paired : state.IsPaired)
    (previous : Option Char) (c : Char) (rest : List Char) :
    (state.step previous c rest).1.IsPaired := by
  rw [QuoteState.step]
  split
  · rename_i inner
    split
    · exact paired.leaveSingle inner
    · exact paired
  split
  · exact paired
  split
  · rename_i inner
    exact paired.stepDouble inner c rest
  · exact paired.stepCode previous c rest

theorem scanFrom_paired (skipped : Nat) (previous : Option Char) (state : QuoteState)
    (text : List Char) (paired : state.IsPaired) :
    (scanFrom skipped previous state text).IsPaired := by
  induction text generalizing skipped previous state with
  | nil => cases skipped <;> exact paired
  | cons c rest ih =>
      cases skipped with
      | succ skipped => exact ih skipped _ _ paired
      | zero => exact ih _ _ _ (paired.step previous c rest)

theorem scanQuotes_even (text : List Char) (balanced : (scanQuotes text).balanced = true) :
    (scanQuotes text).single % 2 = 0 ∧ (scanQuotes text).double % 2 = 0 := by
  have paired := scanFrom_paired 0 none .start text ⟨rfl, rfl⟩
  have frames : (scanFrom 0 none .start text).frames = [.code] := by
    simpa [scanQuotes] using balanced
  obtain ⟨singles, doubles⟩ := paired
  rw [frames] at singles doubles
  exact ⟨singles, doubles⟩

end StatusLine.Audit

import StatusLine.Proofs.Audit.DocumentBodies
import StatusLine.Proofs.Audit.QuoteSimulation

/-!
Steps of the scan in any state: over characters that mean nothing, at the end of a line, at an angle
bracket. What stands before a place matters only as far as a hash sign may start a comment there.
-/

namespace StatusLine.Audit

open Text (AtLineEnd IsDelimiter)

def isInert (c : Char) : Bool :=
  !(['\\', '\'', '"', '#', '$', '<', '(', ')', '\n'].contains c)

theorem isInert_of_blank {c : Char} (blank : Text.isBlank c = true) (sameLine : c ≠ '\n') :
    isInert c = true := by
  simp only [isInert, Bool.not_eq_true', List.contains_eq_mem, decide_eq_false_iff_not,
    List.mem_cons, List.not_mem_nil, or_false]
  rintro (rfl | rfl | rfl | rfl | rfl | rfl | rfl | rfl | newline)
  case inr.inr.inr.inr.inr.inr.inr.inr => exact sameLine newline
  all_goals exact absurd blank (by decide)

theorem isInert_of_isDelimiterChar {c : Char} (letter : Text.isDelimiterChar c = true) :
    isInert c = true := by
  simp only [isInert, Bool.not_eq_true', List.contains_eq_mem, decide_eq_false_iff_not,
    List.mem_cons, List.not_mem_nil, or_false]
  rintro (rfl | rfl | rfl | rfl | rfl | rfl | rfl | rfl | rfl) <;> exact absurd letter (by decide)

section Steps

variable {state : QuoteState} {previous other : Option Char} {c : Char}

theorem step_inert (inert : isInert c = true) (text : List Char) :
    state.step previous c text = (state, 0) := by
  simp only [isInert, Bool.not_eq_true', List.contains_eq_mem, decide_eq_false_iff_not,
    List.mem_cons, List.not_mem_nil, or_false, not_or] at inert
  obtain ⟨backslash, single, double, hash, dollar, less, opening, closing, newline⟩ := inert
  have unopened := opensCommand_of_ne c text dollar
  have inCode (inner : state.innermost = .code ∨ state.innermost = .command) :
      state.step previous c text = (state, 0) :=
    step_quiet inner backslash single double (fun comment => hash comment.1) unopened
      (document?_of_ne c text less) (fun _ => ⟨opening, closing⟩) fun same => absurd same newline
  cases inner : state.innermost with
  | single => simp [QuoteState.step, inner, single]
  | double => simp [QuoteState.step, QuoteState.stepDouble, inner, backslash, double, unopened]
  | code => exact inCode (.inl inner)
  | command => exact inCode (.inr inner)

theorem scanFrom_inert {lead : List Char} (inert : ∀ c ∈ lead, isInert c = true)
    (previous : Option Char) (state : QuoteState) (text : List Char) :
    scanFrom 0 previous state (lead ++ text) =
      scanFrom 0 (lead.getLast?.or previous) state text := by
  induction lead generalizing previous with
  | nil => rfl
  | cons c others ih =>
      have here : state.step previous c (others ++ text) = (state, 0) :=
        step_inert (inert c List.mem_cons_self) (others ++ text)
      rw [List.cons_append, scanFrom_step previous state c _ _ here,
        ih fun d member => inert d (List.mem_cons_of_mem c member)]
      cases others with
      | nil => rfl
      | cons d more => simp [List.getLast?_cons]

theorem scanFrom_jump (lead behind : List Char) (previous : Option Char) (state : QuoteState) :
    scanFrom ((lead ++ behind).length - behind.length) previous state (lead ++ behind) =
      scanFrom 0 (lead.getLast?.or previous) state behind := by
  have distance : (lead ++ behind).length - behind.length = lead.length := by
    rw [List.length_append]
    omega
  rw [distance, scanFrom_skipped]

theorem step_congr (same : startsWord previous = startsWord other) (text : List Char) :
    state.step previous c text = state.step other c text := by
  simp only [QuoteState.step, QuoteState.stepCode, same]

theorem scanFrom_congr (same : startsWord previous = startsWord other) (text : List Char) :
    scanFrom 0 previous state text = scanFrom 0 other state text := by
  cases text with
  | nil => rfl
  | cons c rest => rw [scanFrom, scanFrom, step_congr same]

theorem scanFrom_line_start (text : List Char) :
    scanFrom 0 (some '\n') state text = scanFrom 0 none state text :=
  scanFrom_congr (by rfl) text

/-! Ends of lines. -/

theorem step_newline (state : QuoteState) (previous : Option Char) (text : List Char) :
    state.step previous '\n' text =
      if (state.innermost = .code ∨ state.innermost = .command) ∧ state.pending ≠ [] then
        ({ state with pending := [] }, text.length - (afterBodies state.pending text).length)
      else (state, 0) := by
  cases inner : state.innermost <;>
    simp [QuoteState.step, QuoteState.stepDouble, QuoteState.stepCode, QuoteState.opensCommand,
      QuoteState.document?, inner]

theorem scanFrom_newline (previous other : Option Char) (state : QuoteState) (text : List Char) :
    scanFrom 0 previous state ('\n' :: text) = scanFrom 0 other state ('\n' :: text) := by
  rw [scanFrom, scanFrom, step_newline, step_newline]

theorem scanFrom_bodies
    (awaits : (state.innermost = .code ∨ state.innermost = .command) ∧ state.pending ≠ [])
    (text : List Char) :
    scanFrom 0 previous state ('\n' :: text) =
      scanFrom 0 (some '\n') { state with pending := [] } (afterBodies state.pending text) := by
  have here := (step_newline state previous text).trans (if_pos awaits)
  rw [scanFrom, here]
  rcases afterBodies_starts_line state.pending text with gone | ⟨lead, split⟩
  · have jumped := scanFrom_jump text [] (some '\n') { state with pending := [] }
    rw [List.append_nil] at jumped
    rw [gone]
    exact jumped
  · generalize afterBodies state.pending text = behind at split ⊢
    cases lead with
    | nil =>
        obtain rfl := (List.cons.inj split).2
        exact scanFrom_jump [] text (some '\n') _
    | cons c more =>
        obtain ⟨-, rfl⟩ := List.cons.inj split
        have jumped := scanFrom_jump (more ++ ['\n']) behind (some '\n')
          { state with pending := [] }
        rw [List.getLast?_concat, List.append_assoc] at jumped
        exact jumped

/-! Angle brackets. -/

theorem step_less (inCode : state.innermost = .code ∨ state.innermost = .command)
    (text : List Char) :
    state.step previous '<' text =
      match QuoteState.document? '<' text with
      | some found => ({ state with pending := state.pending ++ [found.delimiter] },
          text.length - found.rest.length)
      | none => (state, 0) := by
  rw [step_eq_stepCode inCode (by decide)]
  cases found : QuoteState.document? '<' text with
  | some document => simp [QuoteState.stepCode, QuoteState.opensCommand, found]
  | none => simp [QuoteState.stepCode, QuoteState.opensCommand, found]

theorem document?_single {d : Char} (text : List Char) (single : d ≠ '<') :
    QuoteState.document? '<' (d :: text) = none := by
  simp [QuoteState.document?, Text.hereDocument?, single]

theorem document?_atLineEnd {tail : List Char} (atEnd : AtLineEnd tail) :
    QuoteState.document? '<' tail = none := by
  rcases atEnd with rfl | head
  · rfl
  · obtain ⟨more, rfl⟩ := List.head?_eq_some_iff.mp head
    exact document?_single more (by decide)

theorem document?_double {text : List Char} (double : text.head? ≠ some '<') :
    QuoteState.document? '<' ('<' :: text) =
      Text.takeDelimiter ((Text.dropOne (· == '-') text).dropWhile Text.isBlank) := by
  cases text with
  | nil => rfl
  | cons d more =>
      have different : d ≠ '<' := fun same => double (by rw [same]; rfl)
      simp [QuoteState.document?, Text.hereDocument?, different]

theorem document?_delimiter {word tail : List Char} (isDelimiter : IsDelimiter word)
    (atEnd : AtLineEnd tail) :
    QuoteState.document? '<' ('<' :: (word ++ tail)) = some ⟨word, tail⟩ := by
  obtain ⟨c, rest, rfl, starts⟩ := isDelimiter.starts
  have letter := Text.isDelimiterChar_of_starts starts
  have visible (d : Char) (refused : Text.isDelimiterChar d = false) : c ≠ d := by
    rintro rfl
    rw [letter] at refused
    cases refused
  have noLess : c ≠ '<' := visible '<' (by decide)
  have noDash : c ≠ '-' := visible '-' (by decide)
  have noBlank := Text.isBlank_of_isDelimiterChar letter
  have taken := atEnd.takeDelimiter (c :: rest)
  rw [Text.takeDelimiter_of_isDelimiter isDelimiter] at taken
  rw [document?_double (by simpa using noLess)]
  simpa [Text.dropOne, noDash, noBlank] using taken

end Steps

end StatusLine.Audit

import StatusLine.Compiler.Compilation
import StatusLine.Proofs.Audit.QuoteSoundness
import StatusLine.Proofs.Shortening.Brackets

/-!
When a shortened text is shipped. An audit passes exactly if the shortened text has balanced quotes
and the brackets, the exit calls and the interpreter line of the raw text; nothing else counts. The
parity of quotes is no condition of its own, since balanced quotes come in pairs.
-/

namespace StatusLine.Audit

open Shortening (Options optimize mem_findingIf)

/-- What has to hold between a text and its shortened form. -/
structure Acceptable (raw optimized : List Char) : Prop where
  balanced : (scanQuotes optimized).balanced = true
  brackets : ∀ kind ∈ bracketKinds, kind.balance optimized = kind.balance raw
  markers : ∀ marker ∈ malformedMarkers, Text.count marker optimized ≤ Text.count marker raw
  exits : exitCalls optimized = exitCalls raw
  interpreter : startsInterpreterLine raw = true ∨ startsInterpreterLine optimized = true →
    firstLine optimized = firstLine raw

def IsAlarming (findings : List Finding) : Prop :=
  ∃ finding ∈ findings, finding.severity = .high

theorem isAlarming_append (first second : List Finding) :
    IsAlarming (first ++ second) ↔ IsAlarming first ∨ IsAlarming second := by
  constructor
  · rintro ⟨finding, member, high⟩
    rcases List.mem_append.mp member with here | there
    · exact .inl ⟨finding, here, high⟩
    · exact .inr ⟨finding, there, high⟩
  · rintro (⟨finding, member, high⟩ | ⟨finding, member, high⟩)
    · exact ⟨finding, List.mem_append_left second member, high⟩
    · exact ⟨finding, List.mem_append_right first member, high⟩

theorem isAlarming_flatMap {α : Type} (items : List α) (findings : α → List Finding) :
    IsAlarming (items.flatMap findings) ↔ ∃ item ∈ items, IsAlarming (findings item) := by
  constructor
  · rintro ⟨finding, member, high⟩
    obtain ⟨item, inside, here⟩ := List.mem_flatMap.mp member
    exact ⟨item, inside, finding, here, high⟩
  · rintro ⟨item, inside, finding, here, high⟩
    exact ⟨finding, List.mem_flatMap.mpr ⟨item, inside, here⟩, high⟩

theorem isAlarming_findingIf (holds : Bool) (finding : Finding) (high : finding.severity = .high) :
    IsAlarming (findingIf holds finding) ↔ holds = true := by
  cases holds with
  | false => simp [IsAlarming, findingIf]
  | true => simp [IsAlarming, findingIf, high]

/-! The severity of a report. -/

theorem Severity.max_eq_high_iff (a b : Severity) : a.max b = .high ↔ a = .high ∨ b = .high := by
  cases a <;> cases b <;> decide

theorem foldl_max_eq_high_iff (findings : List Finding) (start : Severity) :
    findings.foldl (fun highest finding => highest.max finding.severity) start = .high ↔
      start = .high ∨ IsAlarming findings := by
  induction findings generalizing start with
  | nil => simp [IsAlarming]
  | cons finding rest ih =>
      have split : IsAlarming (finding :: rest) ↔ finding.severity = .high ∨ IsAlarming rest := by
        simp [IsAlarming]
      rw [List.foldl_cons, ih, Severity.max_eq_high_iff, split, or_assoc]

theorem severity_eq_high_iff (report : Report) :
    report.severity = .high ↔ IsAlarming report.findings := by
  have folded := foldl_max_eq_high_iff report.findings .low
  simpa [Report.severity] using folded

theorem isValid_iff_not_isAlarming (raw optimized : List Char) :
    (audit raw optimized).isValid = true ↔ ¬ IsAlarming (audit raw optimized).findings := by
  have valid : (audit raw optimized).isValid =
      !(audit raw optimized).findings.any fun finding => finding.severity = .high := rfl
  rw [valid]
  simp [IsAlarming]

/-! What is alarming. -/

theorem quoteFindings_eq (raw optimized : List Char) :
    quoteFindings raw optimized = findingIf (!(scanQuotes optimized).balanced)
      ⟨.syntactic, .high, "Unbalanced quotes in optimized script"⟩ := by
  cases after : (scanQuotes optimized).balanced with
  | false => simp [quoteFindings, findingIf, after]
  | true =>
      have evenAfter := scanQuotes_even optimized after
      cases before : (scanQuotes raw).balanced with
      | false => simp [quoteFindings, findingIf, after, before]
      | true =>
          have evenBefore := scanQuotes_even raw before
          simp [quoteFindings, findingIf, after, before, evenAfter, evenBefore]

theorem isAlarming_quotes (raw optimized : List Char) :
    IsAlarming (quoteFindings raw optimized) ↔ ¬ (scanQuotes optimized).balanced = true := by
  rw [quoteFindings_eq, isAlarming_findingIf _ _ rfl]
  simp

theorem isAlarming_brackets (raw optimized : List Char) :
    IsAlarming (bracketKinds.flatMap (bracketFinding raw optimized)) ↔
      ¬ ∀ kind ∈ bracketKinds, kind.balance optimized = kind.balance raw := by
  rw [isAlarming_flatMap]
  have each (kind : Brackets) : IsAlarming (bracketFinding raw optimized kind) ↔
      ¬ kind.balance optimized = kind.balance raw := by
    rw [bracketFinding, isAlarming_findingIf _ _ rfl]
    simp
  simp only [each, Classical.not_forall, exists_prop]

theorem isAlarming_markers (raw optimized : List Char) :
    IsAlarming (malformedMarkers.flatMap (markerFinding raw optimized)) ↔
      ¬ ∀ marker ∈ malformedMarkers, Text.count marker optimized ≤ Text.count marker raw := by
  rw [isAlarming_flatMap]
  have each (marker : List Char) : IsAlarming (markerFinding raw optimized marker) ↔
      Text.count marker raw < Text.count marker optimized := by
    rw [markerFinding, isAlarming_findingIf _ _ rfl, decide_eq_true_eq]
  simp only [each, Classical.not_forall, exists_prop, Nat.not_le]

theorem isAlarming_behavior (raw optimized : List Char) :
    IsAlarming (behaviorFindings raw optimized) ↔
      ¬ (startsInterpreterLine raw = true ∨ startsInterpreterLine optimized = true →
        firstLine optimized = firstLine raw) ∨ ¬ exitCalls optimized = exitCalls raw := by
  rw [behaviorFindings, isAlarming_append, isAlarming_findingIf _ _ rfl,
    isAlarming_findingIf _ _ rfl]
  have swap : firstLine raw = firstLine optimized ↔ firstLine optimized = firstLine raw := eq_comm
  have swapCalls : exitCalls raw = exitCalls optimized ↔ exitCalls optimized = exitCalls raw :=
    eq_comm
  simp [swap, swapCalls]

theorem not_isAlarming_performance (raw optimized : List Char) :
    ¬ IsAlarming (performanceFindings raw optimized) := by
  rintro ⟨finding, member, high⟩
  rcases List.mem_append.mp member with blocking | size
  · obtain ⟨call, -, here⟩ := List.mem_flatMap.mp blocking
    rw [mem_findingIf here] at high
    exact Severity.noConfusion high
  · rw [mem_findingIf size] at high
    exact Severity.noConfusion high

theorem isValid_iff_acceptable (raw optimized : List Char) :
    (audit raw optimized).isValid = true ↔ Acceptable raw optimized := by
  rw [isValid_iff_not_isAlarming, audit, isAlarming_append, isAlarming_append, syntaxFindings,
    isAlarming_append, isAlarming_append, isAlarming_quotes, isAlarming_brackets,
    isAlarming_markers, isAlarming_behavior]
  have performance := not_isAlarming_performance raw optimized
  constructor
  · intro quiet
    simp only [performance, or_false, not_or, Classical.not_not] at quiet
    obtain ⟨⟨⟨quotes, brackets⟩, markers⟩, interpreter, exits⟩ := quiet
    exact ⟨quotes, brackets, markers, exits, interpreter⟩
  · rintro ⟨quotes, brackets, markers, exits, interpreter⟩
    simp only [performance, or_false, not_or, Classical.not_not]
    exact ⟨⟨⟨quotes, brackets⟩, markers⟩, interpreter, exits⟩

/-! The finding that never appears. -/

theorem message_head_ne (raw optimized : List Char) (finding : Finding)
    (member : finding ∈ (audit raw optimized).findings) :
    finding.message.toList.head? ≠ some 'Q' := by
  rcases List.mem_append.mp member with found | performance
  · rcases List.mem_append.mp found with syntactic | behavior
    · rcases List.mem_append.mp syntactic with brackets | markers
      · rcases List.mem_append.mp brackets with quotes | balance
        · rw [quoteFindings_eq] at quotes
          rw [mem_findingIf quotes]
          decide
        · obtain ⟨kind, -, here⟩ := List.mem_flatMap.mp balance
          rw [mem_findingIf here]
          simp
      · obtain ⟨marker, -, here⟩ := List.mem_flatMap.mp markers
        rw [mem_findingIf here]
        simp
    · rcases List.mem_append.mp behavior with first | exits
      · rw [mem_findingIf first]
        decide
      · rw [mem_findingIf exits]
        simp
  · rcases List.mem_append.mp performance with blocking | size
    · obtain ⟨call, -, here⟩ := List.mem_flatMap.mp blocking
      rw [mem_findingIf here]
      simp
    · rw [mem_findingIf size]
      simp

theorem message_ne_parity (raw optimized : List Char) (finding : Finding)
    (member : finding ∈ (audit raw optimized).findings) :
    finding.message ≠ "Quote parity changed" := by
  intro same
  have starts := message_head_ne raw optimized finding member
  rw [same] at starts
  exact starts (by decide)

/-! What is shipped. -/

theorem finish_result (compiler : Compiler) (options : Options) (text : List Char)
    (store : Store Fragment) :
    ({ compiler with optimizes := true, shorten := optimize options }.finish text store).result =
      .ok ⟨text, (optimize options text).text, audit text (optimize options text).text⟩ := rfl

theorem text_of_acceptable {script : CompiledScript}
    (audited : script.report = audit script.raw script.optimized) :
    (Acceptable script.raw script.optimized → script.text = script.optimized) ∧
      (¬ Acceptable script.raw script.optimized → script.text = script.raw) := by
  have valid := isValid_iff_acceptable script.raw script.optimized
  rw [← audited] at valid
  constructor
  · intro accepted
    rw [CompiledScript.text, if_pos (valid.mpr accepted)]
  · intro refused
    rw [CompiledScript.text, if_neg (fun passed => refused (valid.mp passed))]

/-- The audit passes exactly where the shortened text is acceptable, which its severity says as
well, it never finds a parity changed, and it decides what is shipped. -/
theorem audit_accepts_iff (raw optimized : List Char) :
    ((audit raw optimized).isValid = true ↔ Acceptable raw optimized) ∧
    ((audit raw optimized).isValid = true ↔ (audit raw optimized).severity ≠ .high) ∧
    (∀ finding ∈ (audit raw optimized).findings, finding.message ≠ "Quote parity changed") ∧
    ∀ (compiler : Compiler) (options : Options) (text : List Char) (store : Store Fragment),
      ∃ script,
        ({ compiler with optimizes := true, shorten := optimize options }.finish text store).result
          = .ok script ∧
        script.raw = text ∧ script.optimized = (optimize options text).text ∧
        (Acceptable text (optimize options text).text →
          script.text = (optimize options text).text) ∧
        (¬ Acceptable text (optimize options text).text → script.text = text) := by
  refine ⟨isValid_iff_acceptable raw optimized, ?_, message_ne_parity raw optimized, ?_⟩
  · rw [isValid_iff_not_isAlarming, ne_eq, severity_eq_high_iff]
  · intro compiler options text store
    have shipped := @text_of_acceptable
      ⟨text, (optimize options text).text, audit text (optimize options text).text⟩ rfl
    exact ⟨_, finish_result compiler options text store, rfl, rfl, shipped.1, shipped.2⟩

end StatusLine.Audit

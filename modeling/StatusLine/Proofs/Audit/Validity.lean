import StatusLine.Proofs.Audit.ExitCalls
import StatusLine.Proofs.Audit.QuoteRewriting
import StatusLine.Proofs.Audit.QuoteSimulation

/-!
What the audit says of shortened texts. If the readers of quotes and of lookups come to the end of
the raw text with everything closed, and its first line is plain, then the shortened text passes.
Quotes stay balanced already where the first of them comes to the end. They do not everywhere: a
closing parenthesis ends a word where the bracket that it replaces does not, so that a hash sign
behind it starts a comment.
-/

namespace StatusLine.Audit

open Shortening
open QuoteReading (reader)

structure IsSound (text : List Char) : Prop where
  closed : (reader.read reader.start text).isClosed = true
  spaced : IsSpaced text
  plainStart : ∀ c ∈ firstLine text, c ∉ ['_', '[', '$']

theorem behaviorFindings_eq_nil {raw optimized : List Char} (chain : Rewritten raw optimized)
    (sound : IsSound raw) : behaviorFindings raw optimized = [] := by
  have calls := (exitCalls_of_rewritten chain sound.spaced).1
  have first := firstLine_of_rewritten chain sound.plainStart
  simp [behaviorFindings, findingIf, calls, first]

theorem severity_of_performance {raw optimized : List Char} {finding : Finding}
    (member : finding ∈ performanceFindings raw optimized) : finding.severity ≠ .high := by
  rcases List.mem_append.mp member with found | found
  · obtain ⟨call, -, here⟩ := List.mem_flatMap.mp found
    obtain rfl := mem_findingIf here
    exact Severity.noConfusion
  · obtain rfl := mem_findingIf found
    exact Severity.noConfusion

theorem IsSound.isValid {text : List Char} (sound : IsSound text) (options : Options) :
    (audit text (optimize options text).text).isValid = true := by
  have chain := optimize_rewritten options text
  have quotes := quoteFindings_eq_nil text _ (closed_of_rewritten chain sound.closed)
  simp only [audit, syntaxFindings, quotes, chain.balanceFindings, chain.markerFindings,
    behaviorFindings_eq_nil chain sound, List.nil_append, Bool.not_eq_true', List.any_eq_false,
    decide_eq_true_eq]
  exact fun finding member => severity_of_performance member

end StatusLine.Audit

/-! Balanced quotes. -/

namespace StatusLine.Audit

open Shortening
open QuoteReading (reader)

theorem optimize_keeps_balance (options : Options) (text : List Char)
    (closed : (reader.read reader.start text).isClosed = true) :
    (scanQuotes (optimize options text).text).balanced = (scanQuotes text).balanced := by
  have chain := optimize_rewritten options text
  have still := closed_of_rewritten chain closed
  rw [balanced_of_isClosed _ still, balanced_of_isClosed _ closed]

theorem optimize_keeps_balance_of_test :
    (reader.read reader.start "[ $? -eq 0 ] #'a'\n".toList).isClosed = true ∧
      (scanQuotes (optimize .all "[ $? -eq 0 ] #'a'\n".toList).text).balanced =
        (scanQuotes "[ $? -eq 0 ] #'a'\n".toList).balanced :=
  ⟨by decide +kernel, optimize_keeps_balance .all _ (by decide +kernel)⟩

/-- A quote behind a hash sign that has come to start a comment is not seen any more. -/
theorem optimize_unbalances_quotes :
    (scanQuotes "[ $? -eq 0 ]#'a\n'".toList).balanced = true ∧
      (scanQuotes (optimize .all "[ $? -eq 0 ]#'a\n'".toList).text).balanced = false := by
  decide +kernel

end StatusLine.Audit

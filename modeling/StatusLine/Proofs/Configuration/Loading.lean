import StatusLine.Configuration.Loading
import StatusLine.Proofs.Document.Building

/-!
What loading a file gives: a configuration, the report of a file that holds none, or a failure that
the report does not cover. Only the last part depends on how documents are read.
-/

namespace StatusLine.Configuration

/-- The value of a document describes a configuration: a mapping the one that its entries say, and a
value that does not count as true the standard one. -/
def DescribedBy (value : Datum) (config : Configuration) : Prop :=
  (∃ entries, value = .mapping entries ∧ ofEntries entries = .ok config) ∨
    (value.isTruthy = false ∧ config = .standard)

/-- The bytes of a file are refused as those of a configuration, for the given reason. -/
inductive Refused (load : Document.Loader) (bytes : List UInt8) : String → Prop
  | malformed : load bytes = .error .malformed → Refused load bytes "invalid YAML"
  | notAMapping {value : Datum} : load bytes = .ok value → value.isTruthy = true →
      (∀ entries, value ≠ .mapping entries) → Refused load bytes "top level must be a mapping"
  | invalid {entries : List (Datum × Datum)} {issues : List Issue} :
      load bytes = .ok (.mapping entries) → ofEntries entries = .error issues →
      Refused load bytes (issuesText "StatuslineConfig" issues)

theorem ofEntries_nil : ofEntries [] = .ok .standard := rfl

theorem entries_eq_nil_of_not_truthy {entries : List (Datum × Datum)}
    (false_ : (Datum.mapping entries).isTruthy = false) : entries = [] := by
  simpa [Datum.isTruthy] using false_

section MappedFaults

variable {ε δ α : Type} {change : ε → δ}

@[simp]
theorem mapError_ok (value : α) : (Except.ok value).mapError change = .ok value := rfl

@[simp]
theorem mapError_error (cause : ε) :
    (Except.error cause : Except ε α).mapError change = .error (change cause) := rfl

theorem mapError_eq_ok_iff {result : Except ε α} {value : α} :
    result.mapError change = .ok value ↔ result = .ok value := by
  cases result <;> simp

theorem mapError_eq_error_iff {result : Except ε α} {fault : δ} :
    result.mapError change = .error fault ↔
      ∃ cause, result = .error cause ∧ change cause = fault := by
  cases result <;> simp

end MappedFaults

theorem ofValue_eq_ok_iff (value : Datum) (config : Configuration) :
    ofValue value = .ok config ↔ DescribedBy value config := by
  unfold ofValue
  cases counts : value.isTruthy with
  | false =>
      rw [if_pos (by rfl)]
      constructor
      · intro standard
        exact .inr ⟨counts, (Except.ok.inj standard).symm⟩
      · rintro (⟨entries, rfl, described⟩ | ⟨-, rfl⟩)
        · rw [entries_eq_nil_of_not_truthy counts, ofEntries_nil] at described
          exact congrArg _ (Except.ok.inj described)
        · rfl
  | true =>
      rw [if_neg (by simp)]
      have described : DescribedBy value config ↔
          ∃ entries, value = .mapping entries ∧ ofEntries entries = .ok config := by
        simp [DescribedBy, counts]
      rw [described]
      split
      · next entries => simp [mapError_eq_ok_iff]
      · next other =>
        simp only [reduceCtorEq, false_iff]
        rintro ⟨entries, same, -⟩
        exact other entries same

section Faults

variable {load : Document.Loader} {bytes : List UInt8}

theorem Refused.fault {reason : String} (refused : Refused load bytes reason) (path : String) :
    ∃ fault, ofFile load (some bytes) = .error fault ∧
      fault.failure path = .configuration path reason := by
  cases refused with
  | malformed read => exact ⟨.malformed, by simp [ofFile, read], rfl⟩
  | notAMapping read counts =>
      exact ⟨.notAMapping, by simp [ofFile, ofValue, read, counts], rfl⟩
  | @invalid entries issues read failed =>
      refine ⟨.invalid issues, ?_, rfl⟩
      have counts : (Datum.mapping entries).isTruthy = true := by
        cases entries with
        | nil => cases ofEntries_nil.symm.trans failed
        | cons entry rest => rfl
      simp [ofFile, ofValue, read, counts, failed]

theorem refused_of_ofValue {value : Datum} {fault : LoadFault} (path : String)
    (read : load bytes = .ok value) (failed : ofValue value = .error fault) :
    ∃ reason, Refused load bytes reason ∧ fault.failure path = .configuration path reason := by
  unfold ofValue at failed
  split at failed
  · cases failed
  next counts =>
  split at failed
  · next entries =>
    obtain ⟨issues, invalid, rfl⟩ := mapError_eq_error_iff.mp failed
    exact ⟨_, .invalid read invalid, rfl⟩
  · next other =>
    obtain rfl := Except.error.inj failed
    exact ⟨_, .notAMapping read (by simpa using counts) other, rfl⟩

end Faults

section Evaluated

variable {result : Except Document.Fault Datum}

theorem eq_emptyList (evaluated : (match result with
      | .ok (.list []) => true
      | _ => false) = true) : result = .ok (.list []) := by
  split at evaluated
  · rfl
  · cases evaluated

theorem eq_error_of_fault? {fault : Document.Fault} (evaluated : (match result with
      | .ok _ => none
      | .error found => some found) = some fault) : result = .error fault := by
  split at evaluated
  · cases evaluated
  · exact congrArg _ (Option.some.inj evaluated)

end Evaluated

end StatusLine.Configuration

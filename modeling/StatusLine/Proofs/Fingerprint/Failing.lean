import StatusLine.Datum.Failure
import StatusLine.Fingerprint.Key
import StatusLine.Proofs.Results

/-!
Why data has no key: there is a value in it that has no encoded form, or the key is for nothing that
keys are made for. No failure of the system is among the reasons.
-/

namespace StatusLine

def Failure.IsUnencodable (failure : Failure) : Prop :=
  ∃ kind, failure = .notEncodable kind

namespace Encoding

mutual

theorem isUnencodable_of_encode : ∀ (value : Datum) (failure : Failure),
    encode value = .error failure → failure.IsUnencodable
  | .null, _, failed | .bool _, _, failed | .int _, _, failed | .float _, _, failed
  | .text _, _, failed | .bytes _, _, failed => by simp [encode] at failed
  | .list items, failure, failed | .tuple items, failure, failed | .set items, failure, failed
  | .frozenSet items, failure, failed => by
      rw [encode] at failed
      exact isUnencodable_of_encodeItems items failure (map_eq_error failed)
  | .mapping entries, failure, failed => by
      rw [encode] at failed
      exact isUnencodable_of_encodeEntries entries failure (map_eq_error failed)
  | .record _ fields, failure, failed => by
      rw [encode] at failed
      exact isUnencodable_of_encodeFields fields failure (map_eq_error failed)
  | .member value, failure, failed => by
      rw [encode] at failed
      exact isUnencodable_of_encode value failure failed
  | .path _, _, failed | .kind _, _, failed | .thing _ _ _, _, failed => by
      simp only [encode] at failed
      exact ⟨_, (Except.error.inj failed).symm⟩

theorem isUnencodable_of_encodeItems : ∀ (items : List Datum) (failure : Failure),
    encodeItems items = .error failure → failure.IsUnencodable
  | [], _, failed => by simp [encodeItems] at failed
  | item :: rest, failure, failed => by
      simp only [encodeItems] at failed
      split at failed
      · rename_i here
        obtain rfl := Except.error.inj failed
        exact isUnencodable_of_encode item _ here
      · exact isUnencodable_of_encodeItems rest failure (map_eq_error failed)

theorem isUnencodable_of_encodeEntries : ∀ (entries : List (Datum × Datum)) (failure : Failure),
    encodeEntries entries = .error failure → failure.IsUnencodable
  | [], _, failed => by simp [encodeEntries] at failed
  | (_, value) :: rest, failure, failed => by
      simp only [encodeEntries] at failed
      split at failed
      · rename_i here
        obtain rfl := Except.error.inj failed
        exact isUnencodable_of_encode value _ here
      · exact isUnencodable_of_encodeEntries rest failure (map_eq_error failed)

theorem isUnencodable_of_encodeFields : ∀ (fields : List (String × Datum)) (failure : Failure),
    encodeFields fields = .error failure → failure.IsUnencodable
  | [], _, failed => by simp [encodeFields] at failed
  | (_, value) :: rest, failure, failed => by
      simp only [encodeFields] at failed
      split at failed
      · rename_i here
        obtain rfl := Except.error.inj failed
        exact isUnencodable_of_encode value _ here
      · exact isUnencodable_of_encodeFields rest failure (map_eq_error failed)

end

end Encoding

namespace Datum

theorem isUnencodable_of_withEncodings {items : List Datum} {failure : Failure}
    (failed : withEncodings items = .error failure) : failure.IsUnencodable := by
  induction items with
  | nil => cases failed
  | cons item rest ih =>
      simp only [withEncodings] at failed
      split at failed
      · rename_i here
        obtain rfl := Except.error.inj failed
        exact Encoding.isUnencodable_of_encode item _ here
      · exact ih (map_eq_error failed)

mutual

theorem isUnencodable_of_canonical : ∀ (value : Datum) (failure : Failure),
    canonical value = .error failure → failure.IsUnencodable
  | .list items, failure, failed | .tuple items, failure, failed => by
      rw [canonical] at failed
      exact isUnencodable_of_canonicalItems items failure (map_eq_error failed)
  | .set items, failure, failed | .frozenSet items, failure, failed => by
      simp only [canonical] at failed
      split at failed
      · rename_i here
        obtain rfl := Except.error.inj failed
        exact isUnencodable_of_canonicalItems items _ here
      · exact isUnencodable_of_withEncodings (map_eq_error (map_eq_error failed))
  | .mapping entries, failure, failed => by
      rw [canonical] at failed
      exact isUnencodable_of_canonicalEntries entries failure (map_eq_error failed)
  | .record _ fields, failure, failed => by
      rw [canonical] at failed
      exact isUnencodable_of_canonicalFields fields failure (map_eq_error failed)
  | .member value, failure, failed => by
      rw [canonical] at failed
      exact isUnencodable_of_canonical value failure failed
  | .null, _, failed | .bool _, _, failed | .int _, _, failed | .float _, _, failed
  | .text _, _, failed | .bytes _, _, failed | .path _, _, failed | .kind _, _, failed
  | .thing _ _ _, _, failed => by simp [canonical] at failed

theorem isUnencodable_of_canonicalItems : ∀ (items : List Datum) (failure : Failure),
    canonicalItems items = .error failure → failure.IsUnencodable
  | [], _, failed => by simp [canonicalItems] at failed
  | item :: rest, failure, failed => by
      simp only [canonicalItems] at failed
      split at failed
      · rename_i here
        obtain rfl := Except.error.inj failed
        exact isUnencodable_of_canonical item _ here
      · exact isUnencodable_of_canonicalItems rest failure (map_eq_error failed)

theorem isUnencodable_of_canonicalEntries : ∀ (entries : List (Datum × Datum)) (failure : Failure),
    canonicalEntries entries = .error failure → failure.IsUnencodable
  | [], _, failed => by simp [canonicalEntries] at failed
  | (_, value) :: rest, failure, failed => by
      simp only [canonicalEntries] at failed
      split at failed
      · rename_i here
        obtain rfl := Except.error.inj failed
        exact isUnencodable_of_canonical value _ here
      · exact isUnencodable_of_canonicalEntries rest failure (map_eq_error failed)

theorem isUnencodable_of_canonicalFields : ∀ (fields : List (String × Datum)) (failure : Failure),
    canonicalFields fields = .error failure → failure.IsUnencodable
  | [], _, failed => by simp [canonicalFields] at failed
  | (_, value) :: rest, failure, failed => by
      simp only [canonicalFields] at failed
      split at failed
      · rename_i here
        obtain rfl := Except.error.inj failed
        exact isUnencodable_of_canonical value _ here
      · exact isUnencodable_of_canonicalFields rest failure (map_eq_error failed)

end

end Datum

namespace Fingerprint

theorem isUnencodable_of_digest {fields : Datum} {failure : Failure}
    (failed : digest fields = .error failure) : failure.IsUnencodable := by
  have uncanonical := map_eq_error failed
  unfold Datum.canonicalText at uncanonical
  split at uncanonical
  · rename_i here
    obtain rfl := Except.error.inj uncanonical
    exact Datum.isUnencodable_of_canonical fields _ here
  · exact Encoding.isUnencodable_of_encode _ failure uncanonical

theorem isUnencodable_of_key {domain : String} {fields : Datum} {failure : Failure}
    (known : domains.contains domain = true) (failed : key domain fields = .error failure) :
    failure.IsUnencodable := by
  unfold key at failed
  rw [if_pos known] at failed
  exact isUnencodable_of_digest (map_eq_error failed)

end Fingerprint

end StatusLine

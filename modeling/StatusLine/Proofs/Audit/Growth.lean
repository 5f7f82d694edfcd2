import StatusLine.Proofs.Audit.Acceptance
import StatusLine.Proofs.Audit.Sizes
import StatusLine.Proofs.Text.Numerals

/-!
What the audit says of a text that has grown. It counts characters where the savings count bytes, so
the two disagree on texts beyond ASCII: about the sizes as soon as there is a wide character, and
even about whether a text has grown if the two texts differ in their surplus.
-/

namespace StatusLine.Audit

open Shortening (Options optimize mem_findingIf)

/-- A finding on a text that has grown. -/
def IsGrowth (finding : Finding) : Prop :=
  "Optimized script is larger".toList <+: finding.message.toList

/-- That a text has grown from one size to another. -/
def growth (before after : Nat) : Finding :=
  ⟨.performance, .low, "Optimized script is larger (" ++
    arrow (Text.ofNat before) (Text.ofNat after) ++ " bytes)"⟩

theorem sizeFinding_eq (raw optimized : List Char) :
    sizeFinding raw optimized =
      findingIf (raw.length < optimized.length) (growth raw.length optimized.length) := rfl

theorem isGrowth_growth (before after : Nat) : IsGrowth (growth before after) := by
  simp [IsGrowth, growth]

theorem growth_injective {before after first last : Nat}
    (same : growth before after = growth first last) : before = first ∧ after = last := by
  have texts := congrArg (fun finding : Finding => finding.message.toList) same
  simp only [growth, arrow, String.toList_append, String.toList_ofList, List.append_assoc,
    List.append_cancel_left_eq] at texts
  obtain ⟨rfl, behind⟩ := Text.ofNat_append_inj (by simp) (by simp) texts
  obtain ⟨rfl, -⟩ := Text.ofNat_append_inj (by simp) (by simp) (List.append_cancel_left behind)
  exact ⟨rfl, rfl⟩

/-! What other findings say. -/

def otherLetters : List Char :=
  ['U', 'Q', 'B', 'M', 'S', 'N']

theorem not_isGrowth_of_head {finding : Finding} {c : Char}
    (starts : finding.message.toList.head? = some c) (other : c ∈ otherLetters) :
    ¬ IsGrowth finding := by
  rintro ⟨more, whole⟩
  rw [← whole] at starts
  obtain rfl := Option.some.inj starts
  exact absurd other (by decide)

theorem not_isGrowth_of_syntactic {raw optimized : List Char} {finding : Finding}
    (member : finding ∈ syntaxFindings raw optimized) : ¬ IsGrowth finding := by
  rcases List.mem_append.mp member with found | markers
  · rcases List.mem_append.mp found with quotes | brackets
    · rw [quoteFindings_eq] at quotes
      obtain rfl := mem_findingIf quotes
      exact not_isGrowth_of_head (c := 'U') (by simp) (by decide)
    · obtain ⟨kind, -, here⟩ := List.mem_flatMap.mp brackets
      obtain rfl := mem_findingIf here
      exact not_isGrowth_of_head (c := 'B') (by simp) (by decide)
  · obtain ⟨marker, -, here⟩ := List.mem_flatMap.mp markers
    obtain rfl := mem_findingIf here
    exact not_isGrowth_of_head (c := 'M') (by simp) (by decide)

theorem not_isGrowth_behavior {raw optimized : List Char} {finding : Finding}
    (member : finding ∈ behaviorFindings raw optimized) : ¬ IsGrowth finding := by
  rcases List.mem_append.mp member with first | exits
  · obtain rfl := mem_findingIf first
    exact not_isGrowth_of_head (c := 'S') (by simp) (by decide)
  · obtain rfl := mem_findingIf exits
    exact not_isGrowth_of_head (c := 'N') (by simp) (by decide)

theorem not_isGrowth_blocking {raw optimized : List Char} {call : BlockingCall} {finding : Finding}
    (member : finding ∈ blockingFinding raw optimized call) : ¬ IsGrowth finding := by
  obtain rfl := mem_findingIf member
  exact not_isGrowth_of_head (c := 'N') (by simp) (by decide)

theorem mem_sizeFinding {raw optimized : List Char} {finding : Finding}
    (member : finding ∈ (audit raw optimized).findings) (grown : IsGrowth finding) :
    finding ∈ sizeFinding raw optimized := by
  rcases List.mem_append.mp member with found | performance
  · rcases List.mem_append.mp found with syntactic | behavior
    · exact absurd grown (not_isGrowth_of_syntactic syntactic)
    · exact absurd grown (not_isGrowth_behavior behavior)
  · rcases List.mem_append.mp performance with blocking | size
    · obtain ⟨call, -, here⟩ := List.mem_flatMap.mp blocking
      exact absurd grown (not_isGrowth_blocking here)
    · exact size

/-! What it says. -/

/-- The audit says that a text has grown. -/
def SaysGrown (raw optimized : List Char) : Prop :=
  ∃ finding ∈ (audit raw optimized).findings, IsGrowth finding

theorem growth_mem_iff (raw optimized : List Char) (before after : Nat) :
    growth before after ∈ (audit raw optimized).findings ↔
      raw.length < optimized.length ∧ before = raw.length ∧ after = optimized.length := by
  constructor
  · intro member
    have found := mem_sizeFinding member (isGrowth_growth before after)
    rw [sizeFinding_eq] at found
    refine ⟨?_, growth_injective (mem_findingIf found)⟩
    by_contra shrunk
    simp [findingIf, shrunk] at found
  · rintro ⟨grown, rfl, rfl⟩
    refine List.mem_append_right _ (List.mem_append_right _ ?_)
    simp [sizeFinding_eq, findingIf, grown]

theorem saysGrown_iff (raw optimized : List Char) :
    SaysGrown raw optimized ↔ raw.length < optimized.length := by
  constructor
  · rintro ⟨finding, member, grown⟩
    have found := mem_sizeFinding member grown
    rw [sizeFinding_eq] at found
    by_contra shrunk
    simp [findingIf, shrunk] at found
  · intro grown
    exact ⟨_, (growth_mem_iff raw optimized _ _).mpr ⟨grown, rfl, rfl⟩, isGrowth_growth _ _⟩

/-- The audit says that a text has grown exactly if it has more characters, and gives their numbers.
The savings count bytes; the two agree between texts with the same surplus. -/
theorem growth_found_iff (raw optimized : List Char) :
    (SaysGrown raw optimized ↔ raw.length < optimized.length) ∧
    (∀ finding ∈ (audit raw optimized).findings, IsGrowth finding →
      finding = growth raw.length optimized.length) ∧
    (SaysGrown raw optimized →
      (growth (Savings.ofTexts raw optimized).rawSize
          (Savings.ofTexts raw optimized).optimizedSize ∈ (audit raw optimized).findings ↔
        (∀ c ∈ raw, c.val ≤ 127) ∧ ∀ c ∈ optimized, c.val ≤ 127)) ∧
    (surplus raw = surplus optimized →
      (SaysGrown raw optimized ↔ (Savings.ofTexts raw optimized).rawSize <
        (Savings.ofTexts raw optimized).optimizedSize)) ∧
    ∀ options : Options,
      (Savings.ofTexts raw (optimize options raw).text).rawSize <
        (Savings.ofTexts raw (optimize options raw).text).optimizedSize →
      SaysGrown raw (optimize options raw).text := by
  refine ⟨saysGrown_iff raw optimized, fun finding member grown => ?_, fun grown => ?_,
    fun same => ?_, fun options grown => ?_⟩
  · have found := mem_sizeFinding member grown
    rw [sizeFinding_eq] at found
    exact mem_findingIf found
  · rw [saysGrown_iff] at grown
    rw [← surplus_eq_zero_iff, ← surplus_eq_zero_iff, growth_mem_iff, Savings.ofTexts_eq]
    dsimp only
    omega
  · simp only [saysGrown_iff, Savings.ofTexts_eq]
    omega
  · have less := surplus_optimize_le options raw
    simp only [Savings.ofTexts_eq] at grown
    rw [saysGrown_iff]
    omega

/-- Two letters take no more bytes than one wide one. -/
theorem growth_in_characters_only :
    SaysGrown ['é'] ['a', 'b'] ∧
      ¬ (Savings.ofTexts ['é'] ['a', 'b']).rawSize <
        (Savings.ofTexts ['é'] ['a', 'b']).optimizedSize := by
  rw [saysGrown_iff, Savings.ofTexts_eq]
  decide

end StatusLine.Audit

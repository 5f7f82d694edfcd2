import StatusLine.Proofs.Text.Separators
import StatusLine.Shortening.Idioms

/-!
Replacing a fixed stretch by a target that may contain it. The stretch is replaced between the
places where the target stands already. If the target does not overlap itself, no target arises but
the ones put in, and the pieces between the targets are those in which nothing was found.
-/

namespace StatusLine.Shortening

open Text (splitOn joinWith replaceAll Unbordered LiesBetween)

def substituted (old new text : List Char) : List Char :=
  joinWith new ((splitOn new text).map (replaceAll old new))

variable {old new text : List Char}

theorem edit_substringRule (name : String) (old : List Char) (target : new ≠ [])
    (text : List Char) :
    (substringRule name old new).edit text = .ok (substituted old new text) := by
  simp [substringRule, target, substituted]

theorem substituted_of_free (source : old ≠ []) (target : new ≠ [])
    (free : ∀ piece ∈ splitOn new text, ¬ old <:+: piece) : substituted old new text = text := by
  have same : ∀ piece ∈ splitOn new text, replaceAll old new piece = piece :=
    fun piece member => Text.replaceAll_of_absent source (free piece member) new
  rw [substituted, List.map_congr_left same, List.map_id', Text.joinWith_splitOn new target]

theorem free_of_skip {name : String} (target : new ≠ [])
    (skips : (substringRule name old new).skip text = true) :
    ∀ piece ∈ splitOn new text, ¬ old <:+: piece := by
  intro piece member inside
  have whole : old <:+: replaceAll new [] text := by
    rw [Text.replaceAll_of_ne_nil _ _ _ target]
    exact inside.trans (Text.infix_joinWith member)
  have found := (Text.contains_iff old _).mpr whole
  simp [substringRule, found] at skips

theorem edit_of_skip {name : String} (source : old ≠ []) (target : new ≠ [])
    (skips : (substringRule name old new).skip text = true) :
    (substringRule name old new).edit text = .ok text := by
  rw [edit_substringRule name old target,
    substituted_of_free source target (free_of_skip target skips)]

theorem apply_substringRule (name : String) (source : old ≠ []) (target : new ≠ [])
    (text : List Char) :
    (substringRule name old new).apply text = .ok (substituted old new text) := by
  rw [Rule.apply]
  split
  · rename_i skips
    rw [← edit_of_skip source target skips, edit_substringRule name old target]
  · exact edit_substringRule name old target text

/-! Where the targets stand. -/

theorem substituted_eq_joinWith (source : old ≠ []) (new text : List Char) :
    substituted old new text = joinWith new ((splitOn new text).flatMap (splitOn old)) := by
  have each : replaceAll old new = joinWith new ∘ splitOn old := by
    funext piece
    exact Text.replaceAll_of_ne_nil old new piece source
  have some : ∀ pieces ∈ (splitOn new text).map (splitOn old), pieces ≠ [] := by
    intro pieces member
    obtain ⟨piece, -, rfl⟩ := List.mem_map.mp member
    exact Text.splitOn_ne_nil old piece
  rw [substituted, each, ← List.map_map, Text.joinWith_map_joinWith new some, List.flatMap_def]

theorem splitOn_substituted (source : old ≠ []) (target : new ≠ [])
    (unbordered : Unbordered new) (text : List Char) :
    splitOn new (substituted old new text) = (splitOn new text).flatMap (splitOn old) := by
  rw [substituted_eq_joinWith source]
  refine Text.splitOn_joinWith target unbordered ?_ fun part member inside => ?_
  · obtain ⟨piece, others, shape⟩ := List.exists_cons_of_ne_nil (Text.splitOn_ne_nil new text)
    rw [shape, List.flatMap_cons]
    exact List.append_ne_nil_of_left_ne_nil (Text.splitOn_ne_nil old piece) _
  · obtain ⟨piece, known, cut⟩ := List.mem_flatMap.mp member
    have within : part <:+: Text.joinWith old (splitOn old piece) := Text.infix_joinWith cut
    rw [Text.joinWith_splitOn old source] at within
    exact Text.not_infix_of_mem_splitOn target known (inside.trans within)

theorem free_substituted (source : old ≠ []) (target : new ≠ []) (unbordered : Unbordered new)
    (text : List Char) : ∀ piece ∈ splitOn new (substituted old new text), ¬ old <:+: piece := by
  intro piece member
  rw [splitOn_substituted source target unbordered] at member
  obtain ⟨original, -, part⟩ := List.mem_flatMap.mp member
  exact Text.not_infix_of_mem_splitOn source part

theorem substituted_append (target : new ≠ []) (unbordered : Unbordered new)
    (old before rest : List Char) :
    substituted old new (before ++ (new ++ rest)) =
      substituted old new before ++ (new ++ substituted old new rest) := by
  have left : (splitOn new before).map (replaceAll old new) ≠ [] :=
    fun none => Text.splitOn_ne_nil new before (List.map_eq_nil_iff.mp none)
  have right : (splitOn new rest).map (replaceAll old new) ≠ [] :=
    fun none => Text.splitOn_ne_nil new rest (List.map_eq_nil_iff.mp none)
  rw [substituted, Text.splitOn_append target unbordered, List.map_append,
    Text.joinWith_append new left right, List.append_assoc]
  rfl

/-- A rule for a fixed stretch, with a target that does not overlap itself, keeps every target,
leaves the stretch nowhere between them, and is at rest after one run. -/
theorem substringRule_settles (name : String) {old new : List Char} (source : old ≠ [])
    (target : new ≠ []) (unbordered : Unbordered new) (text : List Char) :
    ((substringRule name old new).skip text = true →
      (substringRule name old new).edit text = .ok text) ∧
    ∃ changed, (substringRule name old new).apply text = .ok changed ∧
      (∀ before rest, text = before ++ (new ++ rest) →
        ∃ first last, (substringRule name old new).apply before = .ok first ∧
          (substringRule name old new).apply rest = .ok last ∧
          changed = first ++ (new ++ last)) ∧
      (∀ piece, LiesBetween new changed piece → ¬ old <:+: piece) ∧
      (substringRule name old new).apply changed = .ok changed := by
  have applied := apply_substringRule name source target
  have free := free_substituted source target unbordered text
  refine ⟨edit_of_skip source target, substituted old new text, applied text, ?_, ?_, ?_⟩
  · rintro before rest rfl
    exact ⟨_, _, applied before, applied rest, substituted_append target unbordered old before rest⟩
  · intro piece between
    exact free piece (between.mem_splitOn target unbordered)
  · rw [applied, substituted_of_free source target free]

theorem epochSeconds_settles :
    let command := "$(date +%s)".toList
    let target := "$\x7bEPOCHSECONDS:-$(date +%s)\x7d".toList
    command ≠ [] ∧ target ≠ [] ∧ Unbordered target ∧
      epochSeconds.skip (command ++ (target ++ command)) = false ∧
      epochSeconds.apply (command ++ (target ++ command)) = .ok (target ++ (target ++ target)) ∧
      (∀ piece, LiesBetween target (target ++ (target ++ target)) piece → ¬ command <:+: piece) ∧
      epochSeconds.apply (target ++ (target ++ target)) = .ok (target ++ (target ++ target)) := by
  intro command target
  have source : command ≠ [] := by decide
  have present : target ≠ [] := by decide
  have unbordered : Unbordered target := by decide +kernel
  obtain ⟨-, changed, applied, -, free, again⟩ := substringRule_settles "epoch-seconds"
    source present unbordered (command ++ (target ++ command))
  have whole : epochSeconds.apply (command ++ (target ++ command)) =
      .ok (target ++ (target ++ target)) := by
    decide +kernel
  obtain rfl : changed = target ++ (target ++ target) := Except.ok.inj (applied.symm.trans whole)
  exact ⟨source, present, unbordered, by decide +kernel, whole, free, again⟩

end StatusLine.Shortening

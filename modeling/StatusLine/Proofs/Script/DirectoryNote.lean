import StatusLine.Proofs.Script.FormatReading
import StatusLine.Proofs.Shortening.Renaming

/-!
The note on the working directory. Its format string holds the name of a variable, which is
shortened there as everywhere, unless the short name is in use.
-/

namespace StatusLine.Script

open Shortening

/-- What shortening makes of a format string. -/
def noted (format : List Char) : List Char :=
  if format = directoryNote then renamedNote else format

/-- The variable that holds the working directory, and its short name. -/
def directoryNames : List Char × List Char :=
  ("current_directory_path".toList, "cwd".toList)

theorem infix_of_mem_formatsOf {pieces : List (List Char)} {format : List Char}
    (member : format ∈ formatsOf pieces) :
    '\'' :: format ++ ['\''] <:+: ['\''].intercalate pieces := by
  induction pieces using formatsOf.induct with
  | case1 before first next rest called ih =>
      rw [formatsOf, if_pos called] at member
      rw [intercalate_pieces, intercalate_pieces]
      rcases List.mem_cons.mp member with rfl | later
      · exact ⟨before, ['\''].intercalate (next :: rest), by simp⟩
      · refine (ih later).trans ?_
        exact ⟨before ++ '\'' :: first ++ ['\''], [], by simp⟩
  | case2 before first next rest called ih =>
      rw [formatsOf, if_neg called] at member
      rw [intercalate_pieces]
      refine (ih member).trans ?_
      exact ⟨before ++ ['\''], [], by simp⟩
  | case3 pieces short =>
      rw [formatsOf] at member
      · exact absurd member List.not_mem_nil
      · exact short

theorem infix_of_mem_formats {text format : List Char} (member : format ∈ formats text) :
    '\'' :: format ++ ['\''] <:+: text := by
  have inside := infix_of_mem_formatsOf member
  rwa [List.intercalate_splitOn] at inside

theorem occurs_of_note {text : List Char} (member : directoryNote ∈ formats text) :
    occursBehind directoryNames.1 none text = true := by
  obtain ⟨front, back, rfl⟩ := infix_of_mem_formats member
  have parts : '\'' :: directoryNote ++ ['\''] =
      "'  ".toList ++ (directoryNames.1 ++ "=%s\\n'".toList) := by
    decide
  have starts : isThere isWordOrDot (front ++ "'  ".toList).getLast? = false := by
    rw [getLast?_append_of_some front (by decide : _ = some ' ')]
    decide
  have ends : WordEnds ('=' :: ("%s\\n'".toList ++ back)) := wordEnds_cons (by decide)
  have found : occursBehind directoryNames.1 none _ = true := occursBehind_between starts ends
  rw [parts]
  simpa using found

/-! What the first pass leaves. -/

theorem isRun_directoryNames :
    IsRun Text.isWord directoryNames.1 ∧ IsRun Text.isWord directoryNames.2 :=
  isRun_of_mem_shortNames "current_directory_path" "cwd" (by decide)

/-- The rule for the name comes first; no other one brings the name back. -/
theorem identifiers_rewritten (name : String) {text : List Char}
    (unused : occursBehind directoryNames.2 none text = false) :
    ∃ changed, (Progress.applyPass ⟨[], .ok text⟩ ⟨name, identifierRules⟩).result = .ok changed ∧
      Rewritten text changed ∧ occursBehind directoryNames.1 none changed = false := by
  obtain ⟨longs, shorts⟩ := isRun_directoryNames
  have rules : identifierRules =
      identifierRule directoryNames.1 directoryNames.2 ::
        shortNames.tail.map fun names => identifierRule names.1.toList names.2.toList := rfl
  have member : identifierRule directoryNames.1 directoryNames.2 ∈ identifierRules := by
    rw [rules]
    exact List.mem_cons_self
  obtain ⟨first, applied, chain⟩ := isRewriting_of_mem_identifierRules _ member text
  have gone : occursBehind directoryNames.1 none first = false := by
    rw [Rule.apply, skip_identifierRule, unused, Bool.false_or] at applied
    cases found : occursBehind directoryNames.1 none text with
    | false =>
        rw [found] at applied
        obtain rfl := Except.ok.inj applied
        exact found
    | true =>
        rw [found] at applied
        obtain rfl := Except.ok.inj applied
        exact occursBehind_long longs shorts (by decide) text
  rw [Progress.applyPass, rules, List.foldl_cons]
  refine Progress.foldl_keeps name _ (fun rule inside next holds => ?_) _ first
    (by simp [Progress.apply, applied]) ⟨chain, gone⟩
  obtain ⟨⟨long, short⟩, known, rfl⟩ := List.mem_map.mp inside
  have paired : (long, short) ∈ shortNames := List.mem_of_mem_tail known
  obtain ⟨here, there⟩ := isRun_of_mem_shortNames long short paired
  have others : ∀ names ∈ shortNames.tail,
      names.1.toList ≠ directoryNames.1 ∧ names.2.toList ≠ directoryNames.1 := by
    decide
  obtain ⟨notLong, notShort⟩ := others (long, short) known
  obtain ⟨changed, done, step⟩ := identifierRule_isRewriting long short paired next
  refine ⟨changed, done, holds.1.trans step, ?_⟩
  rw [Rule.apply] at done
  split at done
  · obtain rfl := Except.ok.inj done
    exact holds.2
  · obtain rfl := Except.ok.inj done
    rw [← renamedBehind_none, occursBehind_renamedBehind here there longs notLong notShort]
    exact holds.2

/-! All of shortening. -/

theorem noted_of_rewritten {format changed : List Char} (fine : IsFine format)
    (chain : Rewritten format changed) (gone : changed ≠ directoryNote) :
    changed = noted format := by
  rcases rewritten_fine fine chain with rfl | ⟨rfl, rfl⟩
  · exact (if_neg gone).symm
  · exact (if_pos rfl).symm

theorem map_noted {raws changed : List (List Char)} (chains : List.Forall₂ Rewritten raws changed)
    (fine : ∀ format ∈ raws, IsFine format) (gone : directoryNote ∉ changed) :
    changed = raws.map noted := by
  induction chains with
  | nil => rfl
  | cons chain chains ih =>
      obtain ⟨here, behind⟩ := List.forall_mem_cons.mp fine
      rw [List.mem_cons, not_or] at gone
      rw [List.map_cons, ← noted_of_rewritten here chain (Ne.symm gone.1), ← ih behind gone.2]

theorem noted_still {format changed : List Char} (fine : IsFine format)
    (chain : Rewritten (noted format) changed) : changed = noted format := by
  have rest : ¬ ∃ next, Rewriting (noted format) next := by
    rintro ⟨next, step⟩
    by_cases note : format = directoryNote
    · rw [noted, if_pos note] at step
      exact not_rewriting (by decide) (by decide) step
    · rw [noted, if_neg note] at step
      exact not_rewriting fine.1 ((eq_directoryNote fine).resolve_right note) step
  rcases Relation.ReflTransGen.cases_head chain with same | ⟨next, step, -⟩
  · exact same.symm
  · exact absurd ⟨next, step⟩ rest

theorem map_noted_still {raws changed : List (List Char)} (fine : ∀ format ∈ raws, IsFine format)
    (chains : List.Forall₂ Rewritten (raws.map noted) changed) : changed = raws.map noted := by
  induction raws generalizing changed with
  | nil =>
      cases chains
      rfl
  | cons raw rest ih =>
      obtain ⟨here, behind⟩ := List.forall_mem_cons.mp fine
      cases chains with
      | cons chain chains => rw [List.map_cons, noted_still here chain, ih behind chains]

theorem rewritten_behind_identifiers {options : Options} (identifiers : options.identifiers = true)
    {text first : List Char}
    (reached : (Progress.applyPass ⟨[], .ok text⟩ ⟨"identifiers", identifierRules⟩).result =
      .ok first) : Rewritten first (optimize options text).text := by
  have rules := isRewriting_of_mem_passes options
  have split : passes options = ⟨"identifiers", identifierRules⟩ ::
      (if options.idioms then [⟨"idioms", idiomRules⟩] else []) := by
    rw [passes, if_pos identifiers]
    rfl
  rw [split] at rules
  obtain ⟨changed, done, chain⟩ := Progress.passes_rewritten _
    (fun pass member => rules pass (List.mem_cons_of_mem _ member)) _ first first reached
    Relation.ReflTransGen.refl
  rw [optimize, run, split, List.foldl_cons]
  simp only [done]
  split
  · exact chain.trans (shortenBlankRuns_rewritten changed)
  · exact chain

/-- Where the short name is not in use, shortening puts it into the note and leaves every other
format string as it was. -/
theorem formats_optimize_noted {options : Options} (identifiers : options.identifiers = true)
    {text : List Char} (fine : ∀ format ∈ formats text, IsFine format)
    (unused : occursBehind directoryNames.2 none text = false) :
    formats (optimize options text).text = (formats text).map noted := by
  obtain ⟨first, reached, chain, gone⟩ := identifiers_rewritten "identifiers" unused
  have firstFormats : formats first = (formats text).map noted := by
    refine map_noted (formats_rewritten chain) fine fun member => ?_
    rw [occurs_of_note member] at gone
    cases gone
  have later := formats_rewritten (rewritten_behind_identifiers identifiers reached)
  rw [firstFormats] at later
  exact map_noted_still fine later

end StatusLine.Script

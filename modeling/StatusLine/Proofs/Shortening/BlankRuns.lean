import Mathlib.Data.List.SplitBy
import StatusLine.Proofs.Shortening.KeptDocuments

/-!
Runs of blank lines, as they stand in the text. The lines outside of here-documents fall into runs
of blank lines and single other lines, and shortening cuts every run to its first two lines. It
leaves the here-documents where they were, so that there is nothing left to cut for a second time.
-/

namespace StatusLine.Shortening

/-- A line, and whether it stands in a here-document. The line that ends one is still inside. -/
structure Place where
  line : List Char
  inside : Bool
  deriving Repr, DecidableEq

def Place.isGap (place : Place) : Bool :=
  !place.inside && Text.isBlankLine place.line

def openedBy (line : List Char) : List (List Char) :=
  if startsComment (Text.trim line) then [] else (Text.delimiters line).reverse

def places : (openDelimiters lines : List (List Char)) → List Place
  | _, [] => []
  | [], line :: rest => ⟨line, false⟩ :: places (openedBy line) rest
  | delimiter :: outer, line :: rest =>
      ⟨line, true⟩ ::
        places (if Text.trim line = delimiter then outer else delimiter :: outer) rest

/-- Neighbouring gaps belong to one run; any other place is a run of its own. -/
def cutRuns (run : List Place) : List Place :=
  (run.splitBy fun first second => first.isGap && second.isGap).flatMap (List.take longestBlankRun)

/-- All of the gaps that stand next to each other, between what comes before and after them. -/
structure IsGapRun (before run after : List Place) : Prop where
  gaps : ∀ place ∈ run, place.isGap = true
  starts : ∀ place ∈ before.getLast?, place.isGap = false
  ends : ∀ place ∈ after.head?, place.isGap = false

/-! Cutting run by run. -/

theorem cutRuns_append {before after : List Place}
    (apart : ∀ first ∈ before.getLast?, ∀ second ∈ after.head?,
      (first.isGap && second.isGap) = false) :
    cutRuns (before ++ after) = cutRuns before ++ cutRuns after := by
  rw [cutRuns, List.splitBy_append apart, List.flatMap_append]
  rfl

theorem cutRuns_gaps {run : List Place} (gaps : ∀ place ∈ run, place.isGap = true) :
    cutRuns run = run.take longestBlankRun := by
  by_cases empty : run = []
  · subst empty
    rfl
  · have chain : run.IsChain fun first second => (first.isGap && second.isGap) = true := by
      refine List.Pairwise.isChain (List.pairwise_of_forall_mem_list ?_)
      intro first inRun second alsoInRun
      simp only [gaps first inRun, gaps second alsoInRun, Bool.and_self]
    rw [cutRuns, List.splitBy_of_isChain empty chain, List.flatMap_singleton]

theorem IsGapRun.cut {before run after : List Place} (isRun : IsGapRun before run after) :
    cutRuns (before ++ (run ++ after)) =
      cutRuns before ++ (run.take longestBlankRun ++ cutRuns after) := by
  have behind : cutRuns (run ++ after) = run.take longestBlankRun ++ cutRuns after := by
    rw [cutRuns_append, cutRuns_gaps isRun.gaps]
    intro first _ second next
    rw [isRun.ends second next, Bool.and_false]
  rw [cutRuns_append, behind]
  intro first last second _
  rw [isRun.starts first last, Bool.false_and]

theorem cutRuns_cons {place : Place} (solid : place.isGap = false) (rest : List Place) :
    cutRuns (place :: rest) = place :: cutRuns rest := by
  have apart : ∀ first ∈ [place].getLast?, ∀ second ∈ rest.head?,
      (first.isGap && second.isGap) = false := by
    intro first last second _
    obtain rfl : place = first := by simpa using last
    rw [solid, Bool.false_and]
  exact cutRuns_append apart

/-! Cutting line by line. -/

def cutFrom : (run : Nat) → List Place → List Place
  | _, [] => []
  | run, place :: rest =>
      if place.isGap then
        if run < longestBlankRun then place :: cutFrom (run + 1) rest else cutFrom (run + 1) rest
      else place :: cutFrom 0 rest

theorem cutFrom_solid (run : Nat) {place : Place} (solid : place.isGap = false)
    (rest : List Place) : cutFrom run (place :: rest) = place :: cutFrom 0 rest := by
  simp [cutFrom, solid]

theorem cutFrom_gaps (run : Nat) {gaps : List Place} (all : ∀ place ∈ gaps, place.isGap = true)
    {after : List Place} (ends : ∀ place ∈ after.head?, place.isGap = false) :
    cutFrom run (gaps ++ after) = gaps.take (longestBlankRun - run) ++ cutFrom 0 after := by
  induction gaps generalizing run with
  | nil =>
      cases after with
      | nil => simp [cutFrom]
      | cons place rest =>
          have solid := ends place (by simp)
          simp [cutFrom_solid _ solid]
  | cons place rest ih =>
      have gap := all place List.mem_cons_self
      have behind := ih (run + 1) fun other member => all other (List.mem_cons_of_mem place member)
      by_cases short : run < longestBlankRun
      · have count : longestBlankRun - run = (longestBlankRun - (run + 1)) + 1 := by omega
        rw [List.cons_append, cutFrom, if_pos gap, if_pos short, behind, count]
        rfl
      · have none : longestBlankRun - run = 0 := by omega
        have noMore : longestBlankRun - (run + 1) = 0 := by omega
        rw [List.cons_append, cutFrom, if_pos gap, if_neg short, behind, none, noMore]
        rfl

theorem cutFrom_cutFrom {first second : Nat} (fewer : second ≤ first) (places : List Place) :
    cutFrom second (cutFrom first places) = cutFrom first places := by
  induction places generalizing first second with
  | nil => rfl
  | cons place rest ih =>
      by_cases gap : place.isGap = true
      · by_cases short : first < longestBlankRun
        · have alsoShort : second < longestBlankRun := Nat.lt_of_le_of_lt fewer short
          simp only [cutFrom, gap, short, alsoShort, if_true]
          rw [ih (Nat.succ_le_succ fewer)]
        · simp only [cutFrom, gap, short, if_true, if_false]
          exact ih (Nat.le_succ_of_le fewer)
      · have solid : place.isGap = false := by simpa using gap
        rw [cutFrom_solid first solid, cutFrom_solid second solid, ih (Nat.le_refl 0)]

theorem cutFrom_zero (places : List Place) : cutFrom 0 places = cutRuns places := by
  induction counted : places.length using Nat.strongRecOn generalizing places with
  | ind length ih =>
      subst counted
      cases places with
      | nil => rfl
      | cons place rest =>
          by_cases gap : place.isGap = true
          · have split : place :: rest = (place :: rest.takeWhile Place.isGap) ++
                rest.dropWhile Place.isGap := by
              rw [List.cons_append, List.takeWhile_append_dropWhile]
            have gaps : ∀ other ∈ place :: rest.takeWhile Place.isGap, other.isGap = true := by
              intro other member
              rcases List.mem_cons.mp member with rfl | later
              · exact gap
              · exact List.mem_takeWhile_imp later
            have ends : ∀ other ∈ (rest.dropWhile Place.isGap).head?, other.isGap = false := by
              intro other next
              simpa [Option.mem_def.mp next] using List.head?_dropWhile_not Place.isGap rest
            have isRun : IsGapRun [] (place :: rest.takeWhile Place.isGap)
                (rest.dropWhile Place.isGap) := ⟨gaps, by simp, ends⟩
            have shorter : (rest.dropWhile Place.isGap).length < (place :: rest).length :=
              Nat.lt_succ_of_le (List.dropWhile_sublist _).length_le
            have cut := isRun.cut
            rw [List.nil_append, ← split] at cut
            rw [cut, ← ih _ shorter _ rfl, split, cutFrom_gaps 0 gaps ends]
            rfl
          · have solid : place.isGap = false := by simpa using gap
            rw [cutFrom_solid 0 solid, cutRuns_cons solid, ih rest.length (by simp) rest rfl]

/-! The lines of a text. -/

theorem trim_eq_nil_iff (line : List Char) : Text.trim line = [] ↔ Text.isBlankLine line = true := by
  rw [Text.isBlankLine, List.all_eq_true]
  exact ⟨isBlank_of_trim_eq_nil line, Text.trim_of_blank⟩

theorem openedBy_of_blank {line : List Char} (blank : Text.isBlankLine line = true) :
    openedBy line = [] := by
  have none : Text.delimiters line = [] := by
    by_contra some
    exact trim_ne_nil_of_delimiters some ((trim_eq_nil_iff line).mpr blank)
  simp [openedBy, none]

theorem places_keptLines (run : Nat) (openDelimiters lines : List (List Char))
    (counts : openDelimiters ≠ [] → run = 0) :
    places openDelimiters (keptLines ⟨run, openDelimiters⟩ lines) =
      cutFrom run (places openDelimiters lines) := by
  induction lines generalizing run openDelimiters with
  | nil => cases openDelimiters <;> rfl
  | cons line rest ih =>
      cases openDelimiters with
      | cons delimiter outer =>
          obtain rfl := counts (by simp)
          have solid : Place.isGap ⟨line, true⟩ = false := rfl
          rw [places, cutFrom_solid 0 solid, ← ih 0 _ fun _ => rfl]
          by_cases ends : Text.trim line = delimiter
          · simp [keptLines, BlankState.step, ends, places]
          · simp [keptLines, BlankState.step, ends, places]
      | nil =>
          by_cases blank : Text.isBlankLine line = true
          · have trimmed := (trim_eq_nil_iff line).mpr blank
            have gap : Place.isGap ⟨line, false⟩ = true := blank
            have behind := ih (run + 1) [] (by simp)
            rw [places, openedBy_of_blank blank]
            by_cases short : run + 1 ≤ longestBlankRun
            · simp [keptLines, BlankState.step, trimmed, short, Nat.lt_of_succ_le short, places,
                cutFrom, gap, openedBy_of_blank blank, behind]
            · have full : ¬ run < longestBlankRun := short
              simp [keptLines, BlankState.step, trimmed, short, full, cutFrom, gap, behind]
          · have visible : Text.trim line ≠ [] := fun empty =>
              blank ((trim_eq_nil_iff line).mp empty)
            have solid : Place.isGap ⟨line, false⟩ = false := by simpa [Place.isGap] using blank
            rw [places, cutFrom_solid run solid, ← ih 0 (openedBy line) fun _ => rfl]
            by_cases comment : startsComment (Text.trim line) = true
            · simp [keptLines, BlankState.step, visible, comment, places, openedBy]
            · simp [keptLines, BlankState.step, visible, comment, places, openedBy]

theorem map_line_places (openDelimiters lines : List (List Char)) :
    (places openDelimiters lines).map Place.line = lines := by
  induction lines generalizing openDelimiters with
  | nil => cases openDelimiters <;> rfl
  | cons line rest ih =>
      cases openDelimiters with
      | nil => rw [places, List.map_cons, ih]
      | cons delimiter outer => rw [places, List.map_cons, ih]

theorem filter_keptLines (state : BlankState) (lines : List (List Char)) :
    (keptLines state lines).filter (fun line => !Text.isBlankLine line) =
      lines.filter fun line => !Text.isBlankLine line := by
  induction lines generalizing state with
  | nil => rfl
  | cons line rest ih =>
      rcases step_stays_or_blank state line with stays | blank
      · simp [keptLines, stays, List.filter_cons, ih]
      · have gone : Text.isBlankLine line = true := List.all_eq_true.mpr blank
        by_cases stays : (state.step line).1 = true
        · simp [keptLines, stays, gone, ih]
        · simp [keptLines, stays, gone, ih]

theorem filter_inside_cutFrom (run : Nat) (places : List Place) :
    (cutFrom run places).filter Place.inside = places.filter Place.inside := by
  induction places generalizing run with
  | nil => rfl
  | cons place rest ih =>
      by_cases gap : place.isGap = true
      · have outside : place.inside = false := by
          simp only [Place.isGap, Bool.and_eq_true, Bool.not_eq_true'] at gap
          exact gap.1
        by_cases short : run < longestBlankRun
        · simp [cutFrom, gap, short, outside, ih]
        · simp [cutFrom, gap, short, outside, ih]
      · have solid : place.isGap = false := by simpa using gap
        rw [cutFrom_solid run solid, List.filter_cons, List.filter_cons, ih]

/-- Where the lines of a text stand. -/
def placesOf (text : List Char) : List Place :=
  places [] (Text.splitLines text)

theorem placesOf_shortenBlankRuns (text : List Char) :
    placesOf (shortenBlankRuns text) = cutRuns (placesOf text) := by
  rw [placesOf, splitLines_shortenBlankRuns, ← cutFrom_zero]
  exact places_keptLines 0 [] _ fun _ => rfl

theorem shortenBlankRuns_twice (text : List Char) :
    shortenBlankRuns (shortenBlankRuns text) = shortenBlankRuns text := by
  have places : placesOf (shortenBlankRuns (shortenBlankRuns text)) =
      placesOf (shortenBlankRuns text) := by
    simp only [placesOf_shortenBlankRuns, ← cutFrom_zero]
    exact cutFrom_cutFrom (Nat.le_refl 0) _
  have lines := congrArg (List.map Place.line) places
  rw [placesOf, placesOf, map_line_places, map_line_places] at lines
  rw [← Text.joinLines_splitLines (shortenBlankRuns (shortenBlankRuns text)), lines,
    Text.joinLines_splitLines]

/-- Only blank lines go. Every run of them outside of here-documents is cut to its first two, and a
second time nothing goes. -/
theorem blank_runs_cut (text : List Char) :
    ((Text.splitLines (shortenBlankRuns text)).Sublist (Text.splitLines text) ∧
      (Text.splitLines (shortenBlankRuns text)).filter (fun line => !Text.isBlankLine line) =
        (Text.splitLines text).filter fun line => !Text.isBlankLine line) ∧
      (∀ before run after, placesOf text = before ++ (run ++ after) →
        IsGapRun before run after → placesOf (shortenBlankRuns text) =
          cutRuns before ++ (run.take longestBlankRun ++ cutRuns after)) ∧
      (placesOf (shortenBlankRuns text)).filter Place.inside =
        (placesOf text).filter Place.inside ∧
      shortenBlankRuns (shortenBlankRuns text) = shortenBlankRuns text := by
  refine ⟨⟨?_, ?_⟩, ?_, ?_, shortenBlankRuns_twice text⟩
  · rw [splitLines_shortenBlankRuns]
    exact keptLines_sublist .start _
  · rw [splitLines_shortenBlankRuns]
    exact filter_keptLines .start _
  · intro before run after whole isRun
    rw [placesOf_shortenBlankRuns, whole, isRun.cut]
  · rw [placesOf_shortenBlankRuns, ← cutFrom_zero]
    exact filter_inside_cutFrom 0 _

theorem blank_runs_cut_behind_document :
    placesOf "cat <<A\n\n\n\nA\n\n\n\nx".toList =
        [⟨"cat <<A".toList, false⟩, ⟨[], true⟩, ⟨[], true⟩, ⟨[], true⟩, ⟨['A'], true⟩] ++
          ([⟨[], false⟩, ⟨[], false⟩, ⟨[], false⟩] ++ [⟨['x'], false⟩]) ∧
      placesOf (shortenBlankRuns "cat <<A\n\n\n\nA\n\n\n\nx".toList) =
        [⟨"cat <<A".toList, false⟩, ⟨[], true⟩, ⟨[], true⟩, ⟨[], true⟩, ⟨['A'], true⟩] ++
          ([⟨[], false⟩, ⟨[], false⟩] ++ [⟨['x'], false⟩]) := by
  have whole : placesOf "cat <<A\n\n\n\nA\n\n\n\nx".toList =
      [⟨"cat <<A".toList, false⟩, ⟨[], true⟩, ⟨[], true⟩, ⟨[], true⟩, ⟨['A'], true⟩] ++
        ([⟨[], false⟩, ⟨[], false⟩, ⟨[], false⟩] ++ [⟨['x'], false⟩]) := by decide
  have isRun : IsGapRun
      [⟨"cat <<A".toList, false⟩, ⟨[], true⟩, ⟨[], true⟩, ⟨[], true⟩, ⟨['A'], true⟩]
      [⟨[], false⟩, ⟨[], false⟩, ⟨[], false⟩] [⟨['x'], false⟩] :=
    ⟨by decide, by decide, by decide⟩
  exact ⟨whole, (blank_runs_cut _).2.1 _ _ _ whole isRun⟩

end StatusLine.Shortening

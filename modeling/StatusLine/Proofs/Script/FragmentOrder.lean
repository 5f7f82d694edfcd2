import Mathlib.Data.List.Nodup
import StatusLine.Script.Assembly

/-!
The order in which fragments come. They are put into the order of their encoders before anything is
made of them, so that the script, or the failure, is the same for every order of fragments of
different encoders.
-/

namespace StatusLine.Script

def NotAfter (first second : Fragment) : Prop :=
  rank first.name ≤ rank second.name

theorem insertByRank_perm (fragment : Fragment) (sorted : List Fragment) :
    (insertByRank fragment sorted).Perm (fragment :: sorted) := by
  induction sorted with
  | nil => exact List.Perm.refl _
  | cons first rest ih =>
      by_cases before : rank fragment.name < rank first.name
      · simp only [insertByRank, before, if_true]
        exact List.Perm.refl _
      · simp only [insertByRank, before, if_false]
        exact (ih.cons first).trans (List.Perm.swap fragment first rest)

theorem insertByRank_sorted (fragment : Fragment) {sorted : List Fragment}
    (inOrder : sorted.Pairwise NotAfter) : (insertByRank fragment sorted).Pairwise NotAfter := by
  induction sorted with
  | nil => exact List.pairwise_singleton NotAfter fragment
  | cons first rest ih =>
      obtain ⟨firstFirst, restInOrder⟩ := List.pairwise_cons.mp inOrder
      by_cases before : rank fragment.name < rank first.name
      · simp only [insertByRank, before, if_true]
        refine List.pairwise_cons.mpr ⟨?_, inOrder⟩
        intro other member
        rcases List.mem_cons.mp member with rfl | later
        · exact Nat.le_of_lt before
        · exact Nat.le_trans (Nat.le_of_lt before) (firstFirst other later)
      · simp only [insertByRank, before, if_false]
        refine List.pairwise_cons.mpr ⟨?_, ih restInOrder⟩
        intro other member
        rcases List.mem_cons.mp ((insertByRank_perm fragment rest).subset member) with rfl | later
        · exact Nat.le_of_not_lt before
        · exact firstFirst other later

theorem foldl_insertByRank_perm (fragments sorted : List Fragment) :
    (fragments.foldl (fun sorted fragment => insertByRank fragment sorted) sorted).Perm
      (fragments ++ sorted) := by
  induction fragments generalizing sorted with
  | nil => exact List.Perm.refl sorted
  | cons fragment rest ih =>
      have inserted := (insertByRank_perm fragment sorted).append_left rest
      exact ((ih (insertByRank fragment sorted)).trans inserted).trans List.perm_middle

theorem foldl_insertByRank_sorted (fragments : List Fragment) {sorted : List Fragment}
    (inOrder : sorted.Pairwise NotAfter) :
    (fragments.foldl (fun sorted fragment => insertByRank fragment sorted) sorted).Pairwise
      NotAfter := by
  induction fragments generalizing sorted with
  | nil => exact inOrder
  | cons fragment rest ih => exact ih (insertByRank_sorted fragment inOrder)

theorem ordered_perm (fragments : List Fragment) : (ordered fragments).Perm fragments := by
  have perm := foldl_insertByRank_perm fragments []
  rwa [List.append_nil] at perm

theorem ordered_sorted (fragments : List Fragment) : (ordered fragments).Pairwise NotAfter :=
  foldl_insertByRank_sorted fragments List.Pairwise.nil

theorem rank_inj {name other : String} (known : (Encoder.ofName? name).isSome = true)
    (same : rank name = rank other) : name = other := by
  have found : ∃ encoder ∈ Encoder.all, (encoder.name == name) = true := by
    simpa [Encoder.ofName?, List.find?_isSome] using known
  have named : ∀ text (inside : rank text < Encoder.all.length),
      Encoder.all[rank text].name = text := by
    intro text inside
    exact beq_iff_eq.mp (List.findIdx_getElem (w := inside))
  have inside : rank name < Encoder.all.length := List.findIdx_lt_length.mpr found
  have insideToo : rank other < Encoder.all.length := same ▸ inside
  calc name = Encoder.all[rank name].name := (named name inside).symm
    _ = Encoder.all[rank other].name := by simp only [same]
    _ = other := named other insideToo

theorem ordered_eq_of_perm {fragments others : List Fragment} (perm : fragments.Perm others)
    (known : ∀ fragment ∈ fragments, (Encoder.ofName? fragment.name).isSome = true)
    (distinct : (fragments.map Fragment.name).Nodup) : ordered fragments = ordered others := by
  have samePerm : (ordered fragments).Perm (ordered others) :=
    ((ordered_perm fragments).trans perm).trans (ordered_perm others).symm
  refine samePerm.eq_of_pairwise ?_ (ordered_sorted fragments) (ordered_sorted others)
  intro first second inFirst inSecond notAfter notBefore
  have firstMember := (ordered_perm fragments).subset inFirst
  have secondMember := perm.symm.subset ((ordered_perm others).subset inSecond)
  have sameName := rank_inj (known first firstMember) (Nat.le_antisymm notAfter notBefore)
  exact List.inj_on_of_nodup_map distinct firstMember secondMember sameName

/-- Fragments of different encoders make the same script, or fail alike, in whatever order they
come. -/
theorem assemble_eq_of_perm {fragments others : List Fragment} (perm : fragments.Perm others)
    (known : ∀ fragment ∈ fragments, (Encoder.ofName? fragment.name).isSome = true)
    (distinct : (fragments.map Fragment.name).Nodup) (context : Context) (config : Configuration)
    (style : Style) :
    assemble context config fragments style = assemble context config others style := by
  have sorted := ordered_eq_of_perm perm known distinct
  simp only [assemble, parts, sorted]

/-- Two fragments that declare one input field differently, and each name an unknown routine. -/
def rivals : List Fragment :=
  [⟨"usage", [], "usage_query".toList, [], [⟨"model_name", ".usage", "none"⟩], ["run_twice"]⟩,
    ⟨"git", "git_setup".toList, [], [], [⟨"model_name", ".git", "some"⟩], ["run_thrice"]⟩]

theorem assemble_rivals_reversed :
    assemble ⟨.standard (.ofString "/home/slc"), some "/home/slc".toList⟩ .standard rivals
        .standard =
      assemble ⟨.standard (.ofString "/home/slc"), some "/home/slc".toList⟩ .standard
        rivals.reverse .standard :=
  assemble_eq_of_perm (List.reverse_perm rivals).symm (by decide) (by decide) _ _ _

end StatusLine.Script

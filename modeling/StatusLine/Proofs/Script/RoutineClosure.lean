import Mathlib.Data.List.Nodup
import StatusLine.Proofs.Results
import StatusLine.Routine

/-!
The routines that a script needs, found by working off a queue: it starts with the wanted names and
grows by the dependencies of every routine that is taken from it. What was seen and what still waits
are together all that is known to be needed, so that the names seen in the end are the least
collection with the wanted ones that is closed under dependencies. `resolve` gives the routines of
that collection, each behind those it calls.
-/

namespace StatusLine.Routine

/-- What an unknown name causes. -/
def unknown (name : String) : Failure :=
  .generation ("unknown shell helper '" ++ name ++ "'")

def IsKnown (name : String) : Prop :=
  ∃ routine ∈ all, routine.name = name

def Closed (has : String → Prop) : Prop :=
  ∀ routine ∈ all, has routine.name → ∀ name ∈ routine.dependencies, has name

structure IsClosure (names : List String) (has : String → Prop) : Prop where
  wanted : ∀ name ∈ names, has name
  closed : Closed has
  least : ∀ other : String → Prop, (∀ name ∈ names, other name) → Closed other →
    ∀ name, has name → other name

/-- A list of the routines that the wanted names lead to, each behind those it calls. -/
structure IsResolution (names : List String) (found : List Routine) : Prop where
  inOrder : found.Sublist all
  distinct : (found.map Routine.name).Nodup
  closure : IsClosure names fun name => ∃ routine ∈ found, routine.name = name
  behindDependencies : ∀ before routine after, found = before ++ routine :: after →
    ∀ name ∈ routine.dependencies, ∃ earlier ∈ before, earlier.name = name

theorem IsClosure.unique {names : List String} {has other : String → Prop}
    (one : IsClosure names has) (two : IsClosure names other) (name : String) :
    has name ↔ other name :=
  ⟨one.least other two.wanted two.closed name, two.least has one.wanted one.closed name⟩

/-! ### The table -/

def position (name : String) : Nat :=
  (all.map Routine.name).idxOf name

theorem position_dependency :
    ∀ routine ∈ all, ∀ name ∈ routine.dependencies, position name < position routine.name := by
  decide

theorem positions_ascend :
    all.Pairwise fun first second => position first.name < position second.name := by
  decide

theorem names_distinct : (all.map Routine.name).Nodup :=
  List.pairwise_map.mpr (positions_ascend.imp fun before same =>
    Nat.ne_of_lt before (congrArg position same))

theorem position_le (name : String) : position name ≤ all.length := by
  have places : position name ≤ (all.map Routine.name).length := List.idxOf_le_length
  rwa [List.length_map] at places

theorem isKnown_iff_position (name : String) : IsKnown name ↔ position name < all.length := by
  have places : position name < (all.map Routine.name).length ↔ name ∈ all.map Routine.name :=
    List.idxOf_lt_length_iff
  rw [List.length_map, List.mem_map] at places
  exact places.symm

theorem closed_isKnown : Closed IsKnown := by
  intro routine member known name dependency
  rw [isKnown_iff_position] at known ⊢
  exact Nat.lt_trans (position_dependency routine member name dependency) known

theorem find?_eq_some_iff {name : String} {routine : Routine} :
    find? name = some routine ↔ routine ∈ all ∧ routine.name = name := by
  constructor
  · intro found
    exact ⟨List.mem_of_find?_eq_some found, by simpa using List.find?_some found⟩
  · rintro ⟨member, rfl⟩
    obtain ⟨other, found⟩ : ∃ other, find? routine.name = some other :=
      Option.isSome_iff_exists.mp (List.find?_isSome.mpr ⟨routine, member, by simp⟩)
    have same : other.name = routine.name := by simpa using List.find?_some found
    rw [found, List.inj_on_of_nodup_map names_distinct (List.mem_of_find?_eq_some found) member same]

theorem find?_eq_none_iff {name : String} : find? name = none ↔ ¬ IsKnown name := by
  simp [find?, IsKnown]

def firstUnknown? (names : List String) : Option String :=
  names.find? fun name => (find? name).isNone

theorem firstUnknown?_eq_none_iff {names : List String} :
    firstUnknown? names = none ↔ ∀ name ∈ names, IsKnown name := by
  simp only [firstUnknown?, List.find?_eq_none, Option.isNone_iff_eq_none, find?_eq_none_iff, not_not]

theorem firstUnknown?_eq_some_iff {names : List String} {name : String} :
    firstUnknown? names = some name ↔ ∃ before after, names = before ++ name :: after ∧
      (∀ earlier ∈ before, IsKnown earlier) ∧ ¬ IsKnown name := by
  have passed {other : String} : (!(find? other).isNone) = true ↔ IsKnown other := by
    rw [Bool.not_eq_true', Option.isNone_eq_false_iff, Option.isSome_iff_ne_none, Ne,
      find?_eq_none_iff, not_not]
  rw [firstUnknown?, List.find?_eq_some_iff_append, Option.isNone_iff_eq_none, find?_eq_none_iff]
  simp only [passed]
  constructor
  · rintro ⟨isUnknown, before, after, shape, earlier⟩
    exact ⟨before, after, shape, earlier, isUnknown⟩
  · rintro ⟨before, after, shape, earlier, isUnknown⟩
    exact ⟨isUnknown, before, after, shape, earlier⟩

/-! ### Working off the queue -/

def unseen (seen : List String) : Nat :=
  (all.filter fun routine => routine.name ∉ seen).length

theorem unseen_cons_lt {seen : List String} {name : String} {routine : Routine}
    (fresh : name ∉ seen) (found : find? name = some routine) :
    unseen (name :: seen) < unseen seen := by
  obtain ⟨member, same⟩ := find?_eq_some_iff.mp found
  have fewer : (all.filter fun routine => routine.name ∉ name :: seen) =
      (all.filter fun routine => routine.name ∉ seen).filter fun routine => routine.name ≠ name := by
    rw [List.filter_filter]
    congr 1
    funext routine
    simp
  rw [unseen, fewer, unseen, List.length_filter_lt_length_iff_exists]
  exact ⟨routine, List.mem_filter.mpr ⟨member, by simpa [same] using fresh⟩, by simpa using same⟩

/-- Takes names from the front of the queue until it is empty. One that was not seen before is seen
now, and the dependencies of its routine go to the end of the queue. -/
def gather (seen : List String) : List String → Except Failure (List String)
  | [] => .ok seen
  | name :: queue =>
      if name ∈ seen then gather seen queue
      else
        match _ : find? name with
        | none => .error (unknown name)
        | some routine => gather (name :: seen) (queue ++ routine.dependencies)
termination_by queue => (unseen seen, queue.length)
decreasing_by
  · exact .right _ (Nat.lt_succ_self _)
  · exact .left _ _ (unseen_cons_lt ‹_› ‹_›)

structure Leads (names seen queue : List String) : Prop where
  known : ∀ name ∈ seen, IsKnown name
  wanted : ∀ name ∈ names, name ∈ seen ∨ name ∈ queue
  closed : ∀ routine ∈ all, routine.name ∈ seen → ∀ name ∈ routine.dependencies,
    name ∈ seen ∨ name ∈ queue
  least : ∀ other : String → Prop, (∀ name ∈ names, other name) → Closed other →
    ∀ name, name ∈ seen ∨ name ∈ queue → other name

namespace Leads

variable {names seen queue : List String} {name : String}

theorem start (names : List String) : Leads names [] names where
  known := by simp
  wanted _ member := .inr member
  closed := by simp
  least _ wanted _ name has := wanted name (has.resolve_left (List.not_mem_nil))

theorem skip (leads : Leads names seen (name :: queue)) (seenBefore : name ∈ seen) :
    Leads names seen queue := by
  have still {other : String} (has : other ∈ seen ∨ other ∈ name :: queue) :
      other ∈ seen ∨ other ∈ queue := by
    rcases has with here | waits
    · exact .inl here
    · rcases List.mem_cons.mp waits with rfl | later
      · exact .inl seenBefore
      · exact .inr later
  exact {
    known := leads.known
    wanted := fun other member => still (leads.wanted other member)
    closed := fun routine member has other dependency =>
      still (leads.closed routine member has other dependency)
    least := fun other wanted closed name has =>
      leads.least other wanted closed name (has.imp_right (List.mem_cons_of_mem _)) }

theorem take (leads : Leads names seen (name :: queue)) {routine : Routine}
    (found : find? name = some routine) :
    Leads names (name :: seen) (queue ++ routine.dependencies) := by
  obtain ⟨isRoutine, rfl⟩ := find?_eq_some_iff.mp found
  have still {other : String} (has : other ∈ seen ∨ other ∈ routine.name :: queue) :
      other ∈ routine.name :: seen ∨ other ∈ queue ++ routine.dependencies := by
    simp only [List.mem_cons, List.mem_append] at has ⊢
    tauto
  refine ⟨?_, fun other member => still (leads.wanted other member), ?_, ?_⟩
  · intro other member
    rcases List.mem_cons.mp member with rfl | before
    · exact ⟨routine, isRoutine, rfl⟩
    · exact leads.known other before
  · intro caller member has other dependency
    rcases List.mem_cons.mp has with same | before
    · obtain rfl := List.inj_on_of_nodup_map names_distinct member isRoutine same
      exact .inr (List.mem_append_right _ dependency)
    · exact still (leads.closed caller member before other dependency)
  · intro other wanted closed
    have mine : other routine.name :=
      leads.least other wanted closed _ (.inr List.mem_cons_self)
    intro name has
    rcases has with member | member
    · rcases List.mem_cons.mp member with rfl | before
      · exact mine
      · exact leads.least other wanted closed name (.inl before)
    · rcases List.mem_append.mp member with waits | dependency
      · exact leads.least other wanted closed name (.inr (List.mem_cons_of_mem _ waits))
      · exact closed routine isRoutine mine name dependency

theorem isClosure (leads : Leads names seen []) : IsClosure names (· ∈ seen) where
  wanted name member := (leads.wanted name member).resolve_right List.not_mem_nil
  closed routine member has name dependency :=
    (leads.closed routine member has name dependency).resolve_right List.not_mem_nil
  least other wanted closed name has := leads.least other wanted closed name (.inl has)

/-- The whole run: the first name in the queue that is not known ends it, and without one it comes to
an empty queue. -/
theorem run (leads : Leads names seen queue) :
    (∃ name, firstUnknown? queue = some name ∧
      Routine.gather seen queue = .error (unknown name)) ∨
    (firstUnknown? queue = none ∧
      ∃ found, Routine.gather seen queue = .ok found ∧ Leads names found []) := by
  fun_induction Routine.gather seen queue with
  | case1 seen => exact .inr ⟨rfl, seen, rfl, leads⟩
  | case2 seen name queue seenBefore ih =>
      have known : ¬ find? name = none := by
        rw [find?_eq_none_iff, not_not]
        exact leads.known name seenBefore
      rw [firstUnknown?, List.find?_cons_of_neg (by simpa using known)]
      exact ih (leads.skip seenBefore)
  | case3 seen name queue fresh none => exact .inl ⟨name, by simp [firstUnknown?, none], rfl⟩
  | case4 seen name queue fresh routine found ih =>
      have inTable := (find?_eq_some_iff.mp found).1
      have known : firstUnknown? routine.dependencies = none :=
        firstUnknown?_eq_none_iff.mpr (closed_isKnown routine inTable ⟨routine, inTable, rfl⟩)
      have behind := ih (leads.take found)
      rw [firstUnknown?] at known
      rw [firstUnknown?, List.find?_append, known, Option.or_none] at behind
      rwa [firstUnknown?, List.find?_cons_of_neg (by simp [found])]

end Leads

/-! ### Calls of limited depth -/

theorem mem_reached_self (depth : Nat) (name : String) : name ∈ reached depth name := by
  cases depth <;> simp [reached]

theorem Closed.of_mem_reached {has : String → Prop} (closed : Closed has) {depth : Nat}
    {name other : String} (mine : has name) (member : other ∈ reached depth name) : has other := by
  induction depth generalizing name with
  | zero => exact List.mem_singleton.mp member ▸ mine
  | succ depth ih =>
      rw [reached, List.mem_cons, List.mem_flatMap] at member
      rcases member with rfl | ⟨next, dependency, there⟩
      · exact mine
      · cases found : find? name with
        | none => simp [found] at dependency
        | some routine =>
            obtain ⟨isRoutine, rfl⟩ := find?_eq_some_iff.mp found
            rw [found] at dependency
            exact ih (closed routine isRoutine mine next dependency) there

theorem closed_reached {depth : Nat} {name : String} (enough : position name ≤ depth) :
    Closed (· ∈ reached depth name) := by
  induction depth generalizing name with
  | zero =>
      intro routine member same other dependency
      obtain rfl := List.mem_singleton.mp same
      have before := position_dependency routine member other dependency
      omega
  | succ depth ih =>
      intro routine member has other dependency
      simp only [reached, List.mem_cons, List.mem_flatMap] at has ⊢
      rcases has with rfl | ⟨next, called, there⟩
      · rw [find?_eq_some_iff.mpr ⟨member, rfl⟩]
        exact .inr ⟨other, dependency, mem_reached_self depth other⟩
      · have below : position next ≤ depth := by
          cases found : find? name with
          | none => simp [found] at called
          | some caller =>
              obtain ⟨isRoutine, rfl⟩ := find?_eq_some_iff.mp found
              rw [found] at called
              have before := position_dependency caller isRoutine next called
              omega
        exact .inr ⟨next, called, ih below routine member there other dependency⟩

theorem isClosure_reached (names : List String) :
    IsClosure names (· ∈ names.flatMap (reached all.length)) where
  wanted name member := List.mem_flatMap.mpr ⟨name, member, mem_reached_self _ name⟩
  closed routine member has other dependency := by
    obtain ⟨name, wanted, there⟩ := List.mem_flatMap.mp has
    exact List.mem_flatMap.mpr
      ⟨name, wanted, closed_reached (position_le name) routine member there other dependency⟩
  least other wanted closed name has := by
    obtain ⟨start, member, there⟩ := List.mem_flatMap.mp has
    exact closed.of_mem_reached (wanted start member) there

/-! ### Routines in order -/

theorem isResolution_filter {names found : List String} (known : ∀ name ∈ names, IsKnown name)
    (closure : IsClosure names (· ∈ found)) :
    IsResolution names (all.filter fun routine => found.contains routine.name) := by
  have mem_iff (routine : Routine) :
      routine ∈ all.filter (fun routine => found.contains routine.name) ↔
        routine ∈ all ∧ routine.name ∈ found := by
    rw [List.mem_filter, List.contains_iff_mem]
  have named (name : String) : (∃ routine ∈ all.filter fun routine => found.contains routine.name,
      routine.name = name) ↔ name ∈ found := by
    constructor
    · rintro ⟨routine, member, rfl⟩
      exact ((mem_iff routine).mp member).2
    · intro member
      obtain ⟨routine, isRoutine, rfl⟩ := closure.least IsKnown known closed_isKnown name member
      exact ⟨routine, (mem_iff routine).mpr ⟨isRoutine, member⟩, rfl⟩
  have inOrder : (all.filter fun routine => found.contains routine.name).Sublist all :=
    List.filter_sublist
  refine ⟨inOrder, names_distinct.sublist (inOrder.map _), ?_, ?_⟩
  · simpa only [named] using closure
  · intro before routine after shape name dependency
    have member : routine ∈ before ++ routine :: after := by simp
    rw [← shape, mem_iff] at member
    obtain ⟨other, there, rfl⟩ :=
      (named name).mpr (closure.closed routine member.1 member.2 name dependency)
    have earlier := position_dependency routine member.1 other.name dependency
    have ascending := positions_ascend.sublist inOrder
    rw [shape] at there ascending
    rcases List.mem_append.mp there with here | later
    · exact ⟨other, here, rfl⟩
    · rcases List.mem_cons.mp later with rfl | behind
      · exact absurd earlier (Nat.lt_irrefl _)
      · have := (List.pairwise_cons.mp (List.pairwise_append.mp ascending).2.1).1 other behind
        omega

theorem resolve_of_unknown {names : List String} {name : String}
    (stops : firstUnknown? names = some name) : resolve names = .error (unknown name) := by
  rw [firstUnknown?] at stops
  rw [resolve, stops]
  rfl

theorem resolve_of_known {names : List String} (known : firstUnknown? names = none) :
    resolve names = .ok (all.filter fun routine =>
      (names.flatMap (reached all.length)).contains routine.name) := by
  rw [firstUnknown?] at known
  rw [resolve, known]

theorem resolve_eq_gather (names : List String) :
    resolve names = (gather [] names).map fun found =>
      all.filter fun routine => found.contains routine.name := by
  obtain ⟨name, stops, failed⟩ | ⟨known, found, done, leads⟩ := (Leads.start names).run
  · rw [resolve_of_unknown stops, failed]
    rfl
  · rw [resolve_of_known known, done]
    refine congrArg Except.ok (List.filter_congr fun routine _ => ?_)
    rw [Bool.eq_iff_iff, List.contains_iff_mem, List.contains_iff_mem]
    exact (isClosure_reached names).unique leads.isClosure routine.name

/-- Resolving fails for the first unknown name, if there is one. Otherwise it gives the least
collection closed under dependencies, in the order of the table and each routine once. -/
theorem resolve_outcomes (names : List String) :
    (resolve names = (gather [] names).map fun found =>
      all.filter fun routine => found.contains routine.name) ∧
    (∀ failure, resolve names = .error failure ↔
      ∃ before name after, names = before ++ name :: after ∧
        (∀ earlier ∈ before, IsKnown earlier) ∧ ¬ IsKnown name ∧ failure = unknown name) ∧
    ((∀ name ∈ names, IsKnown name) →
      ∃ found, resolve names = .ok found ∧ IsResolution names found) := by
  refine ⟨resolve_eq_gather names, fun failure => ⟨fun failed => ?_, ?_⟩, fun known => ?_⟩
  · cases stops : firstUnknown? names with
    | none => cases (resolve_of_known stops).symm.trans failed
    | some name =>
        have same := Except.error.inj ((resolve_of_unknown stops).symm.trans failed)
        obtain ⟨before, after, shape, earlier, isUnknown⟩ := firstUnknown?_eq_some_iff.mp stops
        exact ⟨before, name, after, shape, earlier, isUnknown, same.symm⟩
  · rintro ⟨before, name, after, shape, earlier, isUnknown, rfl⟩
    exact resolve_of_unknown
      (firstUnknown?_eq_some_iff.mpr ⟨before, after, shape, earlier, isUnknown⟩)
  · exact ⟨_, resolve_of_known (firstUnknown?_eq_none_iff.mpr known),
      isResolution_filter known (isClosure_reached names)⟩

end StatusLine.Routine

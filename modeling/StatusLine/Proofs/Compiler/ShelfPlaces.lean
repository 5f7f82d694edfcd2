import Mathlib.Data.List.Nodup
import StatusLine.Proofs.Compiler.Agreement
import StatusLine.Proofs.Store.GraceWindow

/-!
Places of equal configurations. Equality of configurations is symmetric and transitive, and no more
than that: a load threshold that is no number equals nothing. Of the places of a table that have
equal configurations only the first one ever has a text.
-/

namespace StatusLine

/-! Equality of configurations. -/

namespace Doubles

open Float.Model

theorem beq_iff_rank (x y : Float) :
    (x == y) = true ↔
      ∃ own, rank x.toModel.unpack = some own ∧ rank y.toModel.unpack = some own := by
  change x.toModel.unpack.beq y.toModel.unpack = true ↔ _
  generalize x.toModel.unpack = a
  generalize y.toModel.unpack = b
  rcases a with ⟨_ | _⟩ | _ | _ | ⟨_ | _, m, e, _⟩ <;>
    rcases b with ⟨_ | _⟩ | _ | _ | ⟨_ | _, n, k, _⟩ <;>
    dsimp only [UnpackedFloat.beq, UnpackedFloat.compare, rank] <;>
    simp
  · rfl
  · rfl
  · omega
  · omega

end Doubles

instance floatPartialEquivBEq : PartialEquivBEq Float where
  symm same := by
    obtain ⟨own, here, there⟩ := (Doubles.beq_iff_rank _ _).mp same
    exact (Doubles.beq_iff_rank _ _).mpr ⟨own, there, here⟩
  trans first second := by
    obtain ⟨own, here, there⟩ := (Doubles.beq_iff_rank _ _).mp first
    obtain ⟨other, again, last⟩ := (Doubles.beq_iff_rank _ _).mp second
    obtain rfl : own = other := Option.some.inj (there.symm.trans again)
    exact (Doubles.beq_iff_rank _ _).mpr ⟨own, here, last⟩

theorem Monitoring.beq_iff (a b : Monitoring) :
    (a == b) = true ↔ a.refreshRate = b.refreshRate ∧ a.cpuThreshold = b.cpuThreshold ∧
      a.memoryThreshold = b.memoryThreshold ∧ (a.loadThreshold == b.loadThreshold) = true := by
  change (_ && _ && _ && _) = true ↔ _
  simp only [Bool.and_eq_true, beq_iff_eq, and_assoc]

instance : PartialEquivBEq Monitoring where
  symm same := by
    rw [Monitoring.beq_iff] at same ⊢
    exact ⟨same.1.symm, same.2.1.symm, same.2.2.1.symm, PartialEquivBEq.symm same.2.2.2⟩
  trans first second := by
    rw [Monitoring.beq_iff] at first second ⊢
    exact ⟨first.1.trans second.1, first.2.1.trans second.2.1, first.2.2.1.trans second.2.2.1,
      PartialEquivBEq.trans first.2.2.2 second.2.2.2⟩

instance : PartialEquivBEq (Option Monitoring) where
  symm {a b} same := by
    cases a <;> cases b <;> first | exact same | exact PartialEquivBEq.symm (α := Monitoring) same
  trans {a b c} first second := by
    cases a <;> cases b <;> cases c <;> first
    | exact first
    | exact absurd first Bool.false_ne_true
    | exact absurd second Bool.false_ne_true
    | exact PartialEquivBEq.trans (α := Monitoring) first second

theorem Configuration.beq_iff (a b : Configuration) :
    (a == b) = true ↔ a.features = b.features ∧ a.theme = b.theme ∧ a.colors = b.colors ∧
      a.customEmojis = b.customEmojis ∧ a.usageIntegration = b.usageIntegration ∧
      a.logging = b.logging ∧ (a.monitoring? == b.monitoring?) = true := by
  change (_ && _ && _ && _ && _ && _ && _) = true ↔ _
  simp only [Bool.and_eq_true, beq_iff_eq, and_assoc]

instance : PartialEquivBEq Configuration where
  symm same := by
    rw [Configuration.beq_iff] at same ⊢
    obtain ⟨features, theme, colors, emojis, usage, logging, monitoring⟩ := same
    exact ⟨features.symm, theme.symm, colors.symm, emojis.symm, usage.symm, logging.symm,
      PartialEquivBEq.symm monitoring⟩
  trans first second := by
    rw [Configuration.beq_iff] at first second ⊢
    obtain ⟨features, theme, colors, emojis, usage, logging, monitoring⟩ := first
    obtain ⟨features', theme', colors', emojis', usage', logging', monitoring'⟩ := second
    exact ⟨features.trans features', theme.trans theme', colors.trans colors',
      emojis.trans emojis', usage.trans usage', logging.trans logging',
      PartialEquivBEq.trans monitoring monitoring'⟩

namespace Shelf

/-! Places in a table. -/

/-- The same place, or two places of equal configurations. -/
def Alike (place other : String × Configuration) : Prop :=
  place = other ∨ (place.2 == other.2) = true

section Alike

variable {a b c : String × Configuration}

theorem Alike.refl (place : String × Configuration) : Alike place place :=
  .inl rfl

theorem Alike.symm (alike : Alike a b) : Alike b a :=
  alike.imp Eq.symm PartialEquivBEq.symm

theorem Alike.trans (first : Alike a b) (second : Alike b c) : Alike a c := by
  rcases first with rfl | same
  · exact second
  · rcases second with rfl | equal
    · exact .inr same
    · exact .inr (PartialEquivBEq.trans same equal)

end Alike

def IsFirst (table : List (String × Configuration)) (place : String × Configuration) : Prop :=
  ∃ before after, table = before ++ place :: after ∧ ∀ other ∈ before, ¬ Alike other place

def IsLast (table : List (String × Configuration)) (place : String × Configuration) : Prop :=
  ∃ before after, table = before ++ place :: after ∧ ∀ other ∈ after, ¬ Alike other place

/-- Equal configurations are those of one place only. -/
def HasNoRepeats (table : List (String × Configuration)) : Prop :=
  ∀ place ∈ table, ∀ other ∈ table, (place.2 == other.2) = true → place = other

def lastKept (shelf : Shelf) (name : String) (places : List (String × Configuration)) :
    Option (String × Configuration) :=
  places.reverse.find? fun place => shelf.placeOf place.1 place.2 == some name

theorem Alike.eq_of_noRepeats {table : List (String × Configuration)} (apart : HasNoRepeats table)
    {a b : String × Configuration} (alike : Alike a b) (here : a ∈ table) (there : b ∈ table) :
    a = b :=
  alike.elim id (apart a here b there)

theorem mem_of_isFirst {table : List (String × Configuration)} {place : String × Configuration}
    (first : IsFirst table place) : place ∈ table := by
  obtain ⟨before, after, rfl, -⟩ := first
  simp

theorem mem_of_isLast {table : List (String × Configuration)} {place : String × Configuration}
    (last : IsLast table place) : place ∈ table := by
  obtain ⟨before, after, rfl, -⟩ := last
  simp

theorem lastKept_cons (shelf : Shelf) (name : String) (place : String × Configuration)
    (rest : List (String × Configuration)) :
    shelf.lastKept name (place :: rest) = (shelf.lastKept name rest).or
      (if shelf.placeOf place.1 place.2 = some name then some place else none) := by
  simp only [lastKept, List.reverse_cons, List.find?_append]
  congr 1
  by_cases kept : shelf.placeOf place.1 place.2 = some name <;> simp [kept]

section Tables

variable {shelf : Shelf} (names : (shelf.table.map Prod.fst).Nodup)

include names

theorem eq_of_name {a b : String × Configuration} (here : a ∈ shelf.table)
    (there : b ∈ shelf.table) (same : a.1 = b.1) : a = b :=
  List.inj_on_of_nodup_map names here there same

theorem alike_iff {place other : String × Configuration} (here : other ∈ shelf.table)
    (there : place ∈ shelf.table) :
    (other.1 == place.1 || other.2 == place.2) = true ↔ Alike other place := by
  rw [Bool.or_eq_true, beq_iff_eq, Alike]
  exact or_congr_left ⟨eq_of_name names here there, congrArg Prod.fst⟩

theorem placeOf_eq_some_iff {place : String × Configuration} (member : place ∈ shelf.table)
    {name : String} :
    shelf.placeOf place.1 place.2 = some name ↔
      ∃ first, first.1 = name ∧ IsFirst shelf.table first ∧ Alike first place := by
  rw [placeOf, Option.map_eq_some_iff]
  constructor
  · rintro ⟨first, found, named⟩
    obtain ⟨kept, before, after, whole, passed⟩ := List.find?_eq_some_iff_append.mp found
    have alike := (alike_iff names (List.mem_of_find?_eq_some found) member).mp kept
    refine ⟨first, named, ⟨before, after, whole, fun other behind again => ?_⟩, alike⟩
    have inside : other ∈ shelf.table := whole ▸ List.mem_append_left _ behind
    have taken := (alike_iff names inside member).mpr (again.trans alike)
    exact absurd taken (by simpa using passed other behind)
  · rintro ⟨first, named, ⟨before, after, whole, apart⟩, alike⟩
    have inside : first ∈ shelf.table := by simp [whole]
    refine ⟨first, List.find?_eq_some_iff_append.mpr
      ⟨(alike_iff names inside member).mpr alike, before, after, whole, fun other behind => ?_⟩,
      named⟩
    have there : other ∈ shelf.table := whole ▸ List.mem_append_left _ behind
    rw [Bool.not_eq_true', ← Bool.not_eq_true, alike_iff names there member]
    exact fun again => apart other behind (again.trans alike.symm)

theorem placeOf_of_isFirst {place : String × Configuration} (first : IsFirst shelf.table place) :
    shelf.placeOf place.1 place.2 = some place.1 :=
  (placeOf_eq_some_iff names (mem_of_isFirst first)).mpr ⟨place, rfl, first, .refl place⟩

theorem exists_placeOf {place : String × Configuration} (member : place ∈ shelf.table) :
    ∃ name, shelf.placeOf place.1 place.2 = some name := by
  have found : (shelf.table.find? fun other =>
      other.1 == place.1 || other.2 == place.2).isSome = true :=
    List.find?_isSome.mpr ⟨place, member, (alike_iff names member member).mpr (.refl place)⟩
  obtain ⟨first, same⟩ := Option.isSome_iff_exists.mp found
  exact ⟨first.1, by rw [placeOf, same]; rfl⟩

theorem placeOf_eq_iff_alike {a b : String × Configuration} (here : a ∈ shelf.table)
    (there : b ∈ shelf.table) {name : String} (kept : shelf.placeOf a.1 a.2 = some name) :
    shelf.placeOf b.1 b.2 = some name ↔ Alike b a := by
  obtain ⟨first, named, isFirst, alike⟩ := (placeOf_eq_some_iff names here).mp kept
  rw [placeOf_eq_some_iff names there]
  constructor
  · rintro ⟨other, same, isOther, again⟩
    obtain rfl := eq_of_name names (mem_of_isFirst isOther) (mem_of_isFirst isFirst)
      (same.trans named.symm)
    exact again.symm.trans alike
  · exact fun again => ⟨first, named, isFirst, alike.trans again.symm⟩

theorem lastKept_eq_some_iff {name : String} {last : String × Configuration} :
    shelf.lastKept name shelf.table = some last ↔
      IsLast shelf.table last ∧ ∃ first, first.1 = name ∧ IsFirst shelf.table first ∧
        Alike first last := by
  rw [lastKept, List.find?_eq_some_iff_append]
  constructor
  · rintro ⟨kept, after, before, whole, passed⟩
    obtain whole : shelf.table = before.reverse ++ last :: after.reverse := by
      simpa using congrArg List.reverse whole
    have inside : last ∈ shelf.table := by simp [whole]
    have kept := beq_iff_eq.mp kept
    refine ⟨⟨_, _, whole, fun other behind alike => ?_⟩, (placeOf_eq_some_iff names inside).mp kept⟩
    have there : other ∈ shelf.table := by
      rw [whole]
      exact List.mem_append_right _ (List.mem_cons_of_mem last behind)
    have again := (placeOf_eq_iff_alike names inside there kept).mpr alike
    exact absurd (beq_iff_eq.mpr again) (by simpa using passed other (List.mem_reverse.mp behind))
  · rintro ⟨⟨before, after, whole, apart⟩, first⟩
    have inside : last ∈ shelf.table := by simp [whole]
    have kept := (placeOf_eq_some_iff names inside).mpr first
    refine ⟨beq_iff_eq.mpr kept, after.reverse, before.reverse, by simp [whole],
      fun other behind => ?_⟩
    have there : other ∈ shelf.table := by
      rw [whole]
      exact List.mem_append_right _ (List.mem_cons_of_mem last (List.mem_reverse.mp behind))
    rw [Bool.not_eq_true', ← Bool.not_eq_true, beq_iff_eq,
      placeOf_eq_iff_alike names inside there kept]
    exact apart other (List.mem_reverse.mp behind)

theorem exists_lastKept {place : String × Configuration} (first : IsFirst shelf.table place) :
    ∃ last, shelf.lastKept place.1 shelf.table = some last := by
  refine Option.isSome_iff_exists.mp (List.find?_isSome.mpr ⟨place, ?_, ?_⟩)
  · exact List.mem_reverse.mpr (mem_of_isFirst first)
  · exact beq_iff_eq.mpr (placeOf_of_isFirst names first)

theorem isFirst_and_isLast (apart : HasNoRepeats shelf.table)
    {place : String × Configuration} (member : place ∈ shelf.table) :
    IsFirst shelf.table place ∧ IsLast shelf.table place := by
  obtain ⟨before, after, whole⟩ := List.append_of_mem member
  have once : (before ++ place :: after).Nodup := whole ▸ names.of_map
  obtain ⟨-, once, disjoint⟩ := List.nodup_append.mp once
  refine ⟨⟨before, after, whole, fun other behind alike => ?_⟩,
    ⟨before, after, whole, fun other behind alike => ?_⟩⟩
  · have there : other ∈ shelf.table := whole ▸ List.mem_append_left _ behind
    exact disjoint other behind place List.mem_cons_self (alike.eq_of_noRepeats apart there member)
  · have there : other ∈ shelf.table := by
      rw [whole]
      exact List.mem_append_right _ (List.mem_cons_of_mem place behind)
    obtain rfl := alike.eq_of_noRepeats apart there member
    exact (List.nodup_cons.mp once).1 behind

end Tables

/-! Shelves in use. -/

/-- A shelf whose texts are under the names of first places, each name having one. -/
structure WellKept (shelf : Shelf) : Prop where
  names : (shelf.table.map Prod.fst).Nodup
  texts : (shelf.texts.map Prod.fst).Nodup
  first : ∀ item ∈ shelf.texts, ∃ place, IsFirst shelf.table place ∧ place.1 = item.1

theorem names_bind (name : String) (text : List Char) (texts : List (String × List Char)) :
    (bind name text texts).map Prod.fst =
      if name ∈ texts.map Prod.fst then texts.map Prod.fst else texts.map Prod.fst ++ [name] := by
  induction texts with
  | nil => simp [bind]
  | cons item rest ih =>
      by_cases here : item.1 = name
      · simp [bind, here]
      · have other : ¬ name = item.1 := fun same => here same.symm
        simp only [bind, beq_iff_eq, here, if_false, List.map_cons, List.mem_cons, other, false_or,
          ih]
        split <;> rfl

namespace WellKept

variable {shelf : Shelf} {name : String} {text : List Char}

theorem ofTable {table : List (String × Configuration)} (names : (table.map Prod.fst).Nodup) :
    (ofTable table).WellKept :=
  ⟨names, .nil, fun _ member => absurd member List.not_mem_nil⟩

theorem orStandard (kept : shelf.WellKept) : (orStandard (some shelf)).WellKept := by
  have standard : Shelf.standard.WellKept := .ofTable (by decide)
  simp only [Shelf.orStandard]
  split
  · exact standard
  · exact kept

theorem put (kept : shelf.WellKept) (first : ∃ place, IsFirst shelf.table place ∧ place.1 = name)
    (text : List Char) : (shelf.put name text).WellKept where
  names := kept.names
  texts := by
    rw [Shelf.put, names_bind]
    split
    · exact kept.texts
    · rename_i absent
      refine List.nodup_append.mpr ⟨kept.texts, List.nodup_singleton name, ?_⟩
      rintro other member _ alone rfl
      exact absent (List.mem_singleton.mp alone ▸ member)
  first item member := by
    rcases mem_of_mem_bind member with rfl | before
    · exact first
    · exact kept.first item before

theorem remember_placeOf (kept : shelf.WellKept) {place : String × Configuration}
    (member : place ∈ shelf.table) (text : List Char) :
    (shelf.remember (shelf.placeOf place.1 place.2) text).2.WellKept := by
  obtain ⟨name, there⟩ := exists_placeOf kept.names member
  obtain ⟨first, named, isFirst, -⟩ := (placeOf_eq_some_iff kept.names member).mp there
  rw [there]
  exact kept.put ⟨first, isFirst, named⟩ text

theorem mem_texts_iff (kept : shelf.WellKept) :
    (name, text) ∈ shelf.texts ↔ shelf.text? name = some text := by
  rw [text?, Option.map_eq_some_iff]
  constructor
  · intro member
    have found : (shelf.texts.find? fun item => item.1 == name).isSome = true :=
      List.find?_isSome.mpr ⟨_, member, beq_self_eq_true name⟩
    obtain ⟨item, there⟩ := Option.isSome_iff_exists.mp found
    have same := List.find?_some there
    simp only [beq_iff_eq] at same
    have alone := List.inj_on_of_nodup_map kept.texts (List.mem_of_find?_eq_some there) member same
    exact ⟨item, there, congrArg Prod.snd alone⟩
  · rintro ⟨⟨_, _⟩, there, rfl⟩
    have same := List.find?_some there
    simp only [beq_iff_eq] at same
    subst same
    exact List.mem_of_find?_eq_some there

end WellKept

end Shelf

end StatusLine

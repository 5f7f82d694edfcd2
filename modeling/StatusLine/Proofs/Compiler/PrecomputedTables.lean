import StatusLine.Proofs.Compiler.CompilingAgain
import StatusLine.Proofs.Compiler.SharedShelves
import StatusLine.Proofs.Compiler.ShelfPlaces

/-!
Precomputing a table. The text of each place is kept under the name of the first place that has an
equal configuration, where the text of the last such place stays. So all names get their texts just
if no two configurations are equal; and an empty table gets those of the standard one.
-/

namespace StatusLine

namespace Compiler

open StatusLine.Action

/-- What a compiler ships for a configuration, on a store. -/
def textOn (compiler : Compiler) (store : Store Fragment) (config : Configuration) :
    Except Failure (List Char) :=
  (compiler.compile config store).result.map CompiledScript.text

theorem textOn_of_compile {compiler : Compiler} {store : Store Fragment} {config : Configuration}
    {script : CompiledScript} (done : (compiler.compile config store).result = .ok script) :
    compiler.textOn store config = .ok script.text := by
  rw [textOn, done]
  rfl

/-- How far the places of a list got: what is left on a workbench, and the text that each name has
in the end. -/
structure Fills (compiler : Compiler) (places : List (String × Configuration)) (bench : Workbench)
    (run : Run Workbench Unit) : Prop where
  table : run.state.shelf.table = bench.shelf.table
  wellKept : run.state.shelf.WellKept
  retains : Retains bench.store run.state.store
  fails : ∀ failure, run.result = .error failure → ¬ compiler.cache.directory.Speakable ∨
    ∃ place ∈ places, compiler.textOn run.state.store place.2 = .error failure
  ships : run.result = .ok () → ∀ place ∈ places,
    ∃ text, compiler.textOn run.state.store place.2 = .ok text
  texts : run.result = .ok () → ∀ name, run.state.shelf.text? name =
    ((bench.shelf.lastKept name places).bind fun place =>
      (compiler.textOn run.state.store place.2).toOption).or (bench.shelf.text? name)

section Filling

variable {compiler : Compiler} {bench : Workbench} {own : String} {config : Configuration}
  {rest : List (String × Configuration)}

variable (own rest) in
theorem precomputeAll_of_error {failure : Failure}
    (failed : (compiler.compile config bench.store).result = .error failure) :
    let run := compiler.precomputeAll ((own, config) :: rest) bench
    run.result = .error failure ∧
      run.state = { bench with store := (compiler.compile config bench.store).state } := by
  have compiled : (Workbench.onStore (compiler.compile config) bench).result = .error failure :=
    failed
  exact bind_of_error compiled

/-- The workbench after the text of a place was kept under a name. -/
def keeping (compiler : Compiler) (name key : String) (text : List Char) (bench : Workbench) :
    Workbench :=
  ⟨(compiler.cache.set key text (some (.whole compiler.context.settings.scriptTtl))
    bench.store).state, bench.shelf.put name text⟩

variable (rest) in
theorem precomputeAll_of_ok {name key : String} {script : CompiledScript}
    (done : (compiler.compile config bench.store).result = .ok script)
    (place : bench.shelf.placeOf own config = some name)
    (keyed : compiler.scriptKey config = .ok key) :
    let run := compiler.precomputeAll ((own, config) :: rest) bench
    let compiled : Workbench :=
      { bench with store := (compiler.compile config bench.store).state }
    let after := compiler.keeping name key script.text compiled
    let later := compiler.precomputeAll rest after
    (¬ compiler.cache.directory.Speakable ∧ (∃ failure, run.result = .error failure) ∧
      run.state = after) ∨
    (run.result = later.result ∧ run.state = later.state) := by
  intro run compiled after later
  let steps : Action Workbench Unit := do
    let _ ← compiler.storeAt (some name) config script.text
    Action.note ("Precomputed template '" ++ own ++ "'")
    compiler.precomputeAll rest
  have here : run.result = (steps compiled).result ∧ run.state = (steps compiled).state := by
    have first : (Workbench.onStore (compiler.compile config) bench).result = .ok script := done
    have placed : compiled.shelf.placeOf own config = some name := place
    simp only [steps, ← placed]
    exact bind_of_ok first
  obtain ⟨result, state⟩ : (compiler.storeAt (some name) config script.text compiled).result =
        (compiler.cache.set key script.text (some (.whole compiler.context.settings.scriptTtl))
          compiled.store).result.map (fun _ => true) ∧
      (compiler.storeAt (some name) config script.text compiled).state = after :=
    storeAt_of_key keyed name script.text
  rw [here.1, here.2]
  cases kept : (compiler.cache.set key script.text
      (some (.whole compiler.context.settings.scriptTtl)) compiled.store).result with
  | error failure =>
      rw [kept] at result
      refine .inl ⟨fun speakable => ?_, ⟨failure, (bind_of_error result).1⟩,
        (bind_of_error result).2.trans state⟩
      obtain ⟨entry, set⟩ := Cache.exists_set (isFileName_of_key keyed)
        ((speakable_path_iff keyed).mpr speakable) script.text
        (some (.whole compiler.context.settings.scriptTtl)) compiled.store
      cases kept.symm.trans set
  | ok entry =>
      rw [kept] at result
      have later : (steps compiled).result = _ ∧ (steps compiled).state = _ := bind_of_ok result
      rw [state] at later
      exact .inr later

theorem fills_of_error (kept : bench.shelf.WellKept) {failure : Failure}
    (failed : (compiler.compile config bench.store).result = .error failure) :
    compiler.Fills ((own, config) :: rest) bench
      (compiler.precomputeAll ((own, config) :: rest) bench) := by
  obtain ⟨result, left⟩ := precomputeAll_of_error own rest failed
  have again := compiler.repeats_compile config
  have still : compiler.textOn (compiler.compile config bench.store).state config =
      .error failure := by
    rw [textOn, again.fails bench.store failure failed]
    rfl
  refine ⟨?_, ?_, ?_, fun other same => ?_, fun ok => ?_, fun ok => ?_⟩
  · rw [left]
  · rw [left]; exact kept
  · rw [left]; exact again.retains _
  · obtain rfl := Except.error.inj (result.symm.trans same)
    rw [left]
    exact .inr ⟨(own, config), List.mem_cons_self, still⟩
  · cases result.symm.trans ok
  · cases result.symm.trans ok

theorem fills_of_ok {script : CompiledScript} {name key : String}
    (done : (compiler.compile config bench.store).result = .ok script)
    (place : bench.shelf.placeOf own config = some name)
    (keyed : compiler.scriptKey config = .ok key) (after : Workbench)
    (here : after = compiler.keeping name key script.text
      { bench with store := (compiler.compile config bench.store).state })
    (kept : after.shelf.WellKept)
    (later : compiler.Fills rest after (compiler.precomputeAll rest after)) :
    compiler.Fills ((own, config) :: rest) bench
      (compiler.precomputeAll ((own, config) :: rest) bench) := by
  have again := compiler.repeats_compile config
  have retained : Retains (compiler.compile config bench.store).state after.store := by
    rw [here]
    exact retains_set keyed (by decide) _ _ _
  have table : after.shelf.table = bench.shelf.table := by rw [here]; rfl
  rcases precomputeAll_of_ok rest done place keyed with
    ⟨unsaid, ⟨failure, failed⟩, left⟩ | ⟨result, left⟩
  · rw [← here] at left
    refine ⟨?_, ?_, ?_, fun _ _ => .inl unsaid, fun ok => ?_, fun ok => ?_⟩
    · rw [left, table]
    · rw [left]; exact kept
    · rw [left]; exact (again.retains _).trans retained
    · cases failed.symm.trans ok
    · cases failed.symm.trans ok
  · rw [← here] at result left
    have ships : compiler.textOn (compiler.precomputeAll rest after).state.store config =
        .ok script.text :=
      textOn_of_compile (again.gives bench.store script done _ (retained.trans later.retains)).1
    refine ⟨?_, ?_, ?_, fun failure failed => ?_, fun ok => ?_, fun ok other => ?_⟩
    all_goals rw [left]
    · exact later.table.trans table
    · exact later.wellKept
    · exact (again.retains _).trans (retained.trans later.retains)
    · rcases later.fails failure (result ▸ failed) with unsaid | ⟨behind, member, fails⟩
      · exact .inl unsaid
      · exact .inr ⟨behind, List.mem_cons_of_mem _ member, fails⟩
    · exact List.forall_mem_cons.mpr ⟨⟨_, ships⟩, later.ships (result ▸ ok)⟩
    · have new : after.shelf.text? other =
          if name = other then some script.text else bench.shelf.text? other := by
        rw [here]
        exact Shelf.text?_put _ _ _ _
      have alike : after.shelf.lastKept other rest = bench.shelf.lastKept other rest := by
        simp only [Shelf.lastKept, Shelf.placeOf, table]
      rw [later.texts (result ▸ ok), new, alike, Shelf.lastKept_cons, place]
      cases behind : bench.shelf.lastKept other rest with
      | none =>
          by_cases same : name = other <;> simp [same, ships, Except.toOption]
      | some last =>
          have member : last ∈ rest := List.mem_reverse.mp (List.mem_of_find?_eq_some behind)
          obtain ⟨text, shipped⟩ := later.ships (result ▸ ok) last member
          simp [shipped, Except.toOption]

theorem fills_precomputeAll (compiler : Compiler) {places : List (String × Configuration)}
    {bench : Workbench} (kept : bench.shelf.WellKept)
    (within : ∀ place ∈ places, place ∈ bench.shelf.table) :
    compiler.Fills places bench (compiler.precomputeAll places bench) := by
  induction places generalizing bench with
  | nil =>
      refine ⟨rfl, kept, .refl _, fun failure failed => ?_, fun _ place member => ?_,
        fun _ name => rfl⟩
      · cases failed
      · exact absurd member List.not_mem_nil
  | cons place rest ih =>
      have here := within place List.mem_cons_self
      cases done : (compiler.compile place.2 bench.store).result with
      | error failure => exact fills_of_error kept done
      | ok script =>
          obtain ⟨name, placed⟩ := Shelf.exists_placeOf kept.names here
          obtain ⟨key, keyed⟩ := compiler.exists_scriptKey place.2
          have remembered := kept.remember_placeOf here script.text
          rw [placed] at remembered
          refine fills_of_ok done placed keyed _ rfl remembered (ih remembered ?_)
          exact fun other member => within other (List.mem_cons_of_mem place member)

end Filling

/-! The whole table. -/

theorem precompute_eq (compiler : Compiler) (bench : Workbench) :
    let filled := compiler.precomputeAll bench.shelf.table bench
    (compiler.precompute bench).result = filled.result.map (fun _ => filled.state.shelf.texts) ∧
      (compiler.precompute bench).state = filled.state := by
  intro filled
  change (Action.andThen (compiler.precomputeAll bench.shelf.table) _ bench).result = _ ∧
    (Action.andThen (compiler.precomputeAll bench.shelf.table) _ bench).state = _
  unfold Action.andThen
  cases done : (compiler.precomputeAll bench.shelf.table bench).result with
  | error failure => simp [filled, done, Except.map]
  | ok value => simp [filled, done, Except.map]; exact ⟨rfl, rfl⟩

/-- Precomputing fails only where a place of the table cannot be compiled, or the directory of the
cache has a name that the disk cannot be told. -/
theorem fails_precompute {compiler : Compiler} {bench : Workbench} (kept : bench.shelf.WellKept)
    {failure : Failure} (failed : (compiler.precompute bench).result = .error failure) :
    ¬ compiler.cache.directory.Speakable ∨ ∃ place ∈ bench.shelf.table,
      compiler.textOn (compiler.precompute bench).state.store place.2 = .error failure := by
  obtain ⟨result, state⟩ := compiler.precompute_eq bench
  have fills := fills_precomputeAll compiler kept fun _ member => member
  rw [state]
  cases done : (compiler.precomputeAll bench.shelf.table bench).result with
  | error cause =>
      rw [result, done] at failed
      obtain rfl := Except.error.inj failed
      exact fills.fails cause done
  | ok value =>
      rw [result, done] at failed
      cases failed

/-- A mapping has exactly the names of a table, each with the text of its own configuration. -/
def Covers (shipped : Configuration → Except Failure (List Char))
    (table : List (String × Configuration)) (texts : List (String × List Char)) : Prop :=
  (∀ name, name ∈ texts.map Prod.fst ↔ name ∈ table.map Prod.fst) ∧
    ∀ place ∈ table, ∀ text, (place.1, text) ∈ texts ↔ shipped place.2 = .ok text

section Texts

variable {compiler : Compiler} {bench : Workbench} (kept : bench.shelf.WellKept)
  {texts : List (String × List Char)} (given : (compiler.precompute bench).result = .ok texts)

include kept given

theorem ships_of_precompute : ∀ place ∈ bench.shelf.table, ∃ text,
    compiler.textOn (compiler.precompute bench).state.store place.2 = .ok text := by
  obtain ⟨result, state⟩ := compiler.precompute_eq bench
  obtain ⟨⟨⟩, done, -⟩ := map_eq_ok (result.symm.trans given)
  rw [state]
  exact (fills_precomputeAll compiler kept fun _ member => member).ships done

theorem names_precompute : (texts.map Prod.fst).Nodup := by
  obtain ⟨result, -⟩ := compiler.precompute_eq bench
  obtain ⟨⟨⟩, -, rfl⟩ := map_eq_ok (result.symm.trans given)
  exact (fills_precomputeAll compiler kept fun _ member => member).wellKept.texts

theorem mem_precompute_iff (name : String) (text : List Char) :
    (name, text) ∈ texts ↔ ∃ first last, first.1 = name ∧ Shelf.IsFirst bench.shelf.table first ∧
      Shelf.IsLast bench.shelf.table last ∧ Shelf.Alike first last ∧
      compiler.textOn (compiler.precompute bench).state.store last.2 = .ok text := by
  obtain ⟨result, state⟩ := compiler.precompute_eq bench
  obtain ⟨⟨⟩, done, rfl⟩ := map_eq_ok (result.symm.trans given)
  have fills := fills_precomputeAll compiler kept fun _ member => member
  rw [state, fills.wellKept.mem_texts_iff, fills.texts done]
  constructor
  · intro there
    cases found : bench.shelf.lastKept name bench.shelf.table with
    | none =>
        rw [found] at there
        obtain ⟨place, first, named⟩ := kept.first _ (kept.mem_texts_iff.mpr there)
        obtain ⟨last, same⟩ := Shelf.exists_lastKept kept.names first
        cases found.symm.trans (named ▸ same)
    | some last =>
        obtain ⟨isLast, first, named, isFirst, alike⟩ :=
          (Shelf.lastKept_eq_some_iff kept.names).mp found
        obtain ⟨shipped, ships⟩ := fills.ships done last (Shelf.mem_of_isLast isLast)
        simp only [found, Option.bind_some, ships, Except.toOption, Option.some_or,
          Option.some.injEq] at there
        exact ⟨first, last, named, isFirst, isLast, alike, there ▸ ships⟩
  · rintro ⟨first, last, named, isFirst, isLast, alike, ships⟩
    have found := (Shelf.lastKept_eq_some_iff kept.names).mpr ⟨isLast, first, named, isFirst, alike⟩
    simp [found, ships, Except.toOption]

theorem mem_names_precompute_iff (name : String) :
    name ∈ texts.map Prod.fst ↔
      ∃ first, Shelf.IsFirst bench.shelf.table first ∧ first.1 = name := by
  rw [List.mem_map]
  constructor
  · rintro ⟨⟨_, text⟩, member, rfl⟩
    obtain ⟨first, -, named, isFirst, -⟩ := (mem_precompute_iff kept given _ _).mp member
    exact ⟨first, isFirst, named⟩
  · rintro ⟨first, isFirst, rfl⟩
    obtain ⟨last, found⟩ := Shelf.exists_lastKept kept.names isFirst
    obtain ⟨isLast, other, named, isOther, alike⟩ :=
      (Shelf.lastKept_eq_some_iff kept.names).mp found
    obtain ⟨text, ships⟩ := ships_of_precompute kept given last (Shelf.mem_of_isLast isLast)
    exact ⟨(first.1, text), (mem_precompute_iff kept given _ _).mpr
      ⟨other, last, named, isOther, isLast, alike, ships⟩, rfl⟩

theorem covers_precompute_iff :
    Covers (compiler.textOn (compiler.precompute bench).state.store) bench.shelf.table texts ↔
      Shelf.HasNoRepeats bench.shelf.table := by
  constructor
  · rintro ⟨names, -⟩ place here other there same
    have first : ∀ place ∈ bench.shelf.table, Shelf.IsFirst bench.shelf.table place := by
      intro place member
      obtain ⟨first, isFirst, named⟩ := (mem_names_precompute_iff kept given place.1).mp
        ((names place.1).mpr (List.mem_map_of_mem member))
      exact Shelf.eq_of_name kept.names (Shelf.mem_of_isFirst isFirst) member named ▸ isFirst
    have kind := Shelf.placeOf_of_isFirst kept.names (first place here)
    have alike := (Shelf.placeOf_eq_iff_alike kept.names here there kind).mpr
      (Shelf.Alike.symm (.inr same))
    rw [Shelf.placeOf_of_isFirst kept.names (first other there)] at alike
    exact Shelf.eq_of_name kept.names here there (Option.some.inj alike).symm
  · intro apart
    constructor
    · intro name
      rw [mem_names_precompute_iff kept given, List.mem_map]
      refine exists_congr fun place => and_congr_left' ?_
      exact ⟨Shelf.mem_of_isFirst, fun member =>
        (Shelf.isFirst_and_isLast kept.names apart member).1⟩
    · intro place member text
      obtain ⟨isFirst, isLast⟩ := Shelf.isFirst_and_isLast kept.names apart member
      rw [mem_precompute_iff kept given]
      constructor
      · rintro ⟨first, last, named, isOther, isEnd, alike, ships⟩
        obtain rfl := Shelf.eq_of_name kept.names (Shelf.mem_of_isFirst isOther) member named
        obtain rfl := alike.eq_of_noRepeats apart member (Shelf.mem_of_isLast isEnd)
        exact ships
      · exact fun ships => ⟨place, place, rfl, isFirst, isLast, .refl place, ships⟩

end Texts

theorem textOn_of_unwanted {compiler : Compiler} {config : Configuration}
    (unwanted : compiler.wanted config = []) (store other : Store Fragment) :
    compiler.textOn store config = compiler.textOn other config := by
  have raw : compiler.rawScript config (.ofConfiguration config) =
      Action.ofExcept (Script.assemble compiler.context config [] (.ofConfiguration config)) := by
    rw [rawScript, unwanted]
    exact Action.andThen_succeed _ _
  unfold textOn compile
  rw [raw]
  generalize Script.assemble compiler.context config [] (.ofConfiguration config) = assembled
  cases assembled with
  | error failure => rfl
  | ok text =>
      have done (store : Store Fragment) : (mapFailure Failure.asGeneration
          (Action.ofExcept (.ok text)) store).result = .ok text := rfl
      rw [(bind_of_ok (done store)).1, (bind_of_ok (done other)).1]
      unfold finish
      cases compiler.optimizes <;> rfl

theorem textOn_emptyConfiguration (store : Store Fragment) :
    ∃ text, homeCompiler.textOn store emptyConfiguration = .ok text := by
  have done : (homeCompiler.textOn emptyStore emptyConfiguration).isOk = true := by decide +kernel
  rw [textOn_of_unwanted (show homeCompiler.wanted emptyConfiguration = [] from rfl) store
    emptyStore]
  cases shipped : homeCompiler.textOn emptyStore emptyConfiguration with
  | error failure => rw [shipped] at done; cases done
  | ok text => exact ⟨text, rfl⟩

def emptyTwice : Shelf :=
  .ofTable [("a", emptyConfiguration), ("b", emptyConfiguration)]

theorem exists_precompute {shelf : Shelf} (kept : shelf.WellKept)
    (empty : ∀ place ∈ shelf.table, place.2 = emptyConfiguration) :
    ∃ texts, (homeCompiler.precompute ⟨emptyStore, shelf⟩).result = .ok texts := by
  cases given : (homeCompiler.precompute ⟨emptyStore, shelf⟩).result with
  | ok texts => exact ⟨texts, rfl⟩
  | error failure =>
      rcases fails_precompute kept given with unsaid | ⟨place, member, fails⟩
      · exact absurd (by decide) unsaid
      · obtain ⟨text, ships⟩ := textOn_emptyConfiguration
          (homeCompiler.precompute ⟨emptyStore, shelf⟩).state.store
        rw [empty place member] at fails
        cases ships.symm.trans fails

/-- A shelf that had a text before it is precomputed. -/
def emptyOnce : Shelf :=
  ⟨[("a", emptyConfiguration)], [("a", "exit 0".toList)]⟩

end Compiler

end StatusLine

import StatusLine.Proofs.Compiler.FailingSteps
import StatusLine.Proofs.Compiler.Runs
import StatusLine.Proofs.Store.Policy

/-!
Shelves over whole runs. Any number of compilers look up, remember and store texts, each on a shelf
of its own, and all of them in one cache directory. A text that a shelf was given is served from
there at any age; only where it was given none is the file of the script asked, and the file is
taken just as long as scripts live. A configuration that is not in the table of a shelf is never
served there, and is never kept.
-/

namespace StatusLine

/-! Places in a table. -/

namespace Shelf

def IsFirstEqual (table : List (String × Configuration)) (config : Configuration)
    (name : String) : Prop :=
  ∃ before place after, table = before ++ place :: after ∧ place.1 = name ∧
    (place.2 == config) = true ∧ ∀ other ∈ before, (other.2 == config) = false

def HasNoEqual (table : List (String × Configuration)) (config : Configuration) : Prop :=
  ∀ place ∈ table, (place.2 == config) = false

instance (table : List (String × Configuration)) (config : Configuration) :
    Decidable (HasNoEqual table config) :=
  inferInstanceAs (Decidable (∀ place ∈ table, _ = false))

variable {shelf : Shelf} {config : Configuration} {name : String} {place : Option String}
  {text : List Char}

theorem match?_eq_some_iff :
    shelf.match? config = some name ↔ IsFirstEqual shelf.table config name := by
  simp only [match?, Option.map_eq_some_iff, List.find?_eq_some_iff_append, IsFirstEqual]
  constructor
  · rintro ⟨place, ⟨same, before, after, whole, apart⟩, named⟩
    exact ⟨before, place, after, whole, named, same, by simpa using apart⟩
  · rintro ⟨before, place, after, whole, named, same, apart⟩
    exact ⟨place, ⟨same, before, after, whole, by simpa using apart⟩, named⟩

theorem match?_eq_none_iff : shelf.match? config = none ↔ HasNoEqual shelf.table config := by
  simp [match?, HasNoEqual]

theorem table_remember : (shelf.remember place text).2.table = shelf.table := by
  cases place <;> rfl

theorem text?_remember :
    (shelf.remember place text).2.text? name =
      (if place = some name then some text else none).or (shelf.text? name) := by
  cases place with
  | none => rfl
  | some placed =>
      simp only [remember, text?_put, Option.some.injEq]
      split <;> rfl

end Shelf

namespace Compiler

/-! What each call does. -/

def HasInTime (compiler : Compiler) (store : Store Fragment) (key : String) (text : List Char) :
    Prop :=
  ∃ content modified executable,
    store.disk.stat (compiler.cache.path key) = .ok (.file content modified executable) ∧
      Cache.textOfFile content = .ok text ∧
      Cache.isWithin (store.now - modified) (.whole compiler.context.settings.scriptTtl) = true

section Calls

variable {compiler : Compiler} {config : Configuration} {bench : Workbench} {name key : String}
  {text : List Char} {entry : Option (Entry Fragment)}

theorem shelfText_eq_some_iff {store : Store Fragment}
    (read : compiler.cache.readEntry key none store = .ok entry) :
    compiler.shelfText store entry = some text ↔ compiler.HasInTime store key text := by
  cases entry with
  | none =>
      refine ⟨by simp [shelfText], ?_⟩
      rintro ⟨content, modified, executable, found, decoded, -⟩
      simp [Cache.readEntry, found, decoded, Except.map] at read
  | some entry =>
      obtain ⟨content, modified, executable, held, found, decoded, rfl⟩ :=
        Cache.readEntry_eq_some read
      have decodes : ∀ other, Cache.textOfFile content = .ok other ↔ held = other := by
        simp [decoded]
      cases young : Cache.isWithin (store.now - modified)
          (.whole compiler.context.settings.scriptTtl) <;>
        simp [HasInTime, found, decodes, shelfText, Cache.entry, Store.age, young]

theorem store_lookup : (compiler.lookup config bench).state.store = bench.store := by
  rcases lookup_cases compiler config bench with ⟨still, -⟩ | ⟨placed, text, -, put⟩
  · rw [still]
  · rw [put]

theorem table_lookup : (compiler.lookup config bench).state.shelf.table = bench.shelf.table := by
  rcases lookup_cases compiler config bench with ⟨still, -⟩ | ⟨placed, text, -, put⟩
  · rw [still]
  · rw [put]; rfl

theorem text?_lookup :
    (compiler.lookup config bench).state.shelf.text? name =
      (if bench.shelf.match? config = some name
        then (compiler.lookup config bench).result.toOption.join else none).or
          (bench.shelf.text? name) := by
  rcases lookup_cases compiler config bench with ⟨still, held⟩ | ⟨placed, text, place, put⟩
  · rw [still]
    split
    · rename_i place
      match served : (compiler.lookup config bench).result with
      | .error failure => rfl
      | .ok none => rfl
      | .ok (some text) =>
          obtain ⟨other, same, there⟩ := held text served
          obtain rfl := Option.some.inj (place.symm.trans same)
          exact there
    · rfl
  · rw [put, place]
    show (bench.shelf.remember (some placed) text).2.text? name = _
    exact Shelf.text?_remember

theorem remember_of_outside (outside : bench.shelf.match? config = none) :
    remember config text bench = ⟨.ok false, bench, []⟩ := by
  simp only [remember, bind, Action.andThen, Action.state, outside]
  rfl

theorem remember_of_place (place : bench.shelf.match? config = some name) :
    remember config text bench =
      ⟨.ok true, { bench with shelf := bench.shelf.put name text }, []⟩ := by
  simp only [remember, bind, Action.andThen, Action.state, place]
  rfl

theorem store_of_outside (outside : bench.shelf.match? config = none) :
    compiler.store config text bench = ⟨.ok false, bench, []⟩ := by
  simp only [store, storeAt, bind, Action.andThen, Action.state, outside]
  rfl

theorem storeAt_of_key (keyed : compiler.scriptKey config = .ok key) (name : String)
    (text : List Char) :
    let kept := compiler.cache.set key text (some (.whole compiler.context.settings.scriptTtl))
      bench.store
    (compiler.storeAt (some name) config text bench).result = kept.result.map (fun _ => true) ∧
      (compiler.storeAt (some name) config text bench).state =
        ⟨kept.state, bench.shelf.put name text⟩ := by
  intro kept
  simp only [storeAt, bind, Action.andThen]
  simp only [rememberAt, Shelf.remember, if_true, keyed, Workbench.onStore]
  simp only [Action.andThen, Action.ofExcept, Action.onPart]
  cases kept.result with
  | error failure => exact ⟨rfl, rfl⟩
  | ok entry => exact ⟨rfl, rfl⟩

theorem store_of_place (place : bench.shelf.match? config = some name)
    (keyed : compiler.scriptKey config = .ok key) (text : List Char) :
    let kept := compiler.cache.set key text (some (.whole compiler.context.settings.scriptTtl))
      bench.store
    (compiler.store config text bench).result = kept.result.map (fun _ => true) ∧
      (compiler.store config text bench).state = ⟨kept.state, bench.shelf.put name text⟩ := by
  have same : compiler.store config text bench =
      compiler.storeAt (some name) config text bench := by
    simp only [store, bind, Action.andThen, Action.state, place]
    rfl
  rw [same]
  exact storeAt_of_key keyed name text

theorem shelf_store :
    (compiler.store config text bench).state.shelf =
      (bench.shelf.remember (bench.shelf.match? config) text).2 := by
  cases place : bench.shelf.match? config with
  | none => rw [store_of_outside place]; rfl
  | some name =>
      obtain ⟨key, keyed⟩ := compiler.exists_scriptKey config
      rw [(store_of_place place keyed text).2]
      rfl

end Calls

/-! Directories that caches can work in. -/

/-- The name of a directory can be said to the disk, and the files in it are text. -/
structure WorksIn (disk : Disk) (directory : PathName) : Prop where
  speakable : directory.Speakable
  text : ∀ name content modified executable,
    disk.at? (disk.placeOf directory ++ [name]) = some (.file content modified executable) →
      ∃ text, Cache.textOfFile content = .ok text

section Working

variable {compiler : Compiler} {disk : Disk} {directory : PathName} {config : Configuration}
  {key : String}

theorem WorksIn.save (works : WorksIn disk directory) (name : String) (text : List Char)
    (now : Float) :
    WorksIn (disk.save directory name (Fingerprint.utf8 text) now).disk directory := by
  refine ⟨works.speakable, fun place content modified executable found => ?_⟩
  rw [Disk.placeOf_congr (disk.working_save _ _ _ _)] at found
  rcases disk.file_of_save _ _ _ _ _ _ _ _ found with ⟨-, rfl⟩ | before
  · exact ⟨_, Cache.textOfFile_utf8 text⟩
  · exact works.text place content modified executable before

theorem WorksIn.exists_readEntry {store : Store Fragment}
    (works : WorksIn store.disk compiler.cache.directory)
    (keyed : compiler.scriptKey config = .ok key) :
    ∃ entry, compiler.cache.readEntry key none store = .ok entry := by
  refine Cache.exists_readEntry ((speakable_path_iff keyed).mpr works.speakable) ?_ none
  rintro ⟨content, modified, executable, found, noText⟩
  have there := Disk.at?_of_stat _ _ _ found
  rw [Cache.path, Disk.placeOf_isFileName _ _ (isFileName_of_key keyed)] at there
  obtain ⟨text, decoded⟩ := works.text _ _ _ _ there
  simp [Cache.textOfFile, String.fromUTF8?, noText] at decoded

end Working

end Compiler

/-! Runs. -/

namespace Shelves

open Compiler

inductive Call
  | lookup (config : Configuration)
  | remember (config : Configuration) (text : List Char)
  | store (config : Configuration) (text : List Char)

namespace Call

def after (compiler : Compiler) (bench : Workbench) : Call → Workbench
  | lookup config => (compiler.lookup config bench).state
  | remember config text => (Compiler.remember config text bench).state
  | store config text => (compiler.store config text bench).state

/-- The text that a call gives the shelf under a name: one that is remembered or stored there, or
one that a lookup serves. -/
def gives (compiler : Compiler) (bench : Workbench) (name : String) : Call → Option (List Char)
  | lookup config =>
      if bench.shelf.match? config = some name then
        (compiler.lookup config bench).result.toOption.join
      else none
  | remember config text | store config text =>
      if bench.shelf.match? config = some name then some text else none

end Call

/-- A call at a seat, or a step of the clock. -/
inductive Step
  | call (seat : Seat) (asked : Call)
  | clock (now : Float)

section Steps

variable (compilers : Nat → Compiler)

def Step.after (site : Site) : Step → Site
  | call seat asked => site.leave seat (asked.after (compilers seat.shelf) (site.bench seat))
  | clock now => { site with now := now }

def Step.gives (site : Site) (shelf : Nat) (name : String) : Step → Option (List Char)
  | call seat asked =>
      if shelf = seat.shelf then asked.gives (compilers seat.shelf) (site.bench seat) name
      else none
  | clock _ => none

def run (site : Site) (steps : List Step) : Site :=
  steps.foldl (Step.after compilers) site

/-- The text that a run last gave a shelf under a name. -/
def lastGiven (site : Site) (shelf : Nat) (name : String) : List Step → Option (List Char)
  | [] => none
  | step :: rest =>
      (lastGiven (step.after compilers site) shelf name rest).or
        (step.gives compilers site shelf name)

end Steps

/-- What holds of the calls of a compiler at some point of a run. -/
structure Policy (compiler : Compiler) (table : List (String × Configuration))
    (given : String → Option (List Char)) (bench : Workbench) : Prop where
  /-- Whatever the tiers hold, a configuration without a place is not served, and what is kept for
  it gets nowhere. -/
  outside : ∀ config, Shelf.HasNoEqual table config → ∀ store,
    let there : Workbench := ⟨store, bench.shelf⟩
    compiler.lookup config there = ⟨.ok none, there, []⟩ ∧
      ∀ text, Compiler.remember config text there = ⟨.ok false, there, []⟩ ∧
        compiler.store config text there = ⟨.ok false, there, []⟩
  /-- Whatever the tiers hold, and whatever the time is, the text that was given last is served. -/
  held : ∀ config name text, Shelf.IsFirstEqual table config name → given name = some text →
    ∀ store, let there : Workbench := ⟨store, bench.shelf⟩
      compiler.lookup config there = ⟨.ok (some text), there, []⟩
  /-- Where no text was given, the file is served and stays on the shelf, if it is not too old. -/
  filed : ∀ config name, Shelf.IsFirstEqual table config name → given name = none →
    ∃ key, compiler.scriptKey config = .ok key ∧
      ((∃ text, compiler.HasInTime bench.store key text ∧ compiler.lookup config bench =
          ⟨.ok (some text), { bench with shelf := bench.shelf.put name text }, []⟩) ∨
        (∀ text, ¬ compiler.HasInTime bench.store key text) ∧
          compiler.lookup config bench = ⟨.ok none, bench, []⟩)
  /-- What is remembered gets on the shelf only. -/
  remembered : ∀ config name text, Shelf.IsFirstEqual table config name →
    Compiler.remember config text bench =
      ⟨.ok true, { bench with shelf := bench.shelf.put name text }, []⟩
  /-- What is stored gets on the shelf, in memory, and in a new file if the disk takes it. -/
  stored : ∀ config name text, Shelf.IsFirstEqual table config name →
    ∃ key, compiler.scriptKey config = .ok key ∧
      let run := compiler.store config text bench
      run.result = .ok true ∧ run.state.shelf = bench.shelf.put name text ∧
        Cache.InMemory run.state.store key text ∧
        (compiler.cache.refusal bench.store key text bench.store.now = none →
          ∃ executable, run.state.store.disk.stat (compiler.cache.path key) =
            .ok (.file (Fingerprint.utf8 text) bench.store.now executable))

section Points

variable {compiler : Compiler} {bench : Workbench} {given : String → Option (List Char)}

theorem policy_of_texts (works : WorksIn bench.store.disk compiler.cache.directory)
    (texts : ∀ name, bench.shelf.text? name = given name) :
    Policy compiler bench.shelf.table given bench := by
  refine ⟨fun config absent store => ?_, fun config name text first was store => ?_,
    fun config name first was => ?_, fun config name text first => ?_,
    fun config name text first => ?_⟩
  · have none : bench.shelf.match? config = none := Shelf.match?_eq_none_iff.mpr absent
    exact ⟨lookup_of_outside none, fun text => ⟨remember_of_outside none, store_of_outside none⟩⟩
  · exact lookup_of_held (Shelf.match?_eq_some_iff.mpr first) ((texts name).trans was)
  · obtain ⟨key, keyed⟩ := compiler.exists_scriptKey config
    obtain ⟨entry, read⟩ := works.exists_readEntry keyed
    refine ⟨key, keyed, ?_⟩
    rw [lookup_of_vacant (Shelf.match?_eq_some_iff.mpr first) ((texts name).trans was) keyed, read]
    simp only [← shelfText_eq_some_iff read]
    cases compiler.shelfText bench.store entry with
    | none => exact .inr ⟨by simp, rfl⟩
    | some text => exact .inl ⟨text, rfl, rfl⟩
  · exact remember_of_place (Shelf.match?_eq_some_iff.mpr first)
  · obtain ⟨key, keyed⟩ := compiler.exists_scriptKey config
    obtain ⟨result, state⟩ := store_of_place (Shelf.match?_eq_some_iff.mpr first) keyed text
    obtain ⟨entry, done⟩ := Cache.exists_set (isFileName_of_key keyed)
      ((speakable_path_iff keyed).mpr works.speakable) text
      (some (.whole compiler.context.settings.scriptTtl)) bench.store
    refine ⟨key, keyed, by rw [result, done]; rfl, by rw [state], ?_, fun taken => ?_⟩
    · rw [state]
      exact Cache.inMemory_of_set
    · rw [state, Cache.state_set]
      exact Disk.stat_save _ _ _ _ _ taken

end Points

/-! One call, one step, and a run. -/

section Calls

variable {compiler : Compiler} {bench : Workbench} (call : Call)

theorem Call.table_after : (call.after compiler bench).shelf.table = bench.shelf.table := by
  cases call with
  | lookup config => exact table_lookup
  | remember config text => exact Shelf.table_remember
  | store config text => exact (congrArg Shelf.table shelf_store).trans Shelf.table_remember

theorem Call.text?_after (name : String) :
    (call.after compiler bench).shelf.text? name =
      (call.gives compiler bench name).or (bench.shelf.text? name) := by
  cases call with
  | lookup config => exact text?_lookup
  | remember config text => exact Shelf.text?_remember
  | store config text =>
      exact (congrArg (Shelf.text? · name) shelf_store).trans Shelf.text?_remember

theorem Call.worksIn_after (works : WorksIn bench.store.disk compiler.cache.directory) :
    WorksIn (call.after compiler bench).store.disk compiler.cache.directory := by
  cases call with
  | lookup config =>
      rw [Call.after, store_lookup]
      exact works
  | remember config text => exact works
  | store config text =>
      cases place : bench.shelf.match? config with
      | none =>
          rw [Call.after, store_of_outside place]
          exact works
      | some name =>
          obtain ⟨key, keyed⟩ := compiler.exists_scriptKey config
          rw [Call.after, (store_of_place place keyed text).2, Cache.state_set]
          exact works.save key text bench.store.now

end Calls

section Steps

variable {compilers : Nat → Compiler} {directory : PathName} {site : Site}

theorem Step.table_after (step : Step) (shelf : Nat) :
    ((step.after compilers site).shelves shelf).table = (site.shelves shelf).table := by
  cases step with
  | clock now => rfl
  | call seat call =>
      by_cases own : shelf = seat.shelf
      · subst own
        simp only [Step.after, Site.leave, if_true, call.table_after]
        rfl
      · simp only [Step.after, Site.leave, own, if_false]

theorem Step.text?_after (step : Step) (shelf : Nat) (name : String) :
    ((step.after compilers site).shelves shelf).text? name =
      (step.gives compilers site shelf name).or ((site.shelves shelf).text? name) := by
  cases step with
  | clock now => rfl
  | call seat call =>
      by_cases own : shelf = seat.shelf
      · subst own
        simp only [Step.after, Step.gives, Site.leave, if_true, call.text?_after]
        rfl
      · simp only [Step.after, Step.gives, Site.leave, own, if_false, Option.none_or]

theorem Step.worksIn_after (shared : ∀ shelf, (compilers shelf).cache.directory = directory)
    (works : WorksIn site.disk directory) (step : Step) :
    WorksIn (step.after compilers site).disk directory := by
  cases step with
  | clock now => exact works
  | call seat call =>
      rw [← shared seat.shelf] at works ⊢
      show WorksIn (call.after (compilers seat.shelf) (site.bench seat)).store.disk _
      exact call.worksIn_after works

theorem table_run (steps : List Step) (shelf : Nat) :
    ((run compilers site steps).shelves shelf).table = (site.shelves shelf).table := by
  induction steps generalizing site with
  | nil => rfl
  | cons step rest ih => exact ih.trans (step.table_after shelf)

theorem text?_run (steps : List Step) (shelf : Nat) (name : String) :
    ((run compilers site steps).shelves shelf).text? name =
      (lastGiven compilers site shelf name steps).or ((site.shelves shelf).text? name) := by
  -- From the front: what the later steps give goes before what the first step gave.
  induction steps generalizing site with
  | nil => rfl
  | cons step rest ih =>
      calc ((run compilers (step.after compilers site) rest).shelves shelf).text? name
          = (lastGiven compilers (step.after compilers site) shelf name rest).or
              (((step.after compilers site).shelves shelf).text? name) := ih
        _ = _ := by rw [step.text?_after, lastGiven, Option.or_assoc]

theorem worksIn_run (shared : ∀ shelf, (compilers shelf).cache.directory = directory)
    (works : WorksIn site.disk directory) (steps : List Step) :
    WorksIn (run compilers site steps).disk directory := by
  induction steps generalizing site with
  | nil => exact works
  | cons step rest ih => exact ih (step.worksIn_after shared works)

/-- Whatever compilers that share a cache directory did since their shelves were empty, their calls
do what the policy says. -/
theorem policy_over_runs (shared : ∀ shelf, (compilers shelf).cache.directory = directory)
    (works : WorksIn site.disk directory) (empty : ∀ shelf, (site.shelves shelf).texts = [])
    (steps : List Step) (seat : Seat) :
    Policy (compilers seat.shelf) (site.shelves seat.shelf).table
      (fun name => lastGiven compilers site seat.shelf name steps)
      ((run compilers site steps).bench seat) := by
  have still := worksIn_run shared works steps
  rw [← shared seat.shelf] at still
  have tables : ((run compilers site steps).bench seat).shelf.table =
      (site.shelves seat.shelf).table := table_run steps seat.shelf
  rw [← tables]
  refine policy_of_texts still fun name => ?_
  have bare : (site.shelves seat.shelf).text? name = none := by simp [Shelf.text?, empty]
  calc ((run compilers site steps).shelves seat.shelf).text? name
      = (lastGiven compilers site seat.shelf name steps).or
          ((site.shelves seat.shelf).text? name) := text?_run steps seat.shelf name
    _ = lastGiven compilers site seat.shelf name steps := by rw [bare, Option.or_none]

end Steps

/-! A text that one of two compilers remembers for longer than scripts live. -/

def rememberedForADay : List Step :=
  [.call ⟨0, 0⟩ (.remember .standard "exit 0".toList), .clock 86401]

theorem kept_on_one_shelf :
    let site := run (fun _ => homeCompiler) newSite rememberedForADay
    (homeCompiler.lookup .standard (site.bench ⟨0, 0⟩)).result = .ok (some "exit 0".toList) ∧
      (homeCompiler.lookup .standard (site.bench ⟨1, 1⟩)).result = .ok none ∧
      (homeCompiler.lookup directoryOnly (site.bench ⟨0, 0⟩)).result = .ok none := by
  intro site
  have works : WorksIn newSite.disk homeCompiler.cache.directory :=
    ⟨by decide, fun _ _ _ _ found => by simp [newSite, Disk.empty, Disk.at?] at found⟩
  have policy (seat : Seat) : Policy homeCompiler Shelf.commonConfigurations
      (fun name => lastGiven (fun _ => homeCompiler) newSite seat.shelf name rememberedForADay)
      (site.bench seat) :=
    policy_over_runs (fun _ => rfl) works (fun _ => rfl) rememberedForADay seat
  have first : Shelf.IsFirstEqual Shelf.commonConfigurations .standard "default" :=
    ⟨[], _, _, rfl, rfl, by decide, by simp⟩
  refine ⟨?_, ?_, ?_⟩
  · have held := (policy ⟨0, 0⟩).held .standard _ "exit 0".toList first rfl
    exact congrArg Run.result (held (site.bench ⟨0, 0⟩).store)
  · obtain ⟨key, -, ⟨text, inTime, -⟩ | ⟨-, missed⟩⟩ :=
      (policy ⟨1, 1⟩).filed .standard _ first rfl
    · obtain ⟨content, modified, executable, found, -⟩ := inTime
      obtain ⟨location, -, there⟩ := Disk.located_of_stat found
      change Disk.empty.at? location = _ at there
      simp [Disk.empty, Disk.at?] at there
    · exact congrArg Run.result missed
  · have outside := (policy ⟨0, 0⟩).outside directoryOnly (by decide)
    exact congrArg Run.result (outside (site.bench ⟨0, 0⟩).store).1

end Shelves

end StatusLine

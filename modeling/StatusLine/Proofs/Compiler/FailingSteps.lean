import StatusLine.Proofs.Compiler.HeaderComment
import StatusLine.Proofs.Compiler.KeptScripts
import StatusLine.Proofs.Compiler.ShelfReading
import StatusLine.Proofs.Fingerprint.Keyable
import StatusLine.Proofs.Store.Speakable

/-!
Steps that fail while a script is made. Whatever is wrong with an encoder or with the assembly, it
gets out as a failure of the generation, and nothing of the script is kept: not in memory, not on
the disk, and not on the shelf. A directory whose name cannot be said to a disk makes generating
fail before anything is compiled, and that failure is not one of the generation.
-/

namespace StatusLine

theorem Failure.exists_asGeneration (failure : Failure) :
    ∃ reason, failure.asGeneration = .generation reason := by
  cases failure with
  | generation reason => exact ⟨reason, rfl⟩
  | _ => exact ⟨_, rfl⟩

theorem Fingerprint.domainOf_of_key {domain key : String} {fields : Datum}
    (made : Fingerprint.key domain fields = .ok key) : Fingerprint.domainOf key = domain := by
  unfold Fingerprint.key at made
  split at made
  · rename_i known
    obtain ⟨hex, -, rfl⟩ := map_eq_ok made
    simp only [domains, List.contains_iff_mem, List.mem_cons, List.not_mem_nil, or_false] at known
    rcases known with rfl | rfl | rfl | rfl | rfl <;> simp [domainOf]
  · cases made

namespace Cache

variable {α : Type} {cache : Cache} {key : String} {store : Store α}

theorem get_of_due {file : Option (Entry α)}
    (due : (⟨key, none, none, none⟩ : Lookup).Due cache store file) (refresh : Refresh α) :
    cache.get key (some refresh) none none store =
      cache.refreshed key file refresh cache.ttl cache.grace store := by
  have read := due.read
  have old : file.filter (fun entry => isWithin (store.age entry) cache.ttl) = none :=
    Option.filter_eq_none_iff.mpr fun entry there => ne_true_of_eq_false (due.old entry there)
  simp only [Lookup.ttlInForce, Option.getD_none] at read
  simp only [get, due.forgotten, Option.getD_none, read, old]

theorem exists_get_of_not_due (readable : cache.Readable key store)
    (ready : ¬ ∃ file, (⟨key, none, none, none⟩ : Lookup).Due cache store file)
    (refresh : Option (Refresh α)) :
    ∃ kept, (cache.get key refresh none none store).result = .ok kept := by
  rcases lookup_cases cache ⟨key, none, none, none⟩ store with
    ⟨entry, held⟩ | ⟨forgotten, ⟨failure, bad⟩ | ⟨entry, read, fresh⟩ | due⟩
  · exact ⟨some entry.value, by simp only [get, held]⟩
  · obtain ⟨file, read⟩ := readable.exists_readEntry (some cache.ttl)
    cases read.symm.trans bad
  · simp only [Lookup.ttlInForce, Option.getD_none] at read fresh
    exact ⟨some entry.value, by simp [get, forgotten, read, Option.filter, fresh]⟩
  · exact absurd due ready

end Cache

theorem speakable_path_iff {cache : Cache} {domain key : String} {fields : Datum}
    (made : Fingerprint.key domain fields = .ok key) :
    (cache.path key).Speakable ↔ cache.directory.Speakable := by
  have noZero : '\x00' ∉ key.toList := fun member =>
    absurd (List.all_eq_true.mp (Script.bare_key made) _ member) (by decide)
  rw [Cache.path, PathName.ofString_of_isFileName (isFileName_of_key made),
    PathName.append_relative]
  simp [PathName.Speakable, noZero]

namespace Compiler

open StatusLine.Action StatusLine.Cache

structure Untouched (before after : Store Fragment) : Prop where
  disk : after.disk = before.disk
  now : after.now = before.now
  memory : ∀ key, Fingerprint.domainOf key ≠ "fragment" →
    after.remembered key = before.remembered key

theorem Untouched.refl (store : Store Fragment) : Untouched store store :=
  ⟨rfl, rfl, fun _ _ => rfl⟩

def OnlyGeneration {α : Type} (result : Except Failure α) : Prop :=
  ∀ failure, result = .error failure → ∃ reason, failure = .generation reason

theorem onlyGeneration_asGeneration {α : Type} (result : Except Failure α) :
    OnlyGeneration (result.mapError Failure.asGeneration) := by
  intro failure failed
  cases result with
  | ok value => cases failed
  | error cause =>
      obtain rfl := Except.error.inj failed
      exact cause.exists_asGeneration

section Compiling

variable {compiler : Compiler} {config : Configuration} {store before : Store Fragment}

theorem untouched_fragment (style : Style) (encoder : Encoder) (options : EncoderOptions) :
    Keeps (Untouched before) (OnValue fun _ => True)
      (compiler.fragment style encoder options) := by
  have keyed : Keeps (Untouched before)
      (OnValue fun key => compiler.fragmentKey encoder options style = .ok key)
      (ofExcept (compiler.fragmentKey encoder options style)) := keeps_ofExcept fun _ made => made
  refine keyed.bindValue fun key made => ?_
  have kept : Keeps (Untouched before) (OnValue fun _ => True)
      (compiler.cache.memoize key (ofExcept (compiler.encode encoder style options))) := by
    intro store untouched
    refine ⟨?_, fun _ _ => trivial⟩
    unfold Cache.memoize
    cases store.remembered key with
    | some entry => exact untouched
    | none =>
        cases compiler.encode encoder style options with
        | error failure => exact untouched
        | ok fragment =>
            refine ⟨untouched.disk, untouched.now, fun other apart => ?_⟩
            have different : other ≠ key := by
              rintro rfl
              exact apart (Fingerprint.domainOf_of_key made)
            exact (store.remembered_remember_of_ne _ other different).trans
              (untouched.memory other apart)
  refine kept.bindValue fun held _ => ?_
  cases held with
  | object fragment => exact keeps_pure fun _ _ => trivial
  | text text => exact keeps_fail fun _ _ => trivial

theorem untouched_fragmentsFor (style : Style) (pairs : List (Encoder × EncoderOptions)) :
    Keeps (Untouched before) (OnValue fun _ => True) (compiler.fragmentsFor style pairs) := by
  induction pairs with
  | nil => exact keeps_pure fun _ _ => trivial
  | cons pair rest ih =>
      refine (untouched_fragment style pair.1 pair.2).bindValue fun _ _ => ?_
      exact ih.bindValue fun _ _ => keeps_pure fun _ _ => trivial

theorem untouched_compile (compiler : Compiler) (config : Configuration) :
    Keeps (Untouched before) OnlyGeneration (compiler.compile config) := by
  have raw : Keeps (Untouched before) OnlyGeneration (mapFailure Failure.asGeneration
      (compiler.rawScript config (.ofConfiguration config))) := by
    have steps : Keeps (Untouched before) (OnValue fun _ => True)
        (compiler.rawScript config (.ofConfiguration config)) :=
      (untouched_fragmentsFor _ _).bindValue fun _ _ => keeps_ofExcept fun _ _ => trivial
    exact steps.mapFailure fun result _ => onlyGeneration_asGeneration result
  refine raw.bind ?_ fun text _ store untouched => ?_
  · intro failure only other same
    exact only other (congrArg Except.error (Except.error.inj same))
  · unfold finish
    cases compiler.optimizes with
    | false => exact ⟨untouched, by rintro failure ⟨⟩⟩
    | true => exact ⟨untouched, by rintro failure ⟨⟩⟩

/-- A step of compiling fails: an encoder that memory has no fragment of, after those before it did
their part, or the assembly of what they made. -/
inductive StepFails (compiler : Compiler) (config : Configuration) (store : Store Fragment)
    (cause : Failure) : Prop
  | encoder (earlier later : List (Encoder × EncoderOptions)) (pair : Encoder × EncoderOptions)
      (fragments : List Fragment)
      (wanted : compiler.wanted config = earlier ++ pair :: later)
      (done : (compiler.fragmentsFor (.ofConfiguration config) earlier store).result =
        .ok fragments)
      (forgotten : ∀ key, compiler.fragmentKey pair.1 pair.2 (.ofConfiguration config) = .ok key →
        (compiler.fragmentsFor (.ofConfiguration config) earlier store).state.remembered key =
          none)
      (fails : compiler.encode pair.1 (.ofConfiguration config) pair.2 = .error cause)
  | assembly (fragments : List Fragment)
      (done : (compiler.fragmentsFor (.ofConfiguration config) (compiler.wanted config)
        store).result = .ok fragments)
      (fails : Script.assemble compiler.context config fragments (.ofConfiguration config) =
        .error cause)

theorem fragment_of_encode {style : Style} {encoder : Encoder} {options : EncoderOptions}
    {key : String} {cause : Failure}
    (keyed : compiler.fragmentKey encoder options style = .ok key)
    (forgotten : store.remembered key = none)
    (fails : compiler.encode encoder style options = .error cause) :
    (compiler.fragment style encoder options store).result = .error cause := by
  have named : (Action.ofExcept (compiler.fragmentKey encoder options style) store).result =
      .ok key := keyed
  have kept : (compiler.cache.memoize key
      (Action.ofExcept (compiler.encode encoder style options)) store).result = .error cause := by
    simp [Cache.memoize, forgotten, fails, Action.ofExcept]
  exact (bind_of_ok named).1.trans (bind_of_error kept).1

theorem fragmentsFor_of_fragment {style : Style} {earlier later : List (Encoder × EncoderOptions)}
    {pair : Encoder × EncoderOptions} {fragments : List Fragment} {cause : Failure}
    (done : (compiler.fragmentsFor style earlier store).result = .ok fragments)
    (fails : (compiler.fragment style pair.1 pair.2
      (compiler.fragmentsFor style earlier store).state).result = .error cause) :
    (compiler.fragmentsFor style (earlier ++ pair :: later) store).result = .error cause := by
  induction earlier generalizing store fragments with
  | nil => exact (bind_of_error fails).1
  | cons first rest ih =>
      cases here : (compiler.fragment style first.1 first.2 store).result with
      | error failure =>
          rw [fragmentsFor, (bind_of_error here).1] at done
          cases done
      | ok fragment =>
          rw [fragmentsFor, (bind_of_ok here).1] at done
          rw [fragmentsFor, (bind_of_ok here).2] at fails
          rw [List.cons_append, fragmentsFor, (bind_of_ok here).1]
          cases there : (compiler.fragmentsFor style rest
              (compiler.fragment style first.1 first.2 store).state).result with
          | error failure =>
              rw [(bind_of_error there).1] at done
              cases done
          | ok others =>
              rw [(bind_of_ok there).2] at fails
              exact (bind_of_error (ih there fails)).1

theorem StepFails.rawScript {cause : Failure} (fails : compiler.StepFails config store cause) :
    (compiler.rawScript config (.ofConfiguration config) store).result = .error cause := by
  cases fails with
  | encoder earlier later pair fragments wanted done forgotten fails =>
      have member : pair ∈ compiler.wanted config := by simp [wanted]
      obtain ⟨key, keyed⟩ := exists_fragmentKey member
      have fragment := fragment_of_encode keyed (forgotten key keyed) fails
      rw [Compiler.rawScript, wanted]
      exact (bind_of_error (fragmentsFor_of_fragment done fragment)).1
  | assembly fragments done fails => exact (bind_of_ok done).1.trans fails

theorem StepFails.compile {cause : Failure} (fails : compiler.StepFails config store cause) :
    (compiler.compile config store).result = .error cause.asGeneration := by
  have raw : (Action.mapFailure Failure.asGeneration
      (compiler.rawScript config (.ofConfiguration config)) store).result =
        .error cause.asGeneration :=
    congrArg (Except.mapError Failure.asGeneration) fails.rawScript
  exact (bind_of_error raw).1

end Compiling

/-! Generating. -/

section Generating

variable {compiler : Compiler} {config : Configuration} {bench : Workbench}

/-- Generating gets to the disk: for a place of the shelf that has no text, or for an entry that
memory does not have. -/
inductive AsksDisk (compiler : Compiler) (config : Configuration) (bench : Workbench) : Prop
  | vacant (name : String) (place : bench.shelf.match? config = some name)
      (empty : bench.shelf.text? name = none)
  | outside (outside : bench.shelf.match? config = none)
      (forgotten : ∀ key, compiler.scriptKey config = .ok key → bench.store.remembered key = none)

structure NothingReady (compiler : Compiler) (config : Configuration) (bench : Workbench) :
    Prop where
  shelf : (compiler.lookup config bench).result = .ok none
  tiers : ∀ key, compiler.scriptKey config = .ok key →
    ∃ file, (⟨key, none, none, none⟩ : Lookup).Due compiler.cache bench.store file

theorem state_lookup_of_none (nothing : (compiler.lookup config bench).result = .ok none) :
    (compiler.lookup config bench).state = bench := by
  rcases lookup_cases compiler config bench with ⟨still, -⟩ | ⟨name, text, -, put⟩
  · exact still
  · rw [put] at nothing
    cases nothing

theorem readable_of_speakable (said : compiler.cache.directory.Speakable)
    (whole : ∀ key, compiler.scriptKey config = .ok key →
      ¬ compiler.cache.Garbled bench.store key) :
    ∀ key, compiler.scriptKey config = .ok key → compiler.cache.Readable key bench.store :=
  fun key keyed => readable_iff.mpr ⟨(speakable_path_iff keyed).mpr said, whole key keyed⟩

theorem exists_lookup (readable : ∀ key, compiler.scriptKey config = .ok key →
    compiler.cache.Readable key bench.store) :
    ∃ found, (compiler.lookup config bench).result = .ok found := by
  by_cases vacant : ∃ name, bench.shelf.match? config = some name ∧ bench.shelf.text? name = none
  · obtain ⟨key, keyed⟩ := compiler.exists_scriptKey config
    obtain ⟨file, read⟩ := (readable key keyed).exists_readEntry none
    exact ⟨compiler.shelfText bench.store file, by
      simp only [result_lookup_of_vacant vacant, keyed, read, bind, Except.bind]; rfl⟩
  · exact result_lookup_of_ready compiler vacant

theorem generate_of_get {key : String}
    (nothing : (compiler.lookup config bench).result = .ok none)
    (keyed : compiler.scriptKey config = .ok key) :
    let stored := compiler.cache.get key (some (compiler.refresh config)) none none bench.store
    (∀ failure, stored.result = .error failure →
      (compiler.generate config bench).result = .error failure ∧
        (compiler.generate config bench).state = { bench with store := stored.state }) ∧
    ∀ kept, stored.result = .ok kept →
      ∃ found, (compiler.generate config bench).result = .ok found := by
  have named : (Action.ofExcept (compiler.scriptKey config) bench).result = .ok key := keyed
  constructor
  · intro failure failed
    have stored : (Workbench.onStore (compiler.cache.get key (some (compiler.refresh config)) none
        none) bench).result = .error failure := failed
    constructor
    · rw [generate, (bind_of_ok nothing).1, state_lookup_of_none nothing]
      exact (bind_of_ok named).1.trans (bind_of_error stored).1
    · rw [generate, (bind_of_ok nothing).2, state_lookup_of_none nothing]
      exact (bind_of_ok named).2.trans (bind_of_error stored).2
  · intro kept done
    have stored : (Workbench.onStore (compiler.cache.get key (some (compiler.refresh config)) none
        none) bench).result = .ok kept := done
    rw [generate, (bind_of_ok nothing).1, state_lookup_of_none nothing]
    match kept with
    | none => exact ⟨none, (bind_of_ok named).1.trans (bind_of_ok stored).1⟩
    | some (.object _) => exact ⟨none, (bind_of_ok named).1.trans (bind_of_ok stored).1⟩
    | some (.text text) => exact ⟨some text, (bind_of_ok named).1.trans (bind_of_ok stored).1⟩

theorem get_of_due_compile {key : String} {file : Option (Entry Fragment)}
    (keyed : compiler.scriptKey config = .ok key)
    (readable : compiler.cache.Readable key bench.store)
    (due : (⟨key, none, none, none⟩ : Lookup).Due compiler.cache bench.store file) :
    let stored := compiler.cache.get key (some (compiler.refresh config)) none none bench.store
    let compiled := compiler.compile config bench.store
    (∀ failure, compiled.result = .error failure →
      stored.result = .error failure ∧ stored.state = compiled.state) ∧
    ∀ script, compiled.result = .ok script → ∃ kept, stored.result = .ok kept := by
  intro stored compiled
  have shape : stored = _ := get_of_due due (compiler.refresh config)
  obtain ⟨-, only⟩ := compiler.untouched_compile config bench.store (.refl _)
  constructor
  · intro failure failed
    obtain ⟨reason, rfl⟩ := only failure failed
    have refreshed : (compiler.refresh config bench.store).result = .error (.generation reason) :=
      (bind_of_error failed).1
    rw [shape]
    simp only [Cache.refreshed, refreshed]
    exact ⟨trivial, (bind_of_error failed).2⟩
  · intro script done
    have refreshed : (compiler.refresh config bench.store).result = .ok script.text :=
      (bind_of_ok done).1
    obtain ⟨entry, set⟩ := exists_set (isFileName_of_key keyed) (readable_iff.mp readable).1
      script.text (some compiler.cache.ttl) (compiler.refresh config bench.store).state
    rw [shape]
    simp only [Cache.refreshed, refreshed, set]
    exact ⟨_, rfl⟩

theorem generate_cases (readable : ∀ key, compiler.scriptKey config = .ok key →
    compiler.cache.Readable key bench.store) :
    (¬ compiler.NothingReady config bench ∧
      ∃ found, (compiler.generate config bench).result = .ok found) ∨
    compiler.NothingReady config bench ∧
      ((∃ script found, (compiler.compile config bench.store).result = .ok script ∧
        (compiler.generate config bench).result = .ok found) ∨
      ∃ failure, (compiler.compile config bench.store).result = .error failure ∧
        (compiler.generate config bench).result = .error failure ∧
        (compiler.generate config bench).state =
          { bench with store := (compiler.compile config bench.store).state }) := by
  obtain ⟨key, keyed⟩ := compiler.exists_scriptKey config
  obtain ⟨found, looked⟩ := exists_lookup readable
  cases found with
  | some text =>
      refine .inl ⟨fun nothing => ?_, some text, (bind_of_ok looked).1⟩
      cases looked.symm.trans nothing.shelf
  | none =>
      obtain ⟨fails, serves⟩ := generate_of_get looked keyed
      by_cases due : ∃ file, (⟨key, none, none, none⟩ : Lookup).Due compiler.cache bench.store file
      · have nothing : compiler.NothingReady config bench := by
          refine ⟨looked, fun other made => ?_⟩
          obtain rfl := Except.ok.inj (keyed.symm.trans made)
          exact due
        obtain ⟨file, due⟩ := due
        obtain ⟨broken, whole⟩ := get_of_due_compile keyed (readable key keyed) due
        refine .inr ⟨nothing, ?_⟩
        cases compiled : (compiler.compile config bench.store).result with
        | ok script =>
            obtain ⟨kept, stored⟩ := whole script compiled
            obtain ⟨found, done⟩ := serves kept stored
            exact .inl ⟨script, found, rfl, done⟩
        | error failure =>
            obtain ⟨stored, state⟩ := broken failure compiled
            obtain ⟨failed, left⟩ := fails failure stored
            exact .inr ⟨failure, rfl, failed, by rw [left, state]⟩
      · obtain ⟨kept, stored⟩ := exists_get_of_not_due (readable key keyed) due
          (some (compiler.refresh config))
        exact .inl ⟨fun nothing => due (nothing.tiers key keyed), serves kept stored⟩

/-- With a directory that cannot be said to a disk, generating serves what is at hand and fails
otherwise, and it leaves the bench as it is. -/
theorem generate_of_not_speakable (unsaid : ¬ compiler.cache.directory.Speakable)
    (config : Configuration) (bench : Workbench) :
    (compiler.AsksDisk config bench ∧
        (compiler.generate config bench).result = .error DiskFault.invalidName.failure ∧
        (compiler.generate config bench).state = bench) ∨
      ¬ compiler.AsksDisk config bench ∧
        ∃ found, (compiler.generate config bench).result = .ok found := by
  obtain ⟨key, keyed⟩ := compiler.exists_scriptKey config
  have unread (ttl : Option Seconds) : compiler.cache.readEntry key ttl bench.store =
      .error DiskFault.invalidName.failure :=
    readEntry_of_not_speakable (fun said => unsaid ((speakable_path_iff keyed).mp said)) ttl
  cases place : bench.shelf.match? config with
  | some name =>
      cases held : bench.shelf.text? name with
      | some text =>
          have looked : (compiler.lookup config bench).result = .ok (some text) :=
            congrArg Run.result (lookup_of_held place held)
          refine .inr ⟨?_, some text, (bind_of_ok looked).1⟩
          rintro (⟨other, same, empty⟩ | ⟨outside, -⟩)
          · obtain rfl := Option.some.inj (place.symm.trans same)
            cases held.symm.trans empty
          · cases place.symm.trans outside
      | none =>
          have looked : compiler.lookup config bench =
              ⟨.error DiskFault.invalidName.failure, bench, []⟩ := by
            rw [lookup_of_vacant place held keyed, unread]
          have failed := congrArg Run.result looked
          refine .inl ⟨.vacant name place held, (bind_of_error failed).1, ?_⟩
          exact (bind_of_error failed).2.trans (congrArg Run.state looked)
  | none =>
      have nothing : (compiler.lookup config bench).result = .ok none :=
        congrArg Run.result (lookup_of_outside place)
      obtain ⟨fails, serves⟩ := generate_of_get nothing keyed
      cases held : bench.store.remembered key with
      | some entry =>
          refine .inr ⟨?_, serves (some entry.value) (by simp only [Cache.get, held])⟩
          rintro (⟨name, same, -⟩ | ⟨-, forgotten⟩)
          · cases place.symm.trans same
          · cases held.symm.trans (forgotten key keyed)
      | none =>
          have missed : compiler.cache.get key (some (compiler.refresh config)) none none
              bench.store = ⟨.error DiskFault.invalidName.failure, bench.store, []⟩ := by
            simp only [Cache.get, held, unread]
          obtain ⟨failed, left⟩ := fails _ (congrArg Run.result missed)
          refine .inl ⟨.outside place fun other made => ?_, failed, by rw [left, missed]⟩
          obtain rfl := Except.ok.inj (keyed.symm.trans made)
          exact held

end Generating

/-- How compiling and generating fail, whatever encoders and templates do. -/
structure FailsCleanly (compiler : Compiler) (config : Configuration) (bench : Workbench) :
    Prop where
  /-- A step that fails makes compiling fail, and what it says becomes the reason. -/
  compiled : ∀ cause, compiler.StepFails config bench.store cause →
    (compiler.compile config bench.store).result = .error cause.asGeneration
  /-- Generating fails just if nothing is ready and compiling fails, or over a directory that
  cannot be said to a disk. -/
  generated : ∀ failure, (compiler.generate config bench).result = .error failure ↔
    compiler.cache.directory.Speakable ∧ compiler.NothingReady config bench ∧
        (compiler.compile config bench.store).result = .error failure ∨
      ¬ compiler.cache.directory.Speakable ∧ compiler.AsksDisk config bench ∧
        failure = DiskFault.invalidName.failure
  only : OnlyGeneration (compiler.compile config bench.store).result ∧
    (compiler.cache.directory.Speakable → OnlyGeneration (compiler.generate config bench).result)
  /-- Compiling by itself keeps no script. -/
  store : Untouched bench.store (compiler.compile config bench.store).state
  bench : ∀ failure, (compiler.generate config bench).result = .error failure →
    (compiler.generate config bench).state.shelf = bench.shelf ∧
      Untouched bench.store (compiler.generate config bench).state.store
  /-- What memory may get is not for the key of the script. -/
  script : ∀ key, compiler.scriptKey config = .ok key → Fingerprint.domainOf key ≠ "fragment"

theorem generate_fails_iff {compiler : Compiler} {config : Configuration} {bench : Workbench}
    (whole : ∀ key, compiler.scriptKey config = .ok key →
      ¬ compiler.cache.Garbled bench.store key) (failure : Failure) :
    (compiler.generate config bench).result = .error failure ↔
      compiler.cache.directory.Speakable ∧ compiler.NothingReady config bench ∧
          (compiler.compile config bench.store).result = .error failure ∨
        ¬ compiler.cache.directory.Speakable ∧ compiler.AsksDisk config bench ∧
          failure = DiskFault.invalidName.failure := by
  by_cases said : compiler.cache.directory.Speakable
  · simp only [said, true_and, not_true, false_and, or_false]
    rcases generate_cases (readable_of_speakable said whole) with
      ⟨ready, found, done⟩ | ⟨nothing, ⟨script, found, made, done⟩ | ⟨other, broken, same, -⟩⟩
    · simp [ready, done]
    · simp [made, done]
    · simp [nothing, broken, same]
  · simp only [said, false_and, false_or, not_false_eq_true, true_and]
    rcases generate_of_not_speakable said config bench with
      ⟨asks, failed, -⟩ | ⟨ready, found, done⟩
    · simp [asks, failed, eq_comm]
    · simp [ready, done]

theorem untouched_generate {compiler : Compiler} {config : Configuration} {bench : Workbench}
    (whole : ∀ key, compiler.scriptKey config = .ok key →
      ¬ compiler.cache.Garbled bench.store key) {failure : Failure}
    (failed : (compiler.generate config bench).result = .error failure) :
    (compiler.generate config bench).state.shelf = bench.shelf ∧
      Untouched bench.store (compiler.generate config bench).state.store := by
  by_cases said : compiler.cache.directory.Speakable
  · rcases generate_cases (readable_of_speakable said whole) with
      ⟨-, found, done⟩ | ⟨-, ⟨script, found, -, done⟩ | ⟨other, -, -, left⟩⟩
    · cases done.symm.trans failed
    · cases done.symm.trans failed
    · rw [left]
      exact ⟨rfl, (compiler.untouched_compile config bench.store (.refl _)).1⟩
  · rcases generate_of_not_speakable said config bench with ⟨-, -, left⟩ | ⟨-, found, done⟩
    · rw [left]
      exact ⟨rfl, .refl _⟩
    · cases done.symm.trans failed

/-- A compiler whose encoders all fail as a refresh does, which a cache would take for a reason to
serve what is stale. -/
def refusingCompiler : Compiler :=
  { compilerIn "/srv/slc" with encode := fun _ _ _ => .error (.refresh "usage" "no answer") }

theorem fileless_emptyStore (cache : Cache) (key : String) : cache.Fileless emptyStore key := by
  intro content modified executable found
  obtain ⟨location, -, there⟩ := Disk.located_of_stat found
  simp [emptyStore, Disk.empty, Disk.at?] at there

theorem not_garbled_emptyStore (cache : Cache) (key : String) :
    ¬ cache.Garbled emptyStore key := by
  rintro ⟨content, modified, executable, found, -⟩
  exact fileless_emptyStore cache key content modified executable found

theorem refuses (compiler : Compiler)
    (refusing : compiler.encode = refusingCompiler.encode) :
    compiler.StepFails .standard emptyStore (.refresh "usage" "no answer") :=
  .encoder [] _ (.directory, .directory) [] rfl rfl (fun _ _ => rfl)
    (congrFun (congrFun (congrFun refusing _) _) _)

/-- The same in a directory with a zero character in its name. -/
def unsaidCompiler : Compiler :=
  { compilerIn "a\x00b" with encode := refusingCompiler.encode }

end Compiler

end StatusLine

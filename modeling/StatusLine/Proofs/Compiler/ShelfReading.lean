import StatusLine.Compiler.Generation
import StatusLine.Proofs.Fingerprint.Failing
import StatusLine.Proofs.Fingerprint.Keyable
import StatusLine.Proofs.Store.Degradation

/-!
Looking a configuration up on the shelf, over a disk that may fail. The file is asked for only where
the shelf has an empty place for the configuration and there is a key for it; then the bytes of the
file alone can make the lookup fail over files.
-/

namespace StatusLine.Compiler

open StatusLine.Cache

/-- The shelf has a place for a configuration and nothing there, so the file of its key is read. -/
structure AsksFile (compiler : Compiler) (config : Configuration) (bench : Workbench)
    (key : String) : Prop where
  vacant : ∃ name, bench.shelf.match? config = some name ∧ bench.shelf.text? name = none
  keyed : compiler.scriptKey config = .ok key

section Lookups

variable {compiler : Compiler} {config : Configuration} {bench : Workbench} {name key : String}
  {text : List Char}

theorem lookup_of_outside (outside : bench.shelf.match? config = none) :
    compiler.lookup config bench = ⟨.ok none, bench, []⟩ := by
  simp only [lookup, bind, Action.andThen, Action.state, outside]
  rfl

theorem lookup_of_held (place : bench.shelf.match? config = some name)
    (held : bench.shelf.text? name = some text) :
    compiler.lookup config bench = ⟨.ok (some text), bench, []⟩ := by
  simp only [lookup, bind, Action.andThen, Action.state, place, held]
  rfl

theorem lookup_of_vacant (place : bench.shelf.match? config = some name)
    (vacant : bench.shelf.text? name = none) (keyed : compiler.scriptKey config = .ok key) :
    compiler.lookup config bench =
      match compiler.cache.readEntry key none bench.store with
      | .error failure => ⟨.error failure, bench, []⟩
      | .ok entry =>
          match compiler.shelfText bench.store entry with
          | none => ⟨.ok none, bench, []⟩
          | some text =>
              ⟨.ok (some text), { bench with shelf := bench.shelf.put name text }, []⟩ := by
  simp only [lookup, bind, Action.andThen, Action.state, place, vacant, Action.ofExcept, keyed]
  cases compiler.cache.readEntry key none bench.store with
  | error failure => rfl
  | ok entry =>
      simp only
      cases compiler.shelfText bench.store entry <;> rfl

/-- A lookup leaves all as it is, and then it serves only what the shelf has; or it puts what it
serves on the shelf. -/
theorem lookup_cases (compiler : Compiler) (config : Configuration) (bench : Workbench) :
    ((compiler.lookup config bench).state = bench ∧
      ∀ text, (compiler.lookup config bench).result = .ok (some text) →
        ∃ name, bench.shelf.match? config = some name ∧ bench.shelf.text? name = some text) ∨
    ∃ name text, bench.shelf.match? config = some name ∧
      compiler.lookup config bench =
        ⟨.ok (some text), { bench with shelf := bench.shelf.put name text }, []⟩ := by
  cases place : bench.shelf.match? config with
  | none =>
      rw [lookup_of_outside place]
      exact .inl ⟨rfl, fun text served => by cases served⟩
  | some name =>
      cases there : bench.shelf.text? name with
      | some held =>
          rw [lookup_of_held place there]
          exact .inl ⟨rfl, fun text served => by cases served; exact ⟨name, rfl, there⟩⟩
      | none =>
          obtain ⟨key, keyed⟩ := compiler.exists_scriptKey config
          rw [lookup_of_vacant place there keyed]
          cases compiler.cache.readEntry key none bench.store with
          | error failure => exact .inl ⟨rfl, fun text served => by cases served⟩
          | ok entry =>
              cases young : compiler.shelfText bench.store entry with
              | none => exact .inl ⟨by simp [young], by simp [young]⟩
              | some text => exact .inr ⟨name, text, rfl, by simp [young]⟩

theorem not_isOfFiles_of_scriptKey {failure : Failure}
    (failed : compiler.scriptKey config = .error failure) : ¬ failure.IsOfFiles := by
  obtain ⟨kind, rfl⟩ := Fingerprint.isUnencodable_of_key (by decide) failed
  have noSystem : Failure.isSystemKind "TypeError" = false := by decide
  rintro (system | text)
  · cases noSystem.symm.trans system
  · exact absurd text (by simp [Failure.kind])

theorem result_lookup_of_ready (compiler : Compiler)
    (ready : ¬ ∃ name, bench.shelf.match? config = some name ∧ bench.shelf.text? name = none) :
    ∃ found, (compiler.lookup config bench).result = .ok found := by
  cases place : bench.shelf.match? config with
  | none => exact ⟨none, congrArg Run.result (lookup_of_outside place)⟩
  | some name =>
      cases there : bench.shelf.text? name with
      | none => exact absurd ⟨name, place, there⟩ ready
      | some text => exact ⟨some text, congrArg Run.result (lookup_of_held place there)⟩

theorem result_lookup_of_vacant
    (vacant : ∃ name, bench.shelf.match? config = some name ∧ bench.shelf.text? name = none) :
    (compiler.lookup config bench).result = do
      let key ← compiler.scriptKey config
      let entry ← compiler.cache.readEntry key none bench.store
      return compiler.shelfText bench.store entry := by
  obtain ⟨name, place, empty⟩ := vacant
  obtain ⟨key, keyed⟩ := compiler.exists_scriptKey config
  rw [lookup_of_vacant place empty keyed, keyed]
  simp only [bind, Except.bind]
  cases compiler.cache.readEntry key none bench.store with
  | error failure => rfl
  | ok entry =>
      simp only
      cases compiler.shelfText bench.store entry <;> rfl

theorem lookup_fails_iff :
    (∃ failure, (compiler.lookup config bench).result = .error failure ∧ failure.IsOfFiles) ↔
      ∃ key, compiler.AsksFile config bench key ∧ compiler.cache.Garbled bench.store key := by
  constructor
  · rintro ⟨failure, failed, ofFiles⟩
    by_cases vacant : ∃ name, bench.shelf.match? config = some name ∧ bench.shelf.text? name = none
    · rw [result_lookup_of_vacant vacant] at failed
      cases keyed : compiler.scriptKey config with
      | error other =>
          rw [keyed] at failed
          obtain rfl := Except.error.inj failed
          exact absurd ofFiles (not_isOfFiles_of_scriptKey keyed)
      | ok key =>
          rw [keyed] at failed
          refine ⟨key, ⟨vacant, keyed⟩, ?_⟩
          cases read : compiler.cache.readEntry key none bench.store with
          | ok entry => simp [read, bind, Except.bind, pure, Except.pure] at failed
          | error other =>
              simp only [read, bind, Except.bind, Except.error.injEq] at failed
              subst failed
              rcases garbled_of_readEntry read with ⟨-, rfl⟩ | ⟨garbled, -⟩
              · exact absurd ofFiles not_isOfFiles_invalidName
              · exact garbled
    · obtain ⟨found, done⟩ := result_lookup_of_ready compiler vacant
      cases done.symm.trans failed
  · rintro ⟨key, ⟨vacant, keyed⟩, garbled⟩
    refine ⟨.other "UnicodeDecodeError" "", ?_, .inr rfl⟩
    rw [result_lookup_of_vacant vacant, keyed]
    simp [readEntry_of_garbled garbled, bind, Except.bind]

end Lookups

/-- Failures of files in any cache and on the way to a script are misses, except for those that
`Degrades` names and for a file that is no text. -/
theorem files_degrade {α : Type} (cache : Cache) (key : String) (store : Store α)
    (compiler : Compiler) (config : Configuration) (bench : Workbench) :
    cache.Degrades key store ∧
      ((∃ failure, (compiler.lookup config bench).result = .error failure ∧ failure.IsOfFiles) ↔
        ∃ scriptKey, compiler.AsksFile config bench scriptKey ∧
          compiler.cache.Garbled bench.store scriptKey) :=
  ⟨degrades cache key store, lookup_fails_iff⟩

/-- A disk with a byte that starts no character in the file of a key. -/
def garbledStore : Store Unit :=
  ⟨[], ⟨[(["blocker".toList], .directory),
    (["blocker".toList, "usage-abc".toList], .file [0xff] 0.0 false)], [], []⟩, 0.0⟩

/-- Removing a key from a directory that is a file, and looking up one whose file is no text, are
failures over files. -/
theorem files_fail_openly :
    (∃ failure, (blockedCache.invalidate "usage-abc" blockedStore).result = .error failure ∧
        failure.IsOfFiles) ∧
      ∃ failure, (blockedCache.get "usage-abc" none none none garbledStore).result =
          .error failure ∧ failure.IsOfFiles := by
  constructor
  · have blocked : blockedStore.disk.stat (blockedCache.path "usage-abc") =
        .error .notADirectory := rfl
    obtain ⟨failed, -⟩ := invalidate_of_fault blocked (by decide)
    exact ⟨_, failed, isOfFiles_failure (by decide)⟩
  · have garbled : blockedCache.Garbled garbledStore "usage-abc" :=
      ⟨[0xff], 0.0, false, rfl, by decide⟩
    let asked : Lookup := ⟨"usage-abc", none, none, none⟩
    have failed : asked.run blockedCache garbledStore =
        ⟨.error (.other "UnicodeDecodeError" ""), garbledStore, []⟩ :=
      run_of_unreadable rfl (readEntry_of_garbled garbled _)
    exact ⟨.other "UnicodeDecodeError" "", congrArg Run.result failed, .inr rfl⟩

end StatusLine.Compiler

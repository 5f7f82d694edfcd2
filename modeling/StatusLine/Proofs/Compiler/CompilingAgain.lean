import StatusLine.Compiler.Compilation
import StatusLine.Proofs.Action
import StatusLine.Proofs.Compiler.FailingSteps

/-!
Compiling again. The fragments that a script needed stay in memory, and scripts that are kept do not
touch them; so what was compiled once comes out the same ever after, and what failed fails again.
-/

namespace StatusLine

/-! Fragments that stay in memory. -/

def Retains (before after : Store Fragment) : Prop :=
  ∀ key entry, Fingerprint.domainOf key = "fragment" → before.remembered key = some entry →
    after.remembered key = some entry

theorem Retains.refl (store : Store Fragment) : Retains store store :=
  fun _ _ _ held => held

theorem Retains.trans {before between after : Store Fragment} (first : Retains before between)
    (second : Retains between after) : Retains before after :=
  fun key entry known held => second key entry known (first key entry known held)

theorem retains_set {cache : Cache} {domain key : String} {fields : Datum}
    (made : Fingerprint.key domain fields = .ok key) (apart : domain ≠ "fragment")
    (value : List Char) (ttl : Option Seconds) (store : Store Fragment) :
    Retains store (cache.set key value ttl store).state := by
  intro other entry known held
  have different : other ≠ key := by
    rintro rfl
    exact apart ((Fingerprint.domainOf_of_key made).symm.trans known)
  rw [Cache.remembered_set_of_ne value ttl different]
  exact held

/-! Actions that can be done again. -/

/-- An action that only adds fragments to memory, so that it has the same result when it is done
again: on any store that retains what it left if it gave a value, else on the store that it left. -/
structure Repeats {α : Type} (action : Action (Store Fragment) α) : Prop where
  retains : ∀ store, Retains store (action store).state
  gives : ∀ store value, (action store).result = .ok value →
    ∀ later, Retains (action store).state later →
      (action later).result = .ok value ∧ (action later).state = later
  fails : ∀ store failure, (action store).result = .error failure →
    (action (action store).state).result = .error failure

namespace Repeats

open StatusLine.Action

variable {α β : Type} {action : Action (Store Fragment) α}

theorem of_still (result : Except Failure α) (given : ∀ store, (action store).result = result)
    (still : ∀ store, (action store).state = store) : Repeats action where
  retains store := by
    rw [still]
    exact .refl store
  gives store value done later _ :=
    ⟨(given later).trans ((given store).symm.trans done), still later⟩
  fails store failure failed := by rw [given, ← given store, failed]

protected theorem pure (value : α) : Repeats (pure value) :=
  of_still _ (fun _ => rfl) fun _ => rfl

protected theorem ofExcept (result : Except Failure α) : Repeats (ofExcept result) :=
  of_still _ (fun _ => rfl) fun _ => rfl

protected theorem fail (failure : Failure) : Repeats (Action.fail failure : Action _ α) :=
  of_still _ (fun _ => rfl) fun _ => rfl

protected theorem mapFailure (repeats : Repeats action) (change : Failure → Failure) :
    Repeats (mapFailure change action) where
  retains := repeats.retains
  gives store value done later retains := by
    cases first : (action store).result with
    | error failure =>
        simp only [mapFailure, first] at done
        cases done
    | ok given =>
        obtain ⟨again, still⟩ := repeats.gives store given first later retains
        simp only [mapFailure, first] at done
        obtain rfl := Except.ok.inj done
        refine ⟨?_, still⟩
        simp only [mapFailure, again]
        rfl
  fails store failure failed := by
    cases first : (action store).result with
    | ok given =>
        simp only [mapFailure, first] at failed
        cases failed
    | error cause =>
        have again := repeats.fails store cause first
        simp only [mapFailure, first] at failed
        obtain rfl := Except.error.inj failed
        simp only [mapFailure, again]
        rfl

protected theorem bind {next : α → Action (Store Fragment) β} (first : Repeats action)
    (later : ∀ store value, (action store).result = .ok value → Repeats (next value)) :
    Repeats (action >>= next) where
  retains store := by
    cases done : (action store).result with
    | error failure =>
        rw [(bind_of_error done).2]
        exact first.retains store
    | ok value =>
        rw [(bind_of_ok done).2]
        exact (first.retains store).trans ((later store value done).retains _)
  gives store value given other retained := by
    cases done : (action store).result with
    | error failure =>
        rw [(bind_of_error done).1] at given
        cases given
    | ok middle =>
        rw [(bind_of_ok done).1] at given
        rw [(bind_of_ok done).2] at retained
        have second := later store middle done
        obtain ⟨again, still⟩ :=
          first.gives store middle done other ((second.retains _).trans retained)
        rw [(bind_of_ok again).1, (bind_of_ok again).2, still]
        exact second.gives _ value given other retained
  fails store failure failed := by
    cases done : (action store).result with
    | error cause =>
        rw [(bind_of_error done).1] at failed
        rw [(bind_of_error done).2, (bind_of_error (first.fails store cause done)).1]
        exact failed
    | ok middle =>
        rw [(bind_of_ok done).1] at failed
        rw [(bind_of_ok done).2]
        have second := later store middle done
        obtain ⟨again, still⟩ := first.gives store middle done _ (second.retains _)
        rw [(bind_of_ok again).1, still]
        exact second.fails _ failure failed

theorem memoize {cache : Cache} {key : String} (known : Fingerprint.domainOf key = "fragment")
    (made : Except Failure Fragment) : Repeats (cache.memoize key (ofExcept made)) := by
  constructor
  · intro store other entry _ held
    unfold Cache.memoize
    cases there : store.remembered key with
    | some mine => exact held
    | none =>
        cases made with
        | error failure => exact held
        | ok fragment =>
            have different : other ≠ key := by
              rintro rfl
              cases there.symm.trans held
            exact (store.remembered_remember_of_ne _ other different).trans held
  · intro store value given later retained
    have served : ∀ entry, later.remembered key = some entry → entry.value = value →
        (cache.memoize key (ofExcept made) later).result = .ok value ∧
          (cache.memoize key (ofExcept made) later).state = later := by
      rintro entry held rfl
      simp [Cache.memoize, held]
    cases there : store.remembered key with
    | some entry =>
        simp only [Cache.memoize, there] at given retained
        exact served entry (retained key entry known there) (Except.ok.inj given)
    | none =>
        cases made with
        | error failure => simp [Cache.memoize, there, Action.ofExcept] at given
        | ok fragment =>
            simp only [Cache.memoize, there, Action.ofExcept] at given retained
            have held := store.remembered_remember
              (cache.entry key (.object fragment) store.now none)
            exact served _ (retained key _ known held) (Except.ok.inj given)
  · intro store failure failed
    cases there : store.remembered key with
    | some entry => simp [Cache.memoize, there] at failed
    | none =>
        cases made with
        | ok fragment => simp [Cache.memoize, there, Action.ofExcept] at failed
        | error cause => simpa [Cache.memoize, there, Action.ofExcept] using failed

end Repeats

/-! Compiling. -/

namespace Compiler

variable (compiler : Compiler)

theorem repeats_fragment (style : Style) (encoder : Encoder) (options : EncoderOptions) :
    Repeats (compiler.fragment style encoder options) := by
  refine (Repeats.ofExcept _).bind fun store key keyed => ?_
  have known := Fingerprint.domainOf_of_key (show Fingerprint.key "fragment" _ = .ok key from keyed)
  refine (Repeats.memoize known _).bind fun _ kept _ => ?_
  cases kept with
  | object fragment => exact .pure fragment
  | text text => exact .fail _

theorem repeats_fragmentsFor (style : Style) (pairs : List (Encoder × EncoderOptions)) :
    Repeats (compiler.fragmentsFor style pairs) := by
  induction pairs with
  | nil => exact .pure []
  | cons pair rest ih =>
      refine (compiler.repeats_fragment style pair.1 pair.2).bind fun _ first _ => ?_
      exact ih.bind fun _ others _ => .pure (first :: others)

theorem repeats_finish (raw : List Char) : Repeats (compiler.finish raw) := by
  refine .of_still (.ok (compiler.finished raw)) (fun store => ?_) fun store => ?_
  · unfold finish finished
    cases compiler.optimizes <;> rfl
  · unfold finish
    cases compiler.optimizes <;> rfl

/-- What a compiler compiled once comes out the same on any store that retains its fragments, and
what it could not compile it cannot compile on what that left. -/
theorem repeats_compile (config : Configuration) : Repeats (compiler.compile config) := by
  have raw : Repeats (compiler.rawScript config (.ofConfiguration config)) :=
    (compiler.repeats_fragmentsFor _ _).bind fun _ _ _ => .ofExcept _
  exact (raw.mapFailure _).bind fun _ text _ => compiler.repeats_finish text

end Compiler

end StatusLine

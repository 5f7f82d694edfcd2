import StatusLine.Proofs.Results
import StatusLine.Proofs.Store.Saving
import StatusLine.Store.Cache

/-!
The policy of a cache over whole runs. What memory holds is pinned there until it is replaced; a
stale file serves only where no new value can be had, and it never gets into memory; a refresh is
asked for at most once in a lookup, and what it brings is kept in memory and, as far as the disk
takes it, in the file.
-/

namespace StatusLine.Cache

structure Outcome where
  result : Except Failure (List Char)
  finished : Float

/-- The refresh that ends so. It makes an empty note whenever it is asked; no other step does. -/
def Outcome.refresh {α : Type} (outcome : Outcome) : Refresh α := fun store =>
  ⟨outcome.result, { store with now := outcome.finished }, [""]⟩

/-- How often a refresh was asked. -/
def calls (notes : List String) : Nat :=
  notes.count ""

structure Lookup where
  key : String
  refresh : Option Outcome
  ttl : Option Seconds
  grace : Option Seconds

namespace Lookup

variable {α : Type}

def run (cache : Cache) (lookup : Lookup) : Action (Store α) (Option (Kept α)) :=
  cache.get lookup.key (lookup.refresh.map Outcome.refresh) lookup.ttl lookup.grace

def ttlInForce (cache : Cache) (lookup : Lookup) : Seconds :=
  lookup.ttl.getD cache.ttl

def graceInForce (cache : Cache) (lookup : Lookup) : Seconds :=
  lookup.grace.getD cache.grace

/-- The time when a lookup that needs its refresh has come back from it. -/
def clock (lookup : Lookup) (store : Store α) : Float :=
  match lookup.refresh with
  | none => store.now
  | some outcome => outcome.finished

/-- Neither tier has something to serve at once. -/
structure Due (cache : Cache) (lookup : Lookup) (store : Store α) (file : Option (Entry α)) :
    Prop where
  forgotten : store.remembered lookup.key = none
  read : cache.readEntry lookup.key (some (lookup.ttlInForce cache)) store = .ok file
  old : ∀ entry, file = some entry →
    isWithin (store.age entry) (lookup.ttlInForce cache) = false

def LacksValue (lookup : Lookup) : Prop :=
  lookup.refresh = none ∨
    ∃ source reason finished, lookup.refresh = some ⟨.error (.refresh source reason), finished⟩

end Lookup

/-- What is done with a cache, and to the clock between. -/
inductive Operation (α : Type)
  | set (key : String) (value : List Char) (ttl : Option Seconds)
  | get (lookup : Lookup)
  | memoize (key : String) (made : Except Failure α)
  | invalidate (key : String)
  | wait (clock : Float)

namespace Operation

variable {α : Type}

/-- The store after an operation, whether or not it failed. -/
def after (cache : Cache) (store : Store α) : Operation α → Store α
  | set key value ttl => (cache.set key value ttl store).state
  | get lookup => (lookup.run cache store).state
  | memoize key made => (cache.memoize key (Action.ofExcept made) store).state
  | invalidate key => (cache.invalidate key store).state
  | wait clock => { store with now := clock }

def Replaces (key : String) : Operation α → Prop
  | set other _ _ => other = key
  | invalidate other => other = key
  | get _ | memoize _ _ | wait _ => False

def Concerns (key : String) : Operation α → Prop
  | set other _ _ => other = key
  | get lookup => lookup.key = key
  | memoize other _ => other = key
  | invalidate other => other = key
  | wait _ => False

end Operation

def after {α : Type} (cache : Cache) (store : Store α) (operations : List (Operation α)) :
    Store α :=
  operations.foldl (Operation.after cache) store

section Tiers

variable {α : Type}

def InMemory (store : Store α) (key : String) (value : List Char) : Prop :=
  ∃ entry, store.remembered key = some entry ∧ entry.value = .text value

def InFile (cache : Cache) (store : Store α) (key : String) (value : List Char) : Prop :=
  store.disk.read (cache.path key) = .ok (Fingerprint.utf8 value)

/-- Why the disk does not take the file for a key, if it does not. -/
def refusal (cache : Cache) (store : Store α) (key : String) (value : List Char) (now : Float) :
    Option DiskFault :=
  (store.disk.save cache.directory key (Fingerprint.utf8 value) now).fault

end Tiers

/-- What holds of all lookups at some point of a run, and of what may come after. -/
structure Policy {α : Type} (cache : Cache) (store : Store α) : Prop where
  /-- What memory holds is served at any age and without a refresh, until it is replaced. -/
  pinned : ∀ key entry, store.remembered key = some entry →
    ∀ later : List (Operation α), (∀ operation ∈ later, ¬ operation.Replaces key) →
    ∀ lookup : Lookup, lookup.key = key →
      let run := lookup.run cache (cache.after store later)
      run.result = .ok (some entry.value) ∧ run.state = cache.after store later ∧
        calls run.notes = 0
  /-- A file that is no longer fresh is served only for want of a new value, within the grace. -/
  stale : ∀ (lookup : Lookup) file, lookup.Due cache store (some file) → ∀ kept,
    (lookup.run cache store).result = .ok (some kept) →
      (∃ value finished, lookup.refresh = some ⟨.ok value, finished⟩ ∧ kept = .text value) ∨
      (lookup.LacksValue ∧ kept = file.value ∧
        isWithin (lookup.clock store - file.createdAt) (lookup.graceInForce cache) = true)
  /-- Within the grace it does serve. -/
  rescued : ∀ (lookup : Lookup) file, lookup.Due cache store (some file) → lookup.LacksValue →
    isWithin (lookup.clock store - file.createdAt) (lookup.graceInForce cache) = true →
      (lookup.run cache store).result = .ok (some file.value)
  /-- Want of a new value leaves both tiers as they were; memory stays without the key. -/
  unpinned : ∀ (lookup : Lookup) file, lookup.Due cache store file → lookup.LacksValue →
    let run := lookup.run cache store
    run.state.memory = store.memory ∧ run.state.disk = store.disk ∧
    ∀ later : List (Operation α), (∀ operation ∈ later, ¬ operation.Concerns lookup.key) →
      (cache.after run.state later).remembered lookup.key = none
  /-- The next lookup of the key tries its refresh again, if the file is not fresh by then. -/
  again : ∀ (lookup : Lookup) file, lookup.Due cache store (some file) → lookup.LacksValue →
    ∀ (next : Lookup) clock, next.key = lookup.key → next.refresh.isSome = true →
      isWithin (clock - file.createdAt) (next.ttlInForce cache) = false →
      calls (next.run cache { (lookup.run cache store).state with now := clock }).notes = 1
  /-- A new value is kept in memory, and in the file if the disk takes it. -/
  renewed : ∀ (lookup : Lookup) file value finished, lookup.Due cache store file →
    lookup.refresh = some ⟨.ok value, finished⟩ →
    let run := lookup.run cache store
    InMemory run.state lookup.key value ∧
      (cache.refusal store lookup.key value finished = none →
        cache.InFile run.state lookup.key value) ∧
      (cache.refusal store lookup.key value finished ≠ some .invalidName →
        run.result = .ok (some (.text value)))
  /-- Any other failure of a refresh goes on and leaves both tiers as they were. -/
  propagated : ∀ (lookup : Lookup) file failure finished, lookup.Due cache store file →
    lookup.refresh = some ⟨.error failure, finished⟩ → (∀ source reason, failure ≠ .refresh source reason) →
    let run := lookup.run cache store
    run.result = .error failure ∧ run.state.memory = store.memory ∧ run.state.disk = store.disk
  /-- A lookup asks its refresh at most once. -/
  once : ∀ lookup : Lookup, calls (lookup.run cache store).notes ≤ 1

/-! One lookup: what it does in each case. -/

section Lookups

variable {α : Type} {cache : Cache} {store : Store α} {lookup : Lookup} {file : Option (Entry α)}

theorem run_of_remembered {entry : Entry α} (held : store.remembered lookup.key = some entry) :
    lookup.run cache store =
      ⟨.ok (some entry.value), store, ["Memory hit for " ++ lookup.key]⟩ := by
  simp [Lookup.run, get, held]

theorem run_of_unreadable {failure : Failure} (forgotten : store.remembered lookup.key = none)
    (unreadable : cache.readEntry lookup.key (some (lookup.ttlInForce cache)) store =
      .error failure) :
    lookup.run cache store = ⟨.error failure, store, []⟩ := by
  unfold Lookup.ttlInForce at unreadable
  simp [Lookup.run, get, forgotten, unreadable]

theorem run_of_fresh {entry : Entry α} (forgotten : store.remembered lookup.key = none)
    (read : cache.readEntry lookup.key (some (lookup.ttlInForce cache)) store = .ok (some entry))
    (fresh : isWithin (store.age entry) (lookup.ttlInForce cache) = true) :
    lookup.run cache store =
      ⟨.ok (some entry.value), store.remember entry, ["File hit for " ++ lookup.key]⟩ := by
  unfold Lookup.ttlInForce at read fresh
  simp [Lookup.run, get, forgotten, read, Option.filter, fresh]

theorem run_of_due (due : lookup.Due cache store file) :
    lookup.run cache store =
      match lookup.refresh with
      | none => serveStale file (lookup.graceInForce cache) store
      | some outcome =>
          cache.refreshed lookup.key file outcome.refresh (lookup.ttlInForce cache)
            (lookup.graceInForce cache) store := by
  have read := due.read
  have nothing : (file.filter fun entry =>
      isWithin (store.age entry) (lookup.ttlInForce cache)) = none := by
    cases file with
    | none => rfl
    | some entry => simp [Option.filter, due.old entry rfl]
  unfold Lookup.ttlInForce at read nothing
  unfold Lookup.run get
  simp only [due.forgotten, read, nothing]
  cases lookup.refresh <;> rfl

theorem readEntry_eq_some {key : String} {ttl : Option Seconds} {entry : Entry α}
    (read : cache.readEntry key ttl store = .ok (some entry)) :
    ∃ content modified executable text,
      store.disk.stat (cache.path key) = .ok (.file content modified executable) ∧
      textOfFile content = .ok text ∧ entry = cache.entry key (.text text) modified ttl := by
  unfold readEntry at read
  split at read
  · cases read
  · cases read
  · cases read
  · rename_i content modified executable found
    cases decoded : textOfFile content with
    | error failure => simp [decoded, Except.map] at read
    | ok text =>
        simp only [decoded, Except.map, Except.ok.injEq, Option.some.injEq] at read
        exact ⟨content, modified, executable, text, found, decoded, read.symm⟩

theorem key_of_readEntry {key : String} {ttl : Option Seconds} {entry : Entry α}
    (read : cache.readEntry key ttl store = .ok (some entry)) : entry.key = key := by
  obtain ⟨_, _, _, _, _, _, rfl⟩ := readEntry_eq_some read
  rfl

theorem readEntry_with_ttl {key : String} {ttl : Option Seconds} {entry : Entry α}
    (read : cache.readEntry key ttl store = .ok (some entry)) (other : Seconds) :
    cache.readEntry key (some other) store = .ok (some { entry with ttl := other }) := by
  obtain ⟨content, modified, executable, text, found, decoded, rfl⟩ := readEntry_eq_some read
  simp [readEntry, found, decoded, Except.map, Cache.entry]

theorem lookup_cases (cache : Cache) (lookup : Lookup) (store : Store α) :
    (∃ entry, store.remembered lookup.key = some entry) ∨
    store.remembered lookup.key = none ∧
      ((∃ failure, cache.readEntry lookup.key (some (lookup.ttlInForce cache)) store =
          .error failure) ∨
        (∃ entry, cache.readEntry lookup.key (some (lookup.ttlInForce cache)) store =
          .ok (some entry) ∧
            isWithin (store.age entry) (lookup.ttlInForce cache) = true) ∨
        ∃ file, lookup.Due cache store file) := by
  cases held : store.remembered lookup.key with
  | some entry => exact .inl ⟨entry, rfl⟩
  | none =>
      refine .inr ⟨rfl, ?_⟩
      cases read : cache.readEntry lookup.key (some (lookup.ttlInForce cache)) store with
      | error failure => exact .inl ⟨failure, rfl⟩
      | ok file =>
          right
          cases file with
          | none =>
              exact .inr ⟨none, held, read, fun entry none => by cases none⟩
          | some entry =>
              cases fresh : isWithin (store.age entry) (lookup.ttlInForce cache) with
              | true => exact .inl ⟨entry, rfl, fresh⟩
              | false =>
                  refine .inr ⟨some entry, held, read, ?_⟩
                  intro other same
                  cases same
                  exact fresh

theorem serveStale_state (file : Option (Entry α)) (grace : Seconds) (store : Store α) :
    (serveStale file grace store).state = store := by
  unfold serveStale
  split
  · rfl
  · simp only
    split <;> rfl

theorem serveStale_calls (file : Option (Entry α)) (grace : Seconds) (store : Store α) :
    calls (serveStale file grace store).notes = 0 := by
  unfold serveStale calls
  split
  · rfl
  · simp only
    split
    · simp
    · rfl

theorem serveStale_of_within {entry : Entry α} {grace : Seconds}
    (within : isWithin (store.age entry) grace = true) :
    (serveStale (some entry) grace store).result = .ok (some entry.value) := by
  unfold serveStale
  simp only
  rw [if_pos within]

theorem serveStale_result {grace : Seconds} {kept : Kept α}
    (served : (serveStale file grace store).result = .ok (some kept)) :
    ∃ entry, file = some entry ∧ kept = entry.value ∧
      isWithin (store.now - entry.createdAt) grace = true := by
  unfold serveStale at served
  split at served
  · cases served
  · rename_i entry
    simp only at served
    split at served
    · rename_i within
      cases served
      exact ⟨entry, rfl, rfl, within⟩
    · cases served

theorem run_of_lacksValue (due : lookup.Due cache store file) (lacks : lookup.LacksValue) :
    let served := serveStale file (lookup.graceInForce cache)
      { store with now := lookup.clock store }
    (lookup.run cache store).result = served.result ∧
      (lookup.run cache store).state = { store with now := lookup.clock store } ∧
      calls (lookup.run cache store).notes = (if lookup.refresh.isSome then 1 else 0) := by
  rw [run_of_due due]
  rcases lacks with none | ⟨source, reason, finished, failed⟩
  · simp only [none, Lookup.clock, Option.isSome_none, Bool.false_eq_true, if_false]
    exact ⟨trivial, serveStale_state file _ store, serveStale_calls file _ store⟩
  · have quiet := serveStale_calls file (lookup.graceInForce cache)
      { store with now := finished }
    unfold calls at quiet
    simp only [failed, Lookup.clock, Option.isSome_some, if_true, refreshed, Outcome.refresh]
    refine ⟨trivial, serveStale_state file _ _, ?_⟩
    simp [calls, quiet]

theorem run_of_value {value : List Char} {finished : Float} (due : lookup.Due cache store file)
    (brings : lookup.refresh = some ⟨.ok value, finished⟩) :
    let stored := cache.set lookup.key value (some (lookup.ttlInForce cache))
      { store with now := finished }
    lookup.run cache store =
      ⟨stored.result.map fun _ => some (.text value), stored.state, "" :: stored.notes⟩ := by
  rw [run_of_due due]
  simp [brings, refreshed, Outcome.refresh]

theorem run_of_failure {failure : Failure} {finished : Float} (due : lookup.Due cache store file)
    (fails : lookup.refresh = some ⟨.error failure, finished⟩)
    (otherwise : (∀ source reason, failure ≠ .refresh source reason)) :
    lookup.run cache store = ⟨.error failure, { store with now := finished }, [""]⟩ := by
  rw [run_of_due due]
  cases failure with
  | refresh source reason => exact absurd rfl (otherwise source reason)
  | _ => simp [fails, refreshed, Outcome.refresh]

theorem refresh_cases (lookup : Lookup) :
    lookup.LacksValue ∨
    (∃ value finished, lookup.refresh = some ⟨.ok value, finished⟩) ∨
    ∃ failure finished, lookup.refresh = some ⟨.error failure, finished⟩ ∧
      (∀ source reason, failure ≠ .refresh source reason) := by
  cases given : lookup.refresh with
  | none => exact .inl (.inl given)
  | some outcome =>
      obtain ⟨result, finished⟩ := outcome
      cases result with
      | ok value => exact .inr (.inl ⟨value, finished, rfl⟩)
      | error failure =>
          by_cases lacking : ∃ source reason, failure = .refresh source reason
          · obtain ⟨source, reason, rfl⟩ := lacking
            exact .inl (.inr ⟨source, reason, finished, given⟩)
          · refine .inr (.inr ⟨failure, finished, rfl, ?_⟩)
            intro source reason same
            exact lacking ⟨source, reason, same⟩

end Lookups

/-! What a step leaves of a key in memory. -/

section Steps

variable {α : Type} {cache : Cache} {store : Store α} {key : String}

theorem remembered_forget_of_ne (store : Store α) (key other : String) (different : other ≠ key) :
    (store.forget key).remembered other = store.remembered other := by
  simp only [Store.remembered, Store.forget, List.find?_filter]
  congr 2
  funext item
  by_cases found : item.1 = other <;> simp [found, different]

theorem state_set (cache : Cache) (key : String) (value : List Char) (ttl : Option Seconds)
    (store : Store α) :
    (cache.set key value ttl store).state =
      { store.remember (cache.entry key (.text value) store.now ttl) with
        disk := (store.disk.save cache.directory key (Fingerprint.utf8 value) store.now).disk } := by
  unfold set
  simp only
  split <;> rfl

theorem remembered_set_of_ne (value : List Char) (ttl : Option Seconds) {other : String}
    (different : key ≠ other) :
    (cache.set other value ttl store).state.remembered key = store.remembered key := by
  rw [state_set]
  exact store.remembered_remember_of_ne (cache.entry other (.text value) store.now ttl) key different

theorem remembered_run_of_ne {lookup : Lookup} (different : key ≠ lookup.key) :
    (lookup.run cache store).state.remembered key = store.remembered key := by
  rcases lookup_cases cache lookup store with
    ⟨entry, held⟩ | ⟨forgotten, ⟨failure, bad⟩ | ⟨entry, read, fresh⟩ | ⟨file, due⟩⟩
  · rw [run_of_remembered held]
  · rw [run_of_unreadable forgotten bad]
  · rw [run_of_fresh forgotten read fresh]
    refine store.remembered_remember_of_ne entry key ?_
    rw [key_of_readEntry read]
    exact different
  · rcases refresh_cases lookup with
      lacks | ⟨value, finished, brings⟩ | ⟨failure, finished, fails, other⟩
    · rw [(run_of_lacksValue due lacks).2.1]
      rfl
    · rw [run_of_value due brings]
      exact remembered_set_of_ne value _ different
    · rw [run_of_failure due fails other]
      rfl

theorem remembered_memoize_of_ne {other : String} (made : Except Failure α)
    (different : key ≠ other) :
    (cache.memoize other (Action.ofExcept made) store).state.remembered key =
      store.remembered key := by
  unfold memoize
  cases held : store.remembered other with
  | some entry => rfl
  | none =>
      cases made with
      | error failure => rfl
      | ok value =>
          exact store.remembered_remember_of_ne
            (cache.entry other (.object value) store.now none) key different

theorem memory_invalidate (cache : Cache) (key : String) (store : Store α) :
    (cache.invalidate key store).state.memory = (store.forget key).memory := by
  unfold invalidate
  simp only
  split <;> rfl

theorem remembered_step (operation : Operation α) (apart : ¬ operation.Concerns key) :
    (operation.after cache store).remembered key = store.remembered key := by
  cases operation with
  | set other value ttl => exact remembered_set_of_ne value ttl (Ne.symm apart)
  | get lookup => exact remembered_run_of_ne (Ne.symm apart)
  | memoize other made => exact remembered_memoize_of_ne made (Ne.symm apart)
  | invalidate other =>
      have forgotten := remembered_forget_of_ne store other key (Ne.symm apart)
      simp only [Operation.after, Store.remembered, memory_invalidate] at forgotten ⊢
      exact forgotten
  | wait clock => rfl

theorem held_step {entry : Entry α} (held : store.remembered key = some entry)
    (operation : Operation α) (keeps : ¬ operation.Replaces key) :
    (operation.after cache store).remembered key = some entry := by
  by_cases about : operation.Concerns key
  · cases operation with
    | set other value ttl => exact absurd about keeps
    | invalidate other => exact absurd about keeps
    | wait clock => exact about.elim
    | get lookup =>
        obtain rfl : lookup.key = key := about
        simp only [Operation.after, run_of_remembered held]
        exact held
    | memoize other made =>
        obtain rfl : other = key := about
        simp only [Operation.after, memoize, held]
  · rw [remembered_step operation about]
    exact held

theorem remembered_after (later : List (Operation α)) (store : Store α)
    (apart : ∀ operation ∈ later, ¬ operation.Concerns key) :
    (cache.after store later).remembered key = store.remembered key := by
  induction later generalizing store with
  | nil => rfl
  | cons operation rest ih =>
      have here := apart operation List.mem_cons_self
      have there : ∀ other ∈ rest, ¬ other.Concerns key :=
        fun other member => apart other (List.mem_cons_of_mem operation member)
      exact (ih (operation.after cache store) there).trans (remembered_step operation here)

theorem held_after {entry : Entry α} (later : List (Operation α)) (store : Store α)
    (held : store.remembered key = some entry)
    (keeps : ∀ operation ∈ later, ¬ operation.Replaces key) :
    (cache.after store later).remembered key = some entry := by
  induction later generalizing store with
  | nil => exact held
  | cons operation rest ih =>
      have here := keeps operation List.mem_cons_self
      have there : ∀ other ∈ rest, ¬ other.Replaces key :=
        fun other member => keeps other (List.mem_cons_of_mem operation member)
      exact ih (operation.after cache store) (held_step held operation here) there

end Steps

/-! The policy. -/

section Policies

variable {α : Type} {cache : Cache} {store : Store α} {lookup : Lookup} {file : Option (Entry α)}

theorem calls_set (cache : Cache) (key : String) (value : List Char) (ttl : Option Seconds)
    (store : Store α) : calls (cache.set key value ttl store).notes = 0 := by
  unfold set
  simp only
  split <;> rfl

theorem calls_of_due (due : lookup.Due cache store file) :
    calls (lookup.run cache store).notes = if lookup.refresh.isSome then 1 else 0 := by
  rcases refresh_cases lookup with
    lacks | ⟨value, finished, brings⟩ | ⟨failure, finished, fails, other⟩
  · exact (run_of_lacksValue due lacks).2.2
  · have quiet := calls_set cache lookup.key value (some (lookup.ttlInForce cache))
      { store with now := finished }
    rw [run_of_value due brings, brings]
    simp only [calls, List.count_cons_self, Option.isSome_some, if_true] at quiet ⊢
    omega
  · rw [run_of_failure due fails other, fails]
    rfl

theorem calls_le_one (cache : Cache) (lookup : Lookup) (store : Store α) :
    calls (lookup.run cache store).notes ≤ 1 := by
  rcases lookup_cases cache lookup store with
    ⟨entry, held⟩ | ⟨forgotten, ⟨failure, bad⟩ | ⟨entry, read, fresh⟩ | ⟨file, due⟩⟩
  · rw [run_of_remembered held]
    simp [calls]
  · rw [run_of_unreadable forgotten bad]
    simp [calls]
  · rw [run_of_fresh forgotten read fresh]
    simp [calls]
  · rw [calls_of_due due]
    split <;> omega

theorem due_again {entry : Entry α} (due : lookup.Due cache store (some entry))
    (lacks : lookup.LacksValue) {next : Lookup} (same : next.key = lookup.key) {clock : Float}
    (old : isWithin (clock - entry.createdAt) (next.ttlInForce cache) = false) :
    next.Due cache { (lookup.run cache store).state with now := clock }
      (some { entry with ttl := next.ttlInForce cache }) := by
  rw [(run_of_lacksValue due lacks).2.1]
  refine ⟨?_, ?_, ?_⟩
  · rw [same]
    exact due.forgotten
  · rw [same]
    exact readEntry_with_ttl due.read _
  · intro other found
    cases found
    exact old

theorem inMemory_of_set {key : String} {value : List Char} {ttl : Option Seconds} :
    InMemory (cache.set key value ttl store).state key value := by
  rw [state_set]
  exact ⟨_, Store.remembered_remember _ _, rfl⟩

theorem inFile_of_set {key : String} {value : List Char} {ttl : Option Seconds}
    (taken : cache.refusal store key value store.now = none) :
    cache.InFile (cache.set key value ttl store).state key value := by
  obtain ⟨executable, found⟩ := store.disk.stat_save cache.directory key _ store.now taken
  rw [state_set]
  unfold InFile Disk.read
  simp only [path, found]

theorem result_set {key : String} {value : List Char} {ttl : Option Seconds}
    (spoken : cache.refusal store key value store.now ≠ some .invalidName) :
    (cache.set key value ttl store).result = .ok (cache.entry key (.text value) store.now ttl) := by
  unfold refusal at spoken
  simp only [set]

/-- The policy holds at every point of every run. -/
theorem policy_after (cache : Cache) (start : Store α) (operations : List (Operation α)) :
    Policy cache (cache.after start operations) := by
  generalize cache.after start operations = store
  constructor
  case pinned =>
    intro key entry held later keeps lookup same
    subst same
    simp only [run_of_remembered (held_after later store held keeps)]
    simp [calls]
  case stale =>
    intro lookup file due kept served
    rcases refresh_cases lookup with
      lacks | ⟨value, finished, brings⟩ | ⟨failure, finished, fails, other⟩
    · right
      rw [(run_of_lacksValue due lacks).1] at served
      obtain ⟨entry, same, rfl, within⟩ := serveStale_result served
      cases same
      exact ⟨lacks, rfl, within⟩
    · left
      rw [run_of_value due brings] at served
      refine ⟨value, finished, brings, ?_⟩
      obtain ⟨_, _, same⟩ := map_eq_ok served
      exact (Option.some.inj same).symm
    · rw [run_of_failure due fails other] at served
      cases served
  case unpinned =>
    intro lookup file due lacks
    have state := (run_of_lacksValue due lacks).2.1
    simp only [state, true_and]
    intro later apart
    exact (remembered_after later _ apart).trans due.forgotten
  case again =>
    intro lookup file due lacks next clock same asks old
    rw [calls_of_due (due_again due lacks same old), asks, if_pos rfl]
  case rescued =>
    intro lookup file due lacks within
    rw [(run_of_lacksValue due lacks).1]
    exact serveStale_of_within within
  case renewed =>
    intro lookup file value finished due brings
    rw [run_of_value due brings]
    refine ⟨?_, ?_, ?_⟩
    · exact inMemory_of_set
    · intro taken
      exact @inFile_of_set α cache { store with now := finished } _ _ _ taken
    · intro spoken
      have stored := @result_set α cache { store with now := finished } _ _
        (some (lookup.ttlInForce cache)) spoken
      exact (congrArg (Except.map fun _ => some (Kept.text value)) stored).trans rfl
  case propagated =>
    intro lookup file failure finished due fails other
    simp only [run_of_failure due fails other, true_and]
  case once =>
    intro lookup
    exact calls_le_one cache lookup store

/-! A cache whose directory is a file. -/

def blockedCache : Cache :=
  ⟨.ofString "blocker", .whole 30, .whole 300⟩

def blockedStore : Store Unit :=
  ⟨[], ⟨[(["blocker".toList], .file [] 0.0 false)], [], []⟩, 0.0⟩

def blockedLookup : Lookup :=
  ⟨"usage-abc", some ⟨.ok ['v'], 0.0⟩, none, none⟩

/-- A new value is in both tiers only if the disk takes the file; else memory alone holds it. -/
theorem renewed_in_memory_only :
    ¬ ∀ (cache : Cache) (start : Store Unit) (operations : List (Operation Unit))
        (lookup : Lookup) (file : Option (Entry Unit)) (value : List Char) (finished : Float),
      let store := cache.after start operations
      lookup.Due cache store file → lookup.refresh = some ⟨.ok value, finished⟩ →
        InMemory (lookup.run cache store).state lookup.key value ∧
          cache.InFile (lookup.run cache store).state lookup.key value := by
  intro both
  have missing : blockedStore.disk.stat (blockedCache.path "usage-abc") = .error .notADirectory :=
    rfl
  have due : blockedLookup.Due blockedCache blockedStore none := by
    refine ⟨rfl, ?_, fun _ found => by cases found⟩
    simp only [readEntry, blockedLookup, missing]
  have held := (both blockedCache blockedStore [] blockedLookup none ['v'] 0.0 due rfl).2
  have blocked : (blockedLookup.run blockedCache blockedStore).state.disk.read
      (blockedCache.path "usage-abc") = .error .notADirectory := rfl
  have impossible := blocked.symm.trans held
  cases impossible

end Policies

end StatusLine.Cache

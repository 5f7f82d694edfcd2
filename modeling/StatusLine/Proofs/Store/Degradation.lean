import StatusLine.Datum.Failure
import StatusLine.Proofs.Store.Policy

/-!
What becomes of a disk that fails. What memory holds is served whatever the disk is like, a text is
always kept in memory, and a file that the disk does not give is a miss. Three things get out: a file
whose bytes are no text, a place that cannot be cleared, and a name that is too long to be asked for.
-/

namespace StatusLine

/-- Failures of the system, and of reading bytes as text. -/
def Failure.IsOfFiles (failure : Failure) : Prop :=
  Failure.isSystemKind failure.kind = true ∨ failure.kind = "UnicodeDecodeError"

/-! What a disk has to say about a path name. -/

namespace Disk

variable {disk : Disk} {path : PathName} {fault : DiskFault}

theorem fault_of_follow {names : List (List Char)} {here : Location}
    (failed : disk.follow here names = .error fault) :
    fault = .notFound ∨ fault = .notADirectory ∨ fault = .nameTooLong := by
  induction names generalizing here with
  | nil => cases failed
  | cons name rest ih =>
      simp only [follow] at failed
      split at failed
      · exact .inl (Except.error.inj failed).symm
      · exact .inr (.inl (Except.error.inj failed).symm)
      · split at failed
        · exact ih failed
        · split at failed
          · exact .inr (.inr (Except.error.inj failed).symm)
          · exact ih failed

theorem fault_of_stat (failed : disk.stat path = .error fault) :
    fault = .notFound ∨ fault = .notADirectory ∨ fault = .nameTooLong ∨ fault = .invalidName := by
  unfold stat at failed
  split at failed
  · rename_i other located
    obtain rfl := Except.error.inj failed
    unfold locate at located
    split at located
    · exact .inr (.inr (.inr (Except.error.inj located).symm))
    · rcases fault_of_follow located with same | same | same
      · exact .inl same
      · exact .inr (.inl same)
      · exact .inr (.inr (.inl same))
  · split at failed
    · cases failed
    · exact .inl (Except.error.inj failed).symm

theorem unlink_of_fault (failed : disk.stat path = .error fault) :
    disk.unlink path = .error fault := by
  unfold stat at failed
  unfold unlink
  split at failed
  · rename_i other located
    obtain rfl := Except.error.inj failed
    rw [located]
    rfl
  · rename_i location located
    split at failed
    · cases failed
    · rename_i vacant
      obtain rfl := Except.error.inj failed
      simp [located, vacant, bind, Except.bind]

theorem located_of_stat {stored : Stored} (found : disk.stat path = .ok stored) :
    ∃ location, disk.locate path = .ok location ∧ disk.at? location = some stored := by
  unfold stat at found
  split at found
  · cases found
  · rename_i location located
    split at found
    · rename_i there
      exact ⟨location, located, by rw [there, Except.ok.inj found]⟩
    · cases found

theorem unlink_of_directory (found : disk.stat path = .ok .directory) :
    disk.unlink path = .error .isADirectory := by
  obtain ⟨location, located, there⟩ := located_of_stat found
  simp [unlink, located, there, bind, Except.bind]

theorem unlink_of_file {content : List UInt8} {modified : Float} {executable : Bool}
    (found : disk.stat path = .ok (.file content modified executable)) :
    ∃ cleared, disk.unlink path = .ok cleared ∧ cleared.stat path = .error .notFound := by
  obtain ⟨location, located, there⟩ := located_of_stat found
  have noDirectory : disk.at? location ≠ some .directory := by simp [there]
  have kept := locate_of_directoriesWithin (disk.directoriesWithin_erase location noDirectory) rfl
    path location located
  refine ⟨disk.erase location, unlink_eq_erase located there, ?_⟩
  simp [stat, kept, disk.at?_erase location (ne_top_of_at? noDirectory)]

end Disk

namespace Cache

section Findings

variable {α : Type}

/-- The file of a key is there, and its bytes are no text. -/
def Garbled (cache : Cache) (store : Store α) (key : String) : Prop :=
  ∃ content modified executable,
    store.disk.stat (cache.path key) = .ok (.file content modified executable) ∧
      ¬ (⟨content.toArray⟩ : ByteArray).IsValidUTF8

def Fileless (cache : Cache) (store : Store α) (key : String) : Prop :=
  ∀ content modified executable,
    store.disk.stat (cache.path key) ≠ .ok (.file content modified executable)

/-- What is at the place of a key is no file that could be removed: it is a directory, or the way
there leads through a file or a name that is too long. -/
def Blocked (cache : Cache) (store : Store α) (key : String) : Prop :=
  store.disk.stat (cache.path key) = .ok .directory ∨
    store.disk.stat (cache.path key) = .error .notADirectory ∨
    store.disk.stat (cache.path key) = .error .nameTooLong

end Findings

/-- How the operations on a key fare, whatever the disk holds and whatever it refuses. -/
structure Degrades {α : Type} (cache : Cache) (key : String) (store : Store α) : Prop where
  /-- What memory holds is served. -/
  held : ∀ entry, store.remembered key = some entry → ∀ lookup : Lookup, lookup.key = key →
    (lookup.run cache store).result = .ok (some entry.value)
  /-- Where there is no file, there is a miss, unless the name cannot even be said. -/
  missed : store.remembered key = none → cache.Fileless store key →
    store.disk.stat (cache.path key) ≠ .error .invalidName → ∀ lookup : Lookup, lookup.key = key →
    lookup.LacksValue → (lookup.run cache store).result = .ok none
  /-- A lookup without a new value fails over files just if the file is no text. -/
  looked : ∀ lookup : Lookup, lookup.key = key → lookup.LacksValue →
    ((∃ failure, (lookup.run cache store).result = .error failure ∧ failure.IsOfFiles) ↔
      store.remembered key = none ∧ cache.Garbled store key)
  /-- A text is kept in memory, and never fails over files. -/
  kept : ∀ value ttl, InMemory (cache.set key value ttl store).state key value ∧
    ∀ failure, (cache.set key value ttl store).result = .error failure → ¬ failure.IsOfFiles
  /-- Memory forgets, and the file is gone unless its place is blocked, which is a failure. -/
  forgotten : (cache.invalidate key store).state.remembered key = none ∧
    ((∃ failure, (cache.invalidate key store).result = .error failure ∧ failure.IsOfFiles) ↔
      cache.Blocked store key) ∧
    (¬ cache.Blocked store key → cache.Fileless (cache.invalidate key store).state key)
  /-- Whether a tier holds a key is answered unless the name is too long to be asked for. -/
  answered : ∀ answer, cache.contains key store = answer →
    ((∃ failure, answer = .error failure) ↔
      store.remembered key = none ∧ store.disk.stat (cache.path key) = .error .nameTooLong) ∧
    (answer = .ok true ↔ (∃ entry, store.remembered key = some entry) ∨
      ∃ stored, store.disk.stat (cache.path key) = .ok stored)

section Operations

variable {α : Type} {cache : Cache} {store : Store α} {key : String}

theorem not_isOfFiles_invalidName : ¬ DiskFault.invalidName.failure.IsOfFiles := by
  unfold Failure.IsOfFiles
  decide

theorem isOfFiles_failure {fault : DiskFault} (spoken : fault ≠ .invalidName) :
    fault.failure.IsOfFiles := by
  cases fault with
  | invalidName => exact absurd rfl spoken
  | _ => exact .inl (by decide)

/-! Reading. -/

theorem readEntry_of_garbled (garbled : cache.Garbled store key) (ttl : Option Seconds) :
    cache.readEntry key ttl store = .error (.other "UnicodeDecodeError" "") := by
  obtain ⟨content, modified, executable, found, noText⟩ := garbled
  have unread : String.fromUTF8? ⟨content.toArray⟩ = none := by
    rw [String.fromUTF8?, dif_neg noText]
  simp [readEntry, found, textOfFile, unread, Except.map]

theorem readEntry_of_fileless (fileless : cache.Fileless store key)
    (spoken : store.disk.stat (cache.path key) ≠ .error .invalidName) (ttl : Option Seconds) :
    cache.readEntry key ttl store = .ok none := by
  unfold readEntry
  split
  · rename_i unsaid
    exact absurd unsaid spoken
  · rfl
  · rfl
  · rename_i content modified executable found
    exact absurd found (fileless content modified executable)

theorem garbled_of_readEntry {ttl : Option Seconds} {failure : Failure}
    (failed : cache.readEntry key ttl store = .error failure) :
    (store.disk.stat (cache.path key) = .error .invalidName ∧
        failure = DiskFault.invalidName.failure) ∨
      (cache.Garbled store key ∧ failure = .other "UnicodeDecodeError" "") := by
  unfold readEntry at failed
  split at failed
  · rename_i unsaid
    exact .inl ⟨unsaid, (Except.error.inj failed).symm⟩
  · cases failed
  · cases failed
  · rename_i content modified executable found
    unfold textOfFile at failed
    split at failed
    · cases failed
    · rename_i unread
      have noText : ¬ (⟨content.toArray⟩ : ByteArray).IsValidUTF8 := by
        intro valid
        rw [String.fromUTF8?, dif_pos valid] at unread
        cases unread
      exact .inr ⟨⟨content, modified, executable, found, noText⟩, (Except.error.inj failed).symm⟩

theorem result_of_held {entry : Entry α} (held : store.remembered key = some entry)
    {lookup : Lookup} (same : lookup.key = key) :
    (lookup.run cache store).result = .ok (some entry.value) := by
  subst same
  rw [run_of_remembered held]

theorem serveStale_isOk (file : Option (Entry α)) (grace : Seconds) (store : Store α) :
    ∃ kept, (serveStale file grace store).result = .ok kept := by
  unfold serveStale
  split
  · exact ⟨none, rfl⟩
  · rename_i entry
    simp only
    split
    · exact ⟨some entry.value, rfl⟩
    · exact ⟨none, rfl⟩

theorem run_of_lacks (cache : Cache) (store : Store α) {lookup : Lookup} (lacks : lookup.LacksValue) :
    (∃ kept, (lookup.run cache store).result = .ok kept) ∨
      store.remembered lookup.key = none ∧ ∃ failure,
        cache.readEntry lookup.key (some (lookup.ttlInForce cache)) store = .error failure ∧
          (lookup.run cache store).result = .error failure := by
  rcases lookup_cases cache lookup store with
    ⟨entry, held⟩ | ⟨forgotten, ⟨failure, bad⟩ | ⟨entry, read, fresh⟩ | ⟨file, due⟩⟩
  · exact .inl ⟨_, result_of_held held rfl⟩
  · exact .inr ⟨forgotten, failure, bad, by rw [run_of_unreadable forgotten bad]⟩
  · exact .inl ⟨_, by rw [run_of_fresh forgotten read fresh]⟩
  · left
    rw [(run_of_lacksValue due lacks).1]
    exact serveStale_isOk file _ _

theorem looked_of_lacks {lookup : Lookup} (lacks : lookup.LacksValue) :
    (∃ failure, (lookup.run cache store).result = .error failure ∧ failure.IsOfFiles) ↔
      store.remembered lookup.key = none ∧ cache.Garbled store lookup.key := by
  constructor
  · rintro ⟨failure, failed, ofFiles⟩
    rcases run_of_lacks cache store lacks with
      ⟨kept, done⟩ | ⟨forgotten, other, unread, ends⟩
    · cases done.symm.trans failed
    · obtain rfl := Except.error.inj (ends.symm.trans failed)
      rcases garbled_of_readEntry unread with ⟨-, rfl⟩ | ⟨garbled, -⟩
      · exact absurd ofFiles not_isOfFiles_invalidName
      · exact ⟨forgotten, garbled⟩
  · rintro ⟨forgotten, garbled⟩
    have bad := readEntry_of_garbled garbled (some (lookup.ttlInForce cache))
    refine ⟨_, by rw [run_of_unreadable forgotten bad], .inr rfl⟩

theorem missed_of_fileless (forgotten : store.remembered key = none)
    (fileless : cache.Fileless store key)
    (spoken : store.disk.stat (cache.path key) ≠ .error .invalidName) {lookup : Lookup}
    (same : lookup.key = key) (lacks : lookup.LacksValue) :
    (lookup.run cache store).result = .ok none := by
  subst same
  have due : lookup.Due cache store none :=
    ⟨forgotten, readEntry_of_fileless fileless spoken _, fun entry none => by cases none⟩
  rw [(run_of_lacksValue due lacks).1]
  rfl

/-! Storing, removing, asking. -/

theorem not_isOfFiles_of_set {value : List Char} {ttl : Option Seconds} {failure : Failure}
    (failed : (cache.set key value ttl store).result = .error failure) :
    ¬ failure.IsOfFiles := by
  unfold set at failed
  simp only at failed
  split at failed
  · obtain rfl := Except.error.inj failed
    exact not_isOfFiles_invalidName
  · cases failed

theorem invalidate_of_fault {fault : DiskFault}
    (failed : store.disk.stat (cache.path key) = .error fault) (present : fault ≠ .notFound) :
    (cache.invalidate key store).result = .error fault.failure ∧
      (cache.invalidate key store).state.disk = store.disk := by
  unfold invalidate
  rw [Disk.unlink_of_fault failed]
  cases fault with
  | notFound => exact absurd rfl present
  | _ => exact ⟨rfl, rfl⟩

theorem invalidate_cases (cache : Cache) (key : String) (store : Store α) :
    (cache.Blocked store key ∧ ∃ failure,
      (cache.invalidate key store).result = .error failure ∧ failure.IsOfFiles) ∨
    ¬ cache.Blocked store key ∧ cache.Fileless (cache.invalidate key store).state key ∧
      ∀ failure, (cache.invalidate key store).result = .error failure → ¬ failure.IsOfFiles := by
  have still {fault : DiskFault} (failed : store.disk.stat (cache.path key) = .error fault)
      {after : Store α} (same : after.disk = store.disk) : cache.Fileless after key := by
    intro content modified executable found
    rw [same, failed] at found
    cases found
  cases found : store.disk.stat (cache.path key) with
  | ok stored =>
      cases stored with
      | directory =>
          have refused := Disk.unlink_of_directory found
          refine .inl ⟨.inl found, DiskFault.isADirectory.failure, ?_, isOfFiles_failure (by decide)⟩
          simp [invalidate, refused]
      | file content modified executable =>
          obtain ⟨cleared, done, gone⟩ := Disk.unlink_of_file found
          have after : cache.invalidate key store =
              ⟨.ok (), { store.forget key with disk := cleared }, []⟩ := by
            simp [invalidate, done]
          refine .inr ⟨?_, ?_, ?_⟩
          · rintro (blocked | blocked | blocked) <;> cases found.symm.trans blocked
          · rw [after]
            intro content modified executable there
            cases gone.symm.trans there
          · rw [after]
            intro failure failed
            cases failed
  | error fault =>
      by_cases absent : fault = .notFound
      · subst absent
        have after : cache.invalidate key store = ⟨.ok (), store.forget key, []⟩ := by
          simp [invalidate, Disk.unlink_of_fault found]
        refine .inr ⟨?_, ?_, ?_⟩
        · rintro (blocked | blocked | blocked) <;> cases found.symm.trans blocked
        · rw [after]
          exact still found rfl
        · rw [after]
          intro failure failed
          cases failed
      · obtain ⟨failed, kept⟩ := invalidate_of_fault found absent
        by_cases unsaid : fault = .invalidName
        · subst unsaid
          refine .inr ⟨?_, still found kept, ?_⟩
          · rintro (blocked | blocked | blocked) <;> cases found.symm.trans blocked
          · intro failure other
            obtain rfl := Except.error.inj (failed.symm.trans other)
            exact not_isOfFiles_invalidName
        · refine .inl ⟨.inr ?_, fault.failure, failed, isOfFiles_failure unsaid⟩
          rcases Disk.fault_of_stat found with rfl | rfl | rfl | rfl
          · exact absurd rfl absent
          · exact .inl found
          · exact .inr found
          · exact absurd rfl unsaid

theorem remembered_invalidate (cache : Cache) (key : String) (store : Store α) :
    (cache.invalidate key store).state.remembered key = none := by
  have forgotten := store.remembered_forget key
  simp only [Store.remembered, memory_invalidate] at forgotten ⊢
  exact forgotten

theorem contains_of_forgotten (forgotten : store.remembered key = none) :
    cache.contains key store =
      match store.disk.stat (cache.path key) with
      | .ok _ => .ok true
      | .error .nameTooLong => .error DiskFault.nameTooLong.failure
      | .error _ => .ok false := by
  unfold contains
  rw [forgotten]
  cases found : store.disk.stat (cache.path key) with
  | ok stored => rfl
  | error fault => rcases Disk.fault_of_stat found with rfl | rfl | rfl | rfl <;> rfl

end Operations

theorem degrades {α : Type} (cache : Cache) (key : String) (store : Store α) :
    Degrades cache key store := by
  constructor
  case held =>
    intro entry held lookup same
    exact result_of_held held same
  case missed =>
    intro forgotten fileless spoken lookup same lacks
    exact missed_of_fileless forgotten fileless spoken same lacks
  case looked =>
    rintro lookup rfl lacks
    exact looked_of_lacks lacks
  case kept =>
    intro value ttl
    exact ⟨inMemory_of_set, fun failure failed => not_isOfFiles_of_set failed⟩
  case forgotten =>
    refine ⟨remembered_invalidate cache key store, ?_⟩
    rcases invalidate_cases cache key store with ⟨blocked, failed⟩ | ⟨free, fileless, quiet⟩
    · exact ⟨⟨fun _ => blocked, fun _ => failed⟩, fun free => absurd blocked free⟩
    · refine ⟨⟨?_, fun blocked => absurd blocked free⟩, fun _ => fileless⟩
      rintro ⟨failure, failed, ofFiles⟩
      exact absurd ofFiles (quiet failure failed)
  case answered =>
    rintro answer rfl
    cases held : store.remembered key with
    | some entry => simp [contains, held]
    | none =>
        rw [contains_of_forgotten held]
        cases found : store.disk.stat (cache.path key) with
        | ok stored => simp
        | error fault => cases fault <;> simp

end Cache

end StatusLine

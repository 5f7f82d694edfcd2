import StatusLine.Proofs.Store.Degradation
import StatusLine.Proofs.Store.Readiness

/-!
Names that can be said to a disk: those without a zero character. Where the file of a key can be
asked for, keeping a text under the key never fails.
-/

namespace StatusLine

def PathName.Speakable (path : PathName) : Prop :=
  path.parts.any (fun name => name.contains '\x00') = false

instance (path : PathName) : Decidable path.Speakable :=
  inferInstanceAs (Decidable (_ = false))

namespace Disk

variable {disk : Disk} {path : PathName} {now : Float}

theorem locate_ne_invalidName (speakable : path.Speakable) :
    disk.locate path ≠ .error .invalidName := by
  intro unsaid
  rw [locate, speakable, if_neg Bool.false_ne_true] at unsaid
  rcases fault_of_follow unsaid with same | same | same <;> cases same

theorem speakable_of_stat (said : disk.stat path ≠ .error .invalidName) : path.Speakable := by
  unfold PathName.Speakable
  by_contra unsaid
  rw [Bool.not_eq_false] at unsaid
  exact said (by simp only [stat, locate, unsaid, if_true])

theorem stat_of_not_speakable (unsaid : ¬ path.Speakable) :
    disk.stat path = .error .invalidName :=
  by_contra fun said => unsaid (speakable_of_stat said)

theorem stat_ne_invalidName (speakable : path.Speakable) :
    disk.stat path ≠ .error .invalidName := by
  intro unsaid
  unfold stat at unsaid
  split at unsaid
  · rename_i located
    obtain rfl := Except.error.inj unsaid
    exact locate_ne_invalidName speakable located
  · split at unsaid <;> cases unsaid

theorem read_ne_invalidName (speakable : path.Speakable) :
    disk.read path ≠ .error .invalidName := by
  intro unsaid
  unfold read at unsaid
  split at unsaid
  · rename_i fault failed
    obtain rfl := Except.error.inj unsaid
    exact stat_ne_invalidName speakable failed
  · cases unsaid
  · cases unsaid

/-! The steps. What is done step by step is at fault over a name only if one of its steps is. -/

theorem bind_ne_invalidName {α β : Type} {first : Except DiskFault α}
    {next : α → Except DiskFault β} (here : first ≠ .error .invalidName)
    (there : ∀ value, next value ≠ .error .invalidName) :
    (first >>= next) ≠ .error .invalidName := by
  cases first with
  | error fault =>
      intro same
      exact here (congrArg Except.error (Except.error.inj same))
  | ok value => exact there value

theorem eq_refused_of_permit {step : DiskStep} {fault : DiskFault}
    (failed : disk.permit step = .error fault) : fault = .refused := by
  unfold permit at failed
  split at failed
  · exact (Except.error.inj failed).symm
  · cases failed

theorem permitted_ne_invalidName {step : DiskStep} {done : Disk} :
    (do disk.permit step; return done : Except DiskFault Disk) ≠ .error .invalidName := by
  refine bind_ne_invalidName ?_ fun _ => by simp [pure, Except.pure]
  intro failed
  cases eq_refused_of_permit failed

theorem create_ne_invalidName (speakable : path.Speakable) :
    disk.create path now ≠ .error .invalidName := by
  refine bind_ne_invalidName (locate_ne_invalidName speakable) fun location => ?_
  split
  · simp
  · exact permitted_ne_invalidName

theorem write_ne_invalidName {content : List UInt8} (speakable : path.Speakable) :
    disk.write path content now ≠ .error .invalidName := by
  refine bind_ne_invalidName (locate_ne_invalidName speakable) fun location => ?_
  split
  · simp
  · exact permitted_ne_invalidName
  · exact permitted_ne_invalidName

theorem replace_ne_invalidName {target : PathName} (speakable : path.Speakable)
    (aimed : target.Speakable) : disk.replace path target ≠ .error .invalidName := by
  refine bind_ne_invalidName (locate_ne_invalidName speakable) fun origin => ?_
  refine bind_ne_invalidName (locate_ne_invalidName aimed) fun goal => ?_
  split
  · simp
  · simp
  · simp
  · exact permitted_ne_invalidName

theorem fault_ensureDirectory {location : Location} {blocked fault : DiskFault}
    (failed : (disk.ensureDirectory location blocked).fault = some fault) :
    fault = blocked ∨ fault = .refused := by
  unfold ensureDirectory at failed
  split at failed
  · cases failed
  · exact .inl (Option.some.inj failed).symm
  · cases made : disk.makeDirectory location with
    | ok other => rw [made] at failed; cases failed
    | error other =>
        rw [made] at failed
        obtain rfl := Option.some.inj failed
        unfold makeDirectory at made
        cases permitted : disk.permit .makeDirectory with
        | ok _ => rw [permitted] at made; cases made
        | error refusal =>
            rw [permitted] at made
            obtain rfl := Except.error.inj made
            exact .inr (eq_refused_of_permit permitted)

theorem makeAlong_ne_invalidName (names : List (List Char)) (here : Location) (disk : Disk) :
    (makeAlong here names disk).fault ≠ some .invalidName := by
  induction names generalizing here disk with
  | nil =>
      intro unsaid
      rcases fault_ensureDirectory unsaid with same | same <;> cases same
  | cons name rest ih =>
      simp only [makeAlong]
      split
      · intro unsaid
        rcases fault_ensureDirectory unsaid with same | same <;> cases same
      · split
        · exact ih _ _
        · split
          · simp
          · exact ih _ _

theorem makeDirectories_ne_invalidName (speakable : path.Speakable) :
    (disk.makeDirectories path).fault ≠ some .invalidName := by
  rw [makeDirectories, speakable, if_neg Bool.false_ne_true]
  exact makeAlong_ne_invalidName _ _ _

/-! Saving. -/

theorem speakable_temporaryPath {directory : PathName} {name : String} (isName : IsFileName name)
    (speakable : (directory ++ .ofString name : PathName).Speakable) (disk : Disk) :
    directory.Speakable ∧ (disk.temporaryPath directory name).Speakable := by
  rw [PathName.ofString_of_isFileName isName, PathName.append_relative] at speakable
  simp only [PathName.Speakable, List.any_append, List.any_cons, List.any_nil, Bool.or_false,
    Bool.or_eq_false_iff] at speakable
  obtain ⟨directories, zeros⟩ := speakable
  refine ⟨directories, ?_⟩
  have noZero : '\x00' ∉ name.toList := by simpa using zeros
  have free (number : Nat) : '\x00' ∉ temporaryChars name number :=
    not_mem_temporaryChars (by decide) (by decide) noZero
  rw [temporaryPath, temporaryName_of_isFileName isName, PathName.append_relative]
  simp only [PathName.Speakable, List.any_append, directories, List.any_cons, List.any_nil,
    Bool.or_false, Bool.false_or]
  simpa using free _

theorem save_ne_invalidName {directory : PathName} {name : String} (isName : IsFileName name)
    (speakable : (directory ++ .ofString name : PathName).Speakable) (content : List UInt8) :
    (disk.save directory name content now).fault ≠ some .invalidName := by
  have temporary := speakable_temporaryPath isName speakable
    (disk.makeDirectories directory).disk
  simp only [save]
  split
  · exact makeDirectories_ne_invalidName temporary.1
  · split
    · rename_i fault failed
      rintro same
      exact create_ne_invalidName temporary.2 (Option.some.inj same ▸ failed)
    · split
      · rename_i fault failed
        rintro same
        exact write_ne_invalidName temporary.2 (Option.some.inj same ▸ failed)
      · split
        · rename_i fault failed
          rintro same
          exact replace_ne_invalidName temporary.2 speakable (Option.some.inj same ▸ failed)
        · simp

end Disk

namespace Cache

variable {α : Type} {cache : Cache} {key : String} {store : Store α}

def Readable (cache : Cache) (key : String) (store : Store α) : Prop :=
  ∃ file, cache.readEntry key none store = .ok file

theorem exists_readEntry (speakable : (cache.path key).Speakable)
    (text : ¬ cache.Garbled store key) (ttl : Option Seconds) :
    ∃ file, cache.readEntry key ttl store = .ok file := by
  cases read : cache.readEntry key ttl store with
  | ok file => exact ⟨file, rfl⟩
  | error failure =>
      rcases garbled_of_readEntry read with ⟨unsaid, -⟩ | ⟨garbled, -⟩
      · exact absurd unsaid (Disk.stat_ne_invalidName speakable)
      · exact absurd garbled text

theorem readEntry_of_not_speakable (unsaid : ¬ (cache.path key).Speakable) (ttl : Option Seconds) :
    cache.readEntry key ttl store = .error DiskFault.invalidName.failure := by
  simp [readEntry, Disk.stat_of_not_speakable unsaid]

theorem readable_iff :
    cache.Readable key store ↔ (cache.path key).Speakable ∧ ¬ cache.Garbled store key := by
  constructor
  · rintro ⟨file, read⟩
    constructor
    · have said : store.disk.stat (cache.path key) ≠ .error .invalidName := by
        intro unsaid
        simp [readEntry, unsaid] at read
      exact Disk.speakable_of_stat said
    · intro garbled
      cases (readEntry_of_garbled garbled none).symm.trans read
  · rintro ⟨speakable, text⟩
    exact exists_readEntry speakable text none

theorem Readable.exists_readEntry (readable : cache.Readable key store) (ttl : Option Seconds) :
    ∃ file, cache.readEntry key ttl store = .ok file := by
  obtain ⟨speakable, text⟩ := readable_iff.mp readable
  exact Cache.exists_readEntry speakable text ttl

theorem exists_set (isName : IsFileName key) (speakable : (cache.path key).Speakable)
    (value : List Char) (ttl : Option Seconds) (store : Store α) :
    ∃ entry, (cache.set key value ttl store).result = .ok entry := by
  unfold set
  simp only
  split
  · rename_i unsaid
    exact absurd unsaid (Disk.save_ne_invalidName isName speakable _)
  · exact ⟨_, rfl⟩

end Cache

end StatusLine

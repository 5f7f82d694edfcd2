import Mathlib.Logic.Function.Basic
import StatusLine.Proofs.Store.Speakable

/-!
Managers that share a directory. Each of them does what it is called for in steps on the disk that
nothing divides, and between two steps of one manager any others may have theirs. Undisturbed, the
steps of a manager come to what the cache does in one.
-/

namespace StatusLine

namespace Disk

/-! What saving finds free. -/

theorem stat_of_alreadyThere {disk : Disk} {path : PathName} {now : Float}
    (failed : disk.create path now = .error .alreadyThere) :
    ∃ stored, disk.stat path = .ok stored := by
  unfold create at failed
  cases located : disk.locate path with
  | error fault =>
      simp only [located, bind, Except.bind, Except.error.injEq] at failed
      subst failed
      unfold locate at located
      split at located
      · cases located
      · rcases fault_of_follow located with same | same | same <;> cases same
  | ok location =>
      cases there : disk.at? location with
      | some stored => exact ⟨stored, disk.stat_eq path location stored located there⟩
      | none =>
          simp only [located, there, bind, Except.bind, Option.isSome_none, Bool.false_eq_true,
            if_false] at failed
          cases permitted : disk.permit .create with
          | ok _ =>
              rw [permitted] at failed
              cases failed
          | error fault =>
              rw [permitted] at failed
              cases (eq_refused_of_permit permitted).symm.trans (Except.error.inj failed)

theorem create_ne_alreadyThere {directory : PathName} {key : String} {now : Float}
    (isName : IsFileName key) (disk : Disk) :
    disk.create (disk.temporaryPath directory key) now ≠ .error .alreadyThere := by
  intro failed
  obtain ⟨unused, small, vacant⟩ := disk.exists_unused (disk.placeOf directory) key
  have missing : ∃ fault, disk.stat (directory ++ temporaryName key unused) =
      .error fault := by
    cases found : disk.stat (directory ++ temporaryName key unused) with
    | error fault => exact ⟨fault, rfl⟩
    | ok stored =>
        have there := disk.at?_of_stat _ stored found
        rw [disk.placeOf_temporary directory isName, vacant] at there
        cases there
  obtain ⟨-, fault, free⟩ := freshNumber_unused (disk.entries.length + 1) 0
    ⟨unused, by omega, by omega, missing⟩
  obtain ⟨stored, found⟩ := stat_of_alreadyThere failed
  cases found.symm.trans free

end Disk

namespace Sharing

structure Draft where
  key : String
  value : List Char
  number : Nat

namespace Draft

def name (draft : Draft) : List Char :=
  Disk.temporaryChars draft.key draft.number

def path (directory : PathName) (draft : Draft) : PathName :=
  directory ++ Disk.temporaryName draft.key draft.number

end Draft

inductive DraftStep
  | fill
  | place
  | discard

inductive Stage
  | idle
  | opening (key : String) (value : List Char)
  | drafting (key : String) (value : List Char)
  | holding (draft : Draft) (next : DraftStep)
  | removing (key : String)
  | looking (key : String)
  | reading (key : String) (modified : Float)

abbrev Finding := Except Failure (Option (List Char × Float))

def Finding.ofFault : DiskFault → Finding
  | .invalidName => .error DiskFault.invalidName.failure
  | _ => .ok none

structure Advance where
  disk : Disk
  stage : Stage
  taken : List (String × Finding)

/-- One step of a manager. The number is the one that it tries for the name of a new file. -/
def Stage.step (directory : PathName) (number : Nat) (now : Float) (disk : Disk) :
    Stage → Advance
  | .idle => ⟨disk, .idle, []⟩
  | .opening key value =>
      let made := disk.makeDirectories directory
      ⟨made.disk, if made.fault.isSome then .idle else .drafting key value, []⟩
  | .drafting key value =>
      let draft : Draft := ⟨key, value, number⟩
      match disk.create (draft.path directory) now with
      | .ok created => ⟨created, .holding draft .fill, []⟩
      | .error .alreadyThere => ⟨disk, .drafting key value, []⟩
      | .error _ => ⟨disk, .idle, []⟩
  | .holding draft .fill =>
      match disk.write (draft.path directory) (Fingerprint.utf8 draft.value) now with
      | .ok written => ⟨written, .holding draft .place, []⟩
      | .error _ => ⟨disk, .holding draft .discard, []⟩
  | .holding draft .place =>
      match disk.replace (draft.path directory) (directory ++ .ofString draft.key) with
      | .ok placed => ⟨placed, .idle, []⟩
      | .error _ => ⟨disk, .holding draft .discard, []⟩
  | .holding draft .discard => ⟨Disk.save.discard disk (draft.path directory), .idle, []⟩
  | .removing key =>
      match disk.unlink (directory ++ .ofString key) with
      | .ok cleared => ⟨cleared, .idle, []⟩
      | .error _ => ⟨disk, .idle, []⟩
  | .looking key =>
      match disk.stat (directory ++ .ofString key) with
      | .ok (.file _ modified _) => ⟨disk, .reading key modified, []⟩
      | .ok .directory => ⟨disk, .idle, [(key, .ok none)]⟩
      | .error fault => ⟨disk, .idle, [(key, .ofFault fault)]⟩
  | .reading key modified =>
      match disk.read (directory ++ .ofString key) with
      | .ok content =>
          ⟨disk, .idle, [(key, (Cache.textOfFile content).map fun text => some (text, modified))]⟩
      | .error fault => ⟨disk, .idle, [(key, .ofFault fault)]⟩

/-! One step, by stages. -/

section Steps

variable {directory : PathName} {number : Nat} {now : Float} {disk : Disk}

theorem Stage.step_idle :
    Stage.idle.step directory number now disk = ⟨disk, .idle, []⟩ :=
  rfl

theorem Stage.step_opening {key : String} {value : List Char} :
    (Stage.opening key value).step directory number now disk =
      ⟨(disk.makeDirectories directory).disk,
        if (disk.makeDirectories directory).fault.isSome then .idle else .drafting key value, []⟩ :=
  rfl

theorem Stage.step_drafting {key : String} {value : List Char} :
    (Stage.drafting key value).step directory number now disk =
      match disk.create ((Draft.mk key value number).path directory) now with
      | .ok created => ⟨created, .holding ⟨key, value, number⟩ .fill, []⟩
      | .error .alreadyThere => ⟨disk, .drafting key value, []⟩
      | .error _ => ⟨disk, .idle, []⟩ :=
  rfl

theorem Stage.step_fill {draft : Draft} :
    (Stage.holding draft .fill).step directory number now disk =
      match disk.write (draft.path directory) (Fingerprint.utf8 draft.value) now with
      | .ok written => ⟨written, .holding draft .place, []⟩
      | .error _ => ⟨disk, .holding draft .discard, []⟩ :=
  rfl

theorem Stage.step_place {draft : Draft} :
    (Stage.holding draft .place).step directory number now disk =
      match disk.replace (draft.path directory) (directory ++ .ofString draft.key) with
      | .ok placed => ⟨placed, .idle, []⟩
      | .error _ => ⟨disk, .holding draft .discard, []⟩ :=
  rfl

theorem Stage.step_removing {key : String} :
    (Stage.removing key).step directory number now disk =
      match disk.unlink (directory ++ .ofString key) with
      | .ok cleared => ⟨cleared, .idle, []⟩
      | .error _ => ⟨disk, .idle, []⟩ :=
  rfl

theorem Stage.step_looking {key : String} :
    (Stage.looking key).step directory number now disk =
      match disk.stat (directory ++ .ofString key) with
      | .ok (.file _ modified _) => ⟨disk, .reading key modified, []⟩
      | .ok .directory => ⟨disk, .idle, [(key, .ok none)]⟩
      | .error fault => ⟨disk, .idle, [(key, .ofFault fault)]⟩ :=
  rfl

theorem Stage.step_reading {key : String} {modified : Float} :
    (Stage.reading key modified).step directory number now disk =
      match disk.read (directory ++ .ofString key) with
      | .ok content =>
          ⟨disk, .idle, [(key, (Cache.textOfFile content).map fun text => some (text, modified))]⟩
      | .error fault => ⟨disk, .idle, [(key, .ofFault fault)]⟩ :=
  rfl

end Steps

inductive Call
  | set (key : String) (value : List Char)
  | invalidate (key : String)
  | read (key : String)

namespace Call

def key : Call → String
  | .set key _ | .invalidate key | .read key => key

def first : Call → Stage
  | .set key value => .opening key value
  | .invalidate key => .removing key
  | .read key => .looking key

def supplies : Call → List (String × List Char)
  | .set key value => [(key, value)]
  | .invalidate _ | .read _ => []

end Call

/-- Who has a turn, and what for. A manager that is not done yet takes no call. -/
inductive Turn
  | call (manager : Nat) (call : Call)
  | step (manager number : Nat) (now : Float)

/-- The disk, how far each manager is, the texts that were supplied for keys until now, and what was
taken from files. -/
structure Scene where
  disk : Disk
  stages : Nat → Stage
  supplied : List (String × List Char)
  taken : List (String × Finding)

namespace Scene

def turn (directory : PathName) (scene : Scene) : Turn → Scene
  | .call manager call =>
      match scene.stages manager with
      | .idle =>
          { scene with
            stages := Function.update scene.stages manager call.first
            supplied := call.supplies ++ scene.supplied }
      | _ => scene
  | .step manager number now =>
      let done := (scene.stages manager).step directory number now scene.disk
      { scene with
        disk := done.disk
        stages := Function.update scene.stages manager done.stage
        taken := done.taken ++ scene.taken }

def run (directory : PathName) (scene : Scene) (turns : List Turn) : Scene :=
  turns.foldl (turn directory) scene

end Scene

/-! A manager that is left undisturbed. -/

section Undisturbed

variable {directory : PathName} {number : Nat} {now : Float}

def Stage.steps (directory : PathName) (number : Nat) (now : Float) :
    (count : Nat) → Disk → Stage → Advance
  | 0, disk, stage => ⟨disk, stage, []⟩
  | count + 1, disk, stage =>
      let first := stage.step directory number now disk
      let rest := steps directory number now count first.disk first.stage
      { rest with taken := rest.taken ++ first.taken }

theorem run_steps (directory : PathName) (manager number : Nat) (now : Float) (count : Nat)
    (scene : Scene) :
    scene.run directory (List.replicate count (.step manager number now)) =
      { scene with
        disk := ((scene.stages manager).steps directory number now count scene.disk).disk
        stages := Function.update scene.stages manager
          ((scene.stages manager).steps directory number now count scene.disk).stage
        taken := ((scene.stages manager).steps directory number now count scene.disk).taken ++
          scene.taken } := by
  induction count generalizing scene with
  | zero => simp [Scene.run, Stage.steps]
  | succ count ih =>
      rw [List.replicate_succ]
      refine (ih (scene.turn directory (.step manager number now))).trans ?_
      simp [Scene.turn, Stage.steps, Function.update_self, Function.update_idem]

theorem run_call {scene : Scene} {manager : Nat} (idle : scene.stages manager = .idle)
    (call : Call) (count : Nat) {disk : Disk} {taken : List (String × Finding)}
    (alone : call.first.steps directory number now count scene.disk = ⟨disk, .idle, taken⟩) :
    scene.run directory (.call manager call :: List.replicate count (.step manager number now)) =
      ⟨disk, scene.stages, call.supplies ++ scene.supplied, taken ++ scene.taken⟩ := by
  have called : scene.turn directory (.call manager call) =
      { scene with
        stages := Function.update scene.stages manager call.first
        supplied := call.supplies ++ scene.supplied } := by
    simp only [Scene.turn, idle]
  have back : Function.update scene.stages manager .idle = scene.stages := by
    rw [← idle, Function.update_eq_self]
  refine (run_steps directory manager number now count _).trans ?_
  simp only [called, Function.update_self, alone, Function.update_idem, back]

theorem steps_idle (count : Nat) (disk : Disk) :
    Stage.steps directory number now count disk .idle = ⟨disk, .idle, []⟩ := by
  induction count with
  | zero => rfl
  | succ count ih => simp [Stage.steps, Stage.step_idle, ih]

theorem steps_of_step {disk next : Disk} {stage after : Stage} (count : Nat)
    (stepped : stage.step directory number now disk = ⟨next, after, []⟩) :
    Stage.steps directory number now (count + 1) disk stage =
      Stage.steps directory number now count next after := by
  simp [Stage.steps, stepped]

theorem steps_discard (count : Nat) (disk : Disk) (draft : Draft) :
    Stage.steps directory number now (count + 1) disk (.holding draft .discard) =
      ⟨Disk.save.discard disk (draft.path directory), .idle, []⟩ := by
  rw [steps_of_step count rfl, steps_idle]

def Draft.placed (directory : PathName) (draft : Draft) (written : Disk) : Disk :=
  match written.replace (draft.path directory) (directory ++ .ofString draft.key) with
  | .ok placed => placed
  | .error _ => Disk.save.discard written (draft.path directory)

def Draft.filled (directory : PathName) (now : Float) (draft : Draft) (created : Disk) : Disk :=
  match created.write (draft.path directory) (Fingerprint.utf8 draft.value) now with
  | .ok written => draft.placed directory written
  | .error _ => Disk.save.discard created (draft.path directory)

theorem steps_place (disk : Disk) (draft : Draft) :
    Stage.steps directory number now 2 disk (.holding draft .place) =
      ⟨draft.placed directory disk, .idle, []⟩ := by
  unfold Draft.placed
  split
  · rename_i placed replaced
    have done : (Stage.holding draft .place).step directory number now disk =
        ⟨placed, .idle, []⟩ := by
      simp only [Stage.step_place, replaced]
    rw [steps_of_step 1 done, steps_idle]
  · rename_i fault failed
    have kept : (Stage.holding draft .place).step directory number now disk =
        ⟨disk, .holding draft .discard, []⟩ := by
      simp only [Stage.step_place, failed]
    rw [steps_of_step 1 kept, steps_discard]

theorem steps_fill (disk : Disk) (draft : Draft) :
    Stage.steps directory number now 3 disk (.holding draft .fill) =
      ⟨draft.filled directory now disk, .idle, []⟩ := by
  unfold Draft.filled
  split
  · rename_i written wrote
    have done : (Stage.holding draft .fill).step directory number now disk =
        ⟨written, .holding draft .place, []⟩ := by
      simp only [Stage.step_fill, wrote]
    rw [steps_of_step 2 done, steps_place]
  · rename_i fault failed
    have kept : (Stage.holding draft .fill).step directory number now disk =
        ⟨disk, .holding draft .discard, []⟩ := by
      simp only [Stage.step_fill, failed]
    rw [steps_of_step 2 kept, steps_discard]

theorem steps_drafting {key : String} {value : List Char} {disk : Disk}
    (free : disk.create ((Draft.mk key value number).path directory) now ≠
      .error .alreadyThere) :
    Stage.steps directory number now 4 disk (.drafting key value) =
      ⟨match disk.create ((Draft.mk key value number).path directory) now with
        | .ok created => (Draft.mk key value number).filled directory now created
        | .error _ => disk, .idle, []⟩ := by
  cases creates : disk.create ((Draft.mk key value number).path directory) now with
  | error fault =>
      have ended : (Stage.drafting key value).step directory number now disk =
          ⟨disk, .idle, []⟩ := by
        simp only [Stage.step_drafting, creates]
        split
        · rename_i same
          cases same
        · rename_i same
          exact absurd (creates.trans same) free
        · rfl
      rw [steps_of_step 3 ended, steps_idle]
  | ok created =>
      have begun : (Stage.drafting key value).step directory number now disk =
          ⟨created, .holding ⟨key, value, number⟩ .fill, []⟩ := by
        simp only [Stage.step_drafting, creates]
      rw [steps_of_step 3 begun, steps_fill]

theorem steps_opening {key : String} (isName : IsFileName key) (value : List Char) (disk : Disk)
    (fresh : number = (disk.makeDirectories directory).disk.freshNumber directory key
      ((disk.makeDirectories directory).disk.entries.length + 1) 0) :
    Stage.steps directory number now 5 disk (.opening key value) =
      ⟨(disk.save directory key (Fingerprint.utf8 value) now).disk, .idle, []⟩ := by
  have path : (Draft.mk key value number).path directory =
      (disk.makeDirectories directory).disk.temporaryPath directory key := by
    rw [Draft.path, Disk.temporaryPath, fresh]
  have free : (disk.makeDirectories directory).disk.create
      ((Draft.mk key value number).path directory) now ≠ .error .alreadyThere := by
    rw [path]
    exact Disk.create_ne_alreadyThere isName _
  by_cases failed : (disk.makeDirectories directory).fault.isSome = true
  · have ended : (Stage.opening key value).step directory number now disk =
        ⟨(disk.makeDirectories directory).disk, .idle, []⟩ := by
      simp only [Stage.step_opening, failed, if_true]
    rw [steps_of_step 4 ended, steps_idle, Disk.save]
    simp only [failed, if_true]
  · have opened : (Stage.opening key value).step directory number now disk =
        ⟨(disk.makeDirectories directory).disk, .drafting key value, []⟩ := by
      simp only [Stage.step_opening, if_neg failed]
    rw [steps_of_step 4 opened, steps_drafting free, Disk.save, path]
    simp only [if_neg failed]
    generalize (disk.makeDirectories directory).disk = made at path ⊢
    cases creates : made.create (made.temporaryPath directory key) now with
    | error fault => rfl
    | ok created =>
        simp only [Draft.filled, path]
        cases wrote : created.write (made.temporaryPath directory key) (Fingerprint.utf8 value)
            now with
        | error fault => rfl
        | ok written =>
            simp only [Draft.placed, path]
            cases replaced : written.replace (made.temporaryPath directory key)
                (directory ++ PathName.ofString key) with
            | error fault => rfl
            | ok placed => rfl

theorem steps_removing {α : Type} (cache : Cache) (key : String) (store : Store α) (number : Nat)
    (now : Float) :
    Stage.steps cache.directory number now 1 store.disk (.removing key) =
      ⟨(cache.invalidate key store).state.disk, .idle, []⟩ := by
  have done : (Stage.removing key).step cache.directory number now store.disk =
      ⟨(cache.invalidate key store).state.disk, .idle, []⟩ := by
    unfold Cache.invalidate Cache.path
    simp only [Stage.step_removing]
    cases store.disk.unlink (cache.directory ++ PathName.ofString key) with
    | ok cleared => rfl
    | error fault => cases fault <;> rfl
  rw [steps_of_step 0 done, steps_idle]

def Finding.entry {α : Type} (cache : Cache) (key : String) (ttl : Option Seconds)
    (finding : Finding) : Except Failure (Option (Entry α)) :=
  finding.map (Option.map fun found => cache.entry key (.text found.1) found.2 ttl)

theorem steps_looking {α : Type} (cache : Cache) (key : String) (ttl : Option Seconds)
    (store : Store α) (number : Nat) (now : Float) :
    ∃ finding, Stage.steps cache.directory number now 2 store.disk (.looking key) =
        ⟨store.disk, .idle, [(key, finding)]⟩ ∧
      finding.entry cache key ttl = cache.readEntry key ttl store := by
  unfold Cache.readEntry Cache.path
  cases found : store.disk.stat (cache.directory ++ PathName.ofString key) with
  | error fault =>
      refine ⟨.ofFault fault, by simp [Stage.steps, Stage.step_looking, Stage.step_idle, found], ?_⟩
      cases fault <;> rfl
  | ok stored =>
      cases stored with
      | directory =>
          exact ⟨.ok none, by simp [Stage.steps, Stage.step_looking, Stage.step_idle, found], rfl⟩
      | file content modified executable =>
          have read : store.disk.read (cache.directory ++ PathName.ofString key) =
              .ok content := by
            simp only [Disk.read, found]
          refine ⟨(Cache.textOfFile content).map fun text => some (text, modified), ?_, ?_⟩
          · simp [Stage.steps, Stage.step_looking, Stage.step_reading, found, read]
          · simp only [Finding.entry]
            cases Cache.textOfFile content <;> rfl

/-! What a call comes to where its manager has all the turns. -/

variable {α : Type} {cache : Cache} {scene : Scene} {store : Store α} {manager : Nat} {key : String}

theorem run_set (same : scene.disk = store.disk) (idle : scene.stages manager = .idle)
    (isName : IsFileName key) (value : List Char) (ttl : Option Seconds)
    (fresh : number = (store.disk.makeDirectories cache.directory).disk.freshNumber cache.directory
      key ((store.disk.makeDirectories cache.directory).disk.entries.length + 1) 0) :
    scene.run cache.directory
        (.call manager (.set key value) :: List.replicate 5 (.step manager number store.now)) =
      { scene with
        disk := (cache.set key value ttl store).state.disk
        supplied := (key, value) :: scene.supplied } := by
  rw [Cache.state_set]
  rw [← same] at fresh ⊢
  exact run_call idle (.set key value) 5 (steps_opening isName value scene.disk fresh)

theorem run_invalidate (same : scene.disk = store.disk) (idle : scene.stages manager = .idle) :
    scene.run cache.directory [.call manager (.invalidate key), .step manager number now] =
      { scene with disk := (cache.invalidate key store).state.disk } := by
  have alone := steps_removing cache key store number now
  rw [← same] at alone
  exact run_call idle (.invalidate key) 1 alone

theorem run_read (same : scene.disk = store.disk) (idle : scene.stages manager = .idle)
    (ttl : Option Seconds) :
    ∃ finding : Finding, finding.entry cache key ttl = cache.readEntry key ttl store ∧
      scene.run cache.directory
          (.call manager (.read key) :: List.replicate 2 (.step manager number now)) =
        { scene with taken := (key, finding) :: scene.taken } := by
  obtain ⟨finding, alone, entry⟩ := steps_looking cache key ttl store number now
  rw [← same] at alone
  exact ⟨finding, entry, run_call idle (.read key) 2 alone⟩

end Undisturbed

end Sharing

end StatusLine

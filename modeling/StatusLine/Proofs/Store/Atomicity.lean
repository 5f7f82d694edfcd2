import StatusLine.Proofs.Store.Policy
import StatusLine.Proofs.Store.Readiness

/-!
Storing a text is done as a whole or not at all, as far as files go. Making directories leaves every
file where it is. Saving has four steps, and whichever of them fails, every location has the file
that it had before, so that no file is left over. If none fails, that is so everywhere but at the
place of the file that was saved.
-/

/-! The files of a disk by their content, whatever their times are. -/

namespace StatusLine.Disk

def Holds (disk : Disk) (location : Location) (content : List UInt8) : Prop :=
  ∃ modified executable, disk.at? location = some (.file content modified executable)

section Holds

variable {disk : Disk} {location other : Location} {content held : List UInt8}

theorem Holds.unique (here : disk.Holds location content) (there : disk.Holds location held) :
    content = held := by
  obtain ⟨_, _, found⟩ := here
  obtain ⟨_, _, found'⟩ := there
  rw [found] at found'
  cases found'
  rfl

theorem Holds.noDirectory (here : disk.Holds location content) :
    disk.at? location ≠ some .directory := by
  obtain ⟨_, _, found⟩ := here
  simp [found]

theorem holds_put {modified : Float} {executable : Bool} (named : location ≠ []) :
    (disk.put location (.file content modified executable)).Holds location held ↔
      held = content := by
  simp [Holds, disk.at?_put location _ named, eq_comm]

theorem holds_put_of_ne {stored : Stored} (different : other ≠ location) :
    (disk.put location stored).Holds other held ↔ disk.Holds other held := by
  simp only [Holds, disk.at?_put_of_ne location other stored different]

theorem not_holds_erase (named : location ≠ []) : ¬ (disk.erase location).Holds location held := by
  simp [Holds, disk.at?_erase location named]

theorem holds_erase_of_ne (different : other ≠ location) :
    (disk.erase location).Holds other held ↔ disk.Holds other held := by
  simp only [Holds, disk.at?_erase_of_ne location other different]

theorem Holds.of_erase (here : (disk.erase location).Holds other held) : disk.Holds other held := by
  obtain ⟨modified, executable, found⟩ := here
  exact ⟨modified, executable, disk.filesWithin_erase location other held modified executable found⟩

theorem holds_of_read {path : PathName} (read : disk.read path = .ok content) :
    disk.Holds (disk.placeOf path) content := by
  unfold Disk.read at read
  split at read
  · cases read
  · cases read
  · rename_i held modified executable found
    obtain rfl := Except.ok.inj read
    exact ⟨modified, executable, disk.at?_of_stat path _ found⟩

end Holds

structure SameFiles (before after : Disk) : Prop where
  working : after.working = before.working
  directories : before.DirectoriesWithin after
  files : ∀ location content, after.Holds location content ↔ before.Holds location content

theorem SameFiles.refl (disk : Disk) : disk.SameFiles disk :=
  ⟨rfl, fun _ found => found, fun _ _ => .rfl⟩

theorem SameFiles.trans {first second third : Disk} (before : first.SameFiles second)
    (after : second.SameFiles third) : first.SameFiles third :=
  ⟨after.working.trans before.working, before.directories.trans after.directories,
    fun location content => (after.files location content).trans (before.files location content)⟩

theorem sameFiles_ensureDirectory (disk : Disk) (location : Location) (blocked : DiskFault) :
    disk.SameFiles (disk.ensureDirectory location blocked).disk := by
  refine ⟨(disk.keepsFiles_ensureDirectory location blocked).working,
    disk.directoriesWithin_ensureDirectory location blocked, fun other content => ?_⟩
  unfold ensureDirectory
  split
  · rfl
  · rfl
  · rename_i vacant
    split
    · rename_i made done
      rw [eq_of_makeDirectory done]
      by_cases here : other = location
      · subst here
        have free : disk.at? other ≠ some .directory := by simp [vacant]
        simp [Holds, vacant, disk.at?_put other _ (ne_top_of_at? free)]
      · exact holds_put_of_ne here
    · rfl

theorem sameFiles_makeDirectories (disk : Disk) (directory : PathName) :
    disk.SameFiles (disk.makeDirectories directory).disk :=
  makeDirectories_induction (motive := SameFiles) SameFiles.refl SameFiles.trans
    sameFiles_ensureDirectory disk directory

end StatusLine.Disk

namespace StatusLine.Disk

def file? (disk : Disk) (location : Location) : Option (List UInt8 × Float × Bool) :=
  match disk.at? location with
  | some (.file content modified executable) => some (content, modified, executable)
  | _ => none

section Files

variable {disk other : Disk} {location place : Location}

theorem file?_congr (same : other.at? location = disk.at? location) :
    other.file? location = disk.file? location := by
  simp only [file?, same]

theorem file?_of_vacant (vacant : disk.at? location = none) : disk.file? location = none := by
  simp only [file?, vacant]

theorem file?_put_directory (vacant : disk.at? place = none) (location : Location) :
    (disk.put place .directory).file? location = disk.file? location := by
  by_cases here : location = place
  · subst here
    have free : disk.at? location ≠ some .directory := by simp [vacant]
    have made := disk.at?_put location .directory (ne_top_of_at? free)
    rw [file?_of_vacant vacant]
    simp only [file?, made]
  · exact file?_congr (disk.at?_put_of_ne place location _ here)

theorem file?_ensureDirectory (disk : Disk) (place : Location) (blocked : DiskFault)
    (location : Location) :
    (disk.ensureDirectory place blocked).disk.file? location = disk.file? location := by
  unfold ensureDirectory
  split
  · rfl
  · rfl
  · rename_i vacant
    split
    · rename_i made done
      rw [eq_of_makeDirectory done]
      exact file?_put_directory vacant location
    · rfl

theorem file?_makeDirectories (disk : Disk) (directory : PathName) (location : Location) :
    (disk.makeDirectories directory).disk.file? location = disk.file? location :=
  makeDirectories_induction
    (motive := fun before after => ∀ location, after.file? location = before.file? location)
    (fun _ _ => rfl) (fun first second location => (second location).trans (first location))
    file?_ensureDirectory disk directory location

end Files

section Drafts

variable {disk after : Disk} {temporary : PathName} {origin : Location} {content : List UInt8}
  {now : Float}

theorem Drafted.file?_discard (drafted : disk.Drafted after temporary origin content now)
    (vacant : disk.at? origin = none) (location : Location) :
    (save.discard after temporary).file? location = disk.file? location := by
  obtain ⟨executable, found⟩ := drafted.found
  have cleared := unlink_eq_erase drafted.located found
  have noDirectory : after.at? origin ≠ some .directory := by simp [found]
  simp only [save.discard, cleared]
  by_cases here : location = origin
  · subst here
    have gone := after.at?_erase location (ne_top_of_at? noDirectory)
    rw [file?_of_vacant gone, file?_of_vacant vacant]
  · have kept := after.at?_erase_of_ne origin location here
    exact file?_congr (kept.trans (drafted.others location here))

theorem Drafted.file?_replace {replaced : Disk} {target : PathName}
    (drafted : disk.Drafted after temporary origin content now) (vacant : disk.at? origin = none)
    (done : after.replace temporary target = .ok replaced) {location : Location}
    (elsewhere : location ≠ disk.placeOf target) :
    replaced.file? location = disk.file? location := by
  obtain ⟨source, goal, held, modified, executable, atSource, atTarget, -, -, rfl⟩ :=
    eq_of_replace done
  have same : source = origin := Except.ok.inj (atSource.symm.trans drafted.located)
  subst same
  have place : goal = disk.placeOf target :=
    (after.locate_eq_placeOf target goal atTarget).trans (placeOf_congr drafted.working target)
  rw [← place] at elsewhere
  have moved := (after.erase source).at?_put_of_ne goal location
    (.file held modified executable) elsewhere
  have discarded := drafted.file?_discard vacant location
  obtain ⟨executable', found⟩ := drafted.found
  simp only [save.discard, unlink_eq_erase drafted.located found] at discarded
  exact (file?_congr moved).trans discarded

end Drafts

/-! The steps of saving. -/

section Save

variable (disk : Disk) (directory : PathName) (name : String) (content : List UInt8) (now : Float)

inductive SaveFails : DiskStep → DiskFault → Prop
  | makeDirectory {fault : DiskFault}
      (failed : (disk.makeDirectories directory).fault = some fault) :
      SaveFails .makeDirectory fault
  | create {made : Disk} {fault : DiskFault}
      (opened : disk.makeDirectories directory = ⟨made, none⟩)
      (failed : made.create (made.temporaryPath directory name) now = .error fault) :
      SaveFails .create fault
  | write {made created : Disk} {fault : DiskFault}
      (opened : disk.makeDirectories directory = ⟨made, none⟩)
      (drafted : made.create (made.temporaryPath directory name) now = .ok created)
      (failed : created.write (made.temporaryPath directory name) content now = .error fault) :
      SaveFails .write fault
  | replace {made created written : Disk} {fault : DiskFault}
      (opened : disk.makeDirectories directory = ⟨made, none⟩)
      (drafted : made.create (made.temporaryPath directory name) now = .ok created)
      (filled : created.write (made.temporaryPath directory name) content now = .ok written)
      (failed : written.replace (made.temporaryPath directory name)
        (directory ++ .ofString name) = .error fault) :
      SaveFails .replace fault

theorem fault_save_iff (fault : DiskFault) :
    (disk.save directory name content now).fault = some fault ↔
      ∃ step, disk.SaveFails directory name content now step fault := by
  constructor
  · intro failed
    cases opened : disk.makeDirectories directory with
    | mk made blocked =>
      cases blocked with
      | some blocked =>
          have same : some blocked = some fault := by simpa [save, opened] using failed
          exact ⟨.makeDirectory, .makeDirectory (by rw [opened, same])⟩
      | none =>
          cases drafted : made.create (made.temporaryPath directory name) now with
          | error problem =>
              have same : problem = fault := by simpa [save, opened, drafted] using failed
              exact ⟨.create, .create opened (by rw [drafted, same])⟩
          | ok created =>
              cases filled : created.write (made.temporaryPath directory name) content now with
              | error problem =>
                  have same : problem = fault := by
                    simpa [save, opened, drafted, filled] using failed
                  exact ⟨.write, .write opened drafted (by rw [filled, same])⟩
              | ok written =>
                  cases moved : written.replace (made.temporaryPath directory name)
                      (directory ++ .ofString name) with
                  | error problem =>
                      have same : problem = fault := by
                        simpa [save, opened, drafted, filled, moved] using failed
                      exact ⟨.replace, .replace opened drafted filled (by rw [moved, same])⟩
                  | ok done => simp [save, opened, drafted, filled, moved] at failed
  · rintro ⟨step, fails⟩
    cases fails with
    | makeDirectory failed => simp [save, failed]
    | create opened failed => simp [save, opened, failed]
    | write opened drafted failed => simp [save, opened, drafted, failed]
    | replace opened drafted filled failed => simp [save, opened, drafted, filled, failed]

example (step : DiskStep) :
    ((⟨[], [], [step]⟩ : Disk).save (.ofString "cache") "key" [] 0).fault = some .refused := by
  cases step <;> rfl

theorem file?_save (location : Location)
    (kept : (disk.save directory name content now).fault ≠ none ∨
      location ≠ disk.placeOf (directory ++ .ofString name)) :
    (disk.save directory name content now).disk.file? location = disk.file? location := by
  have made := disk.file?_makeDirectories directory location
  have placed := placeOf_congr (disk.keepsFiles_makeDirectories directory).working
    (directory ++ .ofString name)
  revert kept
  simp only [save]
  split
  · exact fun _ => made
  · generalize (disk.makeDirectories directory).disk = start at made placed
    split
    · exact fun _ => made
    · rename_i created filed
      obtain ⟨origin, vacant, drafted⟩ := drafted_of_create filed
      split
      · exact fun _ => (drafted.file?_discard vacant location).trans made
      · rename_i written filled
        have full := drafted.write filled
        split
        · exact fun _ => (full.file?_discard vacant location).trans made
        · rename_i done moved
          intro kept
          have elsewhere := kept.resolve_left fun failed => failed rfl
          rw [← placed] at elsewhere
          exact (full.file?_replace vacant moved elsewhere).trans made

end Save

end StatusLine.Disk

namespace StatusLine.Cache

/-- Storing a text is atomic: where a step on the disk fails, memory alone is changed. -/
structure SetsAtomically {α : Type} (cache : Cache) (key : String) (value : List Char)
    (ttl : Option Seconds) (store : Store α) : Prop where
  /-- Memory has the text, whatever the disk does. -/
  inMemory : InMemory (cache.set key value ttl store).state key value
  /-- No other key is touched. -/
  others : ∀ other, other ≠ key →
    (cache.set key value ttl store).state.remembered other = store.remembered other
  /-- A failing step changes no file, and it goes unnoticed unless no disk can hold the name. -/
  failing : ∀ step fault,
    store.disk.SaveFails cache.directory key (Fingerprint.utf8 value) store.now step fault →
      (fault ≠ .invalidName → (cache.set key value ttl store).result =
        .ok (cache.entry key (.text value) store.now ttl)) ∧
      ∀ location, (cache.set key value ttl store).state.disk.file? location =
        store.disk.file? location
  /-- Otherwise the file of the key has the text, and every other file is as it was. -/
  done : (∀ step fault,
      ¬ store.disk.SaveFails cache.directory key (Fingerprint.utf8 value) store.now step fault) →
    (cache.set key value ttl store).result =
        .ok (cache.entry key (.text value) store.now ttl) ∧
      cache.InFile (cache.set key value ttl store).state key value ∧
      ∀ location, location ≠ store.disk.placeOf (cache.path key) →
        (cache.set key value ttl store).state.disk.file? location = store.disk.file? location

theorem sets_atomically {α : Type} (cache : Cache) (key : String) (value : List Char)
    (ttl : Option Seconds) (store : Store α) : SetsAtomically cache key value ttl store := by
  constructor
  case inMemory => exact inMemory_of_set
  case others => exact fun other different => remembered_set_of_ne value ttl different
  case failing =>
    intro step fault fails
    have failed : cache.refusal store key value store.now = some fault :=
      (store.disk.fault_save_iff _ _ _ _ fault).mpr ⟨step, fails⟩
    refine ⟨fun spoken => result_set fun same => spoken ?_, fun location => ?_⟩
    · exact Option.some.inj (failed.symm.trans same)
    · rw [state_set]
      exact store.disk.file?_save _ _ _ _ location (.inl fun none => by
        cases failed.symm.trans none)
  case done =>
    intro succeeds
    have taken : cache.refusal store key value store.now = none := by
      cases failed : cache.refusal store key value store.now with
      | none => rfl
      | some fault =>
          obtain ⟨step, fails⟩ := (store.disk.fault_save_iff _ _ _ _ fault).mp failed
          exact absurd fails (succeeds step fault)
    refine ⟨result_set (by simp [taken]), inFile_of_set taken, fun location elsewhere => ?_⟩
    rw [state_set]
    exact store.disk.file?_save _ _ _ _ location (.inr elsewhere)

end StatusLine.Cache

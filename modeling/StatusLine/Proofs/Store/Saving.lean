import StatusLine.Store.Disk

/-!
Saving a file on a disk: afterwards the file has its new content, and no other file is new or has
changed, also where saving fails halfway. Directories are only added, and so every path name leads
to where it led before.
-/

namespace StatusLine.Disk

theorem at?_top (disk : Disk) : disk.at? [] = some .directory := by
  simp [at?]

theorem at?_erase (disk : Disk) (location : Location) (named : location ≠ []) :
    (disk.erase location).at? location = none := by
  simp [at?, erase, named, List.find?_eq_none]

theorem at?_erase_of_ne (disk : Disk) (location other : Location) (different : other ≠ location) :
    (disk.erase location).at? other = disk.at? other := by
  by_cases top : other = []
  · rw [top, at?_top, at?_top]
  · simp only [at?, erase, List.isEmpty_iff, top, if_false, List.find?_filter]
    congr 2
    funext entry
    by_cases found : entry.1 = other <;> simp [found, different]

/-! What one disk has of another one. -/

def DirectoriesWithin (disk other : Disk) : Prop :=
  ∀ location, disk.at? location = some .directory → other.at? location = some .directory

def FilesWithin (disk other : Disk) : Prop :=
  ∀ location content modified executable,
    disk.at? location = some (.file content modified executable) →
      other.at? location = some (.file content modified executable)

theorem FilesWithin.refl (disk : Disk) : disk.FilesWithin disk :=
  fun _ _ _ _ found => found

theorem FilesWithin.trans {first second third : Disk} (before : first.FilesWithin second)
    (after : second.FilesWithin third) : first.FilesWithin third :=
  fun location content modified executable found =>
    after location content modified executable (before location content modified executable found)

theorem directoriesWithin_put (disk : Disk) (location : Location) (stored : Stored)
    (noDirectory : disk.at? location ≠ some .directory) :
    disk.DirectoriesWithin (disk.put location stored) := by
  intro other found
  have different : other ≠ location := by
    intro same
    exact noDirectory (same ▸ found)
  rw [at?_put_of_ne disk location other stored different]
  exact found

theorem directoriesWithin_erase (disk : Disk) (location : Location)
    (noDirectory : disk.at? location ≠ some .directory) :
    disk.DirectoriesWithin (disk.erase location) := by
  intro other found
  have different : other ≠ location := by
    intro same
    exact noDirectory (same ▸ found)
  rw [at?_erase_of_ne disk location other different]
  exact found

theorem filesWithin_erase (disk : Disk) (location : Location) :
    (disk.erase location).FilesWithin disk := by
  intro other content modified executable found
  by_cases same : other = location
  · subst same
    by_cases top : other = []
    · rw [top, at?_top] at found
      cases found
    · rw [at?_erase disk other top] at found
      cases found
  · rw [at?_erase_of_ne disk location other same] at found
    exact found

theorem filesWithin_put_directory (disk : Disk) (location : Location) :
    (disk.put location .directory).FilesWithin disk := by
  intro other content modified executable found
  by_cases same : other = location
  · subst same
    by_cases top : other = []
    · rw [top, at?_top] at found
      cases found
    · rw [at?_put disk other .directory top] at found
      cases found
  · rw [at?_put_of_ne disk location other .directory same] at found
    exact found

/-! Where a path name leads. -/

/-- The location that names lead to, if all of it is there. -/
def resolve : Location → List (List Char) → Location
  | here, [] => here
  | here, name :: rest =>
      if name = ['.', '.'] then resolve here.dropLast rest else resolve (here ++ [name]) rest

theorem resolve_append (here : Location) (first second : List (List Char)) :
    resolve here (first ++ second) = resolve (resolve here first) second := by
  induction first generalizing here with
  | nil => rfl
  | cons name rest ih =>
      simp only [List.cons_append, resolve]
      split
      · exact ih here.dropLast
      · exact ih (here ++ [name])

theorem follow_eq_resolve (disk : Disk) (names : List (List Char)) (here place : Location)
    (followed : disk.follow here names = .ok place) : place = resolve here names := by
  induction names generalizing here with
  | nil =>
      simp only [follow, Except.ok.injEq] at followed
      exact followed.symm
  | cons name rest ih =>
      simp only [follow] at followed
      simp only [resolve]
      split at followed
      · cases followed
      · cases followed
      · split at followed
        · rename_i up
          rw [if_pos up]
          exact ih here.dropLast followed
        · rename_i down
          rw [if_neg down]
          split at followed
          · cases followed
          · exact ih (here ++ [name]) followed

theorem follow_of_directoriesWithin {disk other : Disk} (within : disk.DirectoriesWithin other)
    (names : List (List Char)) (here place : Location)
    (followed : disk.follow here names = .ok place) : other.follow here names = .ok place := by
  induction names generalizing here with
  | nil => exact followed
  | cons name rest ih =>
      simp only [follow] at followed ⊢
      split at followed
      · cases followed
      · cases followed
      · rename_i directory
        rw [within here directory]
        simp only
        split at followed
        · rename_i up
          rw [if_pos up]
          exact ih here.dropLast followed
        · rename_i down
          rw [if_neg down]
          split at followed
          · cases followed
          · rename_i short
            rw [if_neg short]
            exact ih (here ++ [name]) followed

/-- The location that a path name stands for. -/
def placeOf (disk : Disk) (path : PathName) : Location :=
  resolve (disk.start path) path.parts

theorem start_congr {disk other : Disk} (same : other.working = disk.working) (path : PathName) :
    other.start path = disk.start path := by
  unfold start
  rw [same]

theorem placeOf_congr {disk other : Disk} (same : other.working = disk.working)
    (path : PathName) : other.placeOf path = disk.placeOf path := by
  unfold placeOf
  rw [start_congr same]

theorem locate_eq_placeOf (disk : Disk) (path : PathName) (location : Location)
    (located : disk.locate path = .ok location) : location = disk.placeOf path := by
  unfold locate at located
  split at located
  · cases located
  · exact disk.follow_eq_resolve path.parts (disk.start path) location located

theorem locate_of_directoriesWithin {disk other : Disk} (within : disk.DirectoriesWithin other)
    (same : other.working = disk.working) (path : PathName) (location : Location)
    (located : disk.locate path = .ok location) : other.locate path = .ok location := by
  unfold locate at located ⊢
  split at located
  · cases located
  · rename_i speakable
    rw [if_neg speakable, start_congr same]
    exact follow_of_directoriesWithin within path.parts _ location located

theorem stat_eq (disk : Disk) (path : PathName) (location : Location) (stored : Stored)
    (located : disk.locate path = .ok location) (found : disk.at? location = some stored) :
    disk.stat path = .ok stored := by
  simp [stat, located, found]

theorem at?_of_stat (disk : Disk) (path : PathName) (stored : Stored)
    (found : disk.stat path = .ok stored) : disk.at? (disk.placeOf path) = some stored := by
  unfold stat at found
  split at found
  · cases found
  · rename_i location located
    rw [← disk.locate_eq_placeOf path location located]
    split at found
    · rename_i there
      rw [there, Except.ok.inj found]
    · cases found

/-! What a step that was done has changed. -/

section Steps

variable {disk : Disk} {path : PathName} {now : Float}

theorem eq_of_create {created : Disk} (done : disk.create path now = .ok created) :
    ∃ location, disk.locate path = .ok location ∧ disk.at? location = none ∧
      created = disk.put location (.file [] now false) := by
  unfold create at done
  cases located : disk.locate path with
  | error fault => simp [located, bind, Except.bind] at done
  | ok location =>
      simp only [located, bind, Except.bind] at done
      cases vacant : disk.at? location with
      | some stored => simp [vacant] at done
      | none =>
          cases permitted : disk.permit .create with
          | error fault => simp [vacant, permitted] at done
          | ok _ =>
              simp only [vacant, permitted, Option.isSome_none, Bool.false_eq_true, if_false,
                pure, Except.pure, Except.ok.injEq] at done
              exact ⟨location, rfl, vacant, done.symm⟩

theorem eq_of_write {content : List UInt8} {written : Disk}
    (done : disk.write path content now = .ok written) :
    ∃ location executable, disk.locate path = .ok location ∧
      disk.at? location ≠ some .directory ∧
      written = disk.put location (.file content now executable) := by
  unfold write at done
  cases located : disk.locate path with
  | error fault => simp [located, bind, Except.bind] at done
  | ok location =>
      simp only [located, bind, Except.bind] at done
      cases permitted : disk.permit .write with
      | error fault =>
          simp only [permitted] at done
          split at done <;> cases done
      | ok _ =>
          simp only [permitted, pure, Except.pure] at done
          split at done
          · cases done
          · rename_i executable found
            exact ⟨location, executable, rfl, by simp [found], (Except.ok.inj done).symm⟩
          · rename_i found
            exact ⟨location, false, rfl, by simp [found], (Except.ok.inj done).symm⟩

theorem eq_of_replace {source target : PathName} {replaced : Disk}
    (done : disk.replace source target = .ok replaced) :
    ∃ origin goal content modified executable,
      disk.locate source = .ok origin ∧ disk.locate target = .ok goal ∧
      disk.at? origin = some (.file content modified executable) ∧
      disk.at? goal ≠ some .directory ∧
      replaced = (disk.erase origin).put goal (.file content modified executable) := by
  unfold replace at done
  cases atSource : disk.locate source with
  | error fault => simp [atSource, bind, Except.bind] at done
  | ok origin =>
      cases atTarget : disk.locate target with
      | error fault => simp [atSource, atTarget, bind, Except.bind] at done
      | ok goal =>
          simp only [atSource, atTarget, bind, Except.bind, pure, Except.pure] at done
          cases found : disk.at? origin with
          | none => simp [found] at done
          | some stored =>
              cases stored with
              | directory => simp [found] at done
              | file content modified executable =>
                  have noDirectory : disk.at? goal ≠ some .directory := by
                    intro directory
                    simp [found, directory] at done
                  have replaced' : replaced =
                      (disk.erase origin).put goal (.file content modified executable) := by
                    rw [found] at done
                    cases permitted : disk.permit .replace with
                    | error fault =>
                        simp only [permitted] at done
                        cases done
                    | ok _ =>
                        simp only [permitted] at done
                        exact (Except.ok.inj done).symm
                  exact ⟨origin, goal, content, modified, executable, rfl, rfl, found,
                    noDirectory, replaced'⟩

theorem unlink_eq_erase {location : Location} {content : List UInt8} {modified : Float}
    {executable : Bool} (located : disk.locate path = .ok location)
    (found : disk.at? location = some (.file content modified executable)) :
    disk.unlink path = .ok (disk.erase location) := by
  simp [unlink, located, found, bind, Except.bind, pure, Except.pure]

theorem eq_of_unlink {cleared : Disk} (done : disk.unlink path = .ok cleared) :
    ∃ location content modified executable, disk.locate path = .ok location ∧
      disk.at? location = some (.file content modified executable) ∧
      cleared = disk.erase location := by
  unfold unlink at done
  cases located : disk.locate path with
  | error fault => simp [located, bind, Except.bind] at done
  | ok location =>
      simp only [located, bind, Except.bind, pure, Except.pure] at done
      split at done
      · cases done
      · cases done
      · rename_i content modified executable found
        exact ⟨location, content, modified, executable, rfl, found, (Except.ok.inj done).symm⟩

/-! Making directories. -/

theorem eq_of_makeDirectory {location : Location} {made : Disk}
    (done : disk.makeDirectory location = .ok made) : made = disk.put location .directory := by
  unfold makeDirectory at done
  cases permitted : disk.permit .makeDirectory with
  | error fault => simp [permitted, bind, Except.bind] at done
  | ok _ =>
      simp only [permitted, bind, Except.bind, pure, Except.pure, Except.ok.injEq] at done
      exact done.symm

structure KeepsFiles (before after : Disk) : Prop where
  files : after.FilesWithin before
  working : after.working = before.working

theorem KeepsFiles.refl (disk : Disk) : disk.KeepsFiles disk :=
  ⟨FilesWithin.refl disk, rfl⟩

theorem KeepsFiles.trans {first second third : Disk} (before : first.KeepsFiles second)
    (after : second.KeepsFiles third) : first.KeepsFiles third :=
  ⟨after.files.trans before.files, after.working.trans before.working⟩

theorem keepsFiles_ensureDirectory (disk : Disk) (location : Location) (blocked : DiskFault) :
    disk.KeepsFiles (disk.ensureDirectory location blocked).disk := by
  unfold ensureDirectory
  split
  · exact .refl disk
  · exact .refl disk
  · split
    · rename_i made done
      rw [eq_of_makeDirectory done]
      exact ⟨disk.filesWithin_put_directory location, rfl⟩
    · exact .refl disk

/-- What making one directory does to a disk, and what follows from doing that again and again, is
what making all the directories of a path name does. -/
theorem makeAlong_induction {motive : Disk → Disk → Prop}
    (trans : ∀ {first second third : Disk}, motive first second → motive second third →
      motive first third)
    (ensured : ∀ (disk : Disk) (location : Location) (blocked : DiskFault),
      motive disk (disk.ensureDirectory location blocked).disk)
    (names : List (List Char)) (here : Location) (disk : Disk) :
    motive disk (makeAlong here names disk).disk := by
  induction names generalizing here disk with
  | nil => exact ensured disk here .alreadyThere
  | cons name rest ih =>
      have made := ensured disk here .notADirectory
      simp only [makeAlong]
      split
      · exact made
      · split
        · exact trans made (ih here.dropLast _)
        · split
          · exact made
          · exact trans made (ih (here ++ [name]) _)

theorem makeDirectories_induction {motive : Disk → Disk → Prop}
    (refl : ∀ disk : Disk, motive disk disk)
    (trans : ∀ {first second third : Disk}, motive first second → motive second third →
      motive first third)
    (ensured : ∀ (disk : Disk) (location : Location) (blocked : DiskFault),
      motive disk (disk.ensureDirectory location blocked).disk)
    (disk : Disk) (directory : PathName) : motive disk (disk.makeDirectories directory).disk := by
  unfold makeDirectories
  split
  · exact refl disk
  · exact makeAlong_induction (motive := motive) trans ensured directory.parts _ disk

theorem keepsFiles_makeDirectories (disk : Disk) (directory : PathName) :
    disk.KeepsFiles (disk.makeDirectories directory).disk :=
  makeDirectories_induction (motive := KeepsFiles) KeepsFiles.refl KeepsFiles.trans
    keepsFiles_ensureDirectory disk directory

/-! Saving. -/

structure Drafted (before after : Disk) (temporary : PathName) (origin : Location)
    (content : List UInt8) (now : Float) : Prop where
  located : after.locate temporary = .ok origin
  found : ∃ executable, after.at? origin = some (.file content now executable)
  others : ∀ location, location ≠ origin → after.at? location = before.at? location
  working : after.working = before.working

variable {origin : Location} {content : List UInt8} {temporary : PathName}

theorem ne_top_of_at? {location : Location} (noDirectory : disk.at? location ≠ some .directory) :
    location ≠ [] := by
  intro top
  rw [top] at noDirectory
  exact noDirectory disk.at?_top

theorem drafted_of_create {created : Disk} (done : disk.create temporary now = .ok created) :
    ∃ origin, disk.at? origin = none ∧ disk.Drafted created temporary origin [] now := by
  obtain ⟨origin, located, vacant, rfl⟩ := eq_of_create done
  have noDirectory : disk.at? origin ≠ some .directory := by simp [vacant]
  refine ⟨origin, vacant, ?_, ?_, ?_, rfl⟩
  · exact locate_of_directoriesWithin (disk.directoriesWithin_put origin _ noDirectory) rfl
      temporary origin located
  · exact ⟨false, disk.at?_put origin _ (ne_top_of_at? noDirectory)⟩
  · intro location different
    exact disk.at?_put_of_ne origin location _ different

theorem Drafted.write {created written : Disk} {later : List UInt8}
    (drafted : disk.Drafted created temporary origin content now)
    (done : created.write temporary later now = .ok written) :
    disk.Drafted written temporary origin later now := by
  obtain ⟨location, executable, located, noDirectory, rfl⟩ := eq_of_write done
  have same : location = origin := by
    have both := located.symm.trans drafted.located
    exact Except.ok.inj both
  subst same
  refine ⟨?_, ?_, ?_, drafted.working⟩
  · exact locate_of_directoriesWithin (created.directoriesWithin_put location _ noDirectory) rfl
      temporary location located
  · exact ⟨executable, created.at?_put location _ (ne_top_of_at? noDirectory)⟩
  · intro other different
    rw [created.at?_put_of_ne location other _ different]
    exact drafted.others other different

theorem Drafted.keepsFiles_discard {after : Disk}
    (drafted : disk.Drafted after temporary origin content now) :
    disk.KeepsFiles (save.discard after temporary) := by
  obtain ⟨executable, found⟩ := drafted.found
  have cleared := unlink_eq_erase drafted.located found
  simp only [save.discard, cleared]
  refine ⟨?_, drafted.working⟩
  intro location content modified executable' there
  by_cases same : location = origin
  · subst same
    have noDirectory : after.at? location ≠ some .directory := by simp [found]
    rw [after.at?_erase location (ne_top_of_at? noDirectory)] at there
    cases there
  · rw [after.at?_erase_of_ne origin location same, drafted.others location same] at there
    exact there

structure Placed (before after : Disk) (target : PathName) (content : List UInt8)
    (now : Float) : Prop where
  found : ∃ executable, after.stat target = .ok (.file content now executable)
  others : ∀ location, location ≠ before.placeOf target →
    ∀ held modified executable, after.at? location = some (.file held modified executable) →
      before.at? location = some (.file held modified executable)
  working : after.working = before.working

theorem Drafted.replace {after replaced : Disk} {target : PathName}
    (drafted : disk.Drafted after temporary origin content now)
    (done : after.replace temporary target = .ok replaced) :
    disk.Placed replaced target content now := by
  obtain ⟨source, goal, held, modified, executable, atSource, atTarget, found, noDirectory, rfl⟩ :=
    eq_of_replace done
  have same : source = origin := Except.ok.inj (atSource.symm.trans drafted.located)
  subst same
  obtain ⟨executable', drawn⟩ := drafted.found
  obtain ⟨rfl, rfl, rfl⟩ : held = content ∧ modified = now ∧ executable = executable' := by
    simpa [drawn, eq_comm] using found
  have noSource : after.at? source ≠ some .directory := by simp [drawn]
  have erased : (after.erase source).at? goal ≠ some .directory := by
    by_cases here : goal = source
    · subst here
      rw [after.at?_erase goal (ne_top_of_at? noSource)]
      simp
    · rw [after.at?_erase_of_ne source goal here]
      exact noDirectory
  have place : goal = disk.placeOf target := by
    rw [after.locate_eq_placeOf target goal atTarget]
    exact placeOf_congr drafted.working target
  refine ⟨⟨executable, ?_⟩, ?_, drafted.working⟩
  · refine stat_eq _ target goal _ ?_ (at?_put _ goal _ (ne_top_of_at? erased))
    have kept := locate_of_directoriesWithin (after.directoriesWithin_erase source noSource) rfl
      target goal atTarget
    exact locate_of_directoriesWithin ((after.erase source).directoriesWithin_put goal _ erased) rfl
      target goal kept
  · intro location elsewhere held' modified' executable' there
    rw [← place] at elsewhere
    rw [at?_put_of_ne _ goal location _ elsewhere] at there
    have before := after.filesWithin_erase source location held' modified' executable' there
    by_cases here : location = source
    · subst here
      rw [after.at?_erase location (ne_top_of_at? noSource)] at there
      cases there
    · rw [drafted.others location here] at before
      exact before

end Steps

section Save

variable (disk : Disk) (directory : PathName) (name : String) (content : List UInt8) (now : Float)

theorem placed_save :
    ((disk.save directory name content now).fault = none ∧
      disk.Placed (disk.save directory name content now).disk (directory ++ .ofString name)
        content now) ∨
    ((disk.save directory name content now).fault ≠ none ∧
      disk.KeepsFiles (disk.save directory name content now).disk) := by
  have made := disk.keepsFiles_makeDirectories directory
  simp only [save]
  split
  · rename_i failed
    exact .inr ⟨by simpa [Option.isSome_iff_ne_none] using failed, made⟩
  · generalize (disk.makeDirectories directory).disk = start at made
    split
    · exact .inr ⟨by simp, made⟩
    · rename_i created filed
      obtain ⟨origin, _, drafted⟩ := drafted_of_create filed
      split
      · exact .inr ⟨by simp, made.trans drafted.keepsFiles_discard⟩
      · rename_i written filled
        have full := drafted.write filled
        split
        · exact .inr ⟨by simp, made.trans full.keepsFiles_discard⟩
        · rename_i done moved
          have placed := full.replace moved
          refine .inl ⟨rfl, placed.found, ?_, placed.working.trans made.working⟩
          intro location elsewhere held modified executable there
          refine made.files location held modified executable ?_
          refine placed.others location ?_ held modified executable there
          rw [placeOf_congr made.working]
          exact elsewhere

theorem stat_save (saved : (disk.save directory name content now).fault = none) :
    ∃ executable, (disk.save directory name content now).disk.stat (directory ++ .ofString name) =
      .ok (.file content now executable) := by
  rcases disk.placed_save directory name content now with ⟨_, placed⟩ | ⟨failed, _⟩
  · exact placed.found
  · exact absurd saved failed

theorem working_save :
    (disk.save directory name content now).disk.working = disk.working := by
  rcases disk.placed_save directory name content now with ⟨_, placed⟩ | ⟨_, kept⟩
  · exact placed.working
  · exact kept.working

theorem file_of_save (location : Location) (held : List UInt8) (modified : Float)
    (executable : Bool)
    (found : (disk.save directory name content now).disk.at? location =
      some (.file held modified executable)) :
    (location = disk.placeOf (directory ++ .ofString name) ∧ held = content) ∨
      disk.at? location = some (.file held modified executable) := by
  rcases disk.placed_save directory name content now with ⟨_, placed⟩ | ⟨_, kept⟩
  · by_cases here : location = disk.placeOf (directory ++ .ofString name)
    · left
      obtain ⟨executable', saved⟩ := placed.found
      have there := at?_of_stat _ _ _ saved
      rw [placeOf_congr placed.working, ← here, found] at there
      cases there
      exact ⟨here, rfl⟩
    · right
      exact placed.others location here held modified executable found
  · right
    exact kept.files location held modified executable found

end Save

end StatusLine.Disk

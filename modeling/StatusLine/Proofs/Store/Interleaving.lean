import StatusLine.Proofs.Store.Atomicity
import StatusLine.Proofs.Store.ReadBack
import StatusLine.Proofs.Store.Sharing

/-!
Turns of managers on one directory, in any order. Every file in the directory is either the complete
text of a key or the draft of one manager, and no draft has the name of a key. So a text that is
taken from a file was supplied for its key as a whole.
-/

namespace StatusLine.Sharing

/-! What is true of the managers all the time. -/

/-- A file has the name of a key and the complete text that was supplied for it. -/
def IsSupplied (supplied : List (String × List Char)) (name : List Char)
    (content : List UInt8) : Prop :=
  ∃ key value, (key, value) ∈ supplied ∧ name = key.toList ∧ content = Fingerprint.utf8 value

/-- What is taken from the file of a key is a text that was supplied for the key, with its line ends
unified. Else it is nothing, unless the name is one that no disk can hold. -/
def Genuine (directory : PathName) (supplied : List (String × List Char)) (key : String)
    (finding : Finding) : Prop :=
  (∃ value modified, (key, value) ∈ supplied ∧
      finding = .ok (some (Text.unifyLineEnds value, modified))) ∨
    finding = .ok none ∨
    (finding = .error DiskFault.invalidName.failure ∧
      ¬ (directory ++ .ofString key : PathName).Speakable)

structure Draft.Present (directory : PathName) (place : Location) (disk : Disk)
    (draft : Draft) : Prop where
  located : disk.locate (draft.path directory) = .ok (place ++ [draft.name])
  there : ∃ content, disk.Holds (place ++ [draft.name]) content

def Stage.Has : Stage → List Char → Prop
  | .holding draft _, name => name = draft.name
  | _, _ => False

def Stage.Sound (directory : PathName) (place : Location) (supplied : List (String × List Char))
    (disk : Disk) : Stage → Prop
  | .idle => True
  | .opening key value => IsFileName key ∧ (key, value) ∈ supplied
  | .drafting key value => IsFileName key ∧ (key, value) ∈ supplied
  | .holding draft next =>
      (IsFileName draft.key ∧ (draft.key, draft.value) ∈ supplied) ∧
        draft.Present directory place disk ∧
        (next = .place → disk.Holds (place ++ [draft.name]) (Fingerprint.utf8 draft.value))
  | .removing key => IsFileName key
  | .looking key => IsFileName key
  | .reading key _ => IsFileName key

/-- What a step of a manager leaves of the drafts of others, and of the files. -/
structure Advance.Harmless (directory : PathName) (place : Location)
    (supplied : List (String × List Char)) (disk : Disk) (stage : Stage) (done : Advance) :
    Prop where
  working : done.disk.working = disk.working
  directories : disk.DirectoriesWithin done.disk
  others : ∀ name content, name.head? = some '.' → ¬ stage.Has name →
    disk.Holds (place ++ [name]) content → done.disk.Holds (place ++ [name]) content
  fresh : ∀ name, done.stage.Has name → stage.Has name ∨
    ∀ content, ¬ disk.Holds (place ++ [name]) content
  files : ∀ name content, done.disk.Holds (place ++ [name]) content →
    IsSupplied supplied name content ∨ done.stage.Has name ∨
      (disk.Holds (place ++ [name]) content ∧ ¬ stage.Has name)
  sound : done.stage.Sound directory place supplied done.disk
  taken : ∀ key finding, (key, finding) ∈ done.taken → Genuine directory supplied key finding

theorem Stage.Has.head {stage : Stage} {name : List Char} (has : stage.Has name) :
    name.head? = some '.' := by
  cases stage with
  | holding draft next =>
      obtain rfl : name = draft.name := has
      rfl
  | idle | opening | drafting | removing | looking | reading => exact has.elim

theorem ne_key_of_head {name : List Char} {key : String} (head : name.head? = some '.')
    (isName : IsFileName key) : name ≠ key.toList := by
  rintro rfl
  exact isName.noDot head

section Steps

variable {directory : PathName} {place : Location} {supplied : List (String × List Char)}
  {disk : Disk} {number : Nat} {now : Float}

theorem harmless_of_sameFiles {stage : Stage} {done : Advance}
    (same : disk.SameFiles done.disk) (has : ∀ name, done.stage.Has name ↔ stage.Has name)
    (sound : done.stage.Sound directory place supplied done.disk)
    (taken : ∀ key finding, (key, finding) ∈ done.taken →
      Genuine directory supplied key finding) :
    done.Harmless directory place supplied disk stage where
  working := same.working
  directories := same.directories
  others name content _ _ held := (same.files _ content).mpr held
  fresh name there := .inl ((has name).mp there)
  files name content held := by
    by_cases own : stage.Has name
    · exact .inr (.inl ((has name).mpr own))
    · exact .inr (.inr ⟨(same.files _ content).mp held, own⟩)
  sound := sound
  taken := taken

theorem eq_of_located (placed : disk.placeOf directory = place) {key : String}
    (isName : IsFileName key) {location : Location}
    (located : disk.locate (directory ++ .ofString key) = .ok location) :
    location = place ++ [key.toList] := by
  rw [disk.locate_eq_placeOf _ location located, ← placed]
  exact disk.placeOf_isFileName directory isName

theorem names_ne {name other : List Char} (different : name ≠ other) :
    place ++ [name] ≠ place ++ [other] := by
  simpa using different

theorem harmless_create {draft : Draft} {created : Disk} (placed : disk.placeOf directory = place)
    (promised : IsFileName draft.key ∧ (draft.key, draft.value) ∈ supplied)
    (done : disk.create (draft.path directory) now = .ok created) :
    (Advance.mk created (.holding draft .fill) []).Harmless directory place supplied disk
      (.drafting draft.key draft.value) := by
  obtain ⟨location, located, vacant, rfl⟩ := Disk.eq_of_create done
  obtain rfl : location = place ++ [draft.name] := by
    rw [disk.locate_eq_placeOf _ location located, ← placed]
    exact disk.placeOf_temporary directory promised.1 draft.number
  have free (content : List UInt8) : ¬ disk.Holds (place ++ [draft.name]) content := by
    simp [Disk.Holds, vacant]
  have within := disk.directoriesWithin_put (place ++ [draft.name]) (.file [] now false)
    (by simp [vacant])
  constructor
  · rfl
  · exact within
  · intro name content _ _ held
    have other : name ≠ draft.name := by
      rintro rfl
      exact free content held
    exact (Disk.holds_put_of_ne (names_ne other)).mpr held
  · rintro name rfl
    exact .inr free
  · intro name content held
    by_cases own : name = draft.name
    · exact .inr (.inl own)
    · exact .inr (.inr ⟨(Disk.holds_put_of_ne (names_ne own)).mp held, not_false⟩)
  · refine ⟨promised, ⟨?_, [], (Disk.holds_put (by simp)).mpr rfl⟩, fun next => by cases next⟩
    exact Disk.locate_of_directoriesWithin within rfl _ _ located
  · simp

theorem harmless_write {draft : Draft} {written : Disk}
    (sound : (Stage.holding draft .fill).Sound directory place supplied disk)
    (done : disk.write (draft.path directory) (Fingerprint.utf8 draft.value) now = .ok written) :
    (Advance.mk written (.holding draft .place) []).Harmless directory place supplied disk
      (.holding draft .fill) := by
  obtain ⟨promised, present, -⟩ := sound
  obtain ⟨location, executable, located, noDirectory, rfl⟩ := Disk.eq_of_write done
  obtain rfl : location = place ++ [draft.name] :=
    Except.ok.inj (located.symm.trans present.located)
  have within := disk.directoriesWithin_put (place ++ [draft.name])
    (.file (Fingerprint.utf8 draft.value) now executable) noDirectory
  have filled : (disk.put (place ++ [draft.name])
      (.file (Fingerprint.utf8 draft.value) now executable)).Holds (place ++ [draft.name])
        (Fingerprint.utf8 draft.value) :=
    (Disk.holds_put (by simp)).mpr rfl
  constructor
  · rfl
  · exact within
  · intro name content _ other held
    exact (Disk.holds_put_of_ne (names_ne other)).mpr held
  · intro name has
    exact .inl has
  · intro name content held
    by_cases own : name = draft.name
    · exact .inr (.inl own)
    · exact .inr (.inr ⟨(Disk.holds_put_of_ne (names_ne own)).mp held, own⟩)
  · refine ⟨promised, ⟨?_, _, filled⟩, fun _ => filled⟩
    exact Disk.locate_of_directoriesWithin within rfl _ _ located
  · simp

theorem harmless_replace {draft : Draft} {replaced : Disk} (placed : disk.placeOf directory = place)
    (sound : (Stage.holding draft .place).Sound directory place supplied disk)
    (done : disk.replace (draft.path directory) (directory ++ .ofString draft.key) =
      .ok replaced) :
    (Advance.mk replaced .idle []).Harmless directory place supplied disk
      (.holding draft .place) := by
  obtain ⟨⟨isName, promised⟩, present, filled⟩ := sound
  obtain ⟨origin, goal, content, modified, executable, atSource, atTarget, found, noDirectory,
    rfl⟩ := Disk.eq_of_replace done
  obtain rfl : origin = place ++ [draft.name] :=
    Except.ok.inj (atSource.symm.trans present.located)
  obtain rfl := eq_of_located placed isName atTarget
  have complete : content = Fingerprint.utf8 draft.value :=
    Disk.Holds.unique ⟨modified, executable, found⟩ (filled rfl)
  have apart : draft.key.toList ≠ draft.name := (ne_key_of_head rfl isName).symm
  have noSource : disk.at? (place ++ [draft.name]) ≠ some .directory := by simp [found]
  have noGoal : (disk.erase (place ++ [draft.name])).at? (place ++ [draft.key.toList]) ≠
      some .directory := by
    rw [disk.at?_erase_of_ne _ _ (names_ne apart)]
    exact noDirectory
  constructor
  · rfl
  · exact (disk.directoriesWithin_erase _ noSource).trans
      (Disk.directoriesWithin_put _ _ _ noGoal)
  · intro name content head other held
    have noKey := ne_key_of_head head isName
    rw [Disk.holds_put_of_ne (names_ne noKey)]
    exact (Disk.holds_erase_of_ne (names_ne other)).mpr held
  · intro name has
    exact has.elim
  · intro name content held
    by_cases key : name = draft.key.toList
    · subst key
      rw [Disk.holds_put (by simp)] at held
      exact .inl ⟨draft.key, draft.value, promised, rfl, held.trans complete⟩
    · rw [Disk.holds_put_of_ne (names_ne key)] at held
      refine .inr (.inr ⟨held.of_erase, ?_⟩)
      rintro rfl
      exact Disk.not_holds_erase (by simp) held
  · trivial
  · simp

theorem harmless_erase {stage : Stage} {removed : List Char} {held : List UInt8}
    (found : disk.Holds (place ++ [removed]) held)
    (spares : ∀ name, name.head? = some '.' → ¬ stage.Has name → name ≠ removed)
    (clears : ∀ name, stage.Has name → name = removed) :
    (Advance.mk (disk.erase (place ++ [removed])) .idle []).Harmless directory place supplied disk
      stage := by
  constructor
  · rfl
  · exact disk.directoriesWithin_erase _ found.noDirectory
  · intro name content head other there
    exact (Disk.holds_erase_of_ne (names_ne (spares name head other))).mpr there
  · intro name has
    exact has.elim
  · intro name content there
    refine .inr (.inr ⟨there.of_erase, fun has => ?_⟩)
    obtain rfl := clears name has
    exact Disk.not_holds_erase (by simp) there
  · trivial
  · simp

theorem harmless_discard {draft : Draft} {next : DraftStep}
    (sound : (Stage.holding draft next).Sound directory place supplied disk) :
    (Advance.mk (Disk.save.discard disk (draft.path directory)) .idle []).Harmless directory place
      supplied disk (.holding draft next) := by
  obtain ⟨-, present, -⟩ := sound
  obtain ⟨content, modified, executable, found⟩ := present.there
  have cleared : Disk.save.discard disk (draft.path directory) =
      disk.erase (place ++ [draft.name]) := by
    simp only [Disk.save.discard, Disk.unlink_eq_erase present.located found]
  rw [cleared]
  exact harmless_erase ⟨modified, executable, found⟩ (fun _ _ other => other) fun _ has => has

theorem harmless_unlink {key : String} {cleared : Disk} (placed : disk.placeOf directory = place)
    (isName : IsFileName key)
    (done : disk.unlink (directory ++ .ofString key) = .ok cleared) :
    (Advance.mk cleared .idle []).Harmless directory place supplied disk (.removing key) := by
  obtain ⟨location, content, modified, executable, located, found, rfl⟩ := Disk.eq_of_unlink done
  obtain rfl := eq_of_located placed isName located
  exact harmless_erase ⟨modified, executable, found⟩
    (fun _ head _ => ne_key_of_head head isName) fun _ has => has.elim

/-! Taking from a file. -/

theorem genuine_ofFault {key : String} {fault : DiskFault}
    (said : (directory ++ .ofString key : PathName).Speakable → fault ≠ .invalidName) :
    Genuine directory supplied key (.ofFault fault) := by
  right
  cases fault with
  | invalidName => exact .inr ⟨rfl, fun speakable => said speakable rfl⟩
  | notFound | notADirectory | isADirectory | alreadyThere | nameTooLong | refused => exact .inl rfl

theorem genuine_read {key : String} {content : List UInt8} {value : List Char}
    (promised : (key, value) ∈ supplied) (complete : content = Fingerprint.utf8 value)
    (modified : Float) :
    Genuine directory supplied key
      ((Cache.textOfFile content).map fun text => some (text, modified)) := by
  refine .inl ⟨value, modified, promised, ?_⟩
  rw [complete, Cache.textOfFile_utf8]
  rfl

theorem genuine_singleton {key : String} {finding : Finding}
    (genuine : Genuine directory supplied key finding) (other : String) (found : Finding)
    (member : (other, found) ∈ [(key, finding)]) : Genuine directory supplied other found := by
  cases List.mem_singleton.mp member
  exact genuine

def Keyed (place : Location) (supplied : List (String × List Char)) (disk : Disk) : Prop :=
  ∀ key content, IsFileName key → disk.Holds (place ++ [key.toList]) content →
    ∃ value, (key, value) ∈ supplied ∧ content = Fingerprint.utf8 value

theorem harmless_of_sameDisk {stage : Stage} {done : Advance} (kept : done.disk = disk)
    (has : ∀ name, done.stage.Has name ↔ stage.Has name)
    (sound : done.stage.Sound directory place supplied disk)
    (taken : ∀ key finding, (key, finding) ∈ done.taken →
      Genuine directory supplied key finding) :
    done.Harmless directory place supplied disk stage := by
  have same : disk.SameFiles done.disk := kept ▸ .refl disk
  exact harmless_of_sameFiles same has (kept.symm ▸ sound) taken

theorem harmless_step (placed : disk.placeOf directory = place) (keyed : Keyed place supplied disk)
    (number : Nat) (now : Float) (stage : Stage)
    (sound : stage.Sound directory place supplied disk) :
    (stage.step directory number now disk).Harmless directory place supplied disk stage := by
  cases stage with
  | idle => exact harmless_of_sameDisk rfl (fun _ => .rfl) trivial (by simp [Stage.step_idle])
  | opening key value =>
      refine harmless_of_sameFiles (disk.sameFiles_makeDirectories directory) ?_ ?_
        (by simp [Stage.step_opening])
      · intro name
        simp only [Stage.step_opening]
        split <;> exact .rfl
      · simp only [Stage.step_opening]
        split
        · trivial
        · exact sound
  | drafting key value =>
      simp only [Stage.step_drafting]
      split
      · rename_i created creates
        exact @harmless_create _ _ _ _ _ ⟨key, value, number⟩ _ placed sound creates
      · exact harmless_of_sameDisk rfl (fun _ => .rfl) sound (by simp)
      · exact harmless_of_sameDisk rfl (fun _ => .rfl) trivial (by simp)
  | holding draft next =>
      have kept : (Stage.holding draft .discard).Sound directory place supplied disk :=
        ⟨sound.1, sound.2.1, fun same => by cases same⟩
      cases next with
      | fill =>
          simp only [Stage.step_fill]
          split
          · rename_i written writes
            exact harmless_write sound writes
          · exact harmless_of_sameDisk rfl (fun _ => .rfl) kept (by simp)
      | place =>
          simp only [Stage.step_place]
          split
          · rename_i replaced replaces
            exact harmless_replace placed sound replaces
          · exact harmless_of_sameDisk rfl (fun _ => .rfl) kept (by simp)
      | discard => exact harmless_discard sound
  | removing key =>
      simp only [Stage.step_removing]
      split
      · rename_i cleared clears
        exact harmless_unlink placed sound clears
      · exact harmless_of_sameDisk rfl (fun _ => .rfl) trivial (by simp)
  | looking key =>
      simp only [Stage.step_looking]
      split
      · exact harmless_of_sameDisk rfl (fun _ => .rfl) sound (by simp)
      · exact harmless_of_sameDisk rfl (fun _ => .rfl) trivial (genuine_singleton (.inr (.inl rfl)))
      · rename_i fault failed
        refine harmless_of_sameDisk rfl (fun _ => .rfl) trivial (genuine_singleton ?_)
        refine genuine_ofFault fun speakable unsaid => ?_
        exact Disk.stat_ne_invalidName speakable (unsaid ▸ failed)
  | reading key modified =>
      simp only [Stage.step_reading]
      split
      · rename_i content reads
        refine harmless_of_sameDisk rfl (fun _ => .rfl) trivial (genuine_singleton ?_)
        have held := Disk.holds_of_read reads
        rw [disk.placeOf_isFileName directory sound, placed] at held
        obtain ⟨value, promised, complete⟩ := keyed key content sound held
        exact genuine_read promised complete modified
      · rename_i fault failed
        refine harmless_of_sameDisk rfl (fun _ => .rfl) trivial (genuine_singleton ?_)
        refine genuine_ofFault fun speakable unsaid => ?_
        exact Disk.read_ne_invalidName speakable (unsaid ▸ failed)

end Steps

/-! All managers together. -/

/-- What holds at every time: no two managers have a draft of one name, and a file that is no one's
draft is a complete text. -/
structure Scene.Sound (directory : PathName) (place : Location) (scene : Scene) : Prop where
  placed : scene.disk.placeOf directory = place
  stages : ∀ manager, (scene.stages manager).Sound directory place scene.supplied scene.disk
  apart : ∀ manager other name, (scene.stages manager).Has name → (scene.stages other).Has name →
    manager = other
  files : ∀ name content, scene.disk.Holds (place ++ [name]) content →
    IsSupplied scene.supplied name content ∨ ∃ manager, (scene.stages manager).Has name
  taken : ∀ key finding, (key, finding) ∈ scene.taken →
    Genuine directory scene.supplied key finding

/-- No one is at work, and the files are complete texts of keys. -/
structure Scene.Settled (directory : PathName) (scene : Scene) : Prop where
  idle : ∀ manager, scene.stages manager = .idle
  files : ∀ name content, scene.disk.Holds (scene.disk.placeOf directory ++ [name]) content →
    IsSupplied scene.supplied name content

def Turn.NamesFile : Turn → Prop
  | .call _ asked => IsFileName asked.key
  | .step _ _ _ => True

section Runs

variable {directory : PathName} {place : Location} {supplied more : List (String × List Char)}

theorem IsSupplied.mono (within : supplied ⊆ more) {name : List Char} {content : List UInt8}
    (promised : IsSupplied supplied name content) : IsSupplied more name content := by
  obtain ⟨key, value, member, named, complete⟩ := promised
  exact ⟨key, value, within member, named, complete⟩

theorem Genuine.mono (within : supplied ⊆ more) {key : String} {finding : Finding}
    (genuine : Genuine directory supplied key finding) :
    Genuine directory more key finding := by
  rcases genuine with ⟨value, modified, member, found⟩ | missed
  · exact .inl ⟨value, modified, within member, found⟩
  · exact .inr missed

theorem Stage.Sound.holds {disk : Disk} {stage : Stage} {name : List Char}
    (sound : stage.Sound directory place supplied disk) (has : stage.Has name) :
    ∃ content, disk.Holds (place ++ [name]) content := by
  cases stage with
  | holding draft next =>
      obtain rfl : name = draft.name := has
      exact sound.2.1.there
  | idle | opening | drafting | removing | looking | reading => exact has.elim

theorem Stage.Sound.frame {disk after : Disk} {stage : Stage}
    (sound : stage.Sound directory place supplied disk) (within : supplied ⊆ more)
    (working : after.working = disk.working) (directories : disk.DirectoriesWithin after)
    (keeps : ∀ name content, stage.Has name → disk.Holds (place ++ [name]) content →
      after.Holds (place ++ [name]) content) :
    stage.Sound directory place more after := by
  cases stage with
  | idle => trivial
  | opening key value | drafting key value => exact ⟨sound.1, within sound.2⟩
  | removing key | looking key | reading key modified => exact sound
  | holding draft next =>
      obtain ⟨⟨isName, member⟩, present, filled⟩ := sound
      obtain ⟨content, held⟩ := present.there
      refine ⟨⟨isName, within member⟩, ⟨?_, content, keeps _ _ rfl held⟩, fun same => ?_⟩
      · exact Disk.locate_of_directoriesWithin directories working _ _ present.located
      · exact keeps _ _ rfl (filled same)

theorem Scene.Sound.keyed {scene : Scene} (sound : scene.Sound directory place) :
    Keyed place scene.supplied scene.disk := by
  intro key content isName held
  rcases sound.files key.toList content held with ⟨other, value, member, same, complete⟩ | draft
  · obtain rfl := String.toList_inj.mp same
    exact ⟨value, member, complete⟩
  · obtain ⟨manager, has⟩ := draft
    exact absurd rfl (ne_key_of_head has.head isName)

theorem not_has_first (call : Call) (name : List Char) : ¬ call.first.Has name := by
  cases call <;> exact not_false

theorem Scene.Sound.call {scene : Scene} (sound : scene.Sound directory place) (manager : Nat)
    {asked : Call} (isName : IsFileName asked.key) :
    (scene.turn directory (.call manager asked)).Sound directory place := by
  simp only [Scene.turn]
  split
  · rename_i idle
    have within : scene.supplied ⊆ asked.supplies ++ scene.supplied :=
      List.subset_append_right _ _
    have has (other : Nat) (name : List Char) :
        (Function.update scene.stages manager asked.first other).Has name ↔
          (scene.stages other).Has name := by
      by_cases same : other = manager
      · subst same
        rw [Function.update_self, idle]
        exact iff_of_false (not_has_first asked name) not_false
      · rw [Function.update_of_ne same]
    constructor
    · exact sound.placed
    · intro other
      by_cases same : other = manager
      · subst same
        simp only [Function.update_self]
        cases asked with
        | set key value => exact ⟨isName, List.mem_cons_self⟩
        | invalidate key => exact isName
        | read key => exact isName
      · simp only [Function.update_of_ne same]
        exact (sound.stages other).frame within rfl (fun _ found => found) fun _ _ _ held => held
    · intro first second name hasFirst hasSecond
      exact sound.apart first second name ((has first name).mp hasFirst)
        ((has second name).mp hasSecond)
    · intro name content held
      rcases sound.files name content held with promised | ⟨other, draft⟩
      · exact .inl (promised.mono within)
      · exact .inr ⟨other, (has other name).mpr draft⟩
    · intro key finding member
      exact (sound.taken key finding member).mono within
  · exact sound

theorem Scene.Sound.step {scene : Scene} (sound : scene.Sound directory place)
    (manager number : Nat) (now : Float) :
    (scene.turn directory (.step manager number now)).Sound directory place := by
  have harmless := harmless_step sound.placed sound.keyed number now (scene.stages manager)
    (sound.stages manager)
  simp only [Scene.turn]
  revert harmless
  generalize (scene.stages manager).step directory number now scene.disk = done
  intro harmless
  have alone (other : Nat) (name : List Char) (different : other ≠ manager)
      (has : (scene.stages other).Has name) : ¬ done.stage.Has name := by
    intro own
    rcases harmless.fresh name own with before | free
    · exact different (sound.apart other manager name has before)
    · obtain ⟨content, held⟩ := (sound.stages other).holds has
      exact free content held
  constructor
  · exact (Disk.placeOf_congr harmless.working directory).trans sound.placed
  · intro other
    by_cases same : other = manager
    · subst same
      simp only [Function.update_self]
      exact harmless.sound
    · simp only [Function.update_of_ne same]
      refine (sound.stages other).frame (List.Subset.refl _) harmless.working harmless.directories ?_
      intro name content has held
      refine harmless.others name content has.head ?_ held
      intro own
      exact same (sound.apart other manager name has own)
  · intro first second name hasFirst hasSecond
    by_cases isFirst : first = manager
    · by_cases isSecond : second = manager
      · exact isFirst.trans isSecond.symm
      · subst isFirst
        simp only [Function.update_self] at hasFirst
        simp only [Function.update_of_ne isSecond] at hasSecond
        exact absurd hasFirst (alone second name isSecond hasSecond)
    · simp only [Function.update_of_ne isFirst] at hasFirst
      by_cases isSecond : second = manager
      · subst isSecond
        simp only [Function.update_self] at hasSecond
        exact absurd hasSecond (alone first name isFirst hasFirst)
      · simp only [Function.update_of_ne isSecond] at hasSecond
        exact sound.apart first second name hasFirst hasSecond
  · intro name content held
    rcases harmless.files name content held with promised | own | ⟨before, notOwn⟩
    · exact .inl promised
    · refine .inr ⟨manager, ?_⟩
      simpa only [Function.update_self] using own
    · rcases sound.files name content before with promised | ⟨other, has⟩
      · exact .inl promised
      · have different : other ≠ manager := by
          rintro rfl
          exact notOwn has
        refine .inr ⟨other, ?_⟩
        simpa only [Function.update_of_ne different] using has
  · intro key finding member
    rcases List.mem_append.mp member with new | old
    · exact harmless.taken key finding new
    · exact sound.taken key finding old

theorem Scene.Sound.run {turns : List Turn} {scene : Scene} (sound : scene.Sound directory place)
    (named : ∀ turn ∈ turns, turn.NamesFile) :
    (scene.run directory turns).Sound directory place := by
  induction turns generalizing scene with
  | nil => exact sound
  | cons turn rest ih =>
      have later : ∀ other ∈ rest, other.NamesFile :=
        fun other member => named other (List.mem_cons_of_mem turn member)
      have here := named turn List.mem_cons_self
      cases turn with
      | call manager asked => exact ih (sound.call manager here) later
      | step manager number now => exact ih (sound.step manager number now) later

theorem Scene.Settled.sound {scene : Scene} (settled : scene.Settled directory)
    (untaken : scene.taken = []) :
    scene.Sound directory (scene.disk.placeOf directory) where
  placed := rfl
  stages manager := by
    rw [settled.idle manager]
    trivial
  apart manager other name has := by
    rw [settled.idle manager] at has
    exact has.elim
  files name content held := .inl (settled.files name content held)
  taken key finding member := by
    rw [untaken] at member
    cases member

theorem Scene.Sound.settled {scene : Scene} (sound : scene.Sound directory place)
    (idle : ∀ manager, scene.stages manager = .idle) : scene.Settled directory where
  idle := idle
  files name content held := by
    rw [sound.placed] at held
    rcases sound.files name content held with promised | ⟨manager, has⟩
    · exact promised
    · rw [idle manager] at has
      exact has.elim

end Runs

/-- Whatever turns any managers have on a directory, what is taken from the file of a key is a miss
or a complete text that was supplied for that key, with its line ends unified. -/
theorem no_torn_reads {directory : PathName} {scene final : Scene} {turns : List Turn}
    (settled : scene.Settled directory) (untaken : scene.taken = [])
    (named : ∀ turn ∈ turns, turn.NamesFile) (reached : scene.run directory turns = final) :
    (∀ key finding, (key, finding) ∈ final.taken →
        Genuine directory final.supplied key finding) ∧
      (∀ key text modified, (key, .ok (some (text, modified))) ∈ final.taken →
        (∀ value, (key, value) ∈ final.supplied → '\r' ∉ value) →
          (key, text) ∈ final.supplied) ∧
      ((∀ manager, final.stages manager = .idle) →
        ∀ name content, final.disk.Holds (final.disk.placeOf directory ++ [name]) content →
          IsSupplied final.supplied name content) := by
  have sound : final.Sound directory (scene.disk.placeOf directory) :=
    reached ▸ (settled.sound untaken).run named
  refine ⟨sound.taken, ?_, fun idle => (sound.settled idle).files⟩
  intro key text modified member free
  rcases sound.taken key _ member with ⟨value, time, promised, found⟩ | missed | ⟨failed, -⟩
  · obtain ⟨rfl, -⟩ : text = Text.unifyLineEnds value ∧ modified = time := by simpa using found
    rwa [Text.unifyLineEnds_eq_self value (free value promised)]
  · cases missed
  · cases failed

/-! Three managers on a directory that is still to be made. -/

def newScene : Scene :=
  ⟨.empty, fun _ => .idle, [], []⟩

theorem settled_newScene (directory : PathName) : newScene.Settled directory where
  idle _ := rfl
  files name content held := by
    obtain ⟨modified, executable, found⟩ := held
    simp [newScene, Disk.empty, Disk.at?] at found

/-- Between the look of the last manager at the file and its reading, the text of the first manager
is replaced by that of the second one, which had to try two numbers for its draft. -/
def rivals : List Turn :=
  [.call 0 (.set "usage-abc" ['o', 'l', 'd']), .call 1 (.set "usage-abc" ['n', 'e', 'w']),
    .call 2 (.read "usage-abc"), .step 0 0 1.0, .step 1 0 1.0, .step 0 7 1.0, .step 1 7 1.0,
    .step 1 8 1.0, .step 0 0 2.0, .step 1 0 3.0, .step 0 0 4.0, .step 2 0 4.0, .step 1 0 5.0,
    .step 2 0 5.0]

def afterRivals : Scene :=
  newScene.run Cache.newCache.directory rivals

theorem taken_afterRivals :
    afterRivals.taken = [("usage-abc", .ok (some (['n', 'e', 'w'], 2.0)))] := by
  have taken : afterRivals.taken =
      [("usage-abc", (Cache.textOfFile (Fingerprint.utf8 ['n', 'e', 'w'])).map fun text =>
        some (text, 2.0))] := rfl
  rw [taken, Cache.textOfFile_utf8_of_free (by decide)]
  rfl

theorem idle_afterRivals (manager : Nat) : afterRivals.stages manager = .idle := by
  rcases manager with _ | _ | _ | _ <;> rfl

theorem newer_text_taken :
    ("usage-abc", .ok (some (['n', 'e', 'w'], 2.0))) ∈ afterRivals.taken ∧
      ("usage-abc", ['n', 'e', 'w']) ∈ afterRivals.supplied ∧
      ∀ name content,
        afterRivals.disk.Holds (afterRivals.disk.placeOf Cache.newCache.directory ++ [name])
          content → IsSupplied afterRivals.supplied name content := by
  have isName : IsFileName "usage-abc" := ⟨by decide, by decide, by decide⟩
  have named : ∀ turn ∈ rivals, turn.NamesFile := by
    simp [rivals, Turn.NamesFile, Call.key, isName]
  have supplied : afterRivals.supplied =
      [("usage-abc", ['n', 'e', 'w']), ("usage-abc", ['o', 'l', 'd'])] := rfl
  have member : ("usage-abc", .ok (some (['n', 'e', 'w'], 2.0))) ∈ afterRivals.taken := by
    rw [taken_afterRivals]
    exact List.mem_singleton_self _
  obtain ⟨-, asSupplied, complete⟩ :=
    no_torn_reads (settled_newScene Cache.newCache.directory) rfl named (Eq.refl afterRivals)
  refine ⟨member, asSupplied "usage-abc" _ 2.0 member ?_, complete idle_afterRivals⟩
  rw [supplied]
  simp

/-- A text with a carriage return that one manager sets and then another one takes. -/
def strayReturn : List Turn :=
  .call 0 (.set "usage-abc" ['a', '\r', 'b']) :: List.replicate 5 (.step 0 0 1.0) ++
    .call 1 (.read "usage-abc") :: List.replicate 2 (.step 1 0 2.0)

/-- What is taken was not always supplied. -/
theorem return_not_taken :
    ¬ ∀ key text modified,
      (key, .ok (some (text, modified))) ∈
          (newScene.run Cache.newCache.directory strayReturn).taken →
        (key, text) ∈ (newScene.run Cache.newCache.directory strayReturn).supplied := by
  have taken : (newScene.run Cache.newCache.directory strayReturn).taken =
      [("usage-abc", (Cache.textOfFile (Fingerprint.utf8 ['a', '\r', 'b'])).map fun text =>
        some (text, 1.0))] := rfl
  have supplied : (newScene.run Cache.newCache.directory strayReturn).supplied =
      [("usage-abc", ['a', '\r', 'b'])] := rfl
  have unified : Text.unifyLineEnds ['a', '\r', 'b'] = ['a', '\n', 'b'] := by
    simp [Text.unifyLineEnds]
  rw [taken, supplied, Cache.textOfFile_utf8, unified]
  intro all
  have same := all "usage-abc" ['a', '\n', 'b'] 1.0 (List.mem_singleton_self _)
  simp at same

end StatusLine.Sharing

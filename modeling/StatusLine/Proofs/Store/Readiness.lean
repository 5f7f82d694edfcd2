import Mathlib.Data.List.Nodup
import StatusLine.Proofs.Store.Saving
import StatusLine.Proofs.Text.Substring

/-!
Where saving goes well: the directory is there or can be made, the disk refuses nothing, and the
name leaves room for the name of the new file that is made first. A number for that name that is not
in use is found among one more than there are entries. A name of a file is a text without slashes,
which is one part of a path name, and leads from a directory to a place in it.
-/

/-! Names of files. -/

namespace StatusLine

theorem Text.splitOn_of_not_mem {separator : Char} {text : List Char} (free : separator ∉ text) :
    Text.splitOn [separator] text = [text] :=
  splitOn_of_absent fun inside => free (inside.subset List.mem_cons_self)

namespace PathName

theorem ofChars_of_noSlash {text : List Char} (noSlash : '/' ∉ text) (named : text ≠ [])
    (noDot : text ≠ ['.']) : ofChars text = ⟨.relative, [text]⟩ := by
  have parts : partsOf text = [text] := by
    simp [partsOf, Text.splitOn_of_not_mem noSlash, named, noDot]
  have root : rootOf text = .relative := by
    obtain ⟨first, rest, rfl⟩ := List.exists_cons_of_ne_nil named
    have apart : first ≠ '/' := fun same => noSlash (by simp [same])
    unfold rootOf
    split <;> simp_all
  rw [ofChars, parts, root]

theorem append_relative (directory : PathName) (part : List Char) :
    directory ++ (⟨.relative, [part]⟩ : PathName) =
      ⟨directory.root, directory.parts ++ [part]⟩ :=
  rfl

end PathName

structure IsFileName (name : String) : Prop where
  noSlash : '/' ∉ name.toList
  named : name.toList ≠ []
  noDot : name.toList.head? ≠ some '.'

theorem IsFileName.ne_upward {name : String} (isName : IsFileName name) :
    name.toList ≠ ['.', '.'] :=
  fun up => isName.noDot (by rw [up]; rfl)

theorem PathName.ofString_of_isFileName {name : String} (isName : IsFileName name) :
    PathName.ofString name = ⟨.relative, [name.toList]⟩ :=
  ofChars_of_noSlash isName.noSlash isName.named fun dot => isName.noDot (by rw [dot]; rfl)

theorem Disk.placeOf_append (disk : Disk) (directory : PathName) {part : List Char}
    (noUpward : part ≠ ['.', '.']) :
    disk.placeOf (directory ++ (⟨.relative, [part]⟩ : PathName)) =
      disk.placeOf directory ++ [part] := by
  rw [PathName.append_relative]
  simp only [Disk.placeOf, Disk.resolve_append, Disk.resolve, if_neg noUpward]
  rfl

theorem Disk.placeOf_isFileName (disk : Disk) (directory : PathName) {name : String}
    (isName : IsFileName name) :
    disk.placeOf (directory ++ .ofString name) = disk.placeOf directory ++ [name.toList] := by
  rw [PathName.ofString_of_isFileName isName]
  exact disk.placeOf_append directory isName.ne_upward

end StatusLine

namespace StatusLine.Disk

/-! Making a directory. -/

section Directories

variable {disk : Disk} {here : Location}

theorem refused_ensureDirectory (disk : Disk) (location : Location) (blocked : DiskFault) :
    (disk.ensureDirectory location blocked).disk.refused = disk.refused := by
  unfold ensureDirectory
  split
  · rfl
  · rfl
  · split
    · rename_i made done
      rw [eq_of_makeDirectory done]
      rfl
    · rfl

theorem directoriesWithin_ensureDirectory (disk : Disk) (location : Location)
    (blocked : DiskFault) :
    disk.DirectoriesWithin (disk.ensureDirectory location blocked).disk := by
  unfold ensureDirectory
  split
  · exact fun _ found => found
  · exact fun _ found => found
  · rename_i vacant
    split
    · rename_i made done
      rw [eq_of_makeDirectory done]
      exact disk.directoriesWithin_put location .directory (by simp [vacant])
    · exact fun _ found => found

theorem at?_ensureDirectory {location : Location} {blocked : DiskFault}
    (done : (disk.ensureDirectory location blocked).fault = none) :
    (disk.ensureDirectory location blocked).disk.at? location = some .directory := by
  unfold ensureDirectory at done ⊢
  split at done
  · assumption
  · cases done
  · rename_i vacant
    have named : location ≠ [] := by
      have free : disk.at? location ≠ some .directory := by simp [vacant]
      exact ne_top_of_at? free
    cases made : disk.makeDirectory location with
    | error fault => simp [made] at done
    | ok after =>
        simp only [eq_of_makeDirectory made]
        exact disk.at?_put location .directory named

theorem DirectoriesWithin.trans {first second third : Disk}
    (before : first.DirectoriesWithin second) (after : second.DirectoriesWithin third) :
    first.DirectoriesWithin third :=
  fun location found => after location (before location found)

theorem directoriesWithin_makeAlong (names : List (List Char)) (here : Location) (disk : Disk) :
    disk.DirectoriesWithin (makeAlong here names disk).disk :=
  makeAlong_induction (motive := DirectoriesWithin) DirectoriesWithin.trans
    directoriesWithin_ensureDirectory names here disk

theorem follow_makeAlong (names : List (List Char)) (here : Location) (disk : Disk)
    (done : (makeAlong here names disk).fault = none) :
    ∃ place, (makeAlong here names disk).disk.follow here names = .ok place ∧
      (makeAlong here names disk).disk.at? place = some .directory := by
  induction names generalizing here disk with
  | nil => exact ⟨here, rfl, at?_ensureDirectory done⟩
  | cons name rest ih =>
      simp only [makeAlong, follow] at done ⊢
      split at done
      · rename_i failed
        rw [done] at failed
        cases failed
      · rename_i made
        rw [if_neg made]
        have begun : (disk.ensureDirectory here .notADirectory).disk.at? here = some .directory :=
          at?_ensureDirectory (by simpa using made)
        split at done
        · rename_i up
          rw [if_pos up]
          simp only [if_pos up, directoriesWithin_makeAlong rest here.dropLast _ here begun]
          exact ih here.dropLast _ done
        · rename_i down
          rw [if_neg down]
          split at done
          · cases done
          · rename_i short
            rw [if_neg short]
            simp only [if_neg down, if_neg short,
              directoriesWithin_makeAlong rest (here ++ [name]) _ here begun]
            exact ih (here ++ [name]) _ done

theorem refused_makeDirectories (disk : Disk) (directory : PathName) :
    (disk.makeDirectories directory).disk.refused = disk.refused :=
  makeDirectories_induction (motive := fun before after => after.refused = before.refused)
    (fun _ => rfl) (fun before after => after.trans before) refused_ensureDirectory disk directory

theorem locate_makeDirectories {directory : PathName}
    (done : (disk.makeDirectories directory).fault = none) :
    ∃ place, (disk.makeDirectories directory).disk.locate directory = .ok place ∧
      (disk.makeDirectories directory).disk.at? place = some .directory := by
  have kept := (disk.keepsFiles_makeDirectories directory).working
  unfold makeDirectories at done kept ⊢
  unfold locate
  split at done
  · cases done
  · rename_i speakable
    rw [if_neg speakable] at kept ⊢
    rw [if_neg speakable, start_congr kept]
    exact follow_makeAlong directory.parts (disk.start directory) disk done

end Directories

/-! Names in a directory. -/

section Names

variable {disk : Disk} {directory : PathName} {place : Location} {part : List Char}

theorem follow_append (disk : Disk) (names : List (List Char)) (here : Location)
    {place : Location} (followed : disk.follow here names = .ok place)
    (rest : List (List Char)) : disk.follow here (names ++ rest) = disk.follow place rest := by
  induction names generalizing here with
  | nil =>
      obtain rfl := Except.ok.inj followed
      rfl
  | cons name more ih =>
      simp only [List.cons_append, follow] at followed ⊢
      split at followed
      · cases followed
      · cases followed
      · split at followed
        · rename_i up
          rw [if_pos up]
          exact ih here.dropLast followed
        · rename_i down
          rw [if_neg down]
          split at followed
          · cases followed
          · rename_i short
            rw [if_neg short]
            exact ih (here ++ [name]) followed

structure IsPart (part : List Char) : Prop where
  plain : PathName.ofChars part = ⟨.relative, [part]⟩
  noZero : '\x00' ∉ part
  noUpward : part ≠ ['.', '.']
  short : isTooLong part = false

theorem locate_part (located : disk.locate directory = .ok place)
    (isDirectory : disk.at? place = some .directory) (isPart : IsPart part) :
    disk.locate (directory ++ .ofChars part) = .ok (place ++ [part]) := by
  rw [isPart.plain, PathName.append_relative]
  unfold locate at located ⊢
  split at located
  · cases located
  · rename_i speakable
    have speakable' : ¬ (directory.parts ++ [part]).any fun name => name.contains '\x00' := by
      simpa [isPart.noZero] using speakable
    rw [if_neg speakable']
    refine (disk.follow_append directory.parts _ located [part]).trans ?_
    simp [follow, isDirectory, isPart.noUpward, isPart.short]

end Names

/-! Names of new files. -/

section TemporaryNames

variable {name : String} {number : Nat}

def temporaryChars (name : String) (number : Nat) : List Char :=
  '.' :: name.toList ++ '.' :: Decimal.padLeft 8 '0' (Text.ofNat number)

theorem isDigit_of_mem_padLeft {width : Nat} {c : Char}
    (member : c ∈ Decimal.padLeft width '0' (Text.ofNat number)) : c.isDigit = true := by
  rcases List.mem_append.mp member with fill | digit
  · rw [List.eq_of_mem_replicate fill]
    rfl
  · exact Nat.isDigit_of_mem_toDigits (by decide) (by decide) digit

theorem not_mem_temporaryChars {c : Char} (noDigit : c.isDigit = false) (noDot : c ≠ '.')
    (noName : c ∉ name.toList) : c ∉ temporaryChars name number := by
  intro member
  simp only [temporaryChars, List.cons_append, List.mem_cons, List.mem_append, noDot, noName,
    false_or] at member
  rw [isDigit_of_mem_padLeft member] at noDigit
  cases noDigit

theorem temporaryName_of_isFileName (isName : IsFileName name) (number : Nat) :
    temporaryName name number = ⟨.relative, [temporaryChars name number]⟩ := by
  refine PathName.ofChars_of_noSlash ?_ (by simp) (by simp)
  exact not_mem_temporaryChars (by decide) (by decide) isName.noSlash

theorem placeOf_temporary (disk : Disk) (directory : PathName) (isName : IsFileName name)
    (number : Nat) :
    disk.placeOf (directory ++ temporaryName name number) =
      disk.placeOf directory ++ [temporaryChars name number] := by
  have noUpward : temporaryChars name number ≠ ['.', '.'] := by
    simp [temporaryChars, List.append_eq_singleton_iff, isName.named]
  rw [temporaryName_of_isFileName isName]
  exact disk.placeOf_append directory noUpward

theorem length_padLeft {width : Nat} (within : (Text.ofNat number).length ≤ width) :
    (Decimal.padLeft width '0' (Text.ofNat number)).length = width := by
  simp only [Decimal.padLeft, List.length_append, List.length_replicate]
  omega

theorem utf8Size_of_isDigit {c : Char} (digit : c.isDigit = true) : c.utf8Size = 1 := by
  simp only [Char.isDigit, Bool.and_eq_true, decide_eq_true_eq] at digit
  rw [Char.utf8Size_eq_one_iff]
  exact UInt32.le_trans digit.2 (by decide)

theorem utf8ByteSize_of_digits {text : List Char} (digits : ∀ c ∈ text, c.isDigit = true) :
    (String.ofList text).utf8ByteSize = text.length := by
  induction text with
  | nil => rfl
  | cons c rest ih =>
      have here := utf8Size_of_isDigit (digits c List.mem_cons_self)
      have later := ih fun other member => digits other (List.mem_cons_of_mem c member)
      simp only [String.ofList_cons, String.utf8ByteSize_append, String.utf8ByteSize_singleton,
        here, later, List.length_cons]
      omega

theorem utf8ByteSize_temporaryChars (name : String) (few : number < 100000000) :
    (String.ofList (temporaryChars name number)).utf8ByteSize = name.utf8ByteSize + 10 := by
  have within : (Text.ofNat number).length ≤ 8 :=
    (Nat.length_toDigits_le_iff (by decide) (by decide)).mpr (by simpa using few)
  have digits : (String.ofList (Decimal.padLeft 8 '0' (Text.ofNat number))).utf8ByteSize = _ :=
    utf8ByteSize_of_digits fun c => isDigit_of_mem_padLeft
  have dot : ('.' : Char).utf8Size = 1 := by decide
  rw [length_padLeft within] at digits
  simp only [temporaryChars, List.cons_append, String.ofList_cons, String.ofList_append,
    String.ofList_toList, String.utf8ByteSize_append, String.utf8ByteSize_singleton, digits, dot]
  omega

theorem value_padLeft (width number : Nat) :
    Nat.ofDigitChars 10 (Decimal.padLeft width '0' (Text.ofNat number)) 0 = number := by
  have zeros (count : Nat) : Nat.ofDigitChars 10 (List.replicate count '0') 0 = 0 := by
    simp
  rw [Decimal.padLeft, Nat.ofDigitChars_append, zeros]
  exact Nat.ofDigitChars_toDigits (by decide) (by decide)

theorem temporaryChars_injective (name : String) :
    Function.Injective (temporaryChars name) := by
  intro first second same
  simp only [temporaryChars, List.append_cancel_left_eq, List.cons.injEq, true_and] at same
  rw [← value_padLeft 8 first, same, value_padLeft]

end TemporaryNames

/-! A number that is not in use. -/

section Numbers

variable {disk : Disk} {directory : PathName} {place : Location} {name : String}

theorem mem_of_at? {location : Location} {stored : Stored} (named : location ≠ [])
    (found : disk.at? location = some stored) : location ∈ disk.entries.map Prod.fst := by
  simp only [at?, List.isEmpty_iff, named, if_false, Option.map_eq_some_iff] at found
  obtain ⟨entry, there, -⟩ := found
  have same : entry.1 = location := by simpa using List.find?_some there
  exact same ▸ List.mem_map_of_mem (List.mem_of_find?_eq_some there)

theorem exists_unused (disk : Disk) (place : Location) (name : String) :
    ∃ number, number < disk.entries.length + 1 ∧
      disk.at? (place ++ [temporaryChars name number]) = none := by
  -- Names of different numbers differ, so there are more of them than places on the disk.
  by_contra none
  push Not at none
  let places := (List.range (disk.entries.length + 1)).map fun number =>
    place ++ [temporaryChars name number]
  have apart : places.Nodup := by
    refine List.nodup_range.map ?_
    intro first second same
    exact temporaryChars_injective name (by simpa using same)
  have within : places ⊆ disk.entries.map Prod.fst := by
    intro location member
    obtain ⟨number, small, rfl⟩ := List.mem_map.mp member
    obtain ⟨stored, found⟩ :=
      Option.ne_none_iff_exists'.mp (none number (List.mem_range.mp small))
    exact mem_of_at? (by simp) found
  have short := apart.length_le_of_subset within
  simp only [places, List.length_map, List.length_range] at short
  omega

theorem freshNumber_unused (fuel tried : Nat)
    (within : ∃ number, tried ≤ number ∧ number < tried + fuel ∧
      ∃ fault, disk.stat (directory ++ temporaryName name number) = .error fault) :
    disk.freshNumber directory name fuel tried < tried + fuel ∧ ∃ fault,
      disk.stat (directory ++ temporaryName name (disk.freshNumber directory name fuel tried)) =
        .error fault := by
  induction fuel generalizing tried with
  | zero =>
      obtain ⟨number, least, most, -⟩ := within
      omega
  | succ fuel ih =>
      unfold freshNumber
      cases here : disk.stat (directory ++ temporaryName name tried) with
      | error fault =>
          simp only
          exact ⟨by omega, fault, here⟩
      | ok stored =>
          obtain ⟨number, least, most, fault, unused⟩ := within
          have beyond : number ≠ tried := by
            rintro rfl
            cases here.symm.trans unused
          obtain ⟨bound, free⟩ := ih (tried + 1) ⟨number, by omega, by omega, fault, unused⟩
          simp only
          exact ⟨by omega, free⟩

end Numbers

/-! Steps that nothing refuses. -/

section Steps

variable {disk : Disk} {path : PathName} {place : Location} {now : Float}

theorem permit_of_willing (willing : disk.refused = []) (step : DiskStep) :
    disk.permit step = .ok () := by
  simp [permit, willing]

theorem create_of_vacant (willing : disk.refused = []) (located : disk.locate path = .ok place)
    (vacant : disk.at? place = none) :
    disk.create path now = .ok (disk.put place (.file [] now false)) := by
  simp [create, located, vacant, permit_of_willing willing, bind, Except.bind, pure, Except.pure]

theorem write_of_file {held : List UInt8} {modified : Float} {executable : Bool}
    (willing : disk.refused = []) (located : disk.locate path = .ok place)
    (found : disk.at? place = some (.file held modified executable)) (content : List UInt8) :
    disk.write path content now = .ok (disk.put place (.file content now executable)) := by
  simp [write, located, found, permit_of_willing willing, bind, Except.bind, pure, Except.pure]

theorem replace_of_file {target : PathName} {goal : Location} {held : List UInt8}
    {modified : Float} {executable : Bool} (willing : disk.refused = [])
    (located : disk.locate path = .ok place) (aimed : disk.locate target = .ok goal)
    (found : disk.at? place = some (.file held modified executable))
    (noDirectory : disk.at? goal ≠ some .directory) :
    disk.replace path target =
      .ok ((disk.erase place).put goal (.file held modified executable)) := by
  unfold replace
  simp only [located, aimed, found, bind, Except.bind]
  cases there : disk.at? goal with
  | none => simp [permit_of_willing willing, pure, Except.pure]
  | some stored =>
      cases stored with
      | directory => exact absurd there noDirectory
      | file other time flag => simp [permit_of_willing willing, pure, Except.pure]

end Steps

/-- A disk that takes a file of a name in a directory. The name leaves room for ten bytes more, and
there are eight digits for the number of a new file. -/
structure Takes (disk : Disk) (directory : PathName) (name : String) : Prop where
  makes : (disk.makeDirectories directory).fault = none
  willing : disk.refused = []
  isName : IsFileName name
  noZero : '\x00' ∉ name.toList
  short : name.utf8ByteSize + 10 ≤ longestName
  few : (disk.makeDirectories directory).disk.entries.length < 100000000
  noDirectory : (disk.makeDirectories directory).disk.stat (directory ++ .ofString name) ≠
    .ok .directory

section Saving

variable {disk : Disk} {directory : PathName} {name : String} {number : Nat}

theorem Takes.isPart (takes : disk.Takes directory name) : IsPart name.toList where
  plain := PathName.ofString_of_isFileName takes.isName
  noZero := takes.noZero
  noUpward := takes.isName.ne_upward
  short := by
    have room := takes.short
    simp only [isTooLong, String.ofList_toList, decide_eq_false_iff_not]
    omega

theorem Takes.isPart_temporary (takes : disk.Takes directory name) (few : number < 100000000) :
    IsPart (temporaryChars name number) where
  plain := temporaryName_of_isFileName takes.isName number
  noZero := not_mem_temporaryChars (by decide) (by decide) takes.noZero
  noUpward := by
    intro upward
    have size := utf8ByteSize_temporaryChars name few
    rw [upward] at size
    have two : (String.ofList ['.', '.']).utf8ByteSize = 2 := by decide
    omega
  short := by
    have room := takes.short
    have size := utf8ByteSize_temporaryChars name few
    simp only [isTooLong, size, decide_eq_false_iff_not]
    omega

theorem Takes.temporary (takes : disk.Takes directory name) {place : Location}
    (located : (disk.makeDirectories directory).disk.locate directory = .ok place)
    (isDirectory : (disk.makeDirectories directory).disk.at? place = some .directory) :
    ∃ origin, (disk.makeDirectories directory).disk.locate
        ((disk.makeDirectories directory).disk.temporaryPath directory name) = .ok origin ∧
      (disk.makeDirectories directory).disk.at? origin = none := by
  have few := takes.few
  revert located isDirectory few
  generalize (disk.makeDirectories directory).disk = made
  intro located isDirectory few
  have leads (number : Nat) (small : number < made.entries.length + 1) :
      made.locate (directory ++ temporaryName name number) =
        .ok (place ++ [temporaryChars name number]) :=
    locate_part located isDirectory (takes.isPart_temporary (by omega))
  obtain ⟨unused, small, vacant⟩ := exists_unused made place name
  have missing : made.stat (directory ++ temporaryName name unused) = .error .notFound := by
    simp [stat, leads unused small, vacant]
  obtain ⟨bound, fault, free⟩ := freshNumber_unused (made.entries.length + 1) 0
    ⟨unused, by omega, by omega, .notFound, missing⟩
  have there := leads (made.freshNumber directory name (made.entries.length + 1) 0) (by omega)
  refine ⟨_, there, ?_⟩
  simp only [stat, there] at free
  split at free
  · cases free
  · assumption

theorem at?_put_file {place goal : Location} {content : List UInt8} {modified : Float}
    {executable : Bool} (vacant : disk.at? place ≠ some .directory)
    (noDirectory : disk.at? goal ≠ some .directory) :
    (disk.put place (.file content modified executable)).at? goal ≠ some .directory := by
  by_cases same : goal = place
  · subst same
    simp [disk.at?_put goal _ (ne_top_of_at? vacant)]
  · rwa [disk.at?_put_of_ne place goal _ same]

theorem Takes.fault_save (takes : disk.Takes directory name) (content : List UInt8)
    (now : Float) : (disk.save directory name content now).fault = none := by
  obtain ⟨place, located, isDirectory⟩ := locate_makeDirectories takes.makes
  obtain ⟨origin, drafted, vacant⟩ := takes.temporary located isDirectory
  have noDirectory := takes.noDirectory
  have willing := (disk.refused_makeDirectories directory).trans takes.willing
  have goes : (disk.makeDirectories directory).fault.isSome = false := by simp [takes.makes]
  have aimed := locate_part located isDirectory takes.isPart
  simp only [save, goes, Bool.false_eq_true, if_false]
  revert drafted vacant noDirectory willing aimed
  generalize (disk.makeDirectories directory).disk = made
  intro drafted vacant noDirectory willing aimed
  generalize made.temporaryPath directory name = temporary at drafted ⊢
  have free : made.at? origin ≠ some .directory := by simp [vacant]
  have goal : made.at? (place ++ [name.toList]) ≠ some .directory := by
    intro directory
    exact noDirectory (made.stat_eq _ _ _ aimed directory)
  have named := ne_top_of_at? free
  let created := made.put origin (.file [] now false)
  let written := created.put origin (.file content now false)
  have withinCreated : made.DirectoriesWithin created := made.directoriesWithin_put origin _ free
  have empty : created.at? origin = some (.file [] now false) := made.at?_put origin _ named
  have noDraft : created.at? origin ≠ some .directory := by simp [empty]
  have withinWritten : made.DirectoriesWithin written := fun location found =>
    created.directoriesWithin_put origin _ noDraft location (withinCreated location found)
  have filled : written.at? origin = some (.file content now false) :=
    created.at?_put origin _ named
  have stays := locate_of_directoriesWithin withinCreated rfl temporary origin drafted
  have stays' := locate_of_directoriesWithin withinWritten rfl temporary origin drafted
  have aimed' := locate_of_directoriesWithin withinWritten rfl _ _ aimed
  have goal' : written.at? (place ++ [name.toList]) ≠ some .directory :=
    at?_put_file noDraft (at?_put_file free goal)
  have creates : made.create temporary now = .ok created :=
    create_of_vacant willing drafted vacant
  have writes : created.write temporary content now = .ok written := by
    have willing' : created.refused = [] := willing
    exact write_of_file willing' stays empty content
  have replaces : written.replace temporary (directory ++ .ofString name) =
      .ok ((written.erase origin).put (place ++ [name.toList]) (.file content now false)) := by
    have willing' : written.refused = [] := willing
    exact replace_of_file willing' stays' aimed' filled goal'
  simp only [creates, writes, replaces]

end Saving

end StatusLine.Disk

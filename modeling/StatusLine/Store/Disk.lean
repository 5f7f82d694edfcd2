import StatusLine.Decimal.Layout
import StatusLine.Failure
import StatusLine.PathName

/-!
Disks: files and directories, and the steps that change them. A step is done as a whole or not at
all.
-/

namespace StatusLine

/-- Why a step on a disk fails. -/
inductive DiskFault
  | notFound
  | notADirectory
  | isADirectory
  | alreadyThere
  | nameTooLong
  /-- The disk does not do such steps at present. -/
  | refused
  /-- A name with a zero character, which no disk can hold. -/
  | invalidName
  deriving Repr, DecidableEq

namespace DiskFault

def failure : DiskFault → Failure
  | notFound => .other "FileNotFoundError" ""
  | notADirectory => .other "NotADirectoryError" ""
  | isADirectory => .other "IsADirectoryError" ""
  | alreadyThere => .other "FileExistsError" ""
  | nameTooLong => .other "OSError" ""
  | refused => .other "OSError" ""
  | invalidName => .outOfRange "embedded null byte"

end DiskFault

/-- The steps that a disk may refuse, for want of space or permission. -/
inductive DiskStep
  | makeDirectory
  | create
  | write
  | replace
  deriving Repr, DecidableEq

abbrev Location := List (List Char)

inductive Stored
  | directory
  | file (content : List UInt8) (modified : Float) (executable : Bool)
  deriving Repr

structure Disk where
  entries : List (Location × Stored)
  /-- Where relative path names start. -/
  working : Location
  refused : List DiskStep
  deriving Repr

namespace Disk

def empty : Disk :=
  ⟨[], [], []⟩

/-- What is at a location; the top is always a directory. -/
def at? (disk : Disk) (location : Location) : Option Stored :=
  if location.isEmpty then some .directory
  else (disk.entries.find? fun entry => entry.1 == location).map Prod.snd

def erase (disk : Disk) (location : Location) : Disk :=
  { disk with entries := disk.entries.filter fun entry => entry.1 != location }

def put (disk : Disk) (location : Location) (stored : Stored) : Disk :=
  { disk with entries := (location, stored) :: (disk.erase location).entries }

def longestName : Nat := 255

def isTooLong (name : List Char) : Bool :=
  longestName < (String.ofList name).utf8ByteSize

/-- Follows names from a location. Every name must be looked up in a directory. -/
def follow (disk : Disk) : Location → List (List Char) → Except DiskFault Location
  | here, [] => .ok here
  | here, name :: rest =>
      match disk.at? here with
      | none => .error .notFound
      | some (.file _ _ _) => .error .notADirectory
      | some .directory =>
          if name = ['.', '.'] then follow disk here.dropLast rest
          else if isTooLong name then .error .nameTooLong
          else follow disk (here ++ [name]) rest

def start (disk : Disk) (path : PathName) : Location :=
  match path.root with
  | .relative => disk.working
  | _ => []

def locate (disk : Disk) (path : PathName) : Except DiskFault Location :=
  if path.parts.any fun name => name.contains '\x00' then .error .invalidName
  else disk.follow (disk.start path) path.parts

def stat (disk : Disk) (path : PathName) : Except DiskFault Stored :=
  match disk.locate path with
  | .error fault => .error fault
  | .ok location =>
      match disk.at? location with
      | some stored => .ok stored
      | none => .error .notFound

def read (disk : Disk) (path : PathName) : Except DiskFault (List UInt8) :=
  match disk.stat path with
  | .error fault => .error fault
  | .ok .directory => .error .isADirectory
  | .ok (.file content _ _) => .ok content

def permit (disk : Disk) (step : DiskStep) : Except DiskFault Unit :=
  if disk.refused.contains step then .error .refused else .ok ()

def makeDirectory (disk : Disk) (location : Location) : Except DiskFault Disk := do
  disk.permit .makeDirectory
  return disk.put location .directory

def create (disk : Disk) (path : PathName) (now : Float) : Except DiskFault Disk := do
  let location ← disk.locate path
  if (disk.at? location).isSome then .error .alreadyThere
  else
    disk.permit .create
    return disk.put location (.file [] now false)

def write (disk : Disk) (path : PathName) (content : List UInt8) (now : Float) :
    Except DiskFault Disk := do
  let location ← disk.locate path
  match disk.at? location with
  | some .directory => .error .isADirectory
  | some (.file _ _ executable) =>
      disk.permit .write
      return disk.put location (.file content now executable)
  | none =>
      disk.permit .write
      return disk.put location (.file content now false)

def replace (disk : Disk) (source target : PathName) : Except DiskFault Disk := do
  let origin ← disk.locate source
  let goal ← disk.locate target
  match disk.at? origin, disk.at? goal with
  | none, _ => .error .notFound
  | some .directory, _ => .error .isADirectory
  | some _, some .directory => .error .isADirectory
  | some stored, _ =>
      disk.permit .replace
      return (disk.erase origin).put goal stored

def unlink (disk : Disk) (path : PathName) : Except DiskFault Disk := do
  let location ← disk.locate path
  match disk.at? location with
  | none => .error .notFound
  | some .directory => .error .isADirectory
  | some (.file _ _ _) => return disk.erase location

def makeExecutable (disk : Disk) (path : PathName) : Except DiskFault Disk := do
  let location ← disk.locate path
  match disk.at? location with
  | none => .error .notFound
  | some .directory => return disk
  | some (.file content modified _) => return disk.put location (.file content modified true)

structure Attempt where
  disk : Disk
  fault : Option DiskFault
  deriving Repr

/-- Makes the directory at a location if it is missing. A file there is the given fault. -/
def ensureDirectory (disk : Disk) (location : Location) (blocked : DiskFault) : Attempt :=
  match disk.at? location with
  | some .directory => ⟨disk, none⟩
  | some (.file _ _ _) => ⟨disk, some blocked⟩
  | none =>
      match disk.makeDirectory location with
      | .ok made => ⟨made, none⟩
      | .error fault => ⟨disk, some fault⟩

def makeAlong : Location → List (List Char) → Disk → Attempt
  | here, [], disk => disk.ensureDirectory here .alreadyThere
  | here, name :: rest, disk =>
      let made := disk.ensureDirectory here .notADirectory
      if made.fault.isSome then made
      else if name = ['.', '.'] then makeAlong here.dropLast rest made.disk
      else if isTooLong name then ⟨made.disk, some .nameTooLong⟩
      else makeAlong (here ++ [name]) rest made.disk

def makeDirectories (disk : Disk) (path : PathName) : Attempt :=
  if path.parts.any fun name => name.contains '\x00' then ⟨disk, some .invalidName⟩
  else makeAlong (disk.start path) path.parts disk

def place (disk : Disk) (path : PathName) (content : List UInt8) (now : Float) : Attempt :=
  let made := disk.makeDirectories path.parent
  if made.fault.isSome then made
  else
    match made.disk.write path content now with
    | .ok written => ⟨written, none⟩
    | .error fault => ⟨made.disk, some fault⟩

def remove (disk : Disk) (path : PathName) : Attempt :=
  match disk.stat path, disk.locate path with
  | .ok .directory, .ok location =>
      ⟨{ disk with entries := disk.entries.filter fun entry => !location.isPrefixOf entry.1 }, none⟩
  | _, _ =>
      match disk.unlink path with
      | .ok cleared => ⟨cleared, none⟩
      | .error fault => ⟨disk, some fault⟩

def temporaryName (name : String) (number : Nat) : PathName :=
  .ofChars ('.' :: name.toList ++ '.' :: Decimal.padLeft 8 '0' (Text.ofNat number))

def freshNumber (disk : Disk) (directory : PathName) (name : String) : (fuel tried : Nat) → Nat
  | 0, tried => tried
  | fuel + 1, tried =>
      match disk.stat (directory ++ temporaryName name tried) with
      | .ok _ => freshNumber disk directory name fuel (tried + 1)
      | .error _ => tried

def temporaryPath (disk : Disk) (directory : PathName) (name : String) : PathName :=
  directory ++ temporaryName name (disk.freshNumber directory name (disk.entries.length + 1) 0)

/-- Saves a file in a directory so that no one ever sees a part of it: the content goes to a new
file, which then takes the place of the old one. -/
def save (disk : Disk) (directory : PathName) (name : String) (content : List UInt8)
    (now : Float) : Attempt :=
  let made := disk.makeDirectories directory
  if made.fault.isSome then made
  else
    let temporary := made.disk.temporaryPath directory name
    match made.disk.create temporary now with
    | .error fault => ⟨made.disk, some fault⟩
    | .ok created =>
        match created.write temporary content now with
        | .error fault => ⟨discard created temporary, some fault⟩
        | .ok written =>
            match written.replace temporary (directory ++ .ofString name) with
            | .error fault => ⟨discard written temporary, some fault⟩
            | .ok done => ⟨done, none⟩
where
  discard (disk : Disk) (temporary : PathName) : Disk :=
    match disk.unlink temporary with
    | .ok cleared => cleared
    | .error _ => disk

def listing (disk : Disk) : List (String × Stored) :=
  let named := disk.entries.filterMap fun (location, stored) =>
    match Text.after? disk.working location with
    | some [] | none => none
    | some names => some (String.ofList (Text.joinWith ['/'] names), stored)
  named.foldr insertByName []
where
  insertByName (entry : String × Stored) : List (String × Stored) → List (String × Stored)
    | [] => [entry]
    | first :: rest =>
        if entry.1 < first.1 then entry :: first :: rest else first :: insertByName entry rest

theorem at?_put (disk : Disk) (location : Location) (stored : Stored) (named : location ≠ []) :
    (disk.put location stored).at? location = some stored := by
  simp [at?, put, named]

theorem at?_put_of_ne (disk : Disk) (location other : Location) (stored : Stored)
    (different : other ≠ location) :
    (disk.put location stored).at? other = disk.at? other := by
  by_cases top : other = []
  · simp [at?, top]
  · have apart : (location == other) = false := by simpa using fun same => different same.symm
    simp only [at?, put, erase, List.isEmpty_iff, top, if_false, List.find?_cons, apart,
      List.find?_filter]
    congr 2
    funext entry
    by_cases found : entry.1 = other <;> simp [found, different]

end Disk

end StatusLine

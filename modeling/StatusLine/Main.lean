import StatusLine.CommandLine.Program

/-!
The program on a real machine: what it may need of the disk is read, its arguments are answered, and
what has changed is written back.
-/

namespace StatusLine.CommandLine

def variableNames : List String :=
  "HOME" :: Settings.fields.map Settings.variableOf

def readVariables : IO (List (String × String)) := do
  let mut found := []
  for name in variableNames do
    if let some text ← IO.getEnv name then
      found := found ++ [(name, text)]
  return found

def seconds (time : IO.FS.SystemTime) : Float :=
  Float.ofInt time.sec + time.nsec.toFloat / 1000000000.0

def clock : IO Float :=
  IO.FS.withTempFile fun _ path => do
    return seconds (← path.metadata).modified

def locationText (location : Location) : String :=
  (PathName.mk .absolute location).toString

def readLocation (location : Location) : IO (Option Stored) := do
  let place := (← IO.currentDir) / locationText location
  if !(← place.pathExists) then return none
  let info ← place.metadata
  match info.type with
  | .dir => return some .directory
  | _ =>
      let content ← IO.FS.readBinFile place
      return some (.file content.toList (seconds info.modified) false)

def along (here : Location) : List (List Char) → List Location
  | [] => [here]
  | name :: rest =>
      here :: along (if name = ['.', '.'] then here.dropLast else here ++ [name]) rest

def locationsOf (working : Location) (path : PathName) : List Location :=
  match path.root with
  | .relative => (List.range working.length).map (working.take ·) ++ along working path.parts
  | _ => along [] path.parts

def namesIn (location : Location) : IO (List String) := do
  let place := (← IO.currentDir) / locationText location
  if !(← place.pathExists) then return []
  if !(← place.isDir) then return []
  return (← place.readDir).toList.map fun file => file.fileName

def pathsOf (base : Settings) (environment : List (String × String)) (words : List String) :
    List PathName :=
  let cache :=
    match Settings.resolve base environment [] with
    | .ok settings => [settings.cacheDirectory]
    | .error _ => []
  cache ++
    match Request.ofWords? words with
    | some (.compile config output _) =>
        .ofString config :: (output.toList.map PathName.ofString)
    | some (.stats config) => [.ofString config]
    | _ => []

def readDisk (working : Location) (paths : List PathName) : IO Disk := do
  let mut disk : Disk := ⟨[], working, []⟩
  for path in paths do
    for location in locationsOf working path do
      if let some stored ← readLocation location then
        disk := disk.put location stored
    if let some location := (locationsOf working path).getLast? then
      for name in ← namesIn location do
        let file := location ++ [name.toList]
        if let some stored@(.file _ _ _) ← readLocation file then
          disk := disk.put file stored
  return disk

def isSame : Stored → Stored → Bool
  | .directory, .directory => true
  | .file content _ executable, .file other _ runs => content == other && executable == runs
  | _, _ => false

def fileRights : IO.FileRight :=
  ⟨⟨true, true, true⟩, ⟨true, false, true⟩, ⟨true, false, true⟩⟩

/-- Writes what has changed on a disk; directories are written before what is in them. -/
def writeDisk (before after : Disk) : IO Unit := do
  for (location, stored) in after.entries.reverse do
    let known := ((before.at? location).map (isSame stored)).getD false
    if !known then
      let name := locationText location
      match stored with
      | .directory => IO.FS.createDirAll name
      | .file content _ executable =>
          IO.FS.writeBinFile name ⟨content.toArray⟩
          if executable then IO.setAccessRights name fileRights

def printError (line : String) : IO Unit := do
  (← IO.getStderr).putStrLn line

end StatusLine.CommandLine

open StatusLine StatusLine.CommandLine in
def main (words : List String) : IO UInt32 := do
  let environment ← readVariables
  let home := Settings.lookupVariable environment "HOME"
  let base := Settings.standard (.ofString (home.getD "/"))
  let working := (PathName.ofString (← IO.currentDir).toString).parts
  let disk ← readDisk working (pathsOf base environment words)
  let surroundings : Surroundings :=
    ⟨environment, base, disk, ← clock, 0.0, Document.load Document.usualRoom⟩
  let start ← IO.monoNanosNow
  let first := answer surroundings words
  if first.exitCode == 2 then
    printError usageText
    return 2
  let duration := Float.ofNat ((← IO.monoNanosNow) - start) / 1000000000.0
  let ending := answer { surroundings with duration := duration } words
  writeDisk disk ending.disk
  IO.print (String.ofList ending.output)
  for line in ending.errors do
    printError line
  if let some (.escaped kind) := ending.trouble then printError kind
  return ending.exitCode.toUInt32

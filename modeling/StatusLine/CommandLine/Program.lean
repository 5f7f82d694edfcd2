import StatusLine.CommandLine.Arguments
import StatusLine.CommandLine.Table
import StatusLine.Compiler.Generation
import StatusLine.Configuration.Loading

/-!
The program: its arguments are answered on a disk, with what is printed and how it ends.
-/

namespace StatusLine.CommandLine

/-- What a program runs in. -/
structure Surroundings where
  environment : List (String × String)
  /-- The settings that hold where nothing else is said. -/
  base : Settings
  disk : Disk
  /-- Seconds since the epoch. -/
  now : Float
  /-- Seconds that a compilation takes. -/
  duration : Float
  loader : Document.Loader

namespace Surroundings

def home (surroundings : Surroundings) : Option (List Char) :=
  (Settings.lookupVariable surroundings.environment "HOME").map String.toList

def bench (surroundings : Surroundings) : Workbench :=
  .make ⟨[], surroundings.disk, surroundings.now⟩ none

end Surroundings

/-- Why a run ends early. -/
inductive Trouble
  /-- The arguments make no sense. -/
  | usage
  /-- Something that the program reports in its own words. -/
  | reported (failure : Failure)
  /-- Anything else, with the name of its kind. -/
  | escaped (kind : String)
  deriving Repr, DecidableEq

/-- How a run ended. -/
structure Ending where
  output : List Char
  /-- The lines on the error output. -/
  errors : List String
  trouble : Option Trouble
  disk : Disk

def Ending.exitCode (ending : Ending) : Nat :=
  match ending.trouble with
  | none => 0
  | some .usage => 2
  | some _ => 1

def Trouble.ofFailure (failure : Failure) : Trouble :=
  if failure.isOwn then .reported failure else .escaped failure.kind

def troubled (disk : Disk) (trouble : Trouble) : Ending :=
  ⟨[], (match trouble with
    | .reported failure => [failure.report]
    | _ => []), some trouble, disk⟩

def loadConfiguration (surroundings : Surroundings) (name : String) :
    Except Trouble Configuration :=
  let path := PathName.ofString name
  match surroundings.disk.read path with
  | .error .notFound | .error .notADirectory => .error .usage
  | .error fault => .error (.ofFailure fault.failure)
  | .ok content =>
      (Configuration.ofFile surroundings.loader (some content)).mapError fun fault =>
        .ofFailure (fault.failure path.toString)

def makeCompiler (surroundings : Surroundings) (optimizes : Bool) : Except Trouble Compiler := do
  let settings ←
    match Settings.resolve surroundings.base surroundings.environment [] with
    | .ok settings => .ok settings
    | .error (.invalid _) => .error (.escaped "ValidationError")
    | .error (.failed failure) => .error (.ofFailure failure)
  (Compiler.make ⟨settings, surroundings.home⟩ none optimizes).mapError .ofFailure

def sizeText (text : List Char) : String :=
  String.ofList (Text.ofNat (Audit.Savings.size text)) ++ " bytes"

def writeScript (disk : Disk) (now : Float) (name : String) (text : List Char) : Ending :=
  let path := PathName.ofString name
  let made := disk.makeDirectories path.parent
  match made.fault with
  | some fault => troubled made.disk (.ofFailure fault.failure)
  | none =>
      match made.disk.write path (Fingerprint.utf8 text) now with
      | .error fault => troubled made.disk (.ofFailure fault.failure)
      | .ok written =>
          match written.makeExecutable path with
          | .error fault => troubled written (.ofFailure fault.failure)
          | .ok done =>
              ⟨[], ["Wrote " ++ path.toString ++ " (" ++ sizeText text ++ ")"], none, done⟩

def compileCommand (surroundings : Surroundings) (config : String) (output : Option String)
    (optimizes : Bool) : Ending :=
  let prepared : Except Trouble (Configuration × Compiler) := do
    let loaded ← loadConfiguration surroundings config
    let compiler ← makeCompiler surroundings optimizes
    return (loaded, compiler)
  match prepared with
  | .error trouble => troubled surroundings.disk trouble
  | .ok (loaded, compiler) =>
      let run := compiler.generate loaded surroundings.bench
      let disk := run.state.store.disk
      match run.result with
      | .error failure => troubled disk (.ofFailure failure)
      | .ok text =>
          match output with
          | none => ⟨text.getD [], [], none, disk⟩
          | some name => writeScript disk surroundings.now name (text.getD [])

def percentText (savings : Audit.Savings) : String :=
  String.ofList (Decimal.text Decimal.plain savings.percent) ++ "%"

def durationText (seconds : Float) : String :=
  String.ofList (Decimal.fixed 1 (seconds * 1000.0)) ++ "ms"

def statsTable (script : CompiledScript) (duration : Float) : Table :=
  let report := script.report
  ⟨some ("slc " ++ Script.version), ["Metric", "Value"], [
    ["Raw size", sizeText script.raw],
    ["Optimized size", sizeText script.optimized],
    ["Reduction", percentText script.savings],
    ["Compression ratio", String.ofList script.savings.ratio],
    ["Validation", (if report.isValid then "valid" else "rejected") ++ " (" ++
      report.severity.name ++ ")"],
    ["Shipped", if report.isValid then "optimized" else "raw"],
    ["Generation time", durationText duration]]⟩

def findingLine (finding : Audit.Finding) : List Char :=
  (finding.severity.name ++ " " ++ finding.category.name ++ ": " ++ finding.message ++ "\n").toList

def statsCommand (surroundings : Surroundings) (config : String) : Ending :=
  let prepared : Except Trouble (Configuration × Compiler) := do
    let compiler ← makeCompiler surroundings true
    let loaded ← loadConfiguration surroundings config
    return (loaded, compiler)
  match prepared with
  | .error trouble => troubled surroundings.disk trouble
  | .ok (loaded, compiler) =>
      let run := compiler.compile loaded surroundings.bench.store
      match run.result with
      | .error failure => troubled run.state.disk (.ofFailure failure)
      | .ok script =>
          ⟨(statsTable script surroundings.duration).render ++
            script.report.findings.flatMap findingLine, [], none, run.state.disk⟩

def warmTable (texts : List (String × List Char)) : Table :=
  ⟨none, ["Template", "Size"], texts.map fun (name, text) => [name, sizeText text]⟩

def warmCommand (surroundings : Surroundings) : Ending :=
  match makeCompiler surroundings true with
  | .error trouble => troubled surroundings.disk trouble
  | .ok compiler =>
      let run := compiler.precompute surroundings.bench
      let disk := run.state.store.disk
      match run.result with
      | .error failure => troubled disk (.ofFailure failure)
      | .ok texts => ⟨(warmTable texts).render, [], none, disk⟩

def usageText : String :=
  Names.join "\n" [
    "Usage: slc [OPTIONS] COMMAND [ARGS]...",
    "",
    "  compile CONFIG [-o PATH] [--no-optimize]  print the script, or write it",
    "  stats CONFIG                              size and validation report",
    "  warm                                      precompute common templates",
    ""]

def respond (surroundings : Surroundings) : Request → Ending
  | .compile config output optimizes => compileCommand surroundings config output optimizes
  | .stats config => statsCommand surroundings config
  | .warm => warmCommand surroundings
  | .help => ⟨usageText.toList, [], none, surroundings.disk⟩

/-- Answers the arguments of the program. Path names with a zero character are refused at once. -/
def answer (surroundings : Surroundings) (words : List String) : Ending :=
  match Request.ofWords? words with
  | none => troubled surroundings.disk .usage
  | some request =>
      if request.paths.any fun name => name.contains '\x00' then
        troubled surroundings.disk (.ofFailure DiskFault.invalidName.failure)
      else respond surroundings request

end StatusLine.CommandLine

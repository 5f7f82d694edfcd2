import StatusLine.Feature.Encoder
import StatusLine.Palette
import StatusLine.Routine
import StatusLine.Script.Parts

/-!
Assembling fragments into a script. The order of the sections is fixed, and fragments stand in the
order of their encoders, so the script does not depend on the order in which they come.
-/

namespace StatusLine.Script

/-- The place of an encoder's fragments; unknown names come last. -/
def rank (name : String) : Nat :=
  Encoder.all.findIdx fun encoder => encoder.name == name

def insertByRank (fragment : Fragment) : List Fragment → List Fragment
  | [] => [fragment]
  | first :: rest =>
      if rank fragment.name < rank first.name then fragment :: first :: rest
      else first :: insertByRank fragment rest

/-- In the order of the encoders; fragments of one encoder keep their order. -/
def ordered (fragments : List Fragment) : List Fragment :=
  fragments.foldl (fun sorted fragment => insertByRank fragment sorted) []

def switchText (on : Bool) : String :=
  if on then "on" else "off"

def featuresText (config : Configuration) : String :=
  match orderedFeatures config.has with
  | [] => "none"
  | features => Names.join ", " features

def headerValues (cacheDirectory : List Char) (config : Configuration) (settings : Settings) :
    Scope :=
  [("shebang", .text shebang), ("version", .text version), ("theme", .text config.theme.name),
    ("colors", .text (switchText config.colors)), ("features", .text (featuresText config)),
    ("cache_dir", .text (String.ofList cacheDirectory)), ("ttl", .int settings.lookupTtl),
    ("grace", .int settings.lookupGrace)]

def directoryValues (cacheDirectory : List Char) : Scope :=
  [("cache_dir", .text (String.ofList cacheDirectory))]

def fieldValues (fields : List (InputField String)) : Scope :=
  [("fields", .list (fields.map fun field => (field.map .text).datum))]

def partIf (wanted : Bool) (part : Except Failure (List Char)) :
    Except Failure (List (List Char)) :=
  if wanted then part.map fun text => [text] else .ok []

def routinesPart (fragments : List Fragment) : Except Failure (List (List Char)) :=
  (Routine.resolve (fragments.flatMap Fragment.routines)).map fun routines =>
    if routines.isEmpty then []
    else
      ["# ---- helpers ----\n".toList ++
        Text.joinWith ['\n', '\n'] (routines.map fun routine => routine.body.toList)]

def displayPart (fragments : List Fragment) : List (List Char) :=
  let shown := (fragments.map Fragment.display).filter fun text => !Text.isBlankLine text
  if shown.isEmpty then [] else ["# ---- render statusline ----\n".toList ++ Text.joinLines shown]

/-- All parts of a script. -/
def parts (context : Context) (config : Configuration) (fragments : List Fragment)
    (style : Style) : Except Failure (List (List Char)) := do
  let sorted := ordered fragments
  let directory ← context.cacheDirectory
  let fields := InputField.merge (sorted.flatMap Fragment.inputFields)
  let header ← header.render (headerValues directory config context.settings)
  let log ← partIf config.logging (logging.render (directoryValues directory))
  let limiter ← rateLimiter.render
    (directoryValues directory ++ [("min_interval", .int context.settings.minInterval)])
  let palette ← Palette.render style
  let routines ← routinesPart sorted
  let input ← partIf (!fields.isEmpty) (extraction.render
    (fieldValues fields ++ [("jq_object", .text (String.ofList (InputField.object fields)))]))
  let noted ← partIf (config.logging && !fields.isEmpty) (logOutput.render (fieldValues fields))
  return [header] ++ log ++ [limiter, contentTracking.toList, palette] ++ routines ++
    sorted.map Fragment.setup ++ input ++ sorted.map Fragment.query ++ displayPart sorted ++
    noted ++ [epilogue.toList]

def join (parts : List (List Char)) : List Char :=
  let kept := parts.filter fun part => !Text.isBlankLine part
  Text.joinWith ['\n', '\n'] (kept.map (Text.trimWhere (· == '\n'))) ++ ['\n']

def assemble (context : Context) (config : Configuration) (fragments : List Fragment)
    (style : Style) : Except Failure (List Char) :=
  (parts context config fragments style).map join

end StatusLine.Script

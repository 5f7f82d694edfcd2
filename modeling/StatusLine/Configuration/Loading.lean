import StatusLine.Configuration.Reading
import StatusLine.Document.Value

/-!
Loading a configuration from the bytes of a file.
-/

namespace StatusLine

/-- Why a file holds no configuration. -/
inductive LoadFault
  /-- It holds no document. -/
  | malformed
  /-- Its document is not a mapping. -/
  | notAMapping
  | invalid (issues : List Issue)
  /-- It cannot be read, or its document names a value that cannot be built. -/
  | unusable (failure : Failure)
  deriving Repr, DecidableEq

def issuesHeading (record : String) (issues : List Issue) : String :=
  String.ofList (Text.ofNat issues.length) ++ " validation error" ++
    (if issues.length == 1 then "" else "s") ++ " for " ++ record

def Place.text : Place → String
  | .name text => text
  | .index number => String.ofList (Text.ofInt number)

def Issue.text (issue : Issue) : String :=
  Names.join "." (issue.place.map Place.text) ++ "\n  " ++ issue.mistake.message ++ " [type=" ++
    issue.mistake.code ++ "]"

def issuesText (record : String) (issues : List Issue) : String :=
  Names.join "\n" (issuesHeading record issues :: issues.map Issue.text)

def LoadFault.failure (path : String) : LoadFault → Failure
  | malformed => .configuration path "invalid YAML"
  | notAMapping => .configuration path "top level must be a mapping"
  | invalid issues => .configuration path (issuesText "StatuslineConfig" issues)
  | unusable failure => failure

/-- The configuration that the value of a document describes. One that does not count as true
describes the standard configuration. -/
def Configuration.ofValue (value : Datum) : Except LoadFault Configuration :=
  if !value.isTruthy then .ok .standard
  else
    match value with
    | .mapping entries => (Configuration.ofEntries entries).mapError .invalid
    | _ => .error .notAMapping

/-- The configuration in a file; a file that is not there holds the standard one. -/
def Configuration.ofFile (load : Document.Loader) (content : Option (List UInt8)) :
    Except LoadFault Configuration :=
  match content with
  | none => .ok .standard
  | some bytes =>
      match load bytes with
      | .error .malformed => .error .malformed
      | .error (.unusable failure) => .error (.unusable failure)
      | .ok value => ofValue value

end StatusLine

import StatusLine.Names
import StatusLine.Text.Quoting

/-!
What can go wrong, and the text that reports it.
-/

namespace StatusLine

inductive Failure
  /-- A failure of this program without a cause of its own kind. -/
  | general (message : String)
  /-- A configuration that cannot be loaded. -/
  | configuration (path reason : String)
  /-- A script that cannot be generated. -/
  | generation (reason : String)
  /-- A template rendered with the wrong values. -/
  | gaps (template : String) (missing unexpected : List String)
  /-- A refresh that did not produce a value. -/
  | refresh (key reason : String)
  /-- A leading tilde that stands for no known directory. -/
  | homeUnknown
  /-- A name that a table does not have. -/
  | nameUnknown (name : String)
  /-- A value that has no encoded form. -/
  | notEncodable (kind : String)
  /-- A value outside the range that an operation accepts. -/
  | outOfRange (message : String)
  /-- A value of the wrong kind for an operation. -/
  | wrongKind (message : String)
  /-- Any other failure, with the name of its kind and a text. -/
  | other (kind message : String)
  deriving Repr, DecidableEq

namespace Failure

def gapsText (missing unexpected : List String) : String :=
  let clause (word : String) (names : List String) : List String :=
    if names.isEmpty then [] else [word ++ " " ++ Names.join ", " (Names.ordered names)]
  Names.join "; " (clause "missing" missing ++ clause "unexpected" unexpected)

def message : Failure → String
  | general message => message
  | configuration path reason => "Invalid config " ++ path ++ ": " ++ reason
  | generation reason => "Script generation failed: " ++ reason
  | gaps template missing unexpected =>
      "Template '" ++ template ++ "': " ++ gapsText missing unexpected
  | refresh key reason => "Refresh failed for " ++ key ++ ": " ++ reason
  | homeUnknown => "Could not determine home directory."
  | nameUnknown name => listed name
  | notEncodable kind => "Encoding objects of type " ++ kind ++ " is unsupported"
  | outOfRange message => message
  | wrongKind message => message
  | other _ message => message

def kind : Failure → String
  | general _ => "SlcError"
  | configuration _ _ => "ConfigError"
  | generation _ => "GenerationError"
  | gaps _ _ _ => "TemplateGapError"
  | refresh _ _ => "RefreshError"
  | homeUnknown => "RuntimeError"
  | nameUnknown _ => "KeyError"
  | notEncodable _ => "TypeError"
  | outOfRange _ => "ValueError"
  | wrongKind _ => "TypeError"
  | other kind _ => kind

def isOwn : Failure → Bool
  | general _ | configuration _ _ | generation _ | gaps _ _ _ | refresh _ _ => true
  | _ => false

def asGeneration : Failure → Failure
  | generation reason => generation reason
  | failure =>
      if failure.isOwn then generation failure.message
      else generation (failure.kind ++ ": " ++ failure.message)

def report (failure : Failure) : String :=
  (if failure.isOwn then "Error: " else "Unexpected error: ") ++ failure.message

end Failure

end StatusLine

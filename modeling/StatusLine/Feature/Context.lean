import StatusLine.Fingerprint.Fields
import StatusLine.Fingerprint.Key
import StatusLine.Fragment
import StatusLine.Segment
import StatusLine.Settings

/-!
What features are made into script with: the settings, and the home directory that paths are written
relative to.
-/

namespace StatusLine

namespace PathName

/-- A path name between double quotes of a script, relative to the given directory, or to the home
directory if none is given. -/
def quotedText (home : Option (List Char)) (base? : Option PathName) (path : PathName) :
    Except Failure (List Char) :=
  let base := base?.orElse fun _ => homeDirectory? home
  match base, path.expandHome? home with
  | some base, some expanded => .ok (shellText base expanded)
  | _, _ => .error .homeUnknown

end PathName

structure Context where
  settings : Settings
  /-- The text of the home variable. -/
  home : Option (List Char)
  deriving Repr, DecidableEq

namespace Context

def cacheDirectory (context : Context) : Except Failure (List Char) :=
  context.settings.cacheDirectory.quotedText context.home none

def cacheFile (context : Context) (domain : String) (fields : Datum) :
    Except Failure (List Char) :=
  match context.cacheDirectory with
  | .error failure => .error failure
  | .ok directory =>
      (Fingerprint.key domain fields).map fun key => directory ++ '/' :: key.toList

def commandFile (context : Context) (domain : String) (command : List String) :
    Except Failure (List Char) :=
  context.cacheFile domain (Fingerprint.commandFields (.list (command.map .text)))

end Context

def guarded (condition : String) (body : List Char) : List Char :=
  Text.joinLines ["if ".toList ++ condition.toList ++ "; then".toList, Text.indented body,
    "fi".toList]

def chosen (condition : String) (yes no : List Char) : List Char :=
  Text.joinLines ["if ".toList ++ condition.toList ++ "; then".toList, Text.indented yes,
    "else".toList, Text.indented no, "fi".toList]

end StatusLine

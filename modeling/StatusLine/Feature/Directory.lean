import StatusLine.Feature.Context

/-!
The working directory.
-/

namespace StatusLine.Directory

/-- Shows the directory if it is wanted; there is nothing to choose. -/
def isWanted (config : Configuration) : Bool :=
  config.has "directory"

def query : String :=
  "# directory\ncurrent_dir=$(echo \"$current_directory_path\" | sed \"s|^$HOME|~|g\")"

def inputField : InputField String :=
  ⟨"current_directory_path", ".workspace.current_dir // .cwd // \"unknown\"", "unknown"⟩

def segment (style : Style) : Segment :=
  ⟨"dir_clr", style.label "📁" "dir:", "%s", "\"$current_dir\"", true⟩

def encode (style : Style) : Except Failure Fragment :=
  ((segment style).render style).map fun shown =>
    ⟨"directory", [], query.toList, guarded "[ -n \"$current_dir\" ]" shown, [inputField], []⟩

end StatusLine.Directory

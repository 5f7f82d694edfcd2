import StatusLine.Datum.Listing
import StatusLine.Failure

/-!
Templates: pieces of text with named gaps, branches and loops. `Template.gaps` are the names that a
template leaves open.
-/

namespace StatusLine

/-- What a value passes through before it is written. -/
inductive Filter
  /-- Quoted as one word of a shell command. -/
  | shellWord
  /-- Escaped for the inside of double quotes. -/
  | inQuotes
  /-- A filter that does not exist. -/
  | unknown (name : String)
  deriving Repr, DecidableEq

inductive Expression
  | named (name : String)
  | constant (value : Datum)
  | field (subject : Expression) (name : String)
  | element (subject : Expression) (number : Nat)
  | filtered (subject : Expression) (filter : Filter)
  deriving Repr

inductive Targets
  | one (name : String)
  /-- The parts of an item get names of their own. -/
  | parts (names : List String)
  deriving Repr, DecidableEq

inductive Piece
  | text (text : String)
  | output (value : Expression)
  | branch (test : Expression) (yes no : List Piece)
  | loop (targets : Targets) (source : Expression) (body : List Piece)
  deriving Repr

def Piece.lines (rows : List String) : Piece :=
  .text (Names.join "\n" rows)

structure Template where
  name : String
  pieces : List Piece
  deriving Repr

def Targets.names : Targets → List String
  | one name => [name]
  | parts names => names

def loopName : String := "loop"

def selfName : String := "self"

def provided : List (String × Datum) :=
  let tool (name : String) : Datum := .kind ⟨"jinja2.utils", name⟩
  [("range", .kind (.plain "range")), ("dict", .kind (.plain "dict")),
    ("lipsum", .thing (.plain "function") "<function lipsum>" []), ("cycler", tool "Cycler"),
    ("joiner", tool "Joiner"), ("namespace", tool "Namespace"),
    (selfName, .thing ⟨"jinja2.runtime", "TemplateReference"⟩ "<TemplateReference None>" [])]

def isProvided (name : String) : Bool :=
  provided.any fun entry => entry.1 == name

namespace Expression

def names : Expression → List String
  | named name => [name]
  | constant _ => []
  | field subject _ | element subject _ | filtered subject _ => subject.names

def unknownFilter? : Expression → Option String
  | filtered subject filter =>
      match subject.unknownFilter?, filter with
      | some name, _ => some name
      | none, .unknown name => some name
      | none, _ => none
  | field subject _ | element subject _ => subject.unknownFilter?
  | _ => none

end Expression

namespace Piece

mutual

def freeNames : Piece → List String
  | text _ => []
  | output value => value.names
  | branch test yes no => test.names ++ freeNamesAll yes ++ freeNamesAll no
  | loop targets source body =>
      source.names ++ (freeNamesAll body).filter fun name =>
        !targets.names.contains name && name != loopName

def freeNamesAll : List Piece → List String
  | [] => []
  | piece :: rest => freeNames piece ++ freeNamesAll rest

end

mutual

/-- Whether a piece cannot be used at all: it assigns the name of the loop, or it names an unknown
filter where that is not excused. Directly inside a branch it is excused until it is reached. -/
def isRefused (excused : Bool) : Piece → Bool
  | text _ => false
  | output value => !excused && value.unknownFilter?.isSome
  | branch _ yes no => anyRefused true yes || anyRefused true no
  | loop targets source body =>
      targets.names.contains loopName || (!excused && source.unknownFilter?.isSome) ||
        anyRefused false body

def anyRefused (excused : Bool) : List Piece → Bool
  | [] => false
  | piece :: rest => isRefused excused piece || anyRefused excused rest

end

end Piece

namespace Template

def gaps (template : Template) : List String :=
  Names.ordered ((Piece.freeNamesAll template.pieces).filter fun name => !isProvided name)

def isRefused (template : Template) : Bool :=
  Piece.anyRefused false template.pieces

def refusal : Failure :=
  .other "TemplateAssertionError" ""

def listing (template : Template) : String :=
  "ShellTemplate(" ++ listed template.name ++ ", gaps=[" ++
    Names.join ", " (template.gaps.map listed) ++ "])"

end Template

end StatusLine

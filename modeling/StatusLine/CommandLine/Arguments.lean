import StatusLine.Text.Substring

/-!
What the arguments of the program ask for. Options may stand before and behind other arguments,
letters may be joined, and a value may be joined to its option.
-/

namespace StatusLine.CommandLine

inductive Request
  | compile (config : String) (output : Option String) (optimizes : Bool)
  | stats (config : String)
  | warm
  | help
  deriving Repr, DecidableEq

def Request.paths : Request → List String
  | compile config output _ => config :: output.toList
  | stats config => [config]
  | warm | help => []

/-- The options of the program. -/
inductive Switch
  | output
  | noOptimize
  | verbose
  | help
  deriving Repr, DecidableEq

namespace Switch

def long : Switch → String
  | output => "--output"
  | noOptimize => "--no-optimize"
  | verbose => "--verbose"
  | help => "--help"

def short? : Switch → Option Char
  | output => some 'o'
  | verbose => some 'v'
  | _ => none

def takesValue : Switch → Bool
  | output => true
  | _ => false

end Switch

/-- What an argument is. -/
inductive Reading
  | positional
  | unknown
  /-- Switches, the last one possibly with a value. -/
  | switches (found : List (Switch × Option String))
  /-- Switches, the last one of which takes the next argument as its value. -/
  | unfinished (found : List (Switch × Option String)) (last : Switch)

def Reading.add (found : Switch × Option String) : Reading → Reading
  | switches others => switches (found :: others)
  | unfinished others last => unfinished (found :: others) last
  | other => other

def readLetters (known : List Switch) : List Char → Reading
  | [] => .switches []
  | letter :: rest =>
      match known.find? fun switch => switch.short? == some letter with
      | none => .unknown
      | some switch =>
          if switch.takesValue then
            if rest.isEmpty then .unfinished [] switch
            else .switches [(switch, some (String.ofList rest))]
          else (readLetters known rest).add (switch, none)

def readLong (known : List Switch) (word : List Char) : Reading :=
  let (name, value) := Text.cutAt '=' word
  match known.find? fun switch => switch.long.toList == name with
  | none => .unknown
  | some switch =>
      match switch.takesValue, value with
      | true, none => .unfinished [] switch
      | true, some text => .switches [(switch, some (String.ofList text))]
      | false, none => .switches [(switch, none)]
      | false, some _ => .unknown

def readWord (known : List Switch) (word : String) : Reading :=
  match word.toList with
  | '-' :: '-' :: rest => readLong known ('-' :: '-' :: rest)
  | '-' :: letter :: rest => readLetters known (letter :: rest)
  | _ => .positional

structure Parsed where
  switches : List (Switch × Option String)
  positionals : List String
  deriving Repr

namespace Parsed

def has (parsed : Parsed) (switch : Switch) : Bool :=
  parsed.switches.any fun found => found.1 == switch

/-- The value of an option; of several values the last one counts. -/
def value? (parsed : Parsed) (switch : Switch) : Option String :=
  (parsed.switches.reverse.find? fun found => found.1 == switch).bind Prod.snd

end Parsed

def parse (known : List Switch) : List String → Parsed → Option Parsed
  | [], parsed => some parsed
  | "--" :: rest, parsed => some { parsed with positionals := parsed.positionals ++ rest }
  | word :: rest, parsed =>
      match readWord known word with
      | .positional => parse known rest { parsed with positionals := parsed.positionals ++ [word] }
      | .unknown => none
      | .switches found => parse known rest { parsed with switches := parsed.switches ++ found }
      | .unfinished found last =>
          match rest with
          | [] => none
          | value :: others =>
              parse known others
                { parsed with switches := parsed.switches ++ found ++ [(last, some value)] }

def parseAll (known : List Switch) (words : List String) : Option Parsed :=
  parse known words ⟨[], []⟩

def compileRequest (words : List String) : Option Request :=
  match parseAll [.output, .noOptimize, .verbose, .help] words with
  | none => none
  | some parsed =>
      if parsed.has .help then some .help
      else
        match parsed.positionals with
        | [config] => some (.compile config (parsed.value? .output) (!parsed.has .noOptimize))
        | _ => none

def statsRequest (words : List String) : Option Request :=
  match parseAll [.verbose, .help] words with
  | none => none
  | some parsed =>
      if parsed.has .help then some .help
      else
        match parsed.positionals with
        | [config] => some (.stats config)
        | _ => none

def warmRequest (words : List String) : Option Request :=
  match parseAll [.verbose, .help] words with
  | none => none
  | some parsed =>
      if parsed.has .help then some .help
      else if parsed.positionals.isEmpty then some .warm else none

def Request.ofWords? : List String → Option Request
  | "compile" :: words => compileRequest words
  | "stats" :: words => statsRequest words
  | "warm" :: words => warmRequest words
  | "--help" :: _ => some .help
  | _ => none

end StatusLine.CommandLine

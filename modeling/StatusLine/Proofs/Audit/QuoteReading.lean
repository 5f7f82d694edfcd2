import StatusLine.Audit.Quotes
import StatusLine.Proofs.Text.LineReader

/-!
A cautious reader of quotes. It decides everything from the characters read so far, without looking
ahead, and gives up where a change of the text before a place could change what the place means:
at a hash sign that may or may not start a comment, at brackets behind a dollar sign or a backslash,
and at any here-document that does not start in one fixed way.
-/

namespace StatusLine.Audit

inductive Mark
  | backslash
  | single
  | double
  | hash
  | opening
  | closing
  | less
  | bracket
  | dollar
  | slash
  | newline
  /-- A blank that ends a word, and one that does not. -/
  | space
  | blank
  /-- The letters of the delimiter of here-documents that the reader follows. -/
  | first
  | second
  | other
  deriving DecidableEq

def Mark.of : Char → Mark
  | '\\' => backslash
  | '\'' => single
  | '"' => double
  | '#' => hash
  | '(' => opening
  | ')' => closing
  | '<' => less
  | '[' => bracket
  | '$' => dollar
  | '/' => slash
  | '\n' => newline
  | ' ' | '\t' => space
  | 'P' => first
  | 'Y' => second
  | c => if Text.isBlank c then blank else other

def Mark.isBlank : Mark → Bool
  | newline | space | blank => true
  | _ => false

theorem Mark.isBlank_of (c : Char) : (Mark.of c).isBlank = Text.isBlank c := by
  unfold Mark.of
  split
  case h_16 => split <;> simp_all [isBlank]
  all_goals decide

def Mark.Means : Mark → Char → Prop
  | backslash, c => c = '\\'
  | single, c => c = '\''
  | double, c => c = '"'
  | hash, c => c = '#'
  | opening, c => c = '('
  | closing, c => c = ')'
  | less, c => c = '<'
  | bracket, c => c = '['
  | dollar, c => c = '$'
  | slash, c => c = '/'
  | newline, c => c = '\n'
  | space, c => c = ' ' ∨ c = '\t'
  | first, c => c = 'P'
  | second, c => c = 'Y'
  | blank, c | other, c =>
      c ∉ ['\\', '\'', '"', '#', '(', ')', '<', '[', '$', '/', '\n', ' ', '\t', 'P', 'Y']

theorem Mark.means_of (c : Char) : (Mark.of c).Means c := by
  unfold Mark.of
  split
  case h_16 => split <;> simp_all [Mark.Means]
  all_goals simp [Mark.Means]

inductive Before
  | space
  | slash
  | dollar
  | less
  | backslash
  | other
  deriving DecidableEq

inductive Quoting
  | plain (before : Before)
  | double (before : Before)
  | single
  | comment
  deriving DecidableEq

structure OpenCommand where
  /-- The open parentheses in it. -/
  depth : Nat
  /-- Whether it stands between double quotes. -/
  quoted : Bool
  deriving DecidableEq

def OpenCommand.around (command : OpenCommand) : Quoting :=
  if command.quoted then .double .other else .plain .other

inductive Awaited
  | quote
  | first
  | second
  | unquote
  deriving DecidableEq

def Awaited.mark : Awaited → Mark
  | quote | unquote => .single
  | first => .first
  | second => .second

inductive DocumentLine
  | blank
  | first
  | whole
  | other
  deriving DecidableEq

def DocumentLine.step (line : DocumentLine) (mark : Mark) : DocumentLine :=
  match line with
  | blank => if mark.isBlank then blank else if mark = .first then first else other
  | first => if mark = .second then whole else other
  | whole => if mark.isBlank then whole else other
  | other => other

inductive QuoteReading
  | inside (quoting : Quoting) (commands : List OpenCommand)
  | opening (awaited : Awaited)
  /-- In the line that starts a here-document. -/
  | awaiting
  /-- In a here-document. -/
  | body (line : DocumentLine)
  | lost
  deriving DecidableEq

namespace QuoteReading

def openParenthesis : List OpenCommand → List OpenCommand
  | [] => []
  | command :: outer => { command with depth := command.depth + 1 } :: outer

def closeParenthesis : List OpenCommand → QuoteReading
  | [] => inside (.plain .other) []
  | command :: outer =>
      match command.depth with
      | 0 => inside command.around outer
      | depth + 1 => inside (.plain .other) ({ command with depth := depth } :: outer)

def stepPlain (before : Before) (commands : List OpenCommand) (mark : Mark) : QuoteReading :=
  match before, mark with
  | .backslash, .bracket => lost
  | .backslash, .newline => inside (.plain .space) commands
  | .backslash, _ => inside (.plain .other) commands
  | _, .backslash => inside (.plain .backslash) commands
  | _, .single => inside .single commands
  | _, .double => inside (.double .other) commands
  | .space, .hash => inside .comment commands
  | .slash, .hash => inside (.plain .other) commands
  | _, .hash => lost
  | .dollar, .opening => inside (.plain .other) (⟨0, false⟩ :: commands)
  | _, .opening => inside (.plain .other) (openParenthesis commands)
  | _, .closing => closeParenthesis commands
  | .less, .less => if commands = [] then opening .quote else lost
  | _, .less => inside (.plain .less) commands
  | .dollar, .bracket => lost
  | _, .dollar => inside (.plain .dollar) commands
  | _, .slash => inside (.plain .slash) commands
  | _, .newline | _, .space => inside (.plain .space) commands
  | _, _ => inside (.plain .other) commands

def stepDouble (before : Before) (commands : List OpenCommand) (mark : Mark) : QuoteReading :=
  match before, mark with
  | .backslash, _ => inside (.double .other) commands
  | _, .backslash => inside (.double .backslash) commands
  | _, .double => inside (.plain .other) commands
  | .dollar, .opening => inside (.plain .other) (⟨0, true⟩ :: commands)
  | .dollar, .bracket => lost
  | _, .dollar => inside (.double .dollar) commands
  | _, _ => inside (.double .other) commands

def stepOpening (awaited : Awaited) (mark : Mark) : QuoteReading :=
  if mark = awaited.mark then
    match awaited with
    | .quote => opening .first
    | .first => opening .second
    | .second => opening .unquote
    | .unquote => awaiting
  else lost

def stepAwaiting : Mark → QuoteReading
  | .newline => body .blank
  | .backslash | .single | .double | .hash | .dollar | .less => lost
  | _ => awaiting

def step (reading : QuoteReading) (mark : Mark) : QuoteReading :=
  match reading with
  | inside (.plain before) commands => stepPlain before commands mark
  | inside (.double before) commands => stepDouble before commands mark
  | inside .single commands =>
      if mark = .single then inside (.plain .other) commands else inside .single commands
  | inside .comment commands =>
      if mark = .newline then inside (.plain .space) commands else inside .comment commands
  | opening awaited => stepOpening awaited mark
  | awaiting => stepAwaiting mark
  | body line =>
      if mark = .newline then (if line = .whole then inside (.plain .space) [] else body .blank)
      else body (line.step mark)
  | lost => lost

/-- Whether everything that was opened is closed again. -/
def isClosed : QuoteReading → Bool
  | inside (.plain _) [] | inside .comment [] | awaiting | body _ => true
  | _ => false

theorem step_newline_blank (reading : QuoteReading) :
    (reading.step .newline).step .space = reading.step .newline := by
  rcases reading with ⟨⟨before⟩ | ⟨before⟩ | _ | _, commands⟩ | awaited | _ | line | _
  · cases before <;> rfl
  · cases before <;> rfl
  · rfl
  · rfl
  · cases awaited <;> rfl
  · rfl
  · cases line <;> rfl
  · rfl

theorem step_newline_newline (reading : QuoteReading) :
    (reading.step .newline).step .newline = reading.step .newline := by
  rcases reading with ⟨⟨before⟩ | ⟨before⟩ | _ | _, commands⟩ | awaited | _ | line | _
  · cases before <;> rfl
  · cases before <;> rfl
  · rfl
  · rfl
  · cases awaited <;> rfl
  · rfl
  · cases line <;> rfl
  · rfl

/-- The reader of quotes. -/
def reader : LineReader QuoteReading where
  start := inside (.plain .space) []
  step := fun reading c => reading.step (.of c)
  start_newline := rfl
  newline_blank := step_newline_blank
  newline_newline := step_newline_newline

@[simp]
theorem read_lost (text : List Char) : reader.read lost text = lost := by
  induction text with
  | nil => rfl
  | cons c rest ih => exact ih

end QuoteReading

end StatusLine.Audit

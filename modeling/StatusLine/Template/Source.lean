import StatusLine.Template.Syntax
import StatusLine.Text.Naming

/-!
Reading templates from text. Values stand in double braces, branches and loops between `\x7b%` and
`%\x7d`, and comments between `<#--` and `--#>`. A mark of a branch or a loop, or a comment, takes
the blanks before it on its line and the line end behind it with it, and one line end at the end of
the text does not count.
-/

namespace StatusLine.Template

/-- What stands between the marks of a value or a tag. -/
inductive Lexeme
  | word (name : String)
  | number (value : Nat)
  | quoted (text : String)
  | sign (c : Char)
  deriving Repr, DecidableEq

inductive Segment
  | text (text : List Char)
  | output (content : List Lexeme)
  | tag (content : List Lexeme)
  deriving Repr

inductive Mark
  | output
  | tag
  | comment
  deriving Repr, DecidableEq

def openOutput : List Char := ['\x7b', '\x7b']
def closeOutput : List Char := ['\x7d', '\x7d']
def openTag : List Char := ['\x7b', '%']
def closeTag : List Char := ['%', '\x7d']
def openComment : List Char := ['<', '#', '-', '-']
def closeComment : List Char := ['-', '-', '#', '>']

def mark? (text : List Char) : Option (Mark × List Char) :=
  match Text.after? openComment text, Text.after? openTag text, Text.after? openOutput text with
  | some rest, _, _ => some (.comment, rest)
  | none, some rest, _ => some (.tag, rest)
  | none, none, some rest => some (.output, rest)
  | none, none, none => none

def cutAtMark : List Char → List Char × Option (Mark × List Char)
  | [] => ([], none)
  | c :: rest =>
      match mark? (c :: rest) with
      | some found => ([], some found)
      | none =>
          let (before, found) := cutAtMark rest
          (c :: before, found)

def endsLine (text : List Char) : Bool :=
  text.getLast? == some '\n'

def dropLineStart (startsLine : Bool) (text : List Char) : List Char :=
  let tail := (text.reverse.takeWhile (· != '\n')).reverse
  let head := text.take (text.length - tail.length)
  if (!head.isEmpty || startsLine) && Text.isBlankLine tail then head else text

/-- The text before a mark. A minus behind the mark takes all blanks, a plus takes none. -/
def trimBefore (kind : Mark) (sign : Option Char) (startsLine : Bool) (text : List Char) :
    List Char :=
  match sign with
  | some '-' => Text.trimEndWhere Text.isBlank text
  | some _ => text
  | none => if kind == .output then text else dropLineStart startsLine text

def takeSign : List Char → Option Char × List Char
  | '-' :: rest => (some '-', rest)
  | '+' :: rest => (some '+', rest)
  | text => (none, text)

def dropLineEnd : List Char → List Char
  | '\n' :: rest => rest
  | text => text

def afterClosing (kind : Mark) (text : List Char) : Option (List Char) :=
  let close :=
    match kind with
    | .output => closeOutput
    | .tag => closeTag
    | .comment => closeComment
  match Text.after? ('-' :: close) text with
  | some rest => some (rest.dropWhile Text.isBlank)
  | none =>
      match kind, Text.after? ('+' :: close) text with
      | .output, _ => Text.after? close text
      | _, some rest => some rest
      | _, none => (Text.after? close text).map dropLineEnd

def skipComment : List Char → Option (List Char)
  | [] => none
  | c :: rest =>
      match afterClosing .comment (c :: rest) with
      | some after => some after
      | none => skipComment rest

def takeQuoted (quote : Char) : List Char → Option (List Char × List Char)
  | [] => none
  | '\\' :: c :: rest => (takeQuoted quote rest).map fun (text, after) => (c :: text, after)
  | c :: rest =>
      if c = quote then some ([], rest)
      else (takeQuoted quote rest).map fun (text, after) => (c :: text, after)

/-- The lexemes up to the closing of a mark, and what follows it. -/
def lexemes (kind : Mark) : (fuel : Nat) → List Char → Option (List Lexeme × List Char)
  | 0, _ => none
  | fuel + 1, text =>
      match afterClosing kind text with
      | some rest => some ([], rest)
      | none =>
          match text with
          | [] => none
          | c :: rest =>
              let more (lexeme : Lexeme) (after : List Char) :=
                (lexemes kind fuel after).map fun (found, last) => (lexeme :: found, last)
              if Text.isBlank c then lexemes kind fuel rest
              else if Text.isAsciiDigit c then
                let digits := text.takeWhile Text.isAsciiDigit
                let after := text.drop digits.length
                if (after.head?.map Text.isNamelike).getD false then none
                else
                  more (.number (digits.foldl (fun n d => n * 10 + (d.toNat - 48)) 0)) after
              else if Text.isNamelike c then
                let word := text.takeWhile Text.isNamelike
                if Text.isName word then more (.word (String.ofList word)) (text.drop word.length)
                else none
              else if c = '"' ∨ c = '\'' then
                match takeQuoted c rest with
                | some (inside, after) => more (.quoted (String.ofList inside)) after
                | none => none
              else if ".|,()".toList.contains c then more (.sign c) rest
              else none

/-- The segments of a text. The flag says that a line starts here. -/
def segmentsFrom : (fuel : Nat) → (startsLine : Bool) → List Char → Option (List Segment)
  | 0, _, _ => none
  | fuel + 1, startsLine, text =>
      let (before, found) := cutAtMark text
      match found with
      | none => some (if before.isEmpty then [] else [.text before])
      | some (kind, inside) =>
          let (sign, content) := takeSign inside
          let kept := trimBefore kind sign startsLine before
          let lead := if kept.isEmpty then [] else [Segment.text kept]
          let onwards (segments : List Segment) (rest : List Char) : Option (List Segment) :=
            let eaten := content.take (content.length - rest.length)
            (segmentsFrom fuel (endsLine eaten) rest).map fun more => lead ++ segments ++ more
          match kind with
          | .comment => (skipComment content).bind fun rest => onwards [] rest
          | .output =>
              (lexemes kind (content.length + 1) content).bind fun (found, rest) =>
                onwards [.output found] rest
          | .tag =>
              (lexemes kind (content.length + 1) content).bind fun (found, rest) =>
                onwards [.tag found] rest

def normalized (text : List Char) : List Char :=
  let unified := Text.unifyLineEnds text
  if endsLine unified then unified.dropLast else unified

def segments (text : List Char) : Option (List Segment) :=
  segmentsFrom (text.length + 1) true (normalized text)

def Filter.ofName (name : String) : Filter :=
  if name == "shquote" then .shellWord
  else if name == "dq" then .inQuotes
  else .unknown name

def constant? (word : String) : Option Datum :=
  if word == "true" || word == "True" then some (.bool true)
  else if word == "false" || word == "False" then some (.bool false)
  else if word == "none" || word == "None" then some .null
  else none

def reserved : List String :=
  ["not", "and", "or", "in", "is", "if", "else"]

def primary? : Lexeme → Option Expression
  | .word name =>
      match constant? name with
      | some value => some (.constant value)
      | none => if reserved.contains name then none else some (.named name)
  | .number value => some (.constant (.int value))
  | .quoted text => some (.constant (.text text))
  | .sign _ => none

/-- The fields, elements and filters behind the start of an expression. Only filters can follow
filters. -/
def tailed (filtered : Bool) (subject : Expression) : List Lexeme → Option Expression
  | [] => some subject
  | .sign '.' :: .word name :: rest =>
      if filtered then none else tailed false (.field subject name) rest
  | .sign '.' :: .number number :: rest =>
      match filtered, subject with
      | true, _ | _, .constant (.int _) => none
      | false, _ => tailed false (.element subject number) rest
  | .sign '|' :: .word name :: rest =>
      tailed true (.filtered subject (Filter.ofName name)) rest
  | _ => none

def expression? : List Lexeme → Option Expression
  | [] => none
  | first :: rest => (primary? first).bind fun subject => tailed false subject rest

def targetName? : Lexeme → Option String
  | .word name => if (constant? name).isSome || reserved.contains name then none else some name
  | _ => none

def targetsFrom (found : List String) : List Lexeme → Option (List String × Bool × List Lexeme)
  | name :: .word "in" :: rest =>
      (targetName? name).map fun text => (found ++ [text], !found.isEmpty, rest)
  | name :: .sign ',' :: .word "in" :: rest =>
      (targetName? name).map fun text => (found ++ [text], true, rest)
  | name :: .sign ',' :: rest =>
      match targetName? name with
      | some text => targetsFrom (found ++ [text]) rest
      | none => none
  | _ => none

def heading? (content : List Lexeme) : Option (Targets × Expression) :=
  match targetsFrom [] content with
  | none => none
  | some (names, several, rest) =>
      (expression? rest).map fun source =>
        match names, several with
        | [name], false => (.one name, source)
        | names, _ => (.parts names, source)

mutual

/-- Pieces up to the end of the text or to a tag that starts with one of the given words. The tag
and what follows it are returned. -/
def piecesUntil (stops : List String) :
    (fuel : Nat) → List Segment → Option (List Piece × List Lexeme × List Segment)
  | 0, _ => none
  | fuel + 1, segments =>
      match segments with
      | [] => if stops.isEmpty then some ([], [], []) else none
      | .text text :: rest =>
          (piecesUntil stops fuel rest).map fun (found, last) =>
            (.text (String.ofList text) :: found, last)
      | .output content :: rest =>
          match expression? content with
          | none => none
          | some value =>
              (piecesUntil stops fuel rest).map fun (found, last) => (.output value :: found, last)
      | .tag (.word word :: content) :: rest =>
          if stops.contains word then some ([], .word word :: content, rest)
          else if word == "if" then
            match branchFrom fuel content rest with
            | none => none
            | some (piece, after) =>
                (piecesUntil stops fuel after).map fun (found, last) => (piece :: found, last)
          else if word == "for" then
            match loopFrom fuel content rest with
            | none => none
            | some (piece, after) =>
                (piecesUntil stops fuel after).map fun (found, last) => (piece :: found, last)
          else none
      | .tag _ :: _ => none

def branchFrom : (fuel : Nat) → List Lexeme → List Segment → Option (Piece × List Segment)
  | 0, _, _ => none
  | fuel + 1, test, segments =>
      match expression? test, piecesUntil ["elif", "else", "endif"] fuel segments with
      | some test, some (yes, [.word "endif"], rest) => some (.branch test yes [], rest)
      | some test, some (yes, [.word "else"], rest) =>
          match piecesUntil ["endif"] fuel rest with
          | some (no, [.word "endif"], after) => some (.branch test yes no, after)
          | _ => none
      | some test, some (yes, .word "elif" :: next, rest) =>
          (branchFrom fuel next rest).map fun (no, after) => (.branch test yes [no], after)
      | _, _ => none

def loopFrom : (fuel : Nat) → List Lexeme → List Segment → Option (Piece × List Segment)
  | 0, _, _ => none
  | fuel + 1, heading, segments =>
      match heading? heading, piecesUntil ["endfor"] fuel segments with
      | some (targets, source), some (body, [.word "endfor"], rest) =>
          some (.loop targets source body, rest)
      | _, _ => none

end

def ofSource? (name source : String) : Option Template :=
  match segments source.toList with
  | none => none
  | some found =>
      (piecesUntil [] (2 * found.length + 2) found).map fun (pieces, _) => ⟨name, pieces⟩

def invalid (name : String) : Failure :=
  .generation ("template '" ++ name ++ "' is invalid")

end StatusLine.Template

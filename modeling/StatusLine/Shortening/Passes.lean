import StatusLine.Datum.Record
import StatusLine.Shortening.BlankRuns
import StatusLine.Shortening.Identifiers
import StatusLine.Shortening.Idioms

/-!
The passes that shorten a script: names, idioms, blank lines. A run is all or nothing: if any rule
fails, the text stays as it was.
-/

namespace StatusLine.Shortening

structure Pass where
  name : String
  rules : List Rule

structure Options where
  identifiers : Bool
  idioms : Bool
  blankRuns : Bool
  deriving Repr, DecidableEq

def Options.all : Options :=
  ⟨true, true, true⟩

def Options.signature : Signature :=
  ⟨⟨⟨"slc.optimizer.optimizer", "OptimizationOptions"⟩, false⟩,
    [("compact_identifiers", some (.bool true)), ("substitute_idioms", some (.bool true)),
      ("normalize_whitespace", some (.bool true))]⟩

/-- The options in data; what is left out is on. -/
def Options.ofDatum (fields : Datum) : Except Failure Options :=
  (signature.make fields).map fun made =>
    ⟨(made.field "compact_identifiers").isTruthy, (made.field "substitute_idioms").isTruthy,
      (made.field "normalize_whitespace").isTruthy⟩

def passes (options : Options) : List Pass :=
  (if options.identifiers then [⟨"identifiers", identifierRules⟩] else []) ++
    (if options.idioms then [⟨"idioms", idiomRules⟩] else [])

structure Progress where
  log : List String
  result : Except Failure (List Char)

/-- Applies one rule; a rule that changes the text is noted. -/
def Progress.apply (passName : String) (progress : Progress) (rule : Rule) : Progress :=
  match progress.result with
  | .error _ => progress
  | .ok text =>
      match rule.apply text with
      | .error failure => { progress with result := .error failure }
      | .ok changed =>
          ⟨if changed = text then progress.log
            else progress.log ++ [passName ++ ": applied " ++ rule.name], .ok changed⟩

def Progress.applyPass (progress : Progress) (pass : Pass) : Progress :=
  pass.rules.foldl (Progress.apply pass.name) progress

structure Outcome where
  text : List Char
  log : List String
  deriving Repr, DecidableEq

def run (passList : List Pass) (blankRuns : Bool) (text : List Char) : Outcome :=
  let progress := passList.foldl Progress.applyPass ⟨[], .ok text⟩
  match progress.result with
  | .ok changed => ⟨if blankRuns then shortenBlankRuns changed else changed, progress.log⟩
  | .error failure =>
      ⟨text, progress.log ++ ["Optimization failed, keeping original text: " ++ failure.message]⟩

def optimize (options : Options) (text : List Char) : Outcome :=
  run (passes options) options.blankRuns text

end StatusLine.Shortening

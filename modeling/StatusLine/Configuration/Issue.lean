import StatusLine.Failure

/-!
Issues: what is wrong with a value in a configuration, and where.
-/

namespace StatusLine

inductive Place
  | name (text : String)
  | index (number : Int)
  deriving Repr, DecidableEq

inductive Mistake
  | notASet
  | notText
  | notUnicode
  /-- None of the allowed words. -/
  | notOffered (words : List String)
  | notABool
  | unreadableBool
  | notAnInt
  | unreadableInt
  | fraction
  | notFinite
  | tooLarge
  | notAFloat
  | unreadableFloat
  | unknownField
  | keyNotText
  /-- Not a mapping, where one for the named record is needed. -/
  | notAMapping (record : String)
  | notAPath
  deriving Repr, DecidableEq

namespace Mistake

/-- The short name of a mistake. -/
def code : Mistake → String
  | notASet => "frozen_set_type"
  | notText => "string_type"
  | notUnicode => "string_unicode"
  | notOffered _ => "literal_error"
  | notABool => "bool_type"
  | unreadableBool => "bool_parsing"
  | notAnInt => "int_type"
  | unreadableInt => "int_parsing"
  | fraction => "int_from_float"
  | notFinite => "finite_number"
  | tooLarge => "int_parsing_size"
  | notAFloat => "float_type"
  | unreadableFloat => "float_parsing"
  | unknownField => "extra_forbidden"
  | keyNotText => "invalid_key"
  | notAMapping _ => "model_type"
  | notAPath => "path_type"

def offered : List String → String
  | [] => ""
  | [word] => "'" ++ word ++ "'"
  | [word, last] => "'" ++ word ++ "' or '" ++ last ++ "'"
  | word :: rest => "'" ++ word ++ "', " ++ offered rest

def message : Mistake → String
  | notASet => "Input should be a valid frozenset"
  | notText => "Input should be a valid string"
  | notUnicode => "Input should be a valid string, unable to parse raw data as a unicode string"
  | notOffered words => "Input should be " ++ offered words
  | notABool => "Input should be a valid boolean"
  | unreadableBool => "Input should be a valid boolean, unable to interpret input"
  | notAnInt => "Input should be a valid integer"
  | unreadableInt => "Input should be a valid integer, unable to parse string as an integer"
  | fraction => "Input should be a valid integer, got a number with a fractional part"
  | notFinite => "Input should be a finite number"
  | tooLarge => "Unable to parse input string as an integer, exceeded maximum size"
  | notAFloat => "Input should be a valid number"
  | unreadableFloat => "Input should be a valid number, unable to parse string as a number"
  | unknownField => "Extra inputs are not permitted"
  | keyNotText => "Keys should be strings"
  | notAMapping record => "Input should be a valid dictionary or instance of " ++ record
  | notAPath => "Input is not a valid path for <class 'pathlib.Path'>"

end Mistake

structure Issue where
  place : List Place
  mistake : Mistake
  deriving Repr, DecidableEq

inductive Objection
  | invalid (issues : List Issue)
  | failed (failure : Failure)
  deriving Repr, DecidableEq

abbrev Check (α : Type) := Except (List Issue) α

namespace Check

def wrong {α : Type} (mistake : Mistake) : Check α :=
  .error [⟨[], mistake⟩]

/-- Applies a function to a value; the issues of both are kept. -/
def apply {α β : Type} (function : Check (α → β)) (value : Check α) : Check β :=
  match function, value with
  | .ok f, .ok x => .ok (f x)
  | .ok _, .error issues => .error issues
  | .error issues, .ok _ => .error issues
  | .error issues, .error more => .error (issues ++ more)

def inside {α : Type} (place : Place) (value : Check α) : Check α :=
  value.mapError fun issues => issues.map fun issue => { issue with place := place :: issue.place }

end Check

end StatusLine

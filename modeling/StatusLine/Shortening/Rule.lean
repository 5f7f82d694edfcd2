import StatusLine.Failure
import StatusLine.Shortening.Pattern

/-!
Shortening rules. Every rule says of which texts it keeps off, so that it does not touch what is in
its target form already.
-/

namespace StatusLine.Shortening

structure Rule where
  name : String
  /-- Whether the rule leaves a text alone. -/
  skip : List Char → Bool
  edit : List Char → Except Failure (List Char)

namespace Rule

def apply (rule : Rule) (text : List Char) : Except Failure (List Char) :=
  if rule.skip text then .ok text else rule.edit text

theorem apply_of_skip (rule : Rule) (text : List Char) (skips : rule.skip text = true) :
    rule.apply text = .ok text := by
  simp [apply, skips]

end Rule

def substringRule (name : String) (old new : List Char) : Rule where
  name := name
  skip := fun text => !Text.contains old (Text.replaceAll new [] text)
  edit := fun text =>
    if new.isEmpty then .error (.outOfRange "empty separator")
    else .ok (Text.joinWith new ((Text.splitOn new text).map (Text.replaceAll old new)))

/-- Replaces the matches of a pattern. A text in which the guard occurs is left alone. -/
def patternRule (name : String) (pattern : Pattern) (form : List (List Char) → List Char)
    (guard : Option (List Char)) : Rule where
  name := name
  skip := fun text =>
    (match guard with
      | some stretch => Text.contains stretch text
      | none => false) || !pattern.occursIn text
  edit := fun text => .ok (pattern.replace form text)

end StatusLine.Shortening

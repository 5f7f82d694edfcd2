import StatusLine.Text.Substring

/-!
Patterns of script text: fixed stretches, runs of characters and quoted variables, with guards
against the characters around a match. What a pattern takes up is either fixed or captured.
-/

namespace StatusLine.Shortening

inductive Element
  | literal (text : List Char)
  /-- The first of several fixed stretches that stands here. -/
  | either (options : List (List Char))
  /-- A captured run of at least one character, as long as possible. -/
  | run (accepts : Char → Bool)
  /-- A captured character out of a few. -/
  | oneOf (options : List Char)
  /-- A variable between double quotes, with or without braces; its name is captured. -/
  | quotedVariable

structure Pattern where
  /-- The character before a match must not pass this test. -/
  notAfter : Char → Bool
  elements : List Element
  /-- The character behind a match must not pass this test. -/
  notBefore : Char → Bool

structure Found where
  captures : List (List Char)
  rest : List Char

def takeRun (accepts : Char → Bool) (text : List Char) : Option (List Char × List Char) :=
  match text.takeWhile accepts with
  | [] => none
  | run => some (run, text.dropWhile accepts)

def takeNamed (close : List Char) (text : List Char) : Option (List Char × List Char) :=
  match takeRun Text.isWord text with
  | none => none
  | some (name, rest) => (Text.after? close rest).map fun behind => (name, behind)

def takeVariable (text : List Char) : Option (List Char × List Char) :=
  match Text.after? ['"', '$'] text with
  | none => none
  | some ('\x7b' :: rest) => takeNamed ['\x7d', '"'] rest
  | some rest => takeNamed ['"'] rest

def Element.find (element : Element) (text : List Char) : Option Found :=
  match element with
  | .literal stretch => (Text.after? stretch text).map fun rest => ⟨[], rest⟩
  | .either options =>
      (options.findSome? fun stretch => Text.after? stretch text).map fun rest => ⟨[], rest⟩
  | .run accepts => (takeRun accepts text).map fun (found, rest) => ⟨[found], rest⟩
  | .oneOf options =>
      match text with
      | [] => none
      | c :: rest => if options.contains c then some ⟨[[c]], rest⟩ else none
  | .quotedVariable => (takeVariable text).map fun (name, rest) => ⟨[name], rest⟩

def findAll : List Element → List Char → Option Found
  | [], text => some ⟨[], text⟩
  | element :: more, text =>
      match element.find text with
      | none => none
      | some found =>
          (findAll more found.rest).map fun last => ⟨found.captures ++ last.captures, last.rest⟩

def isThere (test : Char → Bool) : Option Char → Bool
  | some c => test c
  | none => false

def Pattern.find (pattern : Pattern) (previous : Option Char) (text : List Char) : Option Found :=
  if isThere pattern.notAfter previous then none
  else
    match findAll pattern.elements text with
    | none => none
    | some found => if isThere pattern.notBefore found.rest.head? then none else some found

def Pattern.occursIn (pattern : Pattern) (text : List Char) : Bool :=
  Text.somewhere (fun previous here => (pattern.find previous here).isSome) none text

def Pattern.replace (pattern : Pattern) (form : List (List Char) → List Char)
    (text : List Char) : List Char :=
  Text.substitute
    (fun previous here =>
      (pattern.find previous here).map fun found =>
        ⟨here.length - found.rest.length, form found.captures⟩)
    none 0 text

end StatusLine.Shortening

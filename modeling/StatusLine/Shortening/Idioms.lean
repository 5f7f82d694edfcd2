import StatusLine.Shortening.Rule

/-!
Shorter idioms for common tests and lookups. Tests in single brackets change only where they
do not sit inside double brackets.
-/

namespace StatusLine.Shortening

structure Idiom where
  name : String
  pattern : Pattern
  form : List (List Char) → List Char

def isOpenBracket (c : Char) : Bool := c == '['

def isCloseBracket (c : Char) : Bool := c == ']'

def bracketed (elements : List Element) : Pattern :=
  ⟨isOpenBracket, [.literal ['[', ' ']] ++ elements ++ [.literal [' ', ']']], isCloseBracket⟩

def anywhere (elements : List Element) : Pattern :=
  ⟨fun _ => false, elements, fun _ => false⟩

def capture (captures : List (List Char)) (number : Nat) : List Char :=
  captures.getD number []

def isCommandChar (c : Char) : Bool :=
  Text.isWord c || c == '.' || c == '+' || c == '-'

def commandCheck : Idiom :=
  ⟨"command-check",
    bracketed [.literal "\"$(".toList, .either ["command -v ".toList, "which ".toList],
      .run isCommandChar, .literal ")\"".toList],
    fun captures => "command -v ".toList ++ capture captures 0 ++ " >/dev/null 2>&1".toList⟩

def homeAbbreviation : Idiom :=
  ⟨"home-abbrev",
    anywhere [.literal "$(echo \"$".toList, .run Text.isWord,
      .literal "\" | sed \"s|^$HOME|~|g\")".toList],
    fun captures => "$\x7b".toList ++ capture captures 0 ++ "/#$HOME/\\~\x7d".toList⟩

def catRedirect : Idiom :=
  ⟨"cat-redirect", anywhere [.literal "$(cat ".toList, .quotedVariable, .literal [')']],
    fun captures => "$(<\"$".toList ++ capture captures 0 ++ "\")".toList⟩

def statusCheck : Idiom :=
  ⟨"status-check", bracketed [.literal "$? -eq 0".toList], fun _ => "((! $?))".toList⟩

def nonemptyTest : Idiom :=
  ⟨"nonempty-test", bracketed [.literal "-n ".toList, .quotedVariable],
    fun captures => "[[ $".toList ++ capture captures 0 ++ " ]]".toList⟩

def emptyTest : Idiom :=
  ⟨"empty-test", bracketed [.literal "-z ".toList, .quotedVariable],
    fun captures => "[[ ! $".toList ++ capture captures 0 ++ " ]]".toList⟩

def fileTest : Idiom :=
  ⟨"file-test",
    bracketed [.literal ['-'], .oneOf ['f', 'd', 'r', 'e'], .literal [' '], .quotedVariable],
    fun captures => "[[ -".toList ++ capture captures 0 ++ " $".toList ++ capture captures 1 ++
      " ]]".toList⟩

def Idiom.rule (idiom : Idiom) (guard : Option (List Char)) : Rule :=
  patternRule idiom.name idiom.pattern idiom.form guard

def epochSeconds : Rule :=
  substringRule "epoch-seconds" "$(date +%s)".toList
    "$\x7bEPOCHSECONDS:-$(date +%s)\x7d".toList

def idioms : List Idiom :=
  [commandCheck, homeAbbreviation, catRedirect, statusCheck, nonemptyTest, emptyTest, fileTest]

def idiomRules : List Rule :=
  [commandCheck.rule none, homeAbbreviation.rule none, epochSeconds, catRedirect.rule none,
    statusCheck.rule none, nonemptyTest.rule none, emptyTest.rule none, fileTest.rule none]

end StatusLine.Shortening

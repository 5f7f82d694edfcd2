import StatusLine.Proofs.Audit.ScanSteps

/-!
Here-strings in the scan of quotes. Three angle brackets start no here-document, but the scan goes
on behind the first of them and finds two. A word that follows is then awaited as a delimiter, and
the lines up to it are not scanned.
-/

namespace StatusLine.Audit

open Text (IsDelimiter)

section HereStrings

variable {state : QuoteState} {previous : Option Char} {word : List Char}

theorem scanFrom_hereString (inCode : state.innermost = .code ∨ state.innermost = .command)
    (text : List Char) :
    scanFrom 0 previous state ('<' :: '<' :: '<' :: text) =
      scanFrom 0 (some '<') state ('<' :: '<' :: text) := by
  have unopened : QuoteState.document? '<' ('<' :: '<' :: text) = none := rfl
  have here : state.step previous '<' ('<' :: '<' :: text) = (state, 0) := by
    rw [step_less inCode, unopened]
  exact scanFrom_step previous state '<' _ state here

theorem scanFrom_document (inCode : state.innermost = .code ∨ state.innermost = .command)
    (settled : state.pending = []) (isDelimiter : IsDelimiter word) (rest : List Char) :
    scanFrom 0 previous state ('<' :: '<' :: (word ++ '\n' :: rest)) =
      scanFrom 0 none state (afterDelimiter word [] rest) := by
  let waiting : QuoteState := { state with pending := [word] }
  have opened : state.step previous '<' ('<' :: (word ++ '\n' :: rest)) =
      (waiting, ('<' :: word ++ '\n' :: rest).length - ('\n' :: rest).length) := by
    rw [step_less inCode, document?_delimiter isDelimiter (Text.atLineEnd_newline rest)]
    simp [waiting, settled]
  have unchanged : { waiting with pending := [] } = state := by
    cases state
    simp_all [waiting]
  have awaits : (waiting.innermost = .code ∨ waiting.innermost = .command) ∧
      waiting.pending ≠ [] := ⟨inCode, List.cons_ne_nil word []⟩
  rw [scanFrom, opened]
  change scanFrom (_ - _) (some '<') waiting ('<' :: word ++ '\n' :: rest) = _
  rw [scanFrom_jump, scanFrom_bodies awaits, unchanged]
  exact scanFrom_line_start (afterDelimiter word [] rest)

theorem scanFrom_line {line : List Char} (inert : ∀ c ∈ line, isInert c = true)
    (settled : state.pending = []) (rest : List Char) :
    scanFrom 0 previous state (line ++ '\n' :: rest) = scanFrom 0 none state rest := by
  have here : state.step (line.getLast?.or previous) '\n' rest = (state, 0) := by
    rw [step_newline, if_neg fun awaits => awaits.2 settled]
  rw [scanFrom_inert inert, scanFrom_step _ _ _ _ _ here]
  exact scanFrom_line_start rest

end HereStrings

/-- A here-string of one word is taken for a here-document: what is scanned starts behind the next
line that holds the word alone. With the word as an argument, all that follows is scanned. -/
theorem scanQuotes_hereString {word : List Char} (isDelimiter : IsDelimiter word)
    (rest : List Char) :
    scanQuotes ("cat <<<".toList ++ word ++ '\n' :: rest) =
        scanQuotes ("cat <<".toList ++ word ++ '\n' :: rest) ∧
      scanQuotes ("cat <<<".toList ++ word ++ '\n' :: rest) =
        scanQuotes (afterDelimiter word [] rest) ∧
      scanQuotes ("cat ".toList ++ word ++ '\n' :: rest) = scanQuotes rest := by
  have inCode : QuoteState.start.innermost = .code ∨ QuoteState.start.innermost = .command :=
    .inl rfl
  have command : ∀ c ∈ "cat ".toList, isInert c = true := by decide
  have document (previous : Option Char) :
      scanFrom 0 previous .start ('<' :: '<' :: (word ++ '\n' :: rest)) =
        scanFrom 0 none .start (afterDelimiter word [] rest) :=
    scanFrom_document inCode rfl isDelimiter rest
  have two : scanFrom 0 none .start ("cat <<".toList ++ word ++ '\n' :: rest) =
      scanFrom 0 none .start (afterDelimiter word [] rest) := by
    have split : "cat <<".toList ++ word ++ '\n' :: rest =
        "cat ".toList ++ '<' :: '<' :: (word ++ '\n' :: rest) := by simp
    rw [split, scanFrom_inert command, document]
  have three : scanFrom 0 none .start ("cat <<<".toList ++ word ++ '\n' :: rest) =
      scanFrom 0 none .start (afterDelimiter word [] rest) := by
    have split : "cat <<<".toList ++ word ++ '\n' :: rest =
        "cat ".toList ++ '<' :: '<' :: '<' :: (word ++ '\n' :: rest) := by simp
    rw [split, scanFrom_inert command, scanFrom_hereString inCode, document]
  have argument : scanFrom 0 none .start ("cat ".toList ++ word ++ '\n' :: rest) =
      scanFrom 0 none .start rest := by
    refine scanFrom_line (fun c member => ?_) rfl rest
    rcases List.mem_append.mp member with inCommand | inWord
    · exact command c inCommand
    · exact isInert_of_isDelimiterChar (isDelimiter.each c inWord)
  simp only [scanQuotes, two, three, argument, and_self]

theorem isDelimiter_name : IsDelimiter "name".toList :=
  ⟨⟨'n', _, rfl, by decide⟩, by decide⟩

theorem scanQuotes_hereString_unseen :
    IsDelimiter "name".toList ∧
      scanQuotes ("cat <<<".toList ++ "name".toList ++ '\n' :: "'".toList) =
        scanQuotes ("cat <<".toList ++ "name".toList ++ '\n' :: "'".toList) ∧
      scanQuotes ("cat <<<".toList ++ "name".toList ++ '\n' :: "'".toList) = scanQuotes [] ∧
      scanQuotes ("cat ".toList ++ "name".toList ++ '\n' :: "'".toList) = scanQuotes "'".toList :=
  ⟨isDelimiter_name, scanQuotes_hereString isDelimiter_name "'".toList⟩

theorem hereString_not_as_argument :
    ¬ ∀ word rest, IsDelimiter word →
      scanQuotes ("cat <<<".toList ++ word ++ '\n' :: rest) =
        scanQuotes ("cat ".toList ++ word ++ '\n' :: rest) := by
  intro same
  have differ : scanQuotes ("cat <<<".toList ++ "name".toList ++ '\n' :: "'".toList) ≠
      scanQuotes ("cat ".toList ++ "name".toList ++ '\n' :: "'".toList) := by decide +kernel
  exact differ (same "name".toList "'".toList isDelimiter_name)

end StatusLine.Audit

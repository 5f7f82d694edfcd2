import StatusLine.Audit.Report
import StatusLine.Proofs.Audit.DocumentLines
import StatusLine.Proofs.Audit.QuoteSoundness

/-!
The scan follows the cautious reader. As long as the reader does not give up, it and the scan are
inside of the same frames; the scan takes a comment, a here-document or an escaped character in one
step where the reader takes one step for each character.
-/

namespace StatusLine.Audit

open QuoteReading (reader)

/-! What the frames of the scan are. -/

def commandFrames : List OpenCommand → List Frame
  | [] => [.code]
  | command :: outer =>
      .command :: (if command.quoted then .double :: commandFrames outer else commandFrames outer)

def Quoting.frames (commands : List OpenCommand) : Quoting → List Frame
  | plain _ | comment => commandFrames commands
  | double _ => .double :: commandFrames commands
  | single => .single :: commandFrames commands

structure Reflects (state : QuoteState) (quoting : Quoting) (commands : List OpenCommand) :
    Prop where
  frames : state.frames = quoting.frames commands
  depths : state.depths = commands.map OpenCommand.depth
  pending : state.pending = []

/-- What the reader remembers of the characters before a place holds there. -/
def Before.Agrees (previous : Option Char) (text : List Char) : Before → Prop
  | space => startsWord previous = true
  | slash => startsWord previous = false
  | dollar => text.head? ≠ some '('
  | less => text.head? ≠ some '<'
  | backslash => False
  | other => True

/-- A comment is none of the places that the scan stops at. -/
def Quoting.Agrees (previous : Option Char) (text : List Char) : Quoting → Prop
  | plain before => before.Agrees previous text
  | double .dollar => text.head? ≠ some '('
  | double .backslash | comment => False
  | double _ | single => True

def ScanFollows (text : List Char) : Prop :=
  ∀ previous state quoting commands, Reflects state quoting commands →
    quoting.Agrees previous text →
    (reader.read (.inside quoting commands) text).isClosed = true →
      (scanFrom 0 previous state text).frames = [.code]

theorem scanFollows_nil : ScanFollows [] := by
  intro previous state quoting commands reflects agrees closed
  rw [scanFrom, reflects.frames]
  cases quoting <;> cases commands <;>
    simp_all [QuoteReading.isClosed, Quoting.frames, commandFrames]

theorem scanFrom_step (previous : Option Char) (state : QuoteState) (c : Char) (rest : List Char)
    (next : QuoteState) (here : state.step previous c rest = (next, 0)) :
    scanFrom 0 previous state (c :: rest) = scanFrom 0 (some c) next rest := by
  rw [scanFrom, here]

theorem scanFrom_step_one (previous : Option Char) (state : QuoteState) (c d : Char)
    (rest : List Char) (next : QuoteState) (here : state.step previous c (d :: rest) = (next, 1)) :
    scanFrom 0 previous state (c :: d :: rest) = scanFrom 0 (some d) next rest := by
  rw [scanFrom, here]
  rfl

/-! Between single quotes. -/

theorem scanFollows_single (c : Char) (rest : List Char) (later : ScanFollows rest)
    (previous : Option Char) (state : QuoteState) (commands : List OpenCommand)
    (reflects : Reflects state .single commands)
    (closed : (reader.read (.inside .single commands) (c :: rest)).isClosed = true) :
    (scanFrom 0 previous state (c :: rest)).frames = [.code] := by
  have inner : state.innermost = .single := by
    rw [QuoteState.innermost, reflects.frames]
    rfl
  by_cases ends : c = '\''
  · subst ends
    have here : state.step previous '\'' rest = (state.leave.countSingle, 0) := by
      simp [QuoteState.step, inner]
    rw [scanFrom_step previous state '\'' rest _ here]
    refine later _ _ (.plain .other) commands ⟨?_, reflects.depths, reflects.pending⟩ trivial closed
    simp [QuoteState.leave, QuoteState.countSingle, reflects.frames, Quoting.frames]
  · have here : state.step previous c rest = (state, 0) := by
      simp [QuoteState.step, inner, ends]
    have same : QuoteReading.step (.inside .single commands) (.of c) =
        .inside .single commands := by
      have different : Mark.of c ≠ .single := fun marked => ends (Mark.eq_of_single marked)
      simp [QuoteReading.step, different]
    rw [scanFrom_step previous state c rest _ here]
    refine later _ _ .single commands reflects trivial ?_
    rw [LineReader.read_cons] at closed
    exact (congrArg (fun reached => (reader.read reached rest).isClosed) same).symm.trans closed

/-! Between double quotes. -/

theorem not_closed_lost (text : List Char) :
    (reader.read .lost text).isClosed ≠ true := by
  rw [QuoteReading.read_lost]
  simp [QuoteReading.isClosed]

theorem stepDouble_backslash (before : Before) (commands : List OpenCommand)
    (unescaped : before ≠ .backslash) :
    QuoteReading.stepDouble before commands .backslash = .inside (.double .backslash) commands := by
  cases before <;> first | rfl | exact absurd rfl unescaped

theorem stepDouble_double (before : Before) (commands : List OpenCommand)
    (unescaped : before ≠ .backslash) :
    QuoteReading.stepDouble before commands .double = .inside (.plain .other) commands := by
  cases before <;> first | rfl | exact absurd rfl unescaped

theorem stepDouble_dollar (before : Before) (commands : List OpenCommand)
    (unescaped : before ≠ .backslash) :
    QuoteReading.stepDouble before commands .dollar = .inside (.double .dollar) commands := by
  cases before <;> first | rfl | exact absurd rfl unescaped

theorem stepDouble_else (before : Before) (commands : List OpenCommand) (c : Char)
    (plain : c ≠ '\\' ∧ c ≠ '"' ∧ c ≠ '$') (unopened : before = .dollar → c ≠ '(') :
    QuoteReading.stepDouble before commands (.of c) = .inside (.double .other) commands ∨
      QuoteReading.stepDouble before commands (.of c) = .lost := by
  have means := Mark.means_of c
  cases marked : Mark.of c <;> rw [marked] at means <;> cases before <;>
    simp_all [Mark.Means, QuoteReading.stepDouble]

section Double

variable {c : Char} {rest : List Char} {previous : Option Char} {state : QuoteState}
  {before : Before} {commands : List OpenCommand}

theorem innermost_of_double (reflects : Reflects state (.double before) commands) :
    state.innermost = .double := by
  rw [QuoteState.innermost, reflects.frames]
  rfl

theorem scan_escaped (escaped : state.innermost ≠ .single) (d : Char) (behind : List Char) :
    scanFrom 0 previous state ('\\' :: d :: behind) = scanFrom 0 (some d) state behind := by
  refine scanFrom_step_one previous state '\\' d behind state ?_
  simp [QuoteState.step, escaped]

theorem scanFollows_double
    (later : ∀ text : List Char, text.length < (c :: rest).length → ScanFollows text)
    (reflects : Reflects state (.double before) commands)
    (agrees : (Quoting.double before).Agrees previous (c :: rest))
    (closed : (reader.read (.inside (.double before) commands) (c :: rest)).isClosed = true) :
    (scanFrom 0 previous state (c :: rest)).frames = [.code] := by
  have inner := innermost_of_double reflects
  have outside : state.innermost ≠ .single := by
    rw [inner]
    decide
  have unescaped : before ≠ .backslash := by
    rintro rfl
    exact agrees
  rw [LineReader.read_cons] at closed
  change (reader.read (QuoteReading.stepDouble before commands (.of c)) rest).isClosed = true
    at closed
  by_cases backslash : c = '\\'
  · subst backslash
    rw [show Mark.of '\\' = .backslash from rfl, stepDouble_backslash before commands unescaped]
      at closed
    cases rest with
    | nil => exact Bool.noConfusion closed
    | cons d behind =>
        rw [scan_escaped outside d behind]
        exact later behind (by simp only [List.length_cons]; omega) _ _ (.double .other) commands
          ⟨reflects.frames, reflects.depths, reflects.pending⟩ trivial closed
  by_cases quote : c = '"'
  · subst quote
    rw [show Mark.of '"' = .double from rfl, stepDouble_double before commands unescaped] at closed
    have here : state.step previous '"' rest = (state.leave.countDouble, 0) := by
      simp [QuoteState.step, QuoteState.stepDouble, inner]
    rw [scanFrom_step previous state '"' rest _ here]
    refine later rest (by simp) _ _ (.plain .other) commands
      ⟨?_, reflects.depths, reflects.pending⟩ trivial closed
    simp [QuoteState.leave, QuoteState.countDouble, reflects.frames, Quoting.frames]
  by_cases dollar : c = '$'
  · subst dollar
    rw [show Mark.of '$' = .dollar from rfl, stepDouble_dollar before commands unescaped] at closed
    by_cases opens : rest.head? = some '('
    · obtain ⟨behind, rfl⟩ := List.head?_eq_some_iff.mp opens
      have here : state.step previous '$' ('(' :: behind) = (state.enterCommand, 1) := by
        simp [QuoteState.step, QuoteState.stepDouble, QuoteState.opensCommand, inner]
      rw [scanFrom_step_one previous state '$' '(' behind _ here]
      refine later behind (by simp only [List.length_cons]; omega) _ _ (.plain .other) (⟨0, true⟩ :: commands)
        ⟨?_, ?_, reflects.pending⟩ trivial closed
      · simp [QuoteState.enterCommand, reflects.frames, Quoting.frames, commandFrames]
      · simp [QuoteState.enterCommand, reflects.depths]
    · have here : state.step previous '$' rest = (state, 0) := by
        simp [QuoteState.step, QuoteState.stepDouble, QuoteState.opensCommand, inner, opens]
      rw [scanFrom_step previous state '$' rest _ here]
      exact later rest (by simp) _ _ (.double .dollar) commands
        ⟨reflects.frames, reflects.depths, reflects.pending⟩ opens closed
  have unopened : before = .dollar → c ≠ '(' := by
    rintro rfl rfl
    exact agrees rfl
  have here : state.step previous c rest = (state, 0) := by
    simp [QuoteState.step, QuoteState.stepDouble, QuoteState.opensCommand, inner, backslash, quote,
      dollar]
  rw [scanFrom_step previous state c rest _ here]
  rcases stepDouble_else before commands c ⟨backslash, quote, dollar⟩ unopened with next | next <;>
    rw [next] at closed
  · exact later rest (by simp) _ _ (.double .other) commands
      ⟨reflects.frames, reflects.depths, reflects.pending⟩ trivial closed
  · exact absurd closed (not_closed_lost rest)

end Double

/-! Comments. -/

theorem read_comment (commands : List OpenCommand) (text : List Char) :
    reader.read (.inside .comment commands) text =
      reader.read (.inside .comment commands) (text.dropWhile (· != '\n')) := by
  induction text with
  | nil => rfl
  | cons c rest ih =>
      by_cases newline : c = '\n'
      · subst newline
        rfl
      · have here : QuoteReading.step (.inside .comment commands) (.of c) =
            .inside .comment commands := by
          have different : Mark.of c ≠ .newline := fun marked => newline (Mark.eq_of_newline marked)
          simp [QuoteReading.step, different]
        rw [List.dropWhile_cons_of_pos (by simpa using newline), ← ih]
        exact congrArg (reader.read · rest) here

theorem dropWhile_line (text : List Char) :
    text.dropWhile (· != '\n') = [] ∨ ∃ rest, text.dropWhile (· != '\n') = '\n' :: rest := by
  induction text with
  | nil => exact .inl rfl
  | cons c rest ih =>
      by_cases newline : c = '\n'
      · subst newline
        exact .inr ⟨rest, rfl⟩
      · rw [List.dropWhile_cons_of_pos (by simpa using newline)]
        exact ih

/-! Code. -/

theorem step_eq_stepCode {state : QuoteState}
    (inCode : state.innermost = .code ∨ state.innermost = .command) {c : Char}
    (unescaped : c ≠ '\\') (previous : Option Char) (rest : List Char) :
    state.step previous c rest = state.stepCode previous c rest := by
  have outside : state.innermost ≠ .single ∧ state.innermost ≠ .double := by
    rcases inCode with inner | inner <;> rw [inner] <;> decide
  rw [QuoteState.step, if_neg outside.1, if_neg unescaped, if_neg outside.2]

theorem step_quiet {state : QuoteState} {previous : Option Char} {c : Char} {rest : List Char}
    (inCode : state.innermost = .code ∨ state.innermost = .command)
    (backslash : c ≠ '\\') (single : c ≠ '\'') (double : c ≠ '"')
    (comment : ¬ (c = '#' ∧ startsWord previous = true))
    (command : QuoteState.opensCommand c rest = false)
    (document : QuoteState.document? c rest = none)
    (parentheses : state.innermost = .command → c ≠ '(' ∧ c ≠ ')')
    (pending : c = '\n' → state.pending = []) :
    state.step previous c rest = (state, 0) := by
  have noOpening : ¬ (state.innermost = .command ∧ c = '(') := fun both =>
    (parentheses both.1).1 both.2
  have noClosing : ¬ (state.innermost = .command ∧ c = ')') := fun both =>
    (parentheses both.1).2 both.2
  have noBodies : ¬ (c = '\n' ∧ state.pending ≠ []) := fun both => both.2 (pending both.1)
  rw [step_eq_stepCode inCode backslash, QuoteState.stepCode, if_neg single, if_neg double,
    if_neg comment, command, if_neg Bool.false_ne_true, document]
  simp only [if_neg noOpening, if_neg noClosing, if_neg noBodies]

theorem opensCommand_of_ne (c : Char) (rest : List Char) (different : c ≠ '$') :
    QuoteState.opensCommand c rest = false := by
  simp [QuoteState.opensCommand, different]

theorem document?_of_ne (c : Char) (rest : List Char) (different : c ≠ '<') :
    QuoteState.document? c rest = none := by
  simp [QuoteState.document?, different]

/-! Here-documents. -/

structure AwaitsDocument (state : QuoteState) : Prop where
  frames : state.frames = [.code]
  depths : state.depths = []
  pending : state.pending = [knownDelimiter]

theorem scan_awaiting_newline {state : QuoteState} (awaits : AwaitsDocument state)
    (previous : Option Char) (rest : List Char) :
    state.step previous '\n' rest =
      ({ state with pending := [] },
        rest.length - (afterDelimiter knownDelimiter [] rest).length) := by
  simp [QuoteState.step, QuoteState.stepCode, QuoteState.innermost, QuoteState.opensCommand,
    QuoteState.document?, afterBodies, awaits.frames, awaits.pending]

theorem stepAwaiting_cases (c : Char) (sameLine : c ≠ '\n') :
    QuoteReading.stepAwaiting (.of c) = .awaiting ∨ QuoteReading.stepAwaiting (.of c) = .lost := by
  have means := Mark.means_of c
  cases marked : Mark.of c <;> rw [marked] at means <;>
    simp_all [QuoteReading.stepAwaiting, Mark.Means]

theorem scanFollows_awaiting (text : List Char)
    (later : ∀ rest : List Char, rest.length < text.length → ScanFollows rest)
    (previous : Option Char) (state : QuoteState) (awaits : AwaitsDocument state)
    (closed : (reader.read .awaiting text).isClosed = true) :
    (scanFrom 0 previous state text).frames = [.code] := by
  induction text generalizing previous with
  | nil => exact awaits.frames
  | cons c rest ih =>
      rw [LineReader.read_cons] at closed
      change (reader.read (QuoteReading.stepAwaiting (.of c)) rest).isClosed = true at closed
      by_cases newline : c = '\n'
      · subst newline
        rw [scanFrom, scan_awaiting_newline awaits previous rest]
        rcases afterDelimiter_spec [] rest with ⟨empty, _, _⟩ | ⟨lead, split, reached⟩
        · rw [empty, List.length_nil, Nat.sub_zero]
          have skipped := scanFrom_skipped rest [] (some '\n') { state with pending := [] }
          rw [List.append_nil] at skipped
          exact (congrArg QuoteState.frames skipped).trans awaits.frames
        · generalize afterDelimiter knownDelimiter [] rest = behind at split reached ⊢
          have distance : rest.length - behind.length = (lead ++ ['\n']).length := by
            have whole := congrArg List.length split
            rw [List.length_append, List.length_cons] at whole
            rw [List.length_append, List.length_singleton]
            omega
          have whole : rest = (lead ++ ['\n']) ++ behind := by
            rw [split]
            simp
          have shorter : behind.length < ('\n' :: rest).length := by
            rw [split]
            simp
            omega
          have skipped := scanFrom_skipped (lead ++ ['\n']) behind (some '\n')
            { state with pending := [] }
          rw [← whole, ← distance] at skipped
          refine (congrArg QuoteState.frames skipped).trans ?_
          refine later behind shorter _ _ (.plain .space) [] ⟨awaits.frames, awaits.depths, rfl⟩
            (by simp [Quoting.Agrees, Before.Agrees, startsWord, breaksWord]) ?_
          rw [← reached]
          exact closed
      · rcases stepAwaiting_cases c newline with goesOn | givesUp
        · have here : state.step previous c rest = (state, 0) := by
            refine step_quiet (.inl ?_) ?_ ?_ ?_ ?_ (opensCommand_of_ne c rest ?_)
              (document?_of_ne c rest ?_) ?_ fun same => absurd same newline
            · rw [QuoteState.innermost, awaits.frames]
              rfl
            · rintro rfl
              exact absurd goesOn (by decide)
            · rintro rfl
              exact absurd goesOn (by decide)
            · rintro rfl
              exact absurd goesOn (by decide)
            · rintro ⟨rfl, _⟩
              exact absurd goesOn (by decide)
            · rintro rfl
              exact absurd goesOn (by decide)
            · rintro rfl
              exact absurd goesOn (by decide)
            · rw [QuoteState.innermost, awaits.frames]
              exact fun command => absurd command (by decide)
          rw [goesOn] at closed
          rw [scanFrom_step previous state c rest _ here]
          exact ih (fun text shorter => later text (by simp only [List.length_cons]; omega)) (some c) closed
        · rw [givesUp] at closed
          exact absurd closed (not_closed_lost rest)

theorem awaited_of_closed (awaited : Awaited) (text : List Char)
    (closed : (reader.read (.opening awaited) text).isClosed = true) :
    ∃ c rest, text = c :: rest ∧ Mark.of c = awaited.mark ∧
      (reader.read (QuoteReading.stepOpening awaited awaited.mark) rest).isClosed = true := by
  cases text with
  | nil => exact Bool.noConfusion closed
  | cons c rest =>
      rw [LineReader.read_cons] at closed
      change (reader.read (QuoteReading.stepOpening awaited (.of c)) rest).isClosed = true at closed
      by_cases same : Mark.of c = awaited.mark
      · rw [same] at closed
        exact ⟨c, rest, rfl, same, closed⟩
      · have givesUp : QuoteReading.stepOpening awaited (.of c) = .lost := by
          simp [QuoteReading.stepOpening, same]
        rw [givesUp] at closed
        exact absurd closed (not_closed_lost rest)

theorem document_of_closed (text : List Char)
    (closed : (reader.read (.opening .quote) text).isClosed = true) :
    ∃ rest, text = '\'' :: 'P' :: 'Y' :: '\'' :: rest ∧
      (reader.read .awaiting rest).isClosed = true := by
  obtain ⟨c, _, rfl, quote, afterQuote⟩ := awaited_of_closed _ _ closed
  obtain ⟨d, _, rfl, first, afterFirst⟩ := awaited_of_closed _ _ afterQuote
  obtain ⟨e, _, rfl, second, afterSecond⟩ := awaited_of_closed _ _ afterFirst
  obtain ⟨f, rest, rfl, unquote, behind⟩ := awaited_of_closed _ _ afterSecond
  obtain rfl := Mark.eq_of_single quote
  obtain rfl := Mark.eq_of_first first
  obtain rfl := Mark.eq_of_second second
  obtain rfl := Mark.eq_of_single unquote
  exact ⟨rest, rfl, behind⟩

theorem document?_known (rest : List Char) :
    QuoteState.document? '<' ('<' :: '\'' :: 'P' :: 'Y' :: '\'' :: rest) =
      some ⟨knownDelimiter, rest⟩ := by
  rfl

/-! Plain text. -/

theorem stepPlain_backslash (before : Before) (commands : List OpenCommand)
    (unescaped : before ≠ .backslash) :
    QuoteReading.stepPlain before commands .backslash = .inside (.plain .backslash) commands := by
  cases before <;> first | rfl | exact absurd rfl unescaped

theorem stepPlain_single (before : Before) (commands : List OpenCommand)
    (unescaped : before ≠ .backslash) :
    QuoteReading.stepPlain before commands .single = .inside .single commands := by
  cases before <;> first | rfl | exact absurd rfl unescaped

theorem stepPlain_double (before : Before) (commands : List OpenCommand)
    (unescaped : before ≠ .backslash) :
    QuoteReading.stepPlain before commands .double = .inside (.double .other) commands := by
  cases before <;> first | rfl | exact absurd rfl unescaped

theorem stepPlain_dollar (before : Before) (commands : List OpenCommand)
    (unescaped : before ≠ .backslash) :
    QuoteReading.stepPlain before commands .dollar = .inside (.plain .dollar) commands := by
  cases before <;> first | rfl | exact absurd rfl unescaped

theorem stepPlain_less (before : Before) (commands : List OpenCommand)
    (unescaped : before ≠ .backslash) (different : before ≠ .less) :
    QuoteReading.stepPlain before commands .less = .inside (.plain .less) commands := by
  cases before <;> first | rfl | exact absurd rfl unescaped | exact absurd rfl different

theorem stepPlain_opening (before : Before) (commands : List OpenCommand)
    (unescaped : before ≠ .backslash) (different : before ≠ .dollar) :
    QuoteReading.stepPlain before commands .opening =
      .inside (.plain .other) (QuoteReading.openParenthesis commands) := by
  cases before <;> first | rfl | exact absurd rfl unescaped | exact absurd rfl different

theorem stepPlain_closing (before : Before) (commands : List OpenCommand)
    (unescaped : before ≠ .backslash) :
    QuoteReading.stepPlain before commands .closing = QuoteReading.closeParenthesis commands := by
  cases before <;> first | rfl | exact absurd rfl unescaped

theorem stepPlain_hash (before : Before) (commands : List OpenCommand)
    (unescaped : before ≠ .backslash) :
    (before = .space ∧
      QuoteReading.stepPlain before commands .hash = .inside .comment commands) ∨
    (before = .slash ∧
      QuoteReading.stepPlain before commands .hash = .inside (.plain .other) commands) ∨
    QuoteReading.stepPlain before commands .hash = .lost := by
  cases before <;> simp_all [QuoteReading.stepPlain]

theorem stepPlain_quiet (before : Before) (commands : List OpenCommand) (c : Char)
    (rest : List Char) (unescaped : before ≠ .backslash)
    (quiet : c ∉ ['\\', '\'', '"', '#', '$', '<', '(', ')']) :
    QuoteReading.stepPlain before commands (.of c) = .lost ∨
      ∃ next : Before, next.Agrees (some c) rest ∧
        QuoteReading.stepPlain before commands (.of c) = .inside (.plain next) commands := by
  have means := Mark.means_of c
  cases marked : Mark.of c <;> rw [marked] at means
  case bracket =>
    cases before <;> first
      | exact .inl rfl
      | exact .inr ⟨.other, trivial, rfl⟩
  case slash =>
    obtain rfl : c = '/' := means
    cases before <;> first
      | exact absurd rfl unescaped
      | exact .inr ⟨.slash, rfl, rfl⟩
  case newline =>
    obtain rfl : c = '\n' := means
    cases before <;> exact .inr ⟨.space, rfl, rfl⟩
  case space =>
    cases before <;> first
      | exact absurd rfl unescaped
      | exact .inr ⟨.space, by rcases means with rfl | rfl <;> rfl, rfl⟩
  case blank | first | second | other => cases before <;> exact .inr ⟨.other, trivial, rfl⟩
  all_goals simp_all [Mark.Means]

theorem stepPlain_escaped (commands : List OpenCommand) (c : Char) :
    QuoteReading.stepPlain .backslash commands (.of c) = .inside (.plain .other) commands ∨
      (c = '\n' ∧
        QuoteReading.stepPlain .backslash commands (.of c) = .inside (.plain .space) commands) ∨
      QuoteReading.stepPlain .backslash commands (.of c) = .lost := by
  have means := Mark.means_of c
  cases marked : Mark.of c <;> rw [marked] at means
  case newline => exact .inr (.inl ⟨means, rfl⟩)
  case bracket => exact .inr (.inr rfl)
  all_goals exact .inl rfl

section Plain

variable {c : Char} {rest : List Char} {previous : Option Char} {state : QuoteState}
  {before : Before} {commands : List OpenCommand}

theorem innermost_of_plain (reflects : Reflects state (.plain before) commands) :
    state.innermost = .code ∧ commands = [] ∨ state.innermost = .command := by
  rw [QuoteState.innermost, reflects.frames]
  cases commands with
  | nil => exact .inl ⟨rfl, rfl⟩
  | cons command outer => exact .inr rfl

theorem scanFollows_comment
    (later : ∀ text : List Char, text.length < ('#' :: rest).length → ScanFollows text)
    (reflects : Reflects state (.plain before) commands) (starts : startsWord previous = true)
    (closed : (reader.read (.inside .comment commands) rest).isClosed = true) :
    (scanFrom 0 previous state ('#' :: rest)).frames = [.code] := by
  have inner := innermost_of_plain reflects
  have here : state.step previous '#' rest =
      (state, (rest.takeWhile (· != '\n')).length) := by
    have outside : state.innermost ≠ .single ∧ state.innermost ≠ .double := by
      rcases inner with ⟨inner, _⟩ | inner <;> rw [inner] <;> decide
    simp [QuoteState.step, QuoteState.stepCode, outside, starts]
  have split : rest = rest.takeWhile (· != '\n') ++ rest.dropWhile (· != '\n') :=
    List.takeWhile_append_dropWhile.symm
  have skipped := scanFrom_skipped (rest.takeWhile (· != '\n')) (rest.dropWhile (· != '\n'))
    (some '#') state
  rw [← split] at skipped
  rw [scanFrom, here]
  refine (congrArg QuoteState.frames skipped).trans ?_
  rw [read_comment] at closed
  rcases dropWhile_line rest with ended | ⟨behind, goesOn⟩
  · rw [ended] at closed ⊢
    rw [scanFrom, reflects.frames]
    cases commands with
    | nil => rfl
    | cons command outer => exact Bool.noConfusion closed
  · have shorter := (List.dropWhile_sublist (· != '\n') (l := rest)).length_le
    rw [goesOn] at closed shorter ⊢
    refine later ('\n' :: behind) (by simp at shorter ⊢; omega) _ _ (.plain .other) commands
      ⟨reflects.frames, reflects.depths, reflects.pending⟩ trivial closed

theorem scanFollows_backslash
    (later : ∀ text : List Char, text.length < ('\\' :: rest).length → ScanFollows text)
    (reflects : Reflects state (.plain before) commands)
    (closed : (reader.read (.inside (.plain .backslash) commands) rest).isClosed = true) :
    (scanFrom 0 previous state ('\\' :: rest)).frames = [.code] := by
  have outside : state.innermost ≠ .single := by
    rcases innermost_of_plain reflects with ⟨inner, _⟩ | inner <;> rw [inner] <;> decide
  cases rest with
  | nil =>
      have here : state.step previous '\\' [] = (state, 1) := by
        simp [QuoteState.step, outside]
      have ended : scanFrom 0 previous state ['\\'] = state := by
        rw [scanFrom, here]
        rfl
      rw [ended, reflects.frames]
      cases commands with
      | nil => rfl
      | cons command outer => exact Bool.noConfusion closed
  | cons d behind =>
      rw [scan_escaped outside d behind]
      rw [LineReader.read_cons] at closed
      change (reader.read (QuoteReading.stepPlain .backslash commands (.of d)) behind).isClosed = true
        at closed
      have next : ScanFollows behind := later behind (by simp only [List.length_cons]; omega)
      rcases stepPlain_escaped commands d with step | ⟨rfl, step⟩ | step <;> rw [step] at closed
      · exact next _ _ (.plain .other) commands
          ⟨reflects.frames, reflects.depths, reflects.pending⟩ trivial closed
      · exact next _ _ (.plain .space) commands
          ⟨reflects.frames, reflects.depths, reflects.pending⟩ rfl closed
      · exact absurd closed (not_closed_lost behind)

theorem scanFollows_dollar
    (later : ∀ text : List Char, text.length < ('$' :: rest).length → ScanFollows text)
    (reflects : Reflects state (.plain before) commands)
    (closed : (reader.read (.inside (.plain .dollar) commands) rest).isClosed = true) :
    (scanFrom 0 previous state ('$' :: rest)).frames = [.code] := by
  have inner := innermost_of_plain reflects
  have outside : state.innermost ≠ .single ∧ state.innermost ≠ .double := by
    rcases inner with ⟨inner, _⟩ | inner <;> rw [inner] <;> decide
  by_cases opens : rest.head? = some '('
  · obtain ⟨behind, rfl⟩ := List.head?_eq_some_iff.mp opens
    have here : state.step previous '$' ('(' :: behind) = (state.enterCommand, 1) := by
      simp [QuoteState.step, QuoteState.stepCode, QuoteState.opensCommand, outside]
    rw [scanFrom_step_one previous state '$' '(' behind _ here]
    refine later behind (by simp only [List.length_cons]; omega) _ _ (.plain .other) (⟨0, false⟩ :: commands)
      ⟨?_, ?_, reflects.pending⟩ trivial closed
    · simp [QuoteState.enterCommand, reflects.frames, Quoting.frames, commandFrames]
    · simp [QuoteState.enterCommand, reflects.depths]
  · have here : state.step previous '$' rest = (state, 0) := by
      refine step_quiet (inner.imp And.left id) (by decide) (by decide) (by decide) (by simp)
        (by simp [QuoteState.opensCommand, opens]) (document?_of_ne _ _ (by decide)) (by simp)
        fun newline => absurd newline (by decide)
    rw [scanFrom_step previous state '$' rest _ here]
    exact later rest (by simp) _ _ (.plain .dollar) commands
      ⟨reflects.frames, reflects.depths, reflects.pending⟩ opens closed

theorem scanFollows_less
    (later : ∀ text : List Char, text.length < ('<' :: rest).length → ScanFollows text)
    (reflects : Reflects state (.plain before) commands)
    (closed : (reader.read (.inside (.plain .less) commands) rest).isClosed = true) :
    (scanFrom 0 previous state ('<' :: rest)).frames = [.code] := by
  have inner := innermost_of_plain reflects
  have outside : state.innermost ≠ .single ∧ state.innermost ≠ .double := by
    rcases inner with ⟨inner, _⟩ | inner <;> rw [inner] <;> decide
  by_cases twice : rest.head? = some '<'
  · obtain ⟨more, rfl⟩ := List.head?_eq_some_iff.mp twice
    cases commands with
    | cons command outer => exact absurd closed (not_closed_lost more)
    | nil =>
        obtain ⟨behind, rfl, awaited⟩ := document_of_closed more closed
        have here : state.step previous '<' ('<' :: '\'' :: 'P' :: 'Y' :: '\'' :: behind) =
            ({ state with pending := [knownDelimiter] }, 5) := by
          have distance : behind.length + 1 + 1 + 1 + 1 + 1 - behind.length = 5 := by omega
          simp [QuoteState.step, QuoteState.stepCode, QuoteState.opensCommand, outside,
            document?_known, reflects.pending, distance]
        have skipped := scanFrom_skipped ['<', '\'', 'P', 'Y', '\''] behind (some '<')
          { state with pending := [knownDelimiter] }
        rw [scanFrom, here]
        refine (congrArg QuoteState.frames skipped).trans ?_
        exact scanFollows_awaiting behind
          (fun text shorter => later text (by simp only [List.length_cons]; omega)) _ _
          ⟨reflects.frames, reflects.depths, rfl⟩ awaited
  · have single : QuoteState.document? '<' rest = none := by
      cases rest with
      | nil => rfl
      | cons d more =>
          have different : d ≠ '<' := fun same => twice (by rw [same]; rfl)
          simp [QuoteState.document?, different, Text.hereDocument?]
    have here : state.step previous '<' rest = (state, 0) := by
      refine step_quiet (inner.imp And.left id) (by decide) (by decide) (by decide) (by simp)
        (opensCommand_of_ne _ _ (by decide)) single (by simp)
        fun newline => absurd newline (by decide)
    rw [scanFrom_step previous state '<' rest _ here]
    exact later rest (by simp) _ _ (.plain .less) commands
      ⟨reflects.frames, reflects.depths, reflects.pending⟩ twice closed

theorem scanFollows_opening (later : ScanFollows rest)
    (reflects : Reflects state (.plain before) commands)
    (closed : (reader.read (.inside (.plain .other)
      (QuoteReading.openParenthesis commands)) rest).isClosed = true) :
    (scanFrom 0 previous state ('(' :: rest)).frames = [.code] := by
  cases commands with
  | nil =>
      have inner : state.innermost = .code := by
        rw [QuoteState.innermost, reflects.frames]
        rfl
      have here : state.step previous '(' rest = (state, 0) := by
        simp [QuoteState.step, QuoteState.stepCode, QuoteState.opensCommand,
          QuoteState.document?, inner]
      rw [scanFrom_step previous state '(' rest _ here]
      exact later _ _ (.plain .other) [] ⟨reflects.frames, reflects.depths, reflects.pending⟩
        trivial closed
  | cons command outer =>
      have inner : state.innermost = .command := by
        rw [QuoteState.innermost, reflects.frames]
        rfl
      have here : state.step previous '(' rest =
          ({ state with depths := (command.depth + 1) :: outer.map OpenCommand.depth }, 0) := by
        simp [QuoteState.step, QuoteState.stepCode, QuoteState.opensCommand,
          QuoteState.document?, QuoteState.openParenthesis, inner, reflects.depths]
      rw [scanFrom_step previous state '(' rest _ here]
      exact later _ _ (.plain .other) ({ command with depth := command.depth + 1 } :: outer)
        ⟨reflects.frames, rfl, reflects.pending⟩ trivial closed

theorem scanFollows_closing (later : ScanFollows rest)
    (reflects : Reflects state (.plain before) commands)
    (closed : (reader.read (QuoteReading.closeParenthesis commands) rest).isClosed = true) :
    (scanFrom 0 previous state (')' :: rest)).frames = [.code] := by
  cases commands with
  | nil =>
      have inner : state.innermost = .code := by
        rw [QuoteState.innermost, reflects.frames]
        rfl
      have here : state.step previous ')' rest = (state, 0) := by
        simp [QuoteState.step, QuoteState.stepCode, QuoteState.opensCommand,
          QuoteState.document?, inner]
      rw [scanFrom_step previous state ')' rest _ here]
      exact later _ _ (.plain .other) [] ⟨reflects.frames, reflects.depths, reflects.pending⟩
        trivial closed
  | cons command outer =>
      obtain ⟨depth, quoted⟩ := command
      have inner : state.innermost = .command := by
        rw [QuoteState.innermost, reflects.frames]
        rfl
      cases depth with
      | zero =>
          have here : state.step previous ')' rest =
              ({ state.leave with depths := outer.map OpenCommand.depth }, 0) := by
            simp [QuoteState.step, QuoteState.stepCode, QuoteState.opensCommand,
              QuoteState.document?, QuoteState.closeParenthesis, inner, reflects.depths]
          rw [scanFrom_step previous state ')' rest _ here]
          refine later _ _ (OpenCommand.around ⟨0, quoted⟩) outer ⟨?_, rfl, reflects.pending⟩ ?_
            closed
          · cases quoted <;>
              simp [QuoteState.leave, reflects.frames, Quoting.frames, commandFrames,
                OpenCommand.around]
          · cases quoted <;> exact trivial
      | succ depth =>
          have here : state.step previous ')' rest =
              ({ state with depths := depth :: outer.map OpenCommand.depth }, 0) := by
            simp [QuoteState.step, QuoteState.stepCode, QuoteState.opensCommand,
              QuoteState.document?, QuoteState.closeParenthesis, inner, reflects.depths]
          rw [scanFrom_step previous state ')' rest _ here]
          exact later _ _ (.plain .other) (⟨depth, quoted⟩ :: outer)
            ⟨reflects.frames, rfl, reflects.pending⟩ trivial closed

theorem scanFollows_plain
    (later : ∀ text : List Char, text.length < (c :: rest).length → ScanFollows text)
    (reflects : Reflects state (.plain before) commands)
    (agrees : before.Agrees previous (c :: rest))
    (closed : (reader.read (.inside (.plain before) commands) (c :: rest)).isClosed = true) :
    (scanFrom 0 previous state (c :: rest)).frames = [.code] := by
  have inner := innermost_of_plain reflects
  have outside : state.innermost ≠ .single ∧ state.innermost ≠ .double := by
    rcases inner with ⟨inner, _⟩ | inner <;> rw [inner] <;> decide
  have unescaped : before ≠ .backslash := by
    rintro rfl
    exact agrees
  have next : ScanFollows rest := later rest (by simp)
  rw [LineReader.read_cons] at closed
  change (reader.read (QuoteReading.stepPlain before commands (.of c)) rest).isClosed = true
    at closed
  by_cases special : c ∈ ['\\', '\'', '"', '#', '$', '<', '(', ')']
  · simp only [List.mem_cons, List.not_mem_nil, or_false] at special
    rcases special with rfl | rfl | rfl | rfl | rfl | rfl | rfl | rfl
    · rw [show Mark.of '\\' = .backslash from rfl, stepPlain_backslash before commands unescaped]
        at closed
      exact scanFollows_backslash later reflects closed
    · rw [show Mark.of '\'' = .single from rfl, stepPlain_single before commands unescaped] at closed
      have here : state.step previous '\'' rest = ((state.enter .single).countSingle, 0) := by
        simp [QuoteState.step, QuoteState.stepCode, outside]
      rw [scanFrom_step previous state '\'' rest _ here]
      refine next _ _ .single commands ⟨?_, reflects.depths, reflects.pending⟩ trivial closed
      simp [QuoteState.enter, QuoteState.countSingle, reflects.frames, Quoting.frames]
    · rw [show Mark.of '"' = .double from rfl, stepPlain_double before commands unescaped] at closed
      have here : state.step previous '"' rest = ((state.enter .double).countDouble, 0) := by
        simp [QuoteState.step, QuoteState.stepCode, outside]
      rw [scanFrom_step previous state '"' rest _ here]
      refine next _ _ (.double .other) commands ⟨?_, reflects.depths, reflects.pending⟩ trivial closed
      simp [QuoteState.enter, QuoteState.countDouble, reflects.frames, Quoting.frames]
    · rw [show Mark.of '#' = .hash from rfl] at closed
      rcases stepPlain_hash before commands unescaped with ⟨rfl, step⟩ | ⟨rfl, step⟩ | step <;>
        rw [step] at closed
      · exact scanFollows_comment later reflects agrees closed
      · have unstarted : ¬ ('#' = '#' ∧ startsWord previous = true) := fun starts =>
          Bool.false_ne_true (agrees.symm.trans starts.2)
        have here : state.step previous '#' rest = (state, 0) :=
          step_quiet (inner.imp And.left id) (by decide) (by decide) (by decide) unstarted
            (opensCommand_of_ne _ _ (by decide)) (document?_of_ne _ _ (by decide)) (by simp)
            fun newline => absurd newline (by decide)
        rw [scanFrom_step previous state '#' rest _ here]
        exact next _ _ (.plain .other) commands
          ⟨reflects.frames, reflects.depths, reflects.pending⟩ trivial closed
      · exact absurd closed (not_closed_lost rest)
    · rw [show Mark.of '$' = .dollar from rfl, stepPlain_dollar before commands unescaped] at closed
      exact scanFollows_dollar later reflects closed
    · have single : before ≠ .less := by
        rintro rfl
        exact agrees rfl
      rw [show Mark.of '<' = .less from rfl, stepPlain_less before commands unescaped single]
        at closed
      exact scanFollows_less later reflects closed
    · have unopened : before ≠ .dollar := by
        rintro rfl
        exact agrees rfl
      rw [show Mark.of '(' = .opening from rfl, stepPlain_opening before commands unescaped unopened]
        at closed
      exact scanFollows_opening next reflects closed
    · rw [show Mark.of ')' = .closing from rfl, stepPlain_closing before commands unescaped] at closed
      exact scanFollows_closing next reflects closed
  · rcases stepPlain_quiet before commands c rest unescaped special with step | ⟨after, holds, step⟩ <;>
      rw [step] at closed
    · exact absurd closed (not_closed_lost rest)
    · simp only [List.mem_cons, List.not_mem_nil, or_false, not_or] at special
      have here : state.step previous c rest = (state, 0) :=
        step_quiet (inner.imp And.left id) special.1 special.2.1 special.2.2.1
          (fun comment => special.2.2.2.1 comment.1)
          (opensCommand_of_ne _ _ special.2.2.2.2.1) (document?_of_ne _ _ special.2.2.2.2.2.1)
          (fun _ => special.2.2.2.2.2.2) fun _ => reflects.pending
      rw [scanFrom_step previous state c rest _ here]
      exact next _ _ (.plain after) commands
        ⟨reflects.frames, reflects.depths, reflects.pending⟩ holds closed

end Plain

theorem scanFollows (text : List Char) : ScanFollows text := by
  induction measured : text.length using Nat.strongRecOn generalizing text with
  | ind size ih =>
      subst measured
      cases text with
      | nil => exact scanFollows_nil
      | cons c rest =>
          have later : ∀ other : List Char, other.length < (c :: rest).length → ScanFollows other :=
            fun other shorter => ih other.length shorter other rfl
          intro previous state quoting commands reflects agrees closed
          cases quoting with
          | plain before => exact scanFollows_plain later reflects agrees closed
          | double before => exact scanFollows_double later reflects agrees closed
          | single =>
              exact scanFollows_single c rest (later rest (by simp)) previous state commands reflects
                closed
          | comment => exact agrees.elim

theorem balanced_of_isClosed (text : List Char)
    (closed : (reader.read reader.start text).isClosed = true) :
    (scanQuotes text).balanced = true := by
  have frames := scanFollows text none .start (.plain .space) [] ⟨rfl, rfl, rfl⟩ rfl closed
  simp [scanQuotes, frames]

/-- Between texts on which the cautious reader ends with everything closed, the audit finds nothing
wrong with the quotes: the parities agree, since both texts have even numbers of quotes. -/
theorem quoteFindings_eq_nil (raw optimized : List Char)
    (closed : (reader.read reader.start optimized).isClosed = true) :
    quoteFindings raw optimized = [] := by
  have after := balanced_of_isClosed optimized closed
  have evenAfter := scanQuotes_even optimized after
  simp only [quoteFindings, after, Bool.not_true, Bool.false_eq_true, if_false]
  cases before : (scanQuotes raw).balanced with
  | false => rfl
  | true =>
      have evenBefore := scanQuotes_even raw before
      simp [findingIf, evenBefore, evenAfter]

end StatusLine.Audit

import StatusLine.Proofs.Audit.Spacing
import StatusLine.Proofs.Script.FormatReading
import StatusLine.Proofs.Script.Outline

/-!
Where the texts that fill the gaps of templates lead the readers of the audit, and those that watch
for carriage returns, format strings and calls.
-/

namespace StatusLine.Script

open Audit Shortening

section Reading

variable {State : Type} {reader : LineReader State} {states : List State} {barred : Option Char}

theorem read_escaped
    (plain : ∀ state ∈ states, ∀ c, (∀ bad ∈ barred, c ≠ bad) → Text.isActiveInQuotes c = false →
      reader.step state c ∈ states)
    (active : ∀ state ∈ states, ∀ c, Text.isActiveInQuotes c = true →
      reader.step (reader.step state '\\') c ∈ states)
    {path : List Char} (free : Free barred path) {state : State} (member : state ∈ states) :
    reader.read state (Text.escapeInQuotes path) ∈ states := by
  induction path generalizing state with
  | nil => exact member
  | cons c rest ih =>
      have first : ∀ bad ∈ barred, c ≠ bad := fun bad barring same =>
        free bad barring (same ▸ List.mem_cons_self)
      have later : Free barred rest := fun bad barring inside =>
        free bad barring (List.mem_cons_of_mem c inside)
      rw [Text.escapeInQuotes, List.flatMap_cons, LineReader.read_append]
      cases kind : Text.isActiveInQuotes c with
      | true => exact ih later (active state member c kind)
      | false => exact ih later (plain state member c first kind)

theorem read_arguments
    (quote : ∀ state ∈ states, ∀ name : List Char, name.all isArgument = true →
      reader.read state (argument name) ∈ states)
    (space : ∀ state ∈ states, reader.step state ' ' ∈ states) {names : List (List Char)}
    (accepted : (names.all fun name => name.all isArgument) = true) {state : State}
    (member : state ∈ states) :
    reader.read state (Text.joinWith [' '] (names.map argument)) ∈ states := by
  induction names generalizing state with
  | nil => exact member
  | cons name rest ih =>
      rw [List.all_cons, Bool.and_eq_true] at accepted
      have here := quote state member name accepted.1
      cases rest with
      | nil => exact here
      | cons next more =>
          rw [List.map_cons, List.map_cons, Text.joinWith_cons_cons, LineReader.read_append,
            LineReader.read_append]
          exact ih accepted.2 (space _ here)

theorem read_words {accepts : Char → Bool}
    (each : ∀ state ∈ states, ∀ c, accepts c = true → reader.step state c ∈ states)
    (bare : ∀ c, isBare c = true → accepts c = true)
    (part : ∀ c, isArgument c = true → accepts c = true)
    (marks : ['$', '"', ' ', '\''].all accepts = true) {filling : Filling}
    (kind : filling = .bare ∨ filling = .command ∨ filling = .arguments) {text : List Char}
    (accepted : filling.Accepts barred text) {state : State} (member : state ∈ states) :
    reader.read state text ∈ states := by
  simp only [List.all_cons, List.all_nil, Bool.and_true, Bool.and_eq_true] at marks
  obtain ⟨dollar, quote, space, single⟩ := marks
  have lift {narrow : Char → Bool} (wider : ∀ c, narrow c = true → accepts c = true)
      {word : List Char} (narrowly : word.all narrow = true) : word.all accepts = true :=
    List.all_eq_true.mpr fun c inside => wider c (List.all_eq_true.mp narrowly c inside)
  rcases kind with rfl | rfl | rfl
  · exact reader.read_mem each (lift bare accepted) member
  · obtain ⟨name, whole, rfl | rfl⟩ | rfl := accepted
    · exact reader.read_mem each (lift bare whole) member
    · exact reader.read_mem each (lift bare whole) (each state member '$' dollar)
    · exact each _ (each state member '\'' single) '\'' single
  · obtain ⟨names, -, parts, rfl⟩ := accepted
    refine read_arguments (fun first here name whole => ?_) (fun first here => each first here ' ' space)
      parts member
    refine reader.read_mem each ?_ here
    simp [argument, dollar, quote, lift part whole]

theorem read_directory
    (each : ∀ state ∈ states, ∀ c, c ≠ '"' → reader.step state c ∈ states)
    (escaped : ∀ state ∈ states, reader.step (reader.step state '\\') '"' ∈ states)
    {text : List Char} (accepted : Filling.directory.Accepts barred text) {state : State}
    (member : state ∈ states) : reader.read state text ∈ states := by
  obtain ⟨lead, path, known, free, rfl⟩ := accepted
  have leadRead : reader.read state lead ∈ states := by
    refine reader.read_mem (fun first here c (other : (c != '"') = true) => ?_) ?_ member
    · exact each first here c (by simpa using other)
    · simp only [List.mem_cons, List.not_mem_nil, or_false] at known
      rcases known with rfl | rfl | rfl <;> rfl
  rw [LineReader.read_append]
  refine read_escaped (fun first here c _ plain => ?_) (fun first here c _ => ?_) free leadRead
  · refine each first here c ?_
    rintro rfl
    exact absurd plain (by decide)
  · by_cases quote : c = '"'
    · rw [quote]
      exact escaped first here
    · exact each _ (each first here '\\' (by decide)) c quote

end Reading

theorem ne_of_refused {accepts : Char → Bool} {c bad : Char} (accepted : accepts c = true)
    (refused : accepts bad = false) : c ≠ bad := by
  rintro rfl
  rw [refused] at accepted
  exact Bool.noConfusion accepted

/-! Quotes. -/

theorem marks_of_bare {c : Char} (bare : isBare c = true) :
    Mark.of c ∈ [Mark.other, .blank, .space, .first, .second] := by
  have means := Mark.means_of c
  cases marked : Mark.of c <;> rw [marked] at means <;> try decide
  all_goals
    obtain rfl := means
    exact absurd bare (by decide)

theorem marks_of_argument {c : Char} (part : isArgument c = true) :
    Mark.of c ∈ [Mark.other, .blank, .first, .second] := by
  have means := Mark.means_of c
  cases marked : Mark.of c <;> rw [marked] at means <;> try decide
  case space =>
    rcases means with rfl | rfl <;> exact absurd part (by decide)
  all_goals
    obtain rfl := means
    exact absurd part (by decide)

def wordStates (before : Before) (commands : List OpenCommand) : List QuoteReading :=
  [.inside (.plain before) commands, .inside (.plain .other) commands,
    .inside (.plain .space) commands, .inside (.plain .dollar) commands]

def fillQuotes : Filling → QuoteReading → Option (List QuoteReading)
  | .bare, .inside (.plain before) commands | .command, .inside (.plain before) commands
  | .arguments, .inside (.plain before) commands =>
      if before = .backslash then none else some (wordStates before commands)
  | .bare, .inside (.double before) commands =>
      if before = .backslash then none
      else some [.inside (.double before) commands, .inside (.double .other) commands]
  | .directory, .inside (.double .other) commands => some [.inside (.double .other) commands]
  | .bare, .inside .single commands | .quoted, .inside .single commands
  | .expression, .inside .single commands => some [.inside .single commands]
  | .bare, .inside .comment commands | .directory, .inside .comment commands =>
      some [.inside .comment commands]
  | _, _ => none

theorem step_wordStates {before : Before} {commands : List OpenCommand}
    (known : before ≠ .backslash) {reading : QuoteReading}
    (member : reading ∈ wordStates before commands) {mark : Mark}
    (word : mark ∈ [Mark.other, .blank, .space, .first, .second]) :
    reading.step mark ∈ wordStates before commands := by
  simp only [wordStates, List.mem_cons, List.not_mem_nil, or_false] at member word ⊢
  rcases member with rfl | rfl | rfl | rfl <;> rcases word with rfl | rfl | rfl | rfl | rfl <;>
    first
    | exact .inr (.inl rfl)
    | exact .inr (.inr (.inl rfl))
    | cases before <;>
      first
      | exact absurd rfl known
      | exact .inr (.inl rfl)
      | exact .inr (.inr (.inl rfl))

theorem step_doubleStates {before : Before} {commands : List OpenCommand}
    (known : before ≠ .backslash) {reading : QuoteReading}
    (member : reading ∈ [QuoteReading.inside (.double before) commands,
      .inside (.double .other) commands]) {mark : Mark}
    (word : mark ∈ [Mark.other, .blank, .space, .first, .second]) :
    reading.step mark = .inside (.double .other) commands := by
  simp only [List.mem_cons, List.not_mem_nil, or_false] at member word
  rcases member with rfl | rfl <;> rcases word with rfl | rfl | rfl | rfl | rfl <;>
    first
    | rfl
    | cases before <;> first | exact absurd rfl known | rfl

theorem read_argument (commands : List OpenCommand) {name : List Char}
    (accepted : name.all isArgument = true) :
    QuoteReading.reader.read (.inside (.double .dollar) commands) (name ++ ['"']) =
      .inside (.plain .other) commands := by
  have inner : QuoteReading.reader.read (.inside (.double .dollar) commands) name ∈
      [QuoteReading.inside (.double .dollar) commands, .inside (.double .other) commands] := by
    refine QuoteReading.reader.read_mem (fun state member c part => ?_) accepted List.mem_cons_self
    have marks := marks_of_argument part
    simp only [List.mem_cons, List.not_mem_nil, or_false] at marks
    refine List.mem_cons_of_mem _ (List.mem_singleton.mpr ?_)
    exact step_doubleStates (by decide) member (by simp only [List.mem_cons]; tauto)
  rw [LineReader.read_append]
  simp only [List.mem_cons, List.not_mem_nil, or_false] at inner
  rcases inner with same | same <;> rw [same] <;> rfl

theorem read_wordStates_argument {before : Before} {commands : List OpenCommand}
    (known : before ≠ .backslash) {reading : QuoteReading}
    (member : reading ∈ wordStates before commands) {name : List Char}
    (accepted : name.all isArgument = true) :
    QuoteReading.reader.read reading (argument name) ∈ wordStates before commands := by
  have opened : QuoteReading.reader.read reading ['"', '$'] = .inside (.double .dollar) commands := by
    simp only [wordStates, List.mem_cons, List.not_mem_nil, or_false] at member
    rcases member with rfl | rfl | rfl | rfl <;>
      first
      | rfl
      | cases before <;> first | exact absurd rfl known | rfl
  rw [argument, List.append_assoc, LineReader.read_append, opened, read_argument commands accepted]
  exact .tail _ (.head _)

theorem read_inert {reading : QuoteReading} {accepts : Char → Bool}
    (each : ∀ c, accepts c = true → reading.step (Mark.of c) = reading) {text : List Char}
    (accepted : text.all accepts = true) : QuoteReading.reader.read reading text = reading := by
  refine List.mem_singleton.mp (QuoteReading.reader.read_mem (fun state member c kind => ?_) accepted
    (List.mem_singleton.mpr rfl))
  obtain rfl := List.mem_singleton.mp member
  exact List.mem_singleton.mpr (each c kind)

theorem step_single (commands : List OpenCommand) {c : Char} (other : c ≠ '\'') :
    (QuoteReading.inside .single commands).step (Mark.of c) = .inside .single commands := by
  have mark : Mark.of c ≠ .single := fun same => other (Mark.eq_of_single same)
  simp [QuoteReading.step, mark]

theorem step_comment (commands : List OpenCommand) {c : Char} (other : c ≠ '\n') :
    (QuoteReading.inside .comment commands).step (Mark.of c) = .inside .comment commands := by
  have mark : Mark.of c ≠ .newline := fun same => other (Mark.eq_of_newline same)
  simp [QuoteReading.step, mark]

theorem step_inDouble (commands : List OpenCommand) {c : Char}
    (plain : Text.isActiveInQuotes c = false) :
    (QuoteReading.inside (.double .other) commands).step (Mark.of c) =
      .inside (.double .other) commands := by
  have means := Mark.means_of c
  cases marked : Mark.of c <;> rw [marked] at means <;> try rfl
  all_goals
    obtain rfl := means
    exact absurd plain (by decide)

theorem read_directory_inDouble (commands : List OpenCommand) {text : List Char}
    (accepted : Filling.directory.Accepts '\n' text) :
    QuoteReading.reader.read (.inside (.double .other) commands) text =
      .inside (.double .other) commands := by
  obtain ⟨lead, path, known, free, rfl⟩ := accepted
  have leadRead : QuoteReading.reader.read (.inside (.double .other) commands) lead =
      .inside (.double .other) commands := by
    simp only [List.mem_cons, List.not_mem_nil, or_false] at known
    rcases known with rfl | rfl | rfl <;> rfl
  rw [LineReader.read_append, leadRead]
  refine List.mem_singleton.mp (read_escaped (fun state member c _ plain => ?_)
    (fun state member c _ => ?_) free (List.mem_singleton.mpr rfl))
  · obtain rfl := List.mem_singleton.mp member
    exact List.mem_singleton.mpr (step_inDouble commands plain)
  · obtain rfl := List.mem_singleton.mp member
    exact List.mem_singleton.mpr rfl

theorem read_directory_inComment (commands : List OpenCommand) {text : List Char}
    (accepted : Filling.directory.Accepts '\n' text) :
    QuoteReading.reader.read (.inside .comment commands) text = .inside .comment commands := by
  obtain ⟨lead, path, known, free, rfl⟩ := accepted
  have leadRead : QuoteReading.reader.read (.inside .comment commands) lead =
      .inside .comment commands := by
    simp only [List.mem_cons, List.not_mem_nil, or_false] at known
    rcases known with rfl | rfl | rfl <;> rfl
  rw [LineReader.read_append, leadRead]
  refine List.mem_singleton.mp (read_escaped (fun state member c other _ => ?_)
    (fun state member c active => ?_) free (List.mem_singleton.mpr rfl))
  · obtain rfl := List.mem_singleton.mp member
    exact List.mem_singleton.mpr (step_comment commands (other _ rfl))
  · obtain rfl := List.mem_singleton.mp member
    have other : c ≠ '\n' := by
      rintro rfl
      exact absurd active (by decide)
    exact List.mem_singleton.mpr (step_comment commands other)

theorem fillQuotes_sound {filling : Filling} {state : QuoteReading} {ends : List QuoteReading}
    {text : List Char} (filled : fillQuotes filling state = some ends)
    (accepted : filling.Accepts '\n' text) : QuoteReading.reader.read state text ∈ ends := by
  unfold fillQuotes at filled
  split at filled
  case h_1 before commands =>
    split at filled
    · simp at filled
    · rename_i known
      obtain rfl := Option.some.inj filled
      exact QuoteReading.reader.read_mem
        (fun state member c bare => step_wordStates known member (marks_of_bare bare)) accepted
        List.mem_cons_self
  case h_2 before commands =>
    split at filled
    · simp at filled
    · rename_i known
      obtain rfl := Option.some.inj filled
      obtain ⟨name, bare, rfl | rfl⟩ | rfl := accepted
      · exact QuoteReading.reader.read_mem
          (fun state member c bare => step_wordStates known member (marks_of_bare bare)) bare
          List.mem_cons_self
      · have dollar : QuoteReading.reader.step (.inside (.plain before) commands) '$' =
            .inside (.plain .dollar) commands := by
          cases before <;> first | exact absurd rfl known | rfl
        rw [LineReader.read_cons, dollar]
        exact QuoteReading.reader.read_mem
          (fun state member c bare => step_wordStates known member (marks_of_bare bare)) bare
          (by simp [wordStates])
      · have quoted : QuoteReading.reader.read (.inside (.plain before) commands) ['\'', '\''] =
            .inside (.plain .other) commands := by
          cases before <;> first | exact absurd rfl known | rfl
        rw [quoted]
        exact .tail _ (.head _)
  case h_3 before commands =>
    split at filled
    · simp at filled
    · rename_i known
      obtain rfl := Option.some.inj filled
      obtain ⟨names, -, accepted, rfl⟩ := accepted
      exact read_arguments
        (fun state member name part => read_wordStates_argument known member part)
        (fun state member => step_wordStates known member (by decide : Mark.space ∈ _)) accepted
        List.mem_cons_self
  case h_4 before commands =>
    split at filled
    · simp at filled
    · rename_i known
      obtain rfl := Option.some.inj filled
      refine QuoteReading.reader.read_mem (fun state member c bare => ?_) accepted
        List.mem_cons_self
      refine List.mem_cons_of_mem _ (List.mem_singleton.mpr ?_)
      exact step_doubleStates known member (marks_of_bare bare)
  case h_5 commands =>
    obtain rfl := Option.some.inj filled
    exact List.mem_singleton.mpr (read_directory_inDouble commands accepted)
  case h_6 commands | h_7 commands =>
    obtain rfl := Option.some.inj filled
    refine List.mem_singleton.mpr (read_inert (fun c kind => ?_) accepted)
    exact step_single commands (ne_of_refused kind (by decide))
  case h_8 commands =>
    obtain rfl := Option.some.inj filled
    refine List.mem_singleton.mpr (read_inert (fun c kind => ?_) accepted.1)
    exact step_single commands (ne_of_refused kind (by decide))
  case h_9 commands =>
    obtain rfl := Option.some.inj filled
    refine List.mem_singleton.mpr (read_inert (fun c kind => ?_) accepted)
    exact step_comment commands (ne_of_refused kind (by decide))
  case h_10 commands =>
    obtain rfl := Option.some.inj filled
    exact List.mem_singleton.mpr (read_directory_inComment commands accepted)
  case h_11 => simp at filled

/-! Lookups, from their left side. -/

def openStates : List LeftReading :=
  [.apart, .letter, .ending]

def bracketStates : List LeftReading :=
  [.apart, .letter, .ending, .bracket, .blank]

def fillLeft (filling : Filling) (state : LeftReading) : Option (List LeftReading) :=
  if state ∈ openStates then
    match filling with
    | .quoted | .directory => some bracketStates
    | _ => some openStates
  else if state ∈ bracketStates ∧ filling = .quoted then some bracketStates
  else none

theorem step_openStates {state : LeftReading} (member : state ∈ openStates) {c : Char}
    (other : c ≠ '[') : state.step c ∈ openStates := by
  have opened : state.isOpen = true := by
    simp only [openStates, List.mem_cons, List.not_mem_nil, or_false] at member
    rcases member with rfl | rfl | rfl <;> rfl
  have next := LeftReading.step_open opened other
  cases after : state.step c <;> rw [after] at next <;>
    first | exact Bool.noConfusion next | decide

theorem step_bracketStates {state : LeftReading} (member : state ∈ bracketStates) {c : Char}
    (other : c ≠ '"') : state.step c ∈ bracketStates := by
  cases state <;> unfold LeftReading.step <;> split <;> simp_all [bracketStates]

theorem fillLeft_sound {barred : Option Char} {filling : Filling} {state : LeftReading}
    {ends : List LeftReading} {text : List Char} (filled : fillLeft filling state = some ends)
    (accepted : filling.Accepts barred text) :
    LeftReading.reader.read state text ∈ ends := by
  unfold fillLeft at filled
  split at filled
  · rename_i member
    have wide : state ∈ bracketStates := by
      simp only [openStates, List.mem_cons, List.not_mem_nil, or_false] at member
      rcases member with rfl | rfl | rfl <;> decide
    have word {kind : Filling} (known : kind = .bare ∨ kind = .command ∨ kind = .arguments)
        (accepted : kind.Accepts barred text) : LeftReading.reader.read state text ∈ openStates :=
      read_words (fun first here c (other : (c != '[') = true) =>
          step_openStates here (by simpa using other))
        (fun c bare => by simpa using ne_of_refused bare (by decide))
        (fun c part => by simpa using ne_of_refused part (by decide)) rfl known accepted member
    cases filling <;> obtain rfl := Option.some.inj filled
    case quoted =>
      exact LeftReading.reader.read_mem (fun first here c kind =>
        step_bracketStates here (ne_of_refused kind (by decide))) accepted wide
    case directory =>
      refine read_directory (fun first here c other => step_bracketStates here other)
        (fun first here => ?_) accepted wide
      simp only [bracketStates, List.mem_cons, List.not_mem_nil, or_false] at here
      rcases here with rfl | rfl | rfl | rfl | rfl <;> decide
    case expression =>
      exact LeftReading.reader.read_mem (fun first here c kind =>
        step_openStates here (ne_of_refused kind (by decide))) accepted.1 member
    case bare => exact word (.inl rfl) accepted
    case command => exact word (.inr (.inl rfl)) accepted
    case arguments => exact word (.inr (.inr rfl)) accepted
    case word | input => exact word (.inl rfl) accepted.asBare
  · split at filled
    · rename_i wide
      obtain ⟨wide, rfl⟩ := wide
      obtain rfl := Option.some.inj filled
      exact LeftReading.reader.read_mem (fun first here c kind =>
        step_bracketStates here (ne_of_refused kind (by decide))) accepted wide
    · simp at filled

/-! Lookups, from their right side. -/

def nameStates : List RightReading :=
  [.apart, .space, .name]

def closingStates : List RightReading :=
  [.apart, .space, .name, .closing]

def quoteStates : List RightReading :=
  [.apart, .space, .name, .closing, .quote, .blank]

def fillRight (filling : Filling) (state : RightReading) : Option (List RightReading) :=
  if state ∈ nameStates then
    match filling with
    | .quoted | .directory => some closingStates
    | .expression => some quoteStates
    | _ => some nameStates
  else if state ∈ closingStates ∧ filling = .quoted then some closingStates
  else if state = .blank ∧ filling = .arguments then some nameStates
  else none

theorem fresh_cases (c : Char) : RightReading.fresh c = .space ∨ RightReading.fresh c = .apart := by
  rw [RightReading.fresh]
  split
  · exact .inl rfl
  · exact .inr rfl

theorem step_nameStates {state : RightReading} (member : state ∈ nameStates) {c : Char}
    (other : c ≠ ')') : state.step c ∈ nameStates := by
  rcases fresh_cases c with fresh | fresh <;> cases letter : isCommandChar c <;> cases state <;>
    unfold RightReading.step <;> split <;> simp_all [nameStates]

theorem step_closingStates {state : RightReading} (member : state ∈ closingStates) {c : Char}
    (other : c ≠ '"') : state.step c ∈ closingStates := by
  rcases fresh_cases c with fresh | fresh <;> cases letter : isCommandChar c <;> cases state <;>
    unfold RightReading.step <;> split <;> simp_all [closingStates]

theorem step_quoteStates {state : RightReading} (member : state ∈ quoteStates) {c : Char}
    (other : c ≠ ']') : state.step c ∈ quoteStates := by
  rcases fresh_cases c with fresh | fresh <;> cases letter : isCommandChar c <;> cases state <;>
    unfold RightReading.step <;> split <;> simp_all [quoteStates]

theorem read_right_words {barred : Option Char} {filling : Filling}
    (kind : filling = .bare ∨ filling = .command ∨ filling = .arguments) {text : List Char}
    (accepted : filling.Accepts barred text) {state : RightReading} (member : state ∈ nameStates) :
    RightReading.reader.read state text ∈ nameStates :=
  read_words (fun _ here c (other : (c != ')') = true) =>
      step_nameStates here (by simpa using other))
    (fun c bare => by simpa using ne_of_refused bare (by decide))
    (fun c part => by simpa using ne_of_refused part (by decide)) rfl kind accepted member

theorem read_blank_arguments {barred : Option Char} {text : List Char}
    (accepted : Filling.arguments.Accepts barred text) :
    RightReading.reader.read .blank text = RightReading.reader.read .apart text := by
  obtain ⟨names, present, -, rfl⟩ := accepted
  obtain ⟨name, rest, rfl⟩ := List.exists_cons_of_ne_nil present
  rw [List.map_cons, Text.joinWith_cons_flatMap]
  rfl

theorem fillRight_sound {barred : Option Char} {filling : Filling} {state : RightReading}
    {ends : List RightReading} {text : List Char} (filled : fillRight filling state = some ends)
    (accepted : filling.Accepts barred text) :
    RightReading.reader.read state text ∈ ends := by
  unfold fillRight at filled
  split at filled
  · rename_i member
    have closing : state ∈ closingStates := by
      simp only [nameStates, List.mem_cons, List.not_mem_nil, or_false] at member
      rcases member with rfl | rfl | rfl <;> decide
    have quote : state ∈ quoteStates := by
      simp only [nameStates, List.mem_cons, List.not_mem_nil, or_false] at member
      rcases member with rfl | rfl | rfl <;> decide
    cases filling <;> obtain rfl := Option.some.inj filled
    case quoted =>
      exact RightReading.reader.read_mem (fun first here c kind =>
        step_closingStates here (ne_of_refused kind (by decide))) accepted closing
    case directory =>
      refine read_directory (fun first here c other => step_closingStates here other)
        (fun first here => ?_) accepted closing
      simp only [closingStates, List.mem_cons, List.not_mem_nil, or_false] at here
      rcases here with rfl | rfl | rfl | rfl <;> decide
    case expression =>
      exact RightReading.reader.read_mem (fun first here c kind =>
        step_quoteStates here (ne_of_refused kind (by decide))) accepted.1 quote
    case bare => exact read_right_words (.inl rfl) accepted member
    case command => exact read_right_words (.inr (.inl rfl)) accepted member
    case arguments => exact read_right_words (.inr (.inr rfl)) accepted member
    case word | input => exact read_right_words (.inl rfl) accepted.asBare member
  · split at filled
    · rename_i closing
      obtain ⟨closing, rfl⟩ := closing
      obtain rfl := Option.some.inj filled
      exact RightReading.reader.read_mem (fun first here c kind =>
        step_closingStates here (ne_of_refused kind (by decide))) accepted closing
    split at filled
    · rename_i blank
      obtain ⟨rfl, rfl⟩ := blank
      obtain rfl := Option.some.inj filled
      rw [read_blank_arguments accepted]
      exact read_right_words (.inr (.inr rfl)) accepted (by decide)
    · simp at filled

/-! Carriage returns. -/

def returnReader : LineReader Bool where
  start := false
  step := fun seen c => seen || c == '\r'
  start_newline := rfl
  newline_blank := by decide
  newline_newline := by decide

theorem read_return (seen : Bool) (text : List Char) :
    returnReader.read seen text = (seen || text.contains '\r') := by
  induction text generalizing seen with
  | nil => simp
  | cons c rest ih =>
      rw [LineReader.read_cons, ih, List.contains_cons]
      simp only [returnReader, Bool.or_assoc]
      rw [Bool.beq_comm]

theorem step_return {seen : Bool} {c : Char} (other : c ≠ '\r') :
    returnReader.step seen c = seen := by
  simp [returnReader, other]

theorem fillReturn_sound {filling : Filling} {seen : Bool} {text : List Char}
    (accepted : filling.Accepts '\r' text) : returnReader.read seen text ∈ [seen] := by
  have each {accepts : Char → Bool} (refused : accepts '\r' = false) :
      ∀ state ∈ [seen], ∀ c, accepts c = true → returnReader.step state c ∈ [seen] := by
    intro state member c kind
    rw [step_return (ne_of_refused kind refused)]
    exact member
  have word {kind : Filling} (known : kind = .bare ∨ kind = .command ∨ kind = .arguments)
      (accepted : kind.Accepts '\r' text) : returnReader.read seen text ∈ [seen] :=
    read_words (fun state member c (other : (c != '\r') = true) => by
        rw [step_return (by simpa using other)]
        exact member)
      (fun c bare => by simpa using ne_of_refused bare (by decide))
      (fun c part => by simpa using ne_of_refused part (by decide)) rfl known accepted
      List.mem_cons_self
  cases filling with
  | bare => exact word (.inl rfl) accepted
  | command => exact word (.inr (.inl rfl)) accepted
  | arguments => exact word (.inr (.inr rfl)) accepted
  | word | input => exact word (.inl rfl) accepted.asBare
  | quoted => exact returnReader.read_mem (each (by decide)) accepted List.mem_cons_self
  | expression => exact returnReader.read_mem (each (by decide)) accepted.1 List.mem_cons_self
  | directory =>
      obtain ⟨lead, path, known, free, rfl⟩ := accepted
      have leadRead : returnReader.read seen lead = seen := by
        simp only [List.mem_cons, List.not_mem_nil, or_false] at known
        rcases known with rfl | rfl | rfl <;> cases seen <;> rfl
      rw [LineReader.read_append, leadRead]
      refine read_escaped (fun state member c other _ => ?_) (fun state member c active => ?_) free
        List.mem_cons_self
      · rw [step_return (other _ rfl)]
        exact member
      · have outer : returnReader.step state '\\' = state := step_return (by decide)
        rw [outer, step_return (ne_of_refused active (by decide))]
        exact member

/-! Format strings. -/

def outsideStates : List FormatReading :=
  (List.range (formatCall.length + 1)).map .outside

def labelStates : List FormatReading :=
  (none :: (List.range 10).map some).map fun place => .inside ⟨place, [], false⟩

def uncalledStates : List FormatReading :=
  (List.range formatCall.length).map .outside

def fillFormats (filling : Filling) (reading : FormatReading) : Option (List FormatReading) :=
  if reading ∈ uncalledStates ∧ filling = .word then some uncalledStates
  else if reading ∈ outsideStates ∧ (filling ≠ .command ∨ reading ≠ .outside formatCall.length) then
    some outsideStates
  else if reading ∈ labelStates ∧ filling = .quoted then some labelStates
  else if filling = .input then
    some (inputNames.map fun name => FormatReading.reader.read reading name.toList)
  else none

theorem step_uncalledStates {reading : FormatReading} (member : reading ∈ uncalledStates) {c : Char}
    (part : isWordPart c = true) : FormatReading.reader.step reading c ∈ uncalledStates := by
  obtain ⟨matched, bound, rfl⟩ := List.mem_map.mp member
  have quote : c ≠ '\'' := ne_of_refused part (by decide)
  have blank : c ≠ ' ' := ne_of_refused part (by decide)
  have here : FormatReading.reader.step (.outside matched) c = .outside (callSoFar matched c) :=
    if_neg quote
  rw [here]
  refine List.mem_map_of_mem (List.mem_range.mpr (lt_of_le_of_ne (callSoFar_le matched c) ?_))
  intro whole
  have last := ((callSoFar_eq_succ c).mp (whole : _ = 6 + 1)).1
  exact blank (Option.some.inj last).symm

theorem step_outsideStates {reading : FormatReading} (member : reading ∈ outsideStates) {c : Char}
    (other : c ≠ '\'') : FormatReading.reader.step reading c ∈ outsideStates := by
  obtain ⟨matched, bound, rfl⟩ := List.mem_map.mp member
  have here : FormatReading.reader.step (.outside matched) c = .outside (callSoFar matched c) :=
    if_neg other
  rw [here]
  exact List.mem_map_of_mem (List.mem_range.mpr (Nat.lt_succ_of_le (callSoFar_le matched c)))

theorem step_labelStates {reading : FormatReading} (member : reading ∈ labelStates) {c : Char}
    (plain : isQuoted c = true) : FormatReading.reader.step reading c ∈ labelStates := by
  obtain ⟨place, inside, rfl⟩ := List.mem_map.mp member
  have quote : c ≠ '\'' := ne_of_refused plain (by decide)
  have newline : c ≠ '\n' := ne_of_refused plain (by decide)
  have underscore : c ≠ '_' := ne_of_refused plain (by decide)
  have unmarked : c ∉ idiomMarks := by
    have refused : ∀ mark ∈ idiomMarks, isQuoted mark = false := by decide
    intro mark
    exact absurd plain (by simp [refused c mark])
  have nameless : [] ∉ longTails := by decide
  have here : FormatReading.reader.step (.inside ⟨place, [], false⟩) c =
      .inside ⟨(Content.next ⟨place, [], false⟩ c).place, [], false⟩ := by
    simp [FormatReading.reader, FormatReading.step, Content.next, quote, newline, underscore,
      unmarked, nameless]
  rw [here]
  refine List.mem_map_of_mem ?_
  cases place with
  | none => exact List.mem_cons_self
  | some n =>
      have bound : n < 10 := by simpa using inside
      simp only [Content.next, Option.bind_some]
      split
      · rename_i follows
        refine List.mem_cons_of_mem _ (List.mem_map_of_mem (List.mem_range.mpr ?_))
        by_cases last : n = 9
        · subst last
          exact absurd (Option.some.inj follows).symm underscore
        · omega
      · exact List.mem_cons_self

theorem read_outsideStates {filling : Filling} {reading : FormatReading} {text : List Char}
    (member : reading ∈ outsideStates)
    (unopened : filling ≠ .command ∨ reading ≠ .outside formatCall.length)
    (accepted : filling.Accepts '\'' text) :
    FormatReading.reader.read reading text ∈ outsideStates := by
  have each {accepts : Char → Bool} (refused : accepts '\'' = false) :
      ∀ state ∈ outsideStates, ∀ c, accepts c = true →
        FormatReading.reader.step state c ∈ outsideStates :=
    fun state here c kind => step_outsideStates here (ne_of_refused kind refused)
  have dollar {state : FormatReading} (here : state ∈ outsideStates) :
      FormatReading.reader.step state '$' ∈ outsideStates :=
    step_outsideStates here (by decide)
  cases filling with
  | bare | quoted => exact FormatReading.reader.read_mem (each (by decide)) accepted member
  | expression => exact FormatReading.reader.read_mem (each (by decide)) accepted.1 member
  | word | input => exact FormatReading.reader.read_mem (each (by decide)) accepted.asBare member
  | command =>
      obtain ⟨name, bare, rfl | rfl⟩ | rfl := accepted
      · exact FormatReading.reader.read_mem (each (by decide)) bare member
      · exact FormatReading.reader.read_mem (each (by decide)) bare (dollar member)
      · obtain ⟨matched, -, rfl⟩ := List.mem_map.mp member
        have short : matched ≠ formatCall.length := by
          rintro rfl
          simp at unopened
        have back : FormatReading.reader.step (.outside matched) '\'' = .outside 0 := by
          simp [FormatReading.reader, FormatReading.step, short]
        rw [LineReader.read_cons, back]
        decide
  | arguments =>
      obtain ⟨names, -, parts, rfl⟩ := accepted
      have quote {state : FormatReading} (here : state ∈ outsideStates) :
          FormatReading.reader.step state '"' ∈ outsideStates :=
        step_outsideStates here (by decide)
      refine read_arguments (fun state here name part => ?_)
        (fun state here => step_outsideStates here (by decide)) parts member
      rw [argument, LineReader.read_append, LineReader.read_append]
      exact quote (FormatReading.reader.read_mem (each (by decide)) part (dollar (quote here)))
  | directory =>
      obtain ⟨lead, path, known, free, rfl⟩ := accepted
      rw [LineReader.read_append]
      refine read_escaped (fun state here c other _ => step_outsideStates here (other _ rfl))
        (fun state here c active => ?_) free ?_
      · exact step_outsideStates (step_outsideStates here (by decide))
          (ne_of_refused active (by decide))
      · refine FormatReading.reader.read_mem
          (fun state here c (other : (c != '\'') = true) =>
            step_outsideStates here (by simpa using other)) ?_ member
        simp only [List.mem_cons, List.not_mem_nil, or_false] at known
        rcases known with rfl | rfl | rfl <;> rfl

theorem fillFormats_sound {filling : Filling} {reading : FormatReading} {ends : List FormatReading}
    {text : List Char} (filled : fillFormats filling reading = some ends)
    (accepted : filling.Accepts '\'' text) : FormatReading.reader.read reading text ∈ ends := by
  unfold fillFormats at filled
  split at filled
  · rename_i word
    obtain ⟨member, rfl⟩ := word
    obtain rfl := Option.some.inj filled
    exact FormatReading.reader.read_mem (fun state here c part => step_uncalledStates here part)
      accepted member
  split at filled
  · rename_i outside
    obtain rfl := Option.some.inj filled
    exact read_outsideStates outside.1 outside.2 accepted
  split at filled
  · rename_i label
    obtain ⟨member, rfl⟩ := label
    obtain rfl := Option.some.inj filled
    exact FormatReading.reader.read_mem (fun state here c plain => step_labelStates here plain)
      accepted member
  split at filled
  · rename_i named
    subst named
    obtain rfl := Option.some.inj filled
    obtain ⟨name, known, rfl⟩ := List.mem_map.mp accepted
    exact List.mem_map_of_mem known
  · cases filled

/-! Calls. -/

def watchedStates : List (Option Nat) :=
  (List.range 4).map some

def unquotingStates : List (Option Nat) :=
  (List.range 3).map some

def fillCalls (filling : Filling) (state : Option Nat) : Option (List (Option Nat)) :=
  if filling = .arguments then if state = some 0 then some [some 0] else none
  else if state ∈ unquotingStates ∧ (filling = .word ∨ filling = .input) then some unquotingStates
  else if state ∈ watchedStates then some watchedStates
  else none

theorem step_watchedStates {state : Option Nat} (member : state ∈ watchedStates) {c : Char}
    (other : c ≠ '"') : callWatcher.step state c ∈ watchedStates := by
  obtain ⟨n, -, rfl⟩ := List.mem_map.mp member
  obtain ⟨m, follows⟩ := exists_follow n other
  rw [step_callWatcher, follows]
  exact List.mem_map_of_mem (List.mem_range.mpr (Nat.lt_succ_of_le (follow_le follows)))

theorem step_unquotingStates {state : Option Nat} (member : state ∈ unquotingStates) {c : Char}
    (quote : c ≠ '"') (blank : c ≠ ' ') : callWatcher.step state c ∈ unquotingStates := by
  obtain ⟨n, -, rfl⟩ := List.mem_map.mp member
  rw [step_callWatcher, follow, if_neg fun start => quote start.2, if_neg fun start => blank start.2]
  split_ifs <;> decide

theorem read_unquotingStates {accepts : Char → Bool} (quote : accepts '"' = false)
    (blank : accepts ' ' = false) {text : List Char} (accepted : text.all accepts = true)
    {state : Option Nat} (member : state ∈ unquotingStates) :
    callWatcher.read state text ∈ unquotingStates :=
  callWatcher.read_mem (fun _ here _ kind => step_unquotingStates here (ne_of_refused kind quote)
    (ne_of_refused kind blank)) accepted member

theorem callFree_directory {barred : Option Char} {text : List Char}
    (accepted : Filling.directory.Accepts barred text) : CallFree text := by
  intro n bound
  have here : some n ∈ watchedStates :=
    List.mem_map_of_mem (List.mem_range.mpr (Nat.lt_succ_of_le bound))
  have back := read_directory (fun state member c other => step_watchedStates member other)
    (fun state member => by
      obtain ⟨m, -, rfl⟩ := List.mem_map.mp member
      have start : callWatcher.step (some m) '\\' = some 0 := by simp [follow]
      rw [start]
      decide) accepted here
  obtain ⟨m, -, reads⟩ := List.mem_map.mp back
  rw [← reads]
  rfl

theorem callFree_of_accepts {barred : Option Char} {filling : Filling} (other : filling ≠ .arguments)
    {text : List Char} (accepted : filling.Accepts barred text) : CallFree text := by
  have unquoted {accepts : Char → Bool} (refused : accepts '"' = false) {word : List Char}
      (all : word.all accepts = true) : CallFree word :=
    .of_unquoted fun member => absurd (List.all_eq_true.mp all _ member) (by simp [refused])
  have bare {word : List Char} (all : word.all isBare = true) : CallFree word :=
    unquoted (by decide) all
  cases filling with
  | bare => exact bare accepted
  | word | input => exact bare accepted.asBare
  | quoted => exact unquoted (by decide) accepted
  | expression => exact accepted.2
  | arguments => exact absurd rfl other
  | directory => exact callFree_directory accepted
  | command =>
      obtain ⟨name, all, rfl | rfl⟩ | rfl := accepted
      · exact bare all
      · have sign : CallFree ['$'] := by decide
        exact sign.append (bare all)
      · decide

theorem read_callWatcher_arguments {barred : Option Char} {text : List Char}
    (accepted : Filling.arguments.Accepts barred text) :
    callWatcher.read (some 0) text = some 0 := by
  obtain ⟨names, -, parts, rfl⟩ := accepted
  refine List.mem_singleton.mp (read_arguments (fun state here name part => ?_)
    (fun state here => ?_) parts (List.mem_singleton.mpr rfl))
  all_goals
    obtain rfl := List.mem_singleton.mp here
    refine List.mem_singleton.mpr ?_
  · have start : callWatcher.read (some 0) ['"', '$'] = some 0 := rfl
    have inner := read_unquotingStates (by decide) (by decide) part
      (by decide : some 0 ∈ unquotingStates)
    rw [argument, LineReader.read_append, LineReader.read_append, start]
    simp only [unquotingStates, List.range, List.range.loop, List.map_cons, List.map_nil,
      List.mem_cons, List.not_mem_nil, or_false] at inner
    rcases inner with same | same | same <;> rw [same] <;> rfl
  · rfl

theorem fillCalls_sound {barred : Option Char} {filling : Filling} {state : Option Nat}
    {ends : List (Option Nat)} {text : List Char} (filled : fillCalls filling state = some ends)
    (accepted : filling.Accepts barred text) : callWatcher.read state text ∈ ends := by
  unfold fillCalls at filled
  split at filled
  · rename_i arguments
    subst arguments
    split at filled
    · rename_i start
      subst start
      obtain rfl := Option.some.inj filled
      exact List.mem_singleton.mpr (read_callWatcher_arguments accepted)
    · cases filled
  rename_i other
  split at filled
  · rename_i word
    obtain ⟨member, kind⟩ := word
    obtain rfl := Option.some.inj filled
    rcases kind with rfl | rfl
    · exact read_unquotingStates (by decide) (by decide) accepted member
    · have names : ∀ name ∈ inputNames.map String.toList, name.all isWordPart = true := by decide
      exact read_unquotingStates (by decide) (by decide) (names text accepted) member
  split at filled
  · rename_i member
    obtain rfl := Option.some.inj filled
    obtain ⟨n, bound, rfl⟩ := List.mem_map.mp member
    have small : n ≤ 3 := Nat.le_of_lt_succ (List.mem_range.mp bound)
    obtain ⟨m, less, reads⟩ := (callFree_of_accepts other accepted).read small
    rw [reads]
    exact List.mem_map_of_mem (List.mem_range.mpr (Nat.lt_succ_of_le less))
  · cases filled

/-! The tracers. -/

def quoteTracer : Tracer '\n' QuoteReading where
  toLineReader := QuoteReading.reader
  fill := fun filling => fillQuotes filling.asBare
  fill_sound := fun filled accepted => fillQuotes_sound filled accepted.asBare

def leftTracer : Tracer '\n' LeftReading where
  toLineReader := LeftReading.reader
  fill := fillLeft
  fill_sound := fillLeft_sound

def rightTracer : Tracer '\n' RightReading where
  toLineReader := RightReading.reader
  fill := fillRight
  fill_sound := fillRight_sound

def returnTracer : Tracer '\r' Bool where
  toLineReader := returnReader
  fill := fun _ seen => some [seen]
  fill_sound := by
    intro filling seen ends text filled accepted
    obtain rfl := Option.some.inj filled
    exact fillReturn_sound accepted

def formatTracer : Tracer '\'' FormatReading where
  toLineReader := FormatReading.reader
  fill := fillFormats
  fill_sound := fillFormats_sound

def callTracer : Tracer none (Option Nat) where
  toLineReader := callWatcher
  fill := fillCalls
  fill_sound := fillCalls_sound

def isTidyLookup (fills : Fills) (outline : Outline) : Bool :=
  quoteTracer.accepts fills outline && leftTracer.accepts fills outline &&
    rightTracer.accepts fills outline && returnTracer.accepts fills outline &&
    formatTracer.accepts fills outline

def isTidy (fills : Fills) (outline : Outline) : Bool :=
  isTidyLookup fills outline && callTracer.accepts fills outline

def ClosesAll {State : Type} (barred : Option Char) (reader : LineReader State)
    (check : Fills → Outline → Bool) : Prop :=
  ∀ {fills : Fills} {serves : Scope → Prop} {failed : String → Failure}
    {pieces : List Piece} {outline : Outline} {scope : Scope} {text : List Char},
    (∀ inner, serves inner → Provides barred fills inner) → Outlines pieces outline →
    (∀ entry ∈ outline.loops, TurnsServe serves entry.1 entry.2) → check fills outline = true →
    serves scope → Piece.renderAll failed scope pieces = .ok text → reader.Closes text

structure AcceptsTidy {State : Type} (barred : Option Char) (reader : LineReader State) : Prop where
  closes : ClosesAll barred reader isTidy

structure AcceptsLookups {State : Type} (barred : Option Char) (reader : LineReader State) : Prop where
  closes : ClosesAll barred reader isTidyLookup

theorem closesAll_of_tracer {State : Type} [DecidableEq State] {barred : Option Char}
    (tracer : Tracer barred State) {check : Fills → Outline → Bool}
    (accepted : ∀ fills outline, check fills outline = true →
      tracer.accepts fills outline = true) : ClosesAll barred tracer.toLineReader check :=
  fun provides outlines loops tidy here rendered =>
    tracer.closes_of_accepts provides outlines loops (accepted _ _ tidy) here rendered

theorem AcceptsLookups.tidy {State : Type} {barred : Option Char} {reader : LineReader State}
    (accepts : AcceptsLookups barred reader) : AcceptsTidy barred reader where
  closes := fun provides outlines loops tidy =>
    accepts.closes provides outlines loops (Bool.and_eq_true_iff.mp tidy).1

theorem acceptsLookups_quotes : AcceptsLookups '\n' QuoteReading.reader where
  closes := closesAll_of_tracer quoteTracer fun fills outline tidy => by
    simp only [isTidyLookup, Bool.and_eq_true] at tidy
    exact tidy.1.1.1.1

theorem acceptsLookups_left : AcceptsLookups '\n' LeftReading.reader where
  closes := closesAll_of_tracer leftTracer fun fills outline tidy => by
    simp only [isTidyLookup, Bool.and_eq_true] at tidy
    exact tidy.1.1.1.2

theorem acceptsLookups_right : AcceptsLookups '\n' RightReading.reader where
  closes := closesAll_of_tracer rightTracer fun fills outline tidy => by
    simp only [isTidyLookup, Bool.and_eq_true] at tidy
    exact tidy.1.1.2

theorem acceptsLookups_return : AcceptsLookups '\r' returnReader where
  closes := closesAll_of_tracer returnTracer fun fills outline tidy => by
    simp only [isTidyLookup, Bool.and_eq_true] at tidy
    exact tidy.1.2

theorem acceptsLookups_formats : AcceptsLookups '\'' FormatReading.reader where
  closes := closesAll_of_tracer formatTracer fun fills outline tidy => by
    simp only [isTidyLookup, Bool.and_eq_true] at tidy
    exact tidy.2

theorem acceptsTidy_calls (known : List Char → Prop) [DecidablePred known] :
    AcceptsTidy none (CallReading.reader known) where
  closes := fun provides outlines loops tidy here rendered =>
    CallReading.closes_of_watched (callTracer.closes_of_accepts provides outlines loops
      (Bool.and_eq_true_iff.mp tidy).2 here rendered)

end StatusLine.Script

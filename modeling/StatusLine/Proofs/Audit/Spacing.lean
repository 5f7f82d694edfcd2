import StatusLine.Proofs.Audit.QuoteRewriting
import StatusLine.Proofs.Audit.Words

/-!
What stands around the lookups of commands. When a lookup is shortened, a letter gets into the place
of the bracket at its start, and a digit into that of the one at its end. Two readers watch both
ends. They give up where an exit call stands before a lookup, or a word behind one, and rewriting
leads to no such place unless there was one before.
-/

namespace StatusLine.Audit

open Shortening

inductive LeftReading
  | apart
  | letter
  | ending
  | bracket
  | blank
  | lost
  deriving DecidableEq

namespace LeftReading

def step : LeftReading → Char → LeftReading
  | lost, _ => lost
  | blank, '"' => lost
  | letter, 't' => ending
  | ending, '[' => bracket
  | bracket, ' ' => blank
  | _, 'i' => letter
  | _, _ => apart

def reader : LineReader LeftReading where
  start := apart
  step := step
  start_newline := rfl
  newline_blank := by rintro ⟨⟩ <;> rfl
  newline_newline := by rintro ⟨⟩ <;> rfl

@[simp]
theorem read_lost (text : List Char) : reader.read lost text = lost := by
  induction text with
  | nil => rfl
  | cons c rest ih => exact ih

def isOpen : LeftReading → Bool
  | apart | letter | ending => true
  | _ => false

theorem step_open {reading : LeftReading} (isOpen : reading.isOpen = true) {c : Char}
    (other : c ≠ '[') : (reading.step c).isOpen = true := by
  cases reading <;> simp only [LeftReading.isOpen, Bool.false_eq_true] at isOpen <;>
    unfold step <;> split <;> simp_all [LeftReading.isOpen]

theorem read_open {reading : LeftReading} (isOpen : reading.isOpen = true) {text : List Char}
    (free : '[' ∉ text) : (reader.read reading text).isOpen = true := by
  induction text generalizing reading with
  | nil => exact isOpen
  | cons c rest ih =>
      simp only [List.mem_cons, not_or] at free
      exact ih (step_open isOpen (Ne.symm free.1)) free.2

def isPlain (c : Char) : Bool :=
  !(['i', 't', '[', ' ', '"'].contains c)

theorem step_plain {reading : LeftReading} (known : reading ≠ lost) {c : Char}
    (plain : isPlain c = true) : reading.step c = apart := by
  simp only [isPlain, Bool.not_eq_true', List.contains_eq_mem, decide_eq_false_iff_not,
    List.mem_cons, List.not_mem_nil, or_false, not_or] at plain
  cases reading <;> unfold step <;> split <;> simp_all

theorem step_first {reading : LeftReading} (known : reading ≠ lost) {c : Char}
    (other : c ≠ '[') (blank : c ≠ ' ') (quote : c ≠ '"') : (reading.step c).isOpen = true := by
  cases reading <;> unfold step <;> split <;> simp_all [isOpen]

theorem read_last (reading : LeftReading) {text : List Char} {c : Char}
    (last : text.getLast? = some c) (plain : isPlain c = true) :
    reader.read reading text = lost ∨ reader.read reading text = apart := by
  obtain ⟨lead, rfl⟩ := List.getLast?_eq_some_iff.mp last
  rw [LineReader.read_append]
  by_cases known : reader.read reading lead = lost
  · rw [known]
    exact .inl rfl
  · exact .inr (step_plain known plain)

theorem read_open_last {reading : LeftReading} (isOpen : reading.isOpen = true) {text : List Char}
    (free : '[' ∉ text) {c : Char} (last : text.getLast? = some c) (plain : isPlain c = true) :
    reader.read reading text = apart := by
  have still := read_open isOpen free
  rcases reading.read_last last plain with gone | here
  · rw [gone] at still
    exact Bool.noConfusion still
  · exact here

theorem read_settles {reading : LeftReading} (known : reading ≠ lost) {text : List Char}
    (free : '[' ∉ text) (blank : text.head? ≠ some ' ') (quote : text.head? ≠ some '"') {c : Char}
    (last : text.getLast? = some c) (plain : isPlain c = true) :
    reader.read reading text = apart := by
  cases text with
  | nil => simp at last
  | cons first rest =>
      simp only [List.head?_cons, ne_eq, Option.some.injEq] at blank quote
      simp only [List.mem_cons, not_or] at free
      have opened := step_first known (Ne.symm free.1) blank quote
      cases rest with
      | nil =>
          obtain rfl : first = c := by simpa using last
          exact step_plain known plain
      | cons next more =>
          exact read_open_last opened free.2 (by rwa [List.getLast?_cons_cons] at last) plain

theorem read_brackets {reading : LeftReading} (known : reading ≠ lost) {text : List Char}
    (free : '[' ∉ text) {c : Char} (last : text.getLast? = some c) (plain : isPlain c = true) :
    reader.read reading ('[' :: '[' :: text) = apart := by
  have opened : reader.read reading ['[', '['] = apart := by
    cases reading <;> first | rfl | exact absurd rfl known
  have split : '[' :: '[' :: text = ['[', '['] ++ text := rfl
  rw [split, LineReader.read_append, opened]
  exact read_open_last rfl free last plain

def Keeps (stretch replacement : List Char) : Prop :=
  ∀ reading, reader.read reading stretch = lost ∨
    reader.read reading replacement = reader.read reading stretch

theorem keeps_of_apart {stretch replacement : List Char} {c : Char}
    (last : stretch.getLast? = some c) (plain : isPlain c = true)
    (settles : ∀ reading, reading ≠ lost → reader.read reading replacement = apart) :
    Keeps stretch replacement := by
  intro reading
  by_cases known : reading = lost
  · rw [known, read_lost]
    exact .inl rfl
  · rw [settles reading known]
    rcases reading.read_last last plain with gone | here
    · exact .inl gone
    · exact .inr here.symm

theorem read_shortNames (long short : String) (paired : (long, short) ∈ shortNames)
    {reading : LeftReading} (known : reading ≠ lost) :
    reader.read reading long.toList = apart ∧ reader.read reading short.toList = apart := by
  have settles : ∀ words ∈ shortNames.map fun names => (names.1.toList, names.2.toList),
      ∀ reading ∈ [apart, letter, ending, bracket, blank],
        (reader.read reading words.1 = apart ∧ reader.read reading words.2 = apart) := by
    simp only [shortNames, List.map_cons, List.map_nil]
    repeat rw [String.toList_ofList]
    decide
  refine settles _ (List.mem_map_of_mem paired) reading ?_
  cases reading <;> simp_all

theorem keeps_of_rewrite {before rest stretch replacement : List Char}
    (rewrite : Rewrite before rest stretch replacement) (inLine : '\n' ∉ stretch) :
    Keeps stretch replacement := by
  cases rewrite with
  | unbraced long short paired ends =>
      refine keeps_of_apart (c := '\x7d') (by simp [List.getLast?_cons]) (by decide)
        fun reading known => ?_
      have lead : reader.step reading '$' = apart := step_plain known (by decide)
      rw [LineReader.read_cons, lead]
      exact (read_shortNames long short paired (by decide)).2
  | shortened long short paired starts ends =>
      intro reading
      by_cases known : reading = lost
      · rw [known, read_lost]
        exact .inl rfl
      · obtain ⟨longRead, shortRead⟩ := read_shortNames long short paired known
        exact .inr (shortRead.trans longRead.symm)
  | command lookup name known named apart =>
      have free := named.not_mem (c := '[') (by decide)
      refine keeps_of_apart (c := ']') (by simp [List.getLast?_cons]) (by decide) fun reading known => ?_
      exact read_settles (c := '1') known (by simp [free]) (by simp) (by simp) (by simp [List.getLast?_cons]) (by decide)
  | homeDirectory name named =>
      have free := named.not_mem (c := '[') (by decide)
      refine keeps_of_apart (c := ')') (by simp [List.getLast?_cons]) (by decide) fun reading known => ?_
      exact read_settles (c := '\x7d') known (by simp [free]) (by simp) (by simp) (by simp [List.getLast?_cons])
        (by decide)
  | clock =>
      refine keeps_of_apart (c := ')') (by simp [List.getLast?_cons]) (by decide) fun reading known => ?_
      exact read_settles (c := '\x7d') known (by simp) (by simp) (by simp) (by simp [List.getLast?_cons]) (by decide)
  | contents name variableText named quoted =>
      have free := named.not_mem (c := '[') (by decide)
      refine keeps_of_apart (c := ')') (by simp [List.getLast?_cons]) (by decide) fun reading known => ?_
      exact read_settles (c := ')') known (by simp [free]) (by simp) (by simp) (by simp [List.getLast?_cons]) (by decide)
  | status apart =>
      refine keeps_of_apart (c := ']') (by simp [List.getLast?_cons]) (by decide) fun reading known => ?_
      exact read_settles (c := ')') known (by simp) (by simp) (by simp) (by simp [List.getLast?_cons]) (by decide)
  | test flag opening name variableText known named quoted apart =>
      have free := named.not_mem (c := '[') (by decide)
      refine keeps_of_apart (c := ']') (by simp [List.getLast?_cons]) (by decide) fun reading going => ?_
      obtain ⟨more, rfl, plain, last⟩ : ∃ more, opening = '[' :: '[' :: more ∧ '[' ∉ more ∧
          (more ++ name ++ " ]]".toList).getLast? = some ']' := by
        simp only [variableTests, List.mem_cons, List.not_mem_nil, or_false, Prod.mk.injEq] at known
        rcases known with ⟨-, rfl⟩ | ⟨-, rfl⟩ | ⟨-, rfl⟩ | ⟨-, rfl⟩ | ⟨-, rfl⟩ | ⟨-, rfl⟩ <;>
          rw [String.toList_ofList] <;>
          exact ⟨_, rfl, by simp, by simp [List.getLast?_cons]⟩
      rw [List.cons_append, List.cons_append, List.cons_append, List.cons_append]
      exact read_brackets going (by simp [plain, free]) last (by decide)
  | blankLine line blank single ends => exact absurd List.mem_cons_self inLine

end LeftReading

inductive RightReading
  | apart
  | space
  | name
  | closing
  | quote
  | blank
  | closed
  | lost
  deriving DecidableEq

namespace RightReading

def fresh (c : Char) : RightReading :=
  if c = ' ' ∨ c = '\n' then space else apart

def step : RightReading → Char → RightReading
  | lost, _ => lost
  | closed, c => if isWordOrDash c || c == '[' then lost else fresh c
  | name, ')' => closing
  | closing, '"' => quote
  | quote, ' ' => blank
  | blank, ']' => closed
  | space, c | name, c => if isCommandChar c then name else fresh c
  | _, c => fresh c

theorem step_newline {reading : RightReading} (known : reading ≠ lost) :
    reading.step '\n' = space := by
  cases reading <;> first | exact absurd rfl known | decide

def reader : LineReader RightReading where
  start := space
  step := step
  start_newline := step_newline (by decide)
  newline_blank := by
    intro reading
    by_cases known : reading = lost
    · rw [known]
      rfl
    · rw [step_newline known]
      decide
  newline_newline := by
    intro reading
    by_cases known : reading = lost
    · rw [known]
      rfl
    · rw [step_newline known]
      decide

@[simp]
theorem read_lost (text : List Char) : reader.read lost text = lost := by
  induction text with
  | nil => rfl
  | cons c rest ih => exact ih

theorem step_dollar {reading : RightReading} (known : reading ≠ lost) :
    reading.step '$' = apart := by
  cases reading <;> first | exact absurd rfl known | decide

theorem step_bracket {reading : RightReading} (known : reading ≠ lost) (going : reading ≠ closed) :
    reading.step '[' = apart := by
  cases reading <;> first | exact absurd rfl known | exact absurd rfl going | decide

theorem read_apart {word : List Char} (each : ∀ c ∈ word, isCommandChar c = true) :
    reader.read apart word = apart := by
  induction word with
  | nil => rfl
  | cons c rest ih =>
      have here : reader.step apart c = apart := by
        have letter := each c List.mem_cons_self
        have visible : ¬ (c = ' ' ∨ c = '\n') := by
          rintro (rfl | rfl) <;> exact absurd letter (by decide)
        simp [reader, step, fresh, visible]
      rw [LineReader.read_cons, here]
      exact ih fun d member => each d (List.mem_cons_of_mem c member)

theorem read_around {lead name tail : List Char} (each : ∀ c ∈ name, isCommandChar c = true)
    (here : reader.read apart lead = apart) :
    reader.read apart (lead ++ name ++ tail) = reader.read apart tail := by
  rw [LineReader.read_append, LineReader.read_append, here, read_apart each]

theorem step_letter {reading : RightReading} (starts : reading = space ∨ reading = name) {c : Char}
    (letter : isCommandChar c = true) : reading.step c = name := by
  have other : c ≠ ')' := by
    rintro rfl
    exact absurd letter (by decide)
  rcases starts with rfl | rfl
  · simp [step, letter]
  · simp [step, letter]

theorem read_name {reading : RightReading} (starts : reading = space ∨ reading = name)
    {word : List Char} (named : IsRun isCommandChar word) : reader.read reading word = name := by
  obtain ⟨present, each⟩ := named
  induction word generalizing reading with
  | nil => exact absurd rfl present
  | cons c rest ih =>
      have here := step_letter starts (each c List.mem_cons_self)
      cases rest with
      | nil => exact here
      | cons next more =>
          exact ih (.inr here) (by simp) fun d member => each d (List.mem_cons_of_mem c member)

def AtMost (reading other : RightReading) : Prop :=
  other = lost ∨ reading = other ∨ reading = apart ∧ other = closed

theorem AtMost.step {reading other : RightReading} (below : reading.AtMost other) (c : Char) :
    (reading.step c).AtMost (other.step c) := by
  rcases below with rfl | rfl | ⟨rfl, rfl⟩
  · exact .inl rfl
  · exact .inr (.inl rfl)
  · have here : closed.step c = if isWordOrDash c || c == '[' then lost else fresh c := rfl
    have there : apart.step c = fresh c := rfl
    rw [here, there]
    split
    · exact .inl rfl
    · exact .inr (.inl rfl)

theorem AtMost.read {reading other : RightReading} (below : reading.AtMost other)
    (text : List Char) : (reader.read reading text).AtMost (reader.read other text) := by
  induction text generalizing reading other with
  | nil => exact below
  | cons c rest ih => exact ih (below.step c)

def Keeps (stretch replacement : List Char) : Prop :=
  ∀ reading, (reader.read reading replacement).AtMost (reader.read reading stretch)

theorem keeps_dollar {stretch replacement : List Char}
    (same : reader.read apart replacement = reader.read apart stretch) :
    Keeps ('$' :: stretch) ('$' :: replacement) := by
  intro reading
  by_cases known : reading = lost
  · rw [known]
    exact .inl (read_lost _)
  · have here : reader.step reading '$' = apart := step_dollar known
    rw [LineReader.read_cons, LineReader.read_cons, here]
    exact .inr (.inl same)

theorem keeps_bracket {stretch replacement : List Char}
    (same : reader.read apart replacement = reader.read apart stretch) :
    Keeps ('[' :: stretch) ('[' :: replacement) := by
  intro reading
  by_cases known : reading = lost
  · rw [known]
    exact .inl (read_lost _)
  · by_cases going : reading = closed
    · rw [going, LineReader.read_cons]
      exact .inl (read_lost stretch)
    · have here : reader.step reading '[' = apart := step_bracket known going
      rw [LineReader.read_cons, LineReader.read_cons, here]
      exact .inr (.inl same)

def behindWord : RightReading → RightReading
  | space | name => name
  | closed | lost => lost
  | _ => apart

theorem read_word (reading : RightReading) {word : List Char} (named : IsRun Text.isWord word) :
    reader.read reading word = reading.behindWord := by
  obtain ⟨c, rest, rfl⟩ := List.exists_cons_of_ne_nil named.1
  have letter := named.2 c List.mem_cons_self
  have other (d : Char) (refused : Text.isWord d = false) : c ≠ d := by
    rintro rfl
    rw [letter] at refused
    exact Bool.noConfusion refused
  have commands := named.command
  cases reading with
  | apart => exact read_apart commands.2
  | space => exact read_name (.inl rfl) commands
  | name => exact read_name (.inr rfl) commands
  | lost => exact read_lost _
  | closed =>
      have gone : reader.step closed c = lost := by
        simp [reader, step, isWordOrDash, letter]
      rw [LineReader.read_cons, gone, read_lost]
      rfl
  | closing | quote | blank =>
      have here : ∀ reading ∈ [closing, quote, blank], reader.step reading c = apart := by
        simp [reader, step, fresh, other ' ' (by decide), other '\n' (by decide),
          other '"' (by decide), other ']' (by decide)]
      rw [LineReader.read_cons, here _ (by simp)]
      exact read_apart fun d member => commands.2 d (List.mem_cons_of_mem c member)

/-- A lookup ends as such. What stands in its place does not. -/
theorem read_lookup (reading : RightReading) {lookup name : List Char}
    (known : lookup ∈ commandLookups) (named : IsRun isCommandChar name) :
    reader.read reading
        (['[', ' '] ++ "\"$(".toList ++ lookup ++ name ++ ")\"".toList ++ [' ', ']']) = lost ∨
      reader.read reading
          (['[', ' '] ++ "\"$(".toList ++ lookup ++ name ++ ")\"".toList ++ [' ', ']']) = closed ∧
        reader.read reading ("command -v ".toList ++ name ++ " >/dev/null 2>&1".toList) = apart := by
  by_cases gone : reading = lost ∨ reading = closed
  · left
    rcases gone with rfl | rfl
    · exact read_lost _
    · exact read_lost _
  · right
    have lookupRead : reader.read reading (['[', ' '] ++ "\"$(".toList ++ lookup) = space := by
      simp only [commandLookups, List.mem_cons, List.not_mem_nil, or_false] at known
      rcases known with rfl | rfl <;> rw [String.toList_ofList, String.toList_ofList] <;>
        cases reading <;> first | rfl | simp at gone
    have commandRead : reader.read reading "command -v ".toList = space := by
      rw [String.toList_ofList]
      cases reading <;> first | rfl | simp at gone
    rw [LineReader.read_append, LineReader.read_append, LineReader.read_append, lookupRead,
      read_name (.inl rfl) named, LineReader.read_append, LineReader.read_append, commandRead,
      read_name (.inl rfl) named, String.toList_ofList, String.toList_ofList]
    exact ⟨rfl, rfl⟩

theorem keeps_of_rewrite {before rest stretch replacement : List Char}
    (rewrite : Rewrite before rest stretch replacement) (inLine : '\n' ∉ stretch) :
    Keeps stretch replacement := by
  cases rewrite with
  | unbraced long short paired ends =>
      obtain ⟨longWords, shortWords⟩ := isRun_of_mem_shortNames long short paired
      have here : reader.read apart (['\x7b'] ++ long.toList ++ ['\x7d']) = apart :=
        read_around longWords.command.2 rfl
      exact keeps_dollar ((read_apart shortWords.command.2).trans here.symm)
  | shortened long short paired starts ends =>
      obtain ⟨longWords, shortWords⟩ := isRun_of_mem_shortNames long short paired
      exact fun reading => .inr (.inl ((reading.read_word shortWords).trans
        (reading.read_word longWords).symm))
  | command lookup name known named apart =>
      intro reading
      rcases reading.read_lookup known named with gone | behind
      · exact .inl gone
      · exact .inr (.inr behind.symm)
  | homeDirectory name named =>
      rw [String.toList_ofList, String.toList_ofList, String.toList_ofList, String.toList_ofList]
      have before : ∀ tail, reader.read apart
          (['(', 'e', 'c', 'h', 'o', ' ', '"', '$'] ++ name ++ tail) = reader.read apart tail :=
        fun tail => read_around named.command.2 rfl
      have behind : ∀ tail, reader.read apart (['\x7b'] ++ name ++ tail) = reader.read apart tail :=
        fun tail => read_around named.command.2 rfl
      refine keeps_dollar ((behind _).trans (Eq.trans ?_ (before _).symm))
      rfl
  | clock =>
      rw [String.toList_ofList, String.toList_ofList]
      exact keeps_dollar rfl
  | contents name variableText named quoted =>
      rw [String.toList_ofList, String.toList_ofList, String.toList_ofList]
      have behind : ∀ tail, reader.read apart (['(', '<', '"', '$'] ++ name ++ tail) =
          reader.read apart tail := fun tail => read_around named.command.2 rfl
      cases quoted
      · have before : ∀ tail, reader.read apart
            (['(', 'c', 'a', 't', ' ', '"', '$'] ++ name ++ tail) = reader.read apart tail :=
          fun tail => read_around named.command.2 rfl
        refine keeps_dollar ((behind _).trans ?_)
        simpa using (before ['"', ')']).symm
      · have before : ∀ tail, reader.read apart
            (['(', 'c', 'a', 't', ' ', '"', '$', '\x7b'] ++ name ++ tail) =
              reader.read apart tail :=
          fun tail => read_around named.command.2 rfl
        refine keeps_dollar ((behind _).trans ?_)
        have same : reader.read apart ['"', ')'] = reader.read apart ['\x7d', '"', ')'] := rfl
        rw [same]
        simpa using (before ['\x7d', '"', ')']).symm
  | status apart =>
      rw [String.toList_ofList, String.toList_ofList]
      rintro ⟨⟩ <;> first | exact .inl rfl | exact .inr (.inl rfl)
  | test flag opening name variableText known named quoted apart =>
      have flagRead : reader.read RightReading.apart (' ' :: flag) = space := by
        simp only [variableTests, List.mem_cons, List.not_mem_nil, or_false, Prod.mk.injEq] at known
        rcases known with ⟨rfl, -⟩ | ⟨rfl, -⟩ | ⟨rfl, -⟩ | ⟨rfl, -⟩ | ⟨rfl, -⟩ | ⟨rfl, -⟩ <;>
          rw [String.toList_ofList] <;> rfl
      have variableRead : reader.read space variableText = RightReading.apart := by
        have bare : ∀ tail, reader.read RightReading.apart (['$'] ++ name ++ tail) =
            reader.read RightReading.apart tail := fun tail => read_around named.command.2 rfl
        have braced : ∀ tail, reader.read RightReading.apart (['$', '\x7b'] ++ name ++ tail) =
            reader.read RightReading.apart tail := fun tail => read_around named.command.2 rfl
        cases quoted
        · exact bare ['"']
        · exact braced ['\x7d', '"']
      obtain ⟨more, rfl, openingRead⟩ : ∃ more, opening = '[' :: more ∧
          reader.read RightReading.apart more = RightReading.apart := by
        simp only [variableTests, List.mem_cons, List.not_mem_nil, or_false, Prod.mk.injEq] at known
        rcases known with ⟨-, rfl⟩ | ⟨-, rfl⟩ | ⟨-, rfl⟩ | ⟨-, rfl⟩ | ⟨-, rfl⟩ | ⟨-, rfl⟩ <;>
          rw [String.toList_ofList] <;> exact ⟨_, rfl, rfl⟩
      rw [String.toList_ofList]
      refine keeps_bracket ?_
      have replacementRead : reader.read RightReading.apart (more ++ name ++ [' ', ']', ']']) =
          reader.read RightReading.apart [' ', ']', ']'] :=
        read_around named.command.2 openingRead
      refine replacementRead.trans ?_
      have stretchRead : reader.read RightReading.apart
          ((' ' :: flag) ++ variableText ++ [' ', ']']) = RightReading.apart := by
        rw [LineReader.read_append, LineReader.read_append, flagRead, variableRead]
        rfl
      exact stretchRead.symm
  | blankLine line blank single ends => exact absurd List.mem_cons_self inLine

end RightReading

def IsSpaced (text : List Char) : Prop :=
  LeftReading.reader.read .apart text ≠ .lost ∧ RightReading.reader.read .space text ≠ .lost

theorem read_blankLine {State : Type} {reader : LineReader State} {lost : State}
    (stuck : ∀ text, reader.read lost text = lost)
    (anew : ∀ state, state ≠ lost → reader.step state '\n' = reader.start)
    {before line rest : List Char} (ends : rest = [] ∨ rest.head? = some '\n')
    (known : reader.read reader.start (before ++ '\n' :: line ++ rest) ≠ lost) :
    reader.read reader.start (before ++ [] ++ rest) ≠ lost := by
  have beforeKnown : reader.read reader.start before ≠ lost := by
    intro gone
    rw [LineReader.read_append, LineReader.read_append, gone, stuck, stuck] at known
    exact known rfl
  rcases ends with rfl | head
  · simpa using beforeKnown
  · obtain ⟨more, rfl⟩ : ∃ more, rest = '\n' :: more := by
      cases rest with
      | nil => simp at head
      | cons c more => exact ⟨more, by simpa using head⟩
    have lineKnown : reader.read reader.start (before ++ '\n' :: line) ≠ lost := by
      intro gone
      rw [LineReader.read_append, gone, stuck] at known
      exact known rfl
    rw [LineReader.read_append, LineReader.read_cons, anew _ lineKnown] at known
    rw [List.append_nil, LineReader.read_append, LineReader.read_cons, anew _ beforeKnown]
    exact known

theorem isSpaced_of_rewriting {text changed : List Char} (step : Rewriting text changed)
    (spaced : IsSpaced text) : IsSpaced changed := by
  obtain ⟨before, rest, stretch, replacement, rewrite, rfl, rfl⟩ := step
  obtain ⟨left, right⟩ := spaced
  by_cases newline : '\n' ∈ stretch
  · obtain ⟨line, rfl, rfl, blank, single, ends⟩ := blank_of_rewrite rewrite newline
    constructor
    · refine read_blankLine LeftReading.read_lost (fun reading known => ?_) ends left
      cases reading <;> first | rfl | exact absurd rfl known
    · exact read_blankLine RightReading.read_lost (fun _ known => RightReading.step_newline known)
        ends right
  · constructor
    · have kept := LeftReading.keeps_of_rewrite rewrite newline
        (LeftReading.reader.read .apart before)
      simp only [LineReader.read_append] at left ⊢
      rcases kept with gone | same
      · rw [gone, LeftReading.read_lost] at left
        exact absurd rfl left
      · rw [same]
        exact left
    · have kept := RightReading.keeps_of_rewrite rewrite newline
        (RightReading.reader.read .space before)
      simp only [LineReader.read_append] at right ⊢
      rcases kept.read rest with gone | same | ⟨here, -⟩
      · exact absurd gone right
      · rw [same]
        exact right
      · rw [here]
        exact RightReading.noConfusion

end StatusLine.Audit

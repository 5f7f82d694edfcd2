import StatusLine.Proofs.Text.LineReader

/-!
Readers of the calls that look something up. A call is known by the name of the routine and by the
double quote in front of its first argument. One reader gives up where a call starts, the other one
unless the call goes on in a known way.
-/

namespace StatusLine.Script

/-- What calls start with. -/
def callStart : List Char :=
  "cache_lookup \"".toList

/-- How much of the last four characters of `callStart` a text ends with, or none behind all four.
Only one of them is a `u`, so that nothing else can start a new one. -/
def follow (matched : Nat) (c : Char) : Option Nat :=
  if matched = 3 ∧ c = '"' then none
  else if matched = 2 ∧ c = ' ' then some 3
  else if matched = 1 ∧ c = 'p' then some 2
  else if c = 'u' then some 1
  else some 0

theorem follow_le {matched next : Nat} {c : Char} (follows : follow matched c = some next) :
    next ≤ 3 := by
  unfold follow at follows
  split_ifs at follows
  all_goals
    obtain rfl := Option.some.inj follows
    decide

theorem exists_follow (matched : Nat) {c : Char} (other : c ≠ '"') :
    ∃ next, follow matched c = some next := by
  unfold follow
  split_ifs with quote
  · exact absurd quote.2 other
  all_goals exact ⟨_, rfl⟩

theorem follow_newline (matched : Nat) : follow matched '\n' = some 0 := by
  simp [follow]

/-! Texts without calls. -/

def callWatcher : LineReader (Option Nat) where
  start := some 0
  step := fun matched c => matched.bind fun n => follow n c
  start_newline := rfl
  newline_blank := by
    rintro (_ | n)
    · rfl
    · simp only [Option.bind_some, follow_newline]
      rfl
  newline_newline := by
    rintro (_ | n)
    · rfl
    · simp only [Option.bind_some, follow_newline]

@[simp]
theorem step_callWatcher (n : Nat) (c : Char) : callWatcher.step (some n) c = follow n c := rfl

theorem read_callWatcher_none (text : List Char) : callWatcher.read none text = none := by
  induction text with
  | nil => rfl
  | cons c rest ih => exact ih

theorem read_callWatcher_le {text : List Char} {n m : Nat} (bound : n ≤ 3)
    (reads : callWatcher.read (some n) text = some m) : m ≤ 3 := by
  induction text generalizing n with
  | nil =>
      obtain rfl := Option.some.inj reads
      exact bound
  | cons c rest ih =>
      rw [LineReader.read_cons, step_callWatcher] at reads
      cases follows : follow n c with
      | none =>
          rw [follows, read_callWatcher_none] at reads
          cases reads
      | some next =>
          rw [follows] at reads
          exact ih (follow_le follows) reads

def CallFree (text : List Char) : Prop :=
  ∀ n ≤ 3, (callWatcher.read (some n) text).isSome = true

instance (text : List Char) : Decidable (CallFree text) :=
  inferInstanceAs (Decidable (∀ n ≤ 3, (callWatcher.read (some n) text).isSome = true))

namespace CallFree

theorem read {text : List Char} (free : CallFree text) {n : Nat} (bound : n ≤ 3) :
    ∃ m ≤ 3, callWatcher.read (some n) text = some m := by
  obtain ⟨m, reads⟩ := Option.isSome_iff_exists.mp (free n bound)
  exact ⟨m, read_callWatcher_le bound reads, reads⟩

theorem append {text more : List Char} (first : CallFree text) (later : CallFree more) :
    CallFree (text ++ more) := by
  intro n bound
  obtain ⟨m, small, reads⟩ := first.read bound
  rw [LineReader.read_append, reads]
  exact later m small

theorem of_unquoted {text : List Char} (free : '"' ∉ text) : CallFree text := by
  intro n bound
  induction text generalizing n with
  | nil => rfl
  | cons c rest ih =>
      obtain ⟨first, later⟩ := List.ne_and_not_mem_of_not_mem_cons free
      obtain ⟨m, follows⟩ := exists_follow n (Ne.symm first)
      rw [LineReader.read_cons, step_callWatcher, follows]
      exact ih later m (follow_le follows)

theorem nil : CallFree [] :=
  .of_unquoted List.not_mem_nil

theorem flatMap {α : Type} {items : List α} {line : α → List Char}
    (each : ∀ item ∈ items, CallFree (line item)) : CallFree (items.flatMap line) := by
  induction items with
  | nil => exact nil
  | cons item rest ih =>
      obtain ⟨here, later⟩ := List.forall_mem_cons.mp each
      exact here.append (ih later)

theorem joinWith {separator : List Char} (between : CallFree separator) {parts : List (List Char)}
    (each : ∀ part ∈ parts, CallFree part) : CallFree (Text.joinWith separator parts) := by
  cases parts with
  | nil => exact nil
  | cons part rest =>
      obtain ⟨first, later⟩ := List.forall_mem_cons.mp each
      rw [Text.joinWith_cons_flatMap]
      exact first.append (flatMap fun other member => between.append (later other member))

end CallFree

/-! Known calls. -/

inductive CallReading
  | outside (matched : Nat)
  /-- Behind the start of a call, with what has been seen of it. -/
  | inside (matched : Nat) (seen : List Char)
  /-- Behind a call that goes on in no known way. -/
  | lost

namespace CallReading

variable (known : List Char → Prop) [DecidablePred known]

def step : CallReading → Char → CallReading
  | outside n, c =>
      match follow n c with
      | none => inside 0 []
      | some m => outside m
  | inside n seen, c =>
      if c = '\n' then lost
      else
        match follow n c with
        | none => lost
        | some m => if known (seen ++ [c]) then outside m else inside m (seen ++ [c])
  | lost, _ => lost

def reader : LineReader CallReading where
  start := outside 0
  step := step known
  start_newline := rfl
  newline_blank := by
    rintro (n | ⟨n, seen⟩ | _)
    · simp only [step, follow_newline]
      rfl
    · rfl
    · rfl
  newline_newline := by
    rintro (n | ⟨n, seen⟩ | _)
    · simp only [step, follow_newline]
    · rfl
    · rfl

variable {known}

@[simp]
theorem step_reader (state : CallReading) (c : Char) :
    (reader known).step state c = state.step known c := rfl

theorem read_lost (text : List Char) : (reader known).read lost text = lost := by
  induction text with
  | nil => rfl
  | cons c rest ih => exact ih

theorem read_outside {text : List Char} {n m : Nat}
    (reads : callWatcher.read (some n) text = some m) :
    (reader known).read (outside n) text = outside m := by
  induction text generalizing n with
  | nil => exact congrArg outside (Option.some.inj reads)
  | cons c rest ih =>
      rw [LineReader.read_cons, step_callWatcher] at reads
      cases follows : follow n c with
      | none =>
          rw [follows, read_callWatcher_none] at reads
          cases reads
      | some next =>
          rw [follows] at reads
          rw [LineReader.read_cons, step_reader, step, follows]
          exact ih reads

theorem closes_of_watched {text : List Char} (closes : callWatcher.Closes text) :
    (reader known).Closes text := by
  unfold LineReader.Closes at closes
  cases reads : callWatcher.read callWatcher.start text with
  | none =>
      rw [reads] at closes
      cases closes
  | some m =>
      have same : (reader known).read (reader known).start text = outside m := read_outside reads
      rw [LineReader.Closes, same, step_reader, step, follow_newline]
      rfl

/-! What follows the start of a call. -/

def Follows (matched : Nat) : CallReading → Prop
  | outside n | inside n _ => n = matched
  | lost => True

theorem exists_follows (state : CallReading) : ∃ n, state.Follows n := by
  rcases state with n | ⟨n, seen⟩ | _
  · exact ⟨n, rfl⟩
  · exact ⟨n, rfl⟩
  · exact ⟨0, trivial⟩

theorem Follows.step {state : CallReading} {n m : Nat} (follows : state.Follows n) {c : Char}
    (next : follow n c = some m) : (state.step known c).Follows m := by
  rcases state with n | ⟨n, seen⟩ | _
  · obtain rfl := follows
    simp only [CallReading.step, next]
    rfl
  · obtain rfl := follows
    simp only [CallReading.step, next]
    split
    · trivial
    · split <;> rfl
  · trivial

theorem Follows.read {state : CallReading} {n m : Nat} (follows : state.Follows n)
    {text : List Char} (reads : callWatcher.read (some n) text = some m) :
    ((reader known).read state text).Follows m := by
  induction text generalizing state n with
  | nil =>
      obtain rfl := Option.some.inj reads
      exact follows
  | cons c rest ih =>
      rw [LineReader.read_cons, step_callWatcher] at reads
      cases next : follow n c with
      | none =>
          rw [next, read_callWatcher_none] at reads
          cases reads
      | some k =>
          rw [next] at reads
          exact ih (follows.step next) reads

theorem watch_callStart (n : Nat) :
    callWatcher.read (some n) "cache_lookup ".toList = some 3 := by
  have first : callWatcher.step (some n) 'c' = some 0 := by simp [follow]
  have rest : "cache_lookup ".toList = 'c' :: "ache_lookup ".toList := rfl
  rw [rest, LineReader.read_cons, first]
  rfl

theorem callStart_eq : callStart = "cache_lookup ".toList ++ ['"'] := rfl

theorem read_callStart (state : CallReading) :
    (reader known).read state callStart = inside 0 [] ∨ (reader known).read state callStart = lost := by
  obtain ⟨n, follows⟩ := exists_follows state
  have three : ((reader known).read state "cache_lookup ".toList).Follows 3 :=
    follows.read (watch_callStart n)
  rw [callStart_eq, LineReader.read_append]
  generalize (reader known).read state "cache_lookup ".toList = here at three ⊢
  rcases here with n | ⟨n, seen⟩ | _
  · obtain rfl := three
    exact .inl rfl
  · obtain rfl := three
    exact .inr rfl
  · exact .inr rfl

theorem read_callStart_outside (n : Nat) :
    (reader known).read (outside n) callStart = inside 0 [] := by
  rw [callStart_eq, LineReader.read_append, read_outside (watch_callStart n)]
  rfl

theorem known_of_read {text seen : List Char} {n m : Nat}
    (reads : (reader known).read (inside n seen) text = outside m) :
    ∃ before, before <+: text ∧ known (seen ++ before) := by
  induction text generalizing n seen with
  | nil => cases reads
  | cons c rest ih =>
      rw [LineReader.read_cons, step_reader, step] at reads
      split at reads
      · rw [read_lost] at reads
        cases reads
      · split at reads
        · rw [read_lost] at reads
          cases reads
        · split at reads
          · rename_i whole
            exact ⟨[c], List.prefix_append [c] rest, whole⟩
          · obtain ⟨before, start, whole⟩ := ih reads
            refine ⟨c :: before, List.prefix_cons_inj c |>.mpr start, ?_⟩
            rwa [List.append_assoc] at whole

theorem known_of_call {text before after : List Char}
    (reads : (reader known).read (reader known).start text = (reader known).start)
    (call : text = before ++ callStart ++ after) : ∃ rest, rest <+: after ∧ known rest := by
  rw [call, LineReader.read_append, LineReader.read_append] at reads
  have met (state : CallReading) : (reader known).read state callStart = inside 0 [] ∨
      (reader known).read state callStart = lost := read_callStart state
  rcases met ((reader known).read (reader known).start before) with opened | lost
  · rw [opened] at reads
    exact known_of_read reads
  · rw [lost, read_lost] at reads
    cases reads

/-! Texts with known calls. -/

theorem read_inside {rest seen : List Char} {n m : Nat}
    (reads : callWatcher.read (some n) rest = some m) (inLine : '\n' ∉ rest) (more : rest ≠ [])
    (whole : known (seen ++ rest)) : (reader known).read (inside n seen) rest = outside m := by
  induction rest generalizing n seen with
  | nil => exact absurd rfl more
  | cons c rest ih =>
      rw [LineReader.read_cons, step_callWatcher] at reads
      obtain ⟨newline, later⟩ := List.ne_and_not_mem_of_not_mem_cons inLine
      cases follows : follow n c with
      | none =>
          rw [follows, read_callWatcher_none] at reads
          cases reads
      | some next =>
          rw [follows] at reads
          rw [LineReader.read_cons, step_reader, step, if_neg (Ne.symm newline), follows]
          simp only
          split
          · exact read_outside reads
          · rename_i unknown
            have behind : rest ≠ [] := by
              rintro rfl
              exact unknown whole
            exact ih reads later behind (by simpa using whole)

def Passes (known : List Char → Prop) [DecidablePred known] (text : List Char) : Prop :=
  ∀ n ≤ 3, ∃ m ≤ 3, (reader known).read (outside n) text = outside m

namespace Passes

theorem of_free {text : List Char} (free : CallFree text) : Passes known text := by
  intro n bound
  obtain ⟨m, small, reads⟩ := free.read bound
  exact ⟨m, small, read_outside reads⟩

theorem append {text more : List Char} (first : Passes known text) (later : Passes known more) :
    Passes known (text ++ more) := by
  intro n bound
  obtain ⟨m, small, reads⟩ := first n bound
  rw [LineReader.read_append, reads]
  exact later m small

theorem call {rest : List Char} (whole : known rest) (free : CallFree rest) (inLine : '\n' ∉ rest)
    (more : rest ≠ []) : Passes known (callStart ++ rest) := by
  intro n _
  obtain ⟨m, small, reads⟩ := free.read (Nat.zero_le 3)
  exact ⟨m, small, by
    rw [LineReader.read_append, read_callStart_outside]
    exact read_inside reads inLine more whole⟩

theorem closes {text : List Char} (passes : Passes known text) : (reader known).Closes text := by
  obtain ⟨m, -, reads⟩ := passes 0 (Nat.zero_le 3)
  have same : (reader known).read (reader known).start text = outside m := reads
  rw [LineReader.Closes, same, step_reader, step, follow_newline]
  rfl

end Passes

end CallReading

end StatusLine.Script

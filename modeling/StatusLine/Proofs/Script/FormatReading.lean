import StatusLine.Proofs.Shortening.Assignments
import StatusLine.Proofs.Shortening.Formats
import StatusLine.Proofs.Text.LineReader

/-!
A reader of format strings. It follows the calls of `printf` with a format in single quotes, and
gives up behind a format string that shortening could change, other than the one that notes the
working directory in the log.
-/

namespace StatusLine.Script

open Shortening

/-- The format string that notes the working directory. -/
def directoryNote : List Char :=
  "  current_directory_path=%s\\n".toList

def renamedNote : List Char :=
  "  cwd=%s\\n".toList

def longTails : List (List Char) :=
  shortNames.map fun names => names.1.toList.dropWhile (· != '_')

def idiomMarks : List Char :=
  ['"', '?', '+']

structure Content where
  /-- How much of the note on the directory it is. -/
  place : Option Nat
  /-- The word it ends in, from the first underscore on. -/
  tail : List Char
  /-- Whether there has been a mark of an idiom, or a word that ends like a name. -/
  found : Bool
  deriving DecidableEq

namespace Content

def start : Content :=
  ⟨some 0, [], false⟩

def next (content : Content) (c : Char) : Content where
  place := content.place.bind fun n => if directoryNote[n]? = some c then some (n + 1) else none
  tail :=
    if content.tail.isEmpty && c != '_' then []
    else if Text.isWord c then content.tail ++ [c] else []
  found := content.found || idiomMarks.contains c ||
    (!Text.isWord c && longTails.contains content.tail)

def isCalm (content : Content) : Bool :=
  !content.found && !longTails.contains content.tail

def isFine (content : Content) : Bool :=
  content.isCalm || content.place == some directoryNote.length

def of (format : List Char) : Content :=
  format.foldl next start

end Content

def callSoFar (n : Nat) (c : Char) : Nat :=
  if formatCall[n]? = some c then n + 1 else if formatCall[0]? = some c then 1 else 0

inductive FormatReading
  | outside (matched : Nat)
  | inside (content : Content)
  | lost
  deriving DecidableEq

namespace FormatReading

def step : FormatReading → Char → FormatReading
  | outside matched, c =>
      if c = '\'' then if matched = formatCall.length then inside .start else outside 0
      else outside (callSoFar matched c)
  | inside content, c =>
      if c = '\'' then if content.isFine then outside 0 else lost
      else if c = '\n' then lost else inside (content.next c)
  | lost, _ => lost

theorem step_newline (reading : FormatReading) :
    reading.step '\n' = outside 0 ∨ reading.step '\n' = lost := by
  cases reading with
  | outside matched =>
      have none : ∀ n : Nat, formatCall[n]? ≠ some '\n' := by
        intro n here
        exact absurd (List.mem_of_getElem? here) (by decide)
      exact .inl (by simp [step, callSoFar, none])
  | inside content => exact .inr (by simp [step])
  | lost => exact .inr rfl

def reader : LineReader FormatReading where
  start := outside 0
  step := step
  start_newline := by decide
  newline_blank := by
    intro reading
    rcases step_newline reading with same | same <;> rw [same] <;> decide
  newline_newline := by
    intro reading
    rcases step_newline reading with same | same <;> rw [same] <;> decide

@[simp]
theorem read_lost (text : List Char) : reader.read lost text = lost := by
  induction text with
  | nil => rfl
  | cons c rest ih => exact ih

end FormatReading

/-! Calls. -/

theorem callSoFar_le (n : Nat) (c : Char) :
    callSoFar n c ≤ formatCall.length := by
  unfold callSoFar
  split
  · rename_i here
    exact (List.getElem?_eq_some_iff.mp here).1
  · split <;> decide

theorem callSoFar_eq_succ {n j : Nat} (c : Char) :
    callSoFar n c = j + 1 ↔ formatCall[j]? = some c ∧ (j = 0 ∨ n = j) := by
  have single : formatCall.Nodup := by decide
  have unique {i k : Nat} (first : formatCall[i]? = some c) (second : formatCall[k]? = some c) :
      i = k := by
    obtain ⟨bound, -⟩ := List.getElem?_eq_some_iff.mp first
    exact (List.getElem?_inj bound single).mp (first.trans second.symm)
  unfold callSoFar
  split
  · rename_i here
    constructor
    · intro same
      obtain rfl : n = j := Nat.succ.inj same
      exact ⟨here, .inr rfl⟩
    · rintro ⟨there, -⟩
      rw [unique here there]
  · rename_i other
    split
    · rename_i first
      constructor
      · intro same
        obtain rfl : 0 = j := Nat.succ.inj same
        exact ⟨first, .inl rfl⟩
      · rintro ⟨there, -⟩
        rw [← unique first there]
    · rename_i notFirst
      constructor
      · intro same
        cases same
      · rintro ⟨there, rfl | rfl⟩
        · exact absurd there notFirst
        · exact absurd there other

theorem take_succ_suffix_iff (piece : List Char) (c : Char) (j : Nat)
    (bound : j < formatCall.length) :
    formatCall.take (j + 1) <:+ piece ++ [c] ↔
      formatCall.take j <:+ piece ∧ formatCall[j]? = some c := by
  rw [List.take_add_one, List.getElem?_eq_getElem bound, Option.toList_some, List.suffix_concat_iff]
  constructor
  · rintro (empty | ⟨front, same, inside⟩)
    · exact absurd (List.append_eq_nil_iff.mp empty).2 (by simp)
    · obtain ⟨rfl, last⟩ := List.append_inj' same rfl
      exact ⟨inside, congrArg some (List.singleton_inj.mp last)⟩
  · rintro ⟨inside, last⟩
    exact .inr ⟨_, by rw [Option.some.inj last], inside⟩

theorem take_suffix_iff (piece : List Char) {j : Nat} (present : 0 < j)
    (bound : j ≤ formatCall.length) :
    formatCall.take j <:+ piece ↔ piece.foldl callSoFar 0 = j := by
  induction piece using List.reverseRecOn generalizing j with
  | nil =>
      have nonempty : formatCall.take j ≠ [] := by
        rw [ne_eq, List.take_eq_nil_iff, not_or]
        exact ⟨Nat.ne_of_gt present, by decide⟩
      simp [nonempty, Nat.ne_of_lt present]
  | append_singleton piece c ih =>
      obtain ⟨j, rfl⟩ : ∃ i, j = i + 1 := ⟨j - 1, by omega⟩
      rw [take_succ_suffix_iff piece c j bound, List.foldl_concat, callSoFar_eq_succ, and_comm]
      refine and_congr_right fun _ => ?_
      by_cases zero : j = 0
      · simp [zero]
      · rw [ih (Nat.pos_of_ne_zero zero) (Nat.le_of_succ_le bound)]
        simp [zero]

theorem formatCall_suffix_iff (piece : List Char) :
    formatCall <:+ piece ↔ piece.foldl callSoFar 0 = formatCall.length := by
  have whole := take_suffix_iff piece (by decide) (Nat.le_refl formatCall.length)
  rwa [List.take_length] at whole

/-! Reading format by format. -/

namespace FormatReading

theorem read_outside {piece : List Char} (free : '\'' ∉ piece) (matched : Nat) :
    reader.read (outside matched) piece = outside (piece.foldl callSoFar matched) := by
  induction piece generalizing matched with
  | nil => rfl
  | cons c rest ih =>
      rw [List.mem_cons, not_or] at free
      have here : reader.step (outside matched) c = outside (callSoFar matched c) :=
        if_neg (Ne.symm free.1)
      rw [LineReader.read_cons, here, ih free.2]
      rfl

theorem read_inside {piece : List Char} (free : '\'' ∉ piece) (content : Content) :
    reader.read (inside content) piece = inside (piece.foldl Content.next content) ∧ '\n' ∉ piece ∨
      reader.read (inside content) piece = lost := by
  induction piece generalizing content with
  | nil => exact .inl ⟨rfl, by simp⟩
  | cons c rest ih =>
      rw [List.mem_cons, not_or] at free
      have plain : c ≠ '\'' := Ne.symm free.1
      by_cases newline : c = '\n'
      · have here : reader.step (inside content) c = lost := by
          simp [reader, step, newline]
        exact .inr (by rw [LineReader.read_cons, here, read_lost])
      · have here : reader.step (inside content) c = inside (content.next c) := by
          simp [reader, step, newline, plain]
        rw [LineReader.read_cons, here]
        rcases ih free.2 (content.next c) with ⟨same, single⟩ | gone
        · exact .inl ⟨same, by simp [Ne.symm newline, single]⟩
        · exact .inr gone

end FormatReading

def IsFine (format : List Char) : Prop :=
  '\n' ∉ format ∧ (Content.of format).isFine = true

section Pieces

open FormatReading

theorem quote_not_mem_splitOn {text piece : List Char} (member : piece ∈ text.splitOn '\'') :
    '\'' ∉ piece := by
  induction text generalizing piece with
  | nil =>
      obtain rfl := List.mem_singleton.mp member
      exact List.not_mem_nil
  | cons c rest ih =>
      rw [List.splitOn_cons_eq_if_modifyHead] at member
      split at member
      · rcases List.mem_cons.mp member with rfl | later
        · exact List.not_mem_nil
        · exact ih later
      · rename_i plain
        obtain ⟨first, others, shape⟩ := List.exists_cons_of_ne_nil (List.splitOn_ne_nil '\'' rest)
        rw [shape, List.modifyHead_cons] at member
        rcases List.mem_cons.mp member with rfl | later
        · have behind := ih (shape ▸ List.mem_cons_self)
          rw [List.mem_cons, not_or]
          exact ⟨fun same => plain (beq_iff_eq.mpr same.symm), behind⟩
        · exact ih (shape ▸ List.mem_cons_of_mem first later)

theorem intercalate_pieces (piece next : List Char) (rest : List (List Char)) :
    ['\''].intercalate (piece :: next :: rest) =
      piece ++ '\'' :: ['\''].intercalate (next :: rest) := by
  rw [List.intercalate_cons_cons, List.append_assoc]
  rfl

theorem read_piece {piece : List Char} (free : '\'' ∉ piece) (more : List Char) :
    reader.read (outside 0) (piece ++ '\'' :: more) =
      reader.read (if formatCall <:+ piece then inside .start else outside 0) more := by
  rw [LineReader.read_append, read_outside free, LineReader.read_cons]
  simp only [formatCall_suffix_iff]
  rfl

theorem read_format {format more : List Char} (free : '\'' ∉ format)
    (kept : reader.read (inside .start) (format ++ '\'' :: more) ≠ lost) :
    IsFine format ∧ reader.read (outside 0) more ≠ lost := by
  rw [LineReader.read_append, LineReader.read_cons] at kept
  rcases read_inside free .start with ⟨same, single⟩ | gone
  · rw [same] at kept
    by_cases fine : (Content.of format).isFine = true
    · have closed : reader.step (inside (format.foldl Content.next .start)) '\'' = outside 0 :=
        if_pos fine
      rw [closed] at kept
      exact ⟨⟨single, fine⟩, kept⟩
    · have closed : reader.step (inside (format.foldl Content.next .start)) '\'' = lost :=
        if_neg fine
      rw [closed, read_lost] at kept
      exact absurd rfl kept
  · have closed : reader.step lost '\'' = lost := rfl
    rw [gone, closed, read_lost] at kept
    exact absurd rfl kept

theorem isFine_of_read {pieces : List (List Char)} (free : ∀ piece ∈ pieces, '\'' ∉ piece)
    (kept : reader.read (outside 0) (['\''].intercalate pieces) ≠ lost) :
    ∀ format ∈ formatsOf pieces, IsFine format := by
  induction pieces using formatsOf.induct with
  | case1 before format next rest called ih =>
      rw [intercalate_pieces, read_piece (free _ (by simp)), if_pos called, intercalate_pieces] at kept
      obtain ⟨fine, behind⟩ := read_format (free format (by simp)) kept
      have others := ih (fun piece member => free piece (by simp_all)) behind
      rw [formatsOf, if_pos called]
      exact List.forall_mem_cons.mpr ⟨fine, others⟩
  | case2 before format next rest called ih =>
      rw [intercalate_pieces, read_piece (free _ (by simp)), if_neg called] at kept
      rw [formatsOf, if_neg called]
      exact ih (fun piece member => free piece (List.mem_cons_of_mem before member)) kept
  | case3 pieces short =>
      intro format member
      rw [formatsOf] at member
      · exact absurd member List.not_mem_nil
      · exact short

theorem isFine_of_mem_formats {text : List Char}
    (kept : reader.read (outside 0) text ≠ lost) : ∀ format ∈ formats text, IsFine format := by
  refine isFine_of_read (fun piece member => ?_) ?_
  · exact quote_not_mem_splitOn member
  · rwa [List.intercalate_splitOn]

end Pieces

/-! What shortening finds in a format string. -/

namespace Content

theorem found_foldl {content : Content} (found : content.found = true) (text : List Char) :
    (text.foldl next content).found = true := by
  induction text generalizing content with
  | nil => exact found
  | cons c rest ih => exact ih (by simp [next, found])

theorem found_of_mark {c : Char} (mark : c ∈ idiomMarks) {text : List Char} (member : c ∈ text)
    (content : Content) : (text.foldl next content).found = true := by
  obtain ⟨front, back, rfl⟩ := List.append_of_mem member
  rw [List.foldl_append, List.foldl_cons]
  exact found_foldl (by simp [next, mark]) back

theorem tail_foldl (content : Content) {word : List Char}
    (letters : ∀ c ∈ word, Text.isWord c = true) :
    (word.foldl next content).tail =
      if content.tail = [] then word.dropWhile (· != '_') else content.tail ++ word := by
  induction word generalizing content with
  | nil => by_cases empty : content.tail = [] <;> simp [empty]
  | cons c rest ih =>
      have letter := letters c List.mem_cons_self
      rw [List.foldl_cons, ih _ fun other member => letters other (List.mem_cons_of_mem c member)]
      by_cases empty : content.tail = []
      · by_cases mark : c = '_'
        · subst mark
          have opened : (content.next '_').tail = ['_'] := by simp [next, empty, letter]
          simp [opened, empty]
        · have still : (content.next c).tail = [] := by simp [next, empty, mark]
          simp [still, empty, mark]
      · have longer : (content.next c).tail = content.tail ++ [c] := by
          simp [next, empty, letter]
        simp [longer, empty]

theorem tail_of_apart {before : List Char}
    (apart : isThere isWordOrDot before.getLast? = false) : (of before).tail = [] := by
  rcases List.eq_nil_or_concat before with rfl | ⟨front, c, rfl⟩
  · rfl
  · have other : Text.isWord c = false := by
      have free : isWordOrDot c = false := by simpa [isThere] using apart
      rw [isWordOrDot, Bool.or_eq_false_iff] at free
      exact free.1
    simp [of, next, other]

theorem not_calm_of_name {names : String × String} (known : names ∈ shortNames) {before : List Char}
    (starts : (of before).tail = []) {rest : List Char}
    (ends : isThere Text.isWord rest.head? = false) :
    (of (before ++ names.1.toList ++ rest)).isCalm = false := by
  have letters := (isRun_of_mem_shortNames names.1 names.2 known).1.2
  have tail : (of (before ++ names.1.toList)).tail ∈ longTails := by
    rw [of, List.foldl_append, tail_foldl _ letters, ← of, if_pos starts]
    exact List.mem_map_of_mem known
  rw [of, List.foldl_append, ← of]
  cases rest with
  | nil => simp [isCalm, tail]
  | cons c more =>
      have other : Text.isWord c = false := ends
      have found : ((of (before ++ names.1.toList)).next c).found = true := by
        simp [next, other, tail]
      rw [List.foldl_cons, isCalm, found_foldl found]
      rfl

end Content

theorem not_rewriting {format changed : List Char} (single : '\n' ∉ format)
    (calm : (Content.of format).isCalm = true) : ¬ Rewriting format changed := by
  rintro ⟨before, rest, stretch, replacement, rewrite, rfl, -⟩
  have unmarked : ∀ c ∈ idiomMarks, c ∉ stretch := by
    intro c mark member
    have inside : c ∈ before ++ stretch ++ rest := by simp [member]
    rw [Content.isCalm, Content.of, Content.found_of_mark mark inside] at calm
    cases calm
  have nameless (front back : List Char) {names : String × String} (known : names ∈ shortNames)
      (whole : before ++ stretch ++ rest = front ++ names.1.toList ++ back)
      (starts : (Content.of front).tail = [])
      (ends : isThere Text.isWord back.head? = false) : False := by
    rw [whole, Content.not_calm_of_name known starts ends] at calm
    cases calm
  cases rewrite.taken with
  | braced names known =>
      refine nameless (before ++ ['$', '\x7b']) ('\x7d' :: rest) known ?_ ?_ rfl
      · simp
      · refine Content.tail_of_apart ?_
        rw [getLast?_append_of_some before (by decide : ['$', '\x7b'].getLast? = some '\x7b')]
        decide
  | name names known starts ends =>
      exact nameless _ _ known rfl (Content.tail_of_apart starts) ends
  | clock => exact unmarked '+' (by decide) (by decide)
  | status => exact unmarked '?' (by decide) (by decide)
  | quoted c lead more => exact unmarked '"' (by decide) (by simp)
  | blankLine line => exact single (by simp)

/-! The note on the directory. -/

theorem eq_take_of_place {format : List Char} {n : Nat}
    (place : (Content.of format).place = some n) : format = directoryNote.take n := by
  induction format using List.reverseRecOn generalizing n with
  | nil =>
      obtain rfl : 0 = n := Option.some.inj place
      rfl
  | append_singleton front c ih =>
      rw [Content.of, List.foldl_concat, ← Content.of] at place
      obtain ⟨before, here, next⟩ := Option.bind_eq_some_iff.mp place
      split at next
      · rename_i found
        obtain rfl : before + 1 = n := Option.some.inj next
        rw [ih here, List.take_add_one, found]
        simp
      · cases next

theorem eq_directoryNote {format : List Char} (fine : IsFine format) :
    (Content.of format).isCalm = true ∨ format = directoryNote := by
  have either := fine.2
  rw [Content.isFine, Bool.or_eq_true, beq_iff_eq] at either
  rcases either with calm | whole
  · exact .inl calm
  · exact .inr (by rw [eq_take_of_place whole, List.take_length])

theorem rewriting_directoryNote {changed : List Char} (step : Rewriting directoryNote changed) :
    changed = renamedNote := by
  obtain ⟨before, rest, stretch, replacement, rewrite, whole, rfl⟩ := step
  have absent : ∀ c ∈ ['$', '[', '\n'], c ∉ stretch := by
    have free : ∀ c ∈ ['$', '[', '\n'], c ∉ directoryNote := by decide
    intro c mark member
    exact free c mark (by rw [whole]; simp [member])
  cases rewrite with
  | shortened long short paired =>
      have only : ∀ n < directoryNote.length + 1,
          ∀ words ∈ shortNames.map fun names => (names.1.toList, names.2.toList),
            words.1 <+: directoryNote.drop n → directoryNote.take n ++ words.2 ++
              (directoryNote.drop n).drop words.1.length = renamedNote := by
        simp only [shortNames, List.map_cons, List.map_nil]
        repeat rw [String.toList_ofList]
        decide
      have bound : before.length < directoryNote.length + 1 := by
        have total := congrArg List.length whole
        simp only [List.length_append] at total
        omega
      rw [List.append_assoc] at whole
      have front : directoryNote.take before.length = before := by rw [whole, List.take_left]
      have back : directoryNote.drop before.length = long.toList ++ rest := by
        rw [whole, List.drop_left]
      have same := only before.length bound _ (List.mem_map_of_mem paired)
        (back ▸ List.prefix_append _ _)
      rwa [front, back, List.drop_left] at same
  | unbraced | homeDirectory | clock | contents => exact absurd (by simp) (absent '$' (by decide))
  | command | status | test => exact absurd (by simp) (absent '[' (by decide))
  | blankLine => exact absurd (by simp) (absent '\n' (by decide))

theorem rewritten_fine {format changed : List Char} (fine : IsFine format)
    (chain : Rewritten format changed) :
    changed = format ∨ format = directoryNote ∧ changed = renamedNote := by
  rcases Relation.ReflTransGen.cases_head chain with rfl | ⟨next, step, later⟩
  · exact .inl rfl
  rcases eq_directoryNote fine with calm | rfl
  · exact absurd step (not_rewriting fine.1 calm)
  obtain rfl := rewriting_directoryNote step
  rcases Relation.ReflTransGen.cases_head later with rfl | ⟨other, another, -⟩
  · exact .inr ⟨rfl, rfl⟩
  · exact absurd another (not_rewriting (by decide) (by decide))

end StatusLine.Script

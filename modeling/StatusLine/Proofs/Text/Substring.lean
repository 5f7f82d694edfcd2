import Mathlib.Data.List.Basic
import StatusLine.Text.Substring

/-!
Laws of splitting, joining, counting and replacing stretches of text. Splitting loses nothing, a
count can be taken apart at text that no occurrence touches, and a replacement goes on behind the
stretch that it took, so what every single replacement keeps, replacing everything keeps.
-/

namespace StatusLine.Text

theorem joinWith_cons_cons (separator piece next : List Char) (rest : List (List Char)) :
    joinWith separator (piece :: next :: rest) =
      piece ++ separator ++ joinWith separator (next :: rest) := by
  rw [joinWith]
  simp

theorem joinWith_cons_flatMap (separator piece : List Char) (rest : List (List Char)) :
    joinWith separator (piece :: rest) =
      piece ++ rest.flatMap fun other => separator ++ other := by
  induction rest generalizing piece with
  | nil => simp [joinWith]
  | cons next more ih => simp [joinWith_cons_cons, ih]

theorem joinWith_append (separator : List Char) {first second : List (List Char)}
    (nonempty : first ≠ []) (more : second ≠ []) :
    joinWith separator (first ++ second) =
      joinWith separator first ++ separator ++ joinWith separator second := by
  obtain ⟨piece, others, rfl⟩ := List.exists_cons_of_ne_nil nonempty
  obtain ⟨next, rest, rfl⟩ := List.exists_cons_of_ne_nil more
  simp [joinWith_cons_flatMap]

theorem joinWith_map_joinWith (separator : List Char) {texts : List (List (List Char))}
    (nonempty : ∀ pieces ∈ texts, pieces ≠ []) :
    joinWith separator (texts.map (joinWith separator)) = joinWith separator texts.flatten := by
  induction texts with
  | nil => rfl
  | cons pieces more ih =>
      obtain ⟨here, behind⟩ := List.forall_mem_cons.mp nonempty
      cases more with
      | nil => simp [joinWith]
      | cons next others =>
          have present : (next :: others).flatten ≠ [] := by
            rw [List.flatten_cons]
            exact List.append_ne_nil_of_left_ne_nil (behind next List.mem_cons_self) _
          rw [List.flatten_cons, joinWith_append separator here present, ← ih behind]
          simp [joinWith_cons_cons]

theorem infix_joinWith {separator piece : List Char} {pieces : List (List Char)}
    (member : piece ∈ pieces) : piece <:+: joinWith separator pieces := by
  obtain ⟨front, back, rfl⟩ := List.append_of_mem member
  induction front with
  | nil =>
      rw [List.nil_append, joinWith_cons_flatMap]
      exact (List.prefix_append piece _).isInfix
  | cons first more ih =>
      obtain ⟨next, others, shape⟩ := List.exists_cons_of_ne_nil
        (List.append_ne_nil_of_right_ne_nil more (List.cons_ne_nil piece back))
      have inside := ih (List.mem_append_right more List.mem_cons_self)
      rw [List.cons_append, shape, joinWith_cons_cons, ← shape]
      exact inside.trans (List.suffix_append _ _).isInfix

theorem trimEndWhere_keeps {drops : Char → Bool} {c : Char} (kept : drops c = false)
    (front rest : List Char) :
    ∃ tail, trimEndWhere drops (front ++ c :: rest) = front ++ c :: tail := by
  have behind : drops c = false → ∃ tail, ((rest.reverse ++ c :: front.reverse).dropWhile
      drops).reverse = front ++ c :: tail := by
    intro stays
    induction rest.reverse with
    | nil => exact ⟨[], by simp [stays]⟩
    | cons last more ih =>
        cases dropped : drops last with
        | true => simpa [List.dropWhile_cons, dropped] using ih
        | false =>
            exact ⟨more.reverse ++ [last], by simp [dropped]⟩
  obtain ⟨tail, shape⟩ := behind kept
  exact ⟨tail, by simpa [trimEndWhere] using shape⟩

theorem joinLines_cons (line : List Char) (rest : List (List Char)) :
    joinLines (line :: rest) = line ++ rest.flatMap fun other => '\n' :: other :=
  joinWith_cons_flatMap ['\n'] line rest

theorem eq_append_of_splitLines {text line : List Char} {rest : List (List Char)}
    (shape : splitLines text = line :: rest) :
    text = line ++ rest.flatMap fun other => '\n' :: other := by
  rw [← joinLines_cons, ← shape, joinLines_splitLines]

theorem joinLines_cons_cons (line next : List Char) (rest : List (List Char)) :
    joinLines (line :: next :: rest) = line ++ '\n' :: joinLines (next :: rest) := by
  simp [joinLines_cons]

theorem newline_not_mem_splitLines (text line : List Char) (member : line ∈ splitLines text) :
    '\n' ∉ line := by
  induction text generalizing line with
  | nil =>
      obtain rfl : line = [] := by simpa [splitLines] using member
      simp
  | cons c rest ih =>
      obtain ⟨first, others, shape⟩ := List.exists_cons_of_ne_nil (splitLines_ne_nil rest)
      by_cases newline : c = '\n'
      · subst newline
        simp only [splitLines, if_true, List.mem_cons] at member
        rcases member with rfl | found
        · simp
        · exact ih line found
      · simp only [splitLines, newline, if_false, shape, List.mem_cons] at member
        rcases member with rfl | found
        · have free := ih first (by simp [shape])
          simp only [List.mem_cons, not_or]
          exact ⟨fun same => newline same.symm, free⟩
        · exact ih line (by simp [shape, found])

theorem splitLines_of_not_mem {line : List Char} (single : '\n' ∉ line) :
    splitLines line = [line] := by
  induction line with
  | nil => rfl
  | cons c rest ih =>
      rw [List.mem_cons, not_or] at single
      simp [splitLines, Ne.symm single.1, ih single.2]

theorem splitLines_append_newline (text rest : List Char) :
    splitLines (text ++ '\n' :: rest) = splitLines text ++ splitLines rest := by
  induction text with
  | nil => simp [splitLines]
  | cons c more ih =>
      obtain ⟨line, others, shape⟩ := List.exists_cons_of_ne_nil (splitLines_ne_nil more)
      by_cases newline : c = '\n'
      · simp [splitLines, newline, ih]
      · simp [splitLines, newline, ih, shape]

theorem splitLines_joinLines {lines : List (List Char)} (present : lines ≠ [])
    (single : ∀ line ∈ lines, '\n' ∉ line) : splitLines (joinLines lines) = lines := by
  induction lines with
  | nil => exact absurd rfl present
  | cons line rest ih =>
      have here := splitLines_of_not_mem (single line List.mem_cons_self)
      cases rest with
      | nil => exact here
      | cons next more =>
          have later := ih (List.cons_ne_nil next more) fun other member =>
            single other (List.mem_cons_of_mem line member)
          rw [joinLines_cons_cons, splitLines_append_newline, here, later]
          rfl

theorem tail_splitLines_append {lead : List Char} (single : '\n' ∉ lead) (text : List Char) :
    (splitLines (lead ++ text)).tail = (splitLines text).tail ∧
      ∃ rest, (splitLines (lead ++ text)).head? = some (lead ++ rest) := by
  induction lead with
  | nil =>
      obtain ⟨line, others, shape⟩ := List.exists_cons_of_ne_nil (splitLines_ne_nil text)
      exact ⟨rfl, line, by simp [shape]⟩
  | cons c more ih =>
      rw [List.mem_cons, not_or] at single
      obtain ⟨same, rest, first⟩ := ih single.2
      obtain ⟨line, others, shape⟩ := List.exists_cons_of_ne_nil (splitLines_ne_nil (more ++ text))
      rw [shape] at same first
      obtain rfl := Option.some.inj first
      simp only [List.cons_append, splitLines, Ne.symm single.1, if_false, shape]
      exact ⟨same, rest, rfl⟩

theorem exists_splitLines_append (text : List Char) :
    ∃ before last, ∀ tail, '\n' ∉ tail → splitLines (text ++ tail) = before ++ [last ++ tail] := by
  induction text with
  | nil => exact ⟨[], [], fun tail single => by simpa using splitLines_of_not_mem single⟩
  | cons c rest ih =>
      obtain ⟨before, last, shape⟩ := ih
      by_cases newline : c = '\n'
      · exact ⟨[] :: before, last, fun tail single => by simp [splitLines, newline, shape tail single]⟩
      · cases before with
        | nil => exact ⟨[], c :: last, fun tail single => by
            simp [splitLines, newline, shape tail single]⟩
        | cons first more => exact ⟨(c :: first) :: more, last, fun tail single => by
            simp [splitLines, newline, shape tail single]⟩

theorem eq_append_drop_of_isPrefixOf (lead text : List Char)
    (starts : lead.isPrefixOf text = true) : text = lead ++ text.drop lead.length := by
  obtain ⟨rest, rfl⟩ := List.isPrefixOf_iff_prefix.mp starts
  simp

theorem joinWith_splitFrom (separator : List Char) (nonempty : separator ≠ []) (skipped : Nat)
    (text : List Char) :
    joinWith separator (splitFrom separator skipped text) = text.drop skipped := by
  induction text generalizing skipped with
  | nil => cases skipped <;> simp [splitFrom, joinWith]
  | cons c rest ih =>
      cases skipped with
      | succ skipped => simpa [splitFrom] using ih skipped
      | zero =>
          have tail := ih 0
          obtain ⟨piece, others, shape⟩ :=
            List.exists_cons_of_ne_nil (splitFrom_ne_nil separator 0 rest)
          by_cases starts : separator.isPrefixOf (c :: rest) = true
          · have whole := eq_append_drop_of_isPrefixOf separator (c :: rest) starts
            obtain ⟨first, more, rfl⟩ := List.exists_cons_of_ne_nil nonempty
            obtain ⟨next, later, pieces⟩ :=
              List.exists_cons_of_ne_nil (splitFrom_ne_nil (first :: more) more.length rest)
            have behind := ih more.length
            simp only [splitFrom, starts, if_true, List.length_cons, Nat.add_sub_cancel, pieces,
              joinWith_cons_cons] at behind ⊢
            rw [behind]
            simpa using whole.symm
          · rw [shape, List.drop_zero] at tail
            simp only [splitFrom, starts, Bool.false_eq_true, if_false, shape]
            rw [joinWith_cons_flatMap] at tail ⊢
            simp [tail]

theorem joinWith_splitOn (separator : List Char) (nonempty : separator ≠ []) (text : List Char) :
    joinWith separator (splitOn separator text) = text := by
  rw [splitOn, joinWith_splitFrom separator nonempty 0 text, List.drop_zero]

theorem replaceAll_of_ne_nil (old new text : List Char) (present : old ≠ []) :
    replaceAll old new text = joinWith new (splitOn old text) := by
  cases old with
  | nil => exact absurd rfl present
  | cons c more => rfl

/-! The pieces between separators hold none. -/

theorem isPrefix_of_splitFrom {separator piece text : List Char} {others : List (List Char)}
    (nonempty : separator ≠ []) (shape : splitFrom separator 0 text = piece :: others) :
    piece <+: text := by
  have whole := joinWith_splitFrom separator nonempty 0 text
  rw [shape, joinWith_cons_flatMap, List.drop_zero] at whole
  exact ⟨_, whole⟩

theorem not_infix_of_mem_splitFrom (separator : List Char) (nonempty : separator ≠ [])
    (skipped : Nat) (text piece : List Char) (member : piece ∈ splitFrom separator skipped text) :
    ¬ separator <:+: piece := by
  induction text generalizing skipped piece with
  | nil =>
      obtain rfl : piece = [] := by cases skipped <;> simpa [splitFrom] using member
      simpa using nonempty
  | cons c rest ih =>
      cases skipped with
      | succ skipped => exact ih skipped piece (by simpa [splitFrom] using member)
      | zero =>
          by_cases starts : separator.isPrefixOf (c :: rest) = true
          · simp only [splitFrom, starts, if_true, List.mem_cons] at member
            rcases member with rfl | later
            · simpa using nonempty
            · exact ih _ piece later
          · obtain ⟨first, others, shape⟩ :=
              List.exists_cons_of_ne_nil (splitFrom_ne_nil separator 0 rest)
            simp only [splitFrom, starts, Bool.false_eq_true, if_false, shape,
              List.mem_cons] at member
            rcases member with rfl | later
            · intro inside
              rcases List.infix_cons_iff.mp inside with here | behind
              · refine starts (List.isPrefixOf_iff_prefix.mpr (here.trans ?_))
                exact List.cons_prefix_cons.mpr ⟨rfl, isPrefix_of_splitFrom nonempty shape⟩
              · exact ih 0 first (by simp [shape]) behind
            · exact ih 0 piece (by simp [shape, later])

theorem not_infix_of_mem_splitOn {separator : List Char} (nonempty : separator ≠ [])
    {text piece : List Char} (member : piece ∈ splitOn separator text) : ¬ separator <:+: piece :=
  not_infix_of_mem_splitFrom separator nonempty 0 text piece member

theorem splitOn_of_absent {separator text : List Char} (free : ¬ separator <:+: text) :
    splitOn separator text = [text] := by
  induction text with
  | nil => rfl
  | cons c rest ih =>
      have behind := ih fun inside => free (List.infix_cons inside)
      have apart : ¬ separator.isPrefixOf (c :: rest) = true := fun starts =>
        free (List.isPrefixOf_iff_prefix.mp starts).isInfix
      simp only [splitOn] at behind ⊢
      simp only [splitFrom, apart, Bool.false_eq_true, if_false, behind]

theorem replaceAll_of_absent {old text : List Char} (present : old ≠ []) (free : ¬ old <:+: text)
    (new : List Char) : replaceAll old new text = text := by
  rw [replaceAll_of_ne_nil old new text present, splitOn_of_absent free]
  rfl

/-! Joining with another separator, and joining other pieces. -/

section Keeping

variable {Holds : List Char → Prop}

theorem joinWith_keeps (old new : List Char)
    (swap : ∀ before rest, Holds (before ++ old ++ rest) → Holds (before ++ new ++ rest))
    (before : List Char) (pieces : List (List Char)) (behind : List Char)
    (holds : Holds (before ++ joinWith old pieces ++ behind)) :
    Holds (before ++ joinWith new pieces ++ behind) := by
  induction pieces generalizing before with
  | nil => exact holds
  | cons piece more ih =>
      cases more with
      | nil => exact holds
      | cons next others =>
          have first := swap (before ++ piece) (joinWith old (next :: others) ++ behind)
          have later := ih (before ++ piece ++ new)
          simp only [joinWith_cons_cons, List.append_assoc] at first later holds ⊢
          exact later (first holds)

theorem joinWith_map_keeps (separator : List Char) (edit : List Char → List Char)
    (edits : ∀ before piece behind, Holds (before ++ piece ++ behind) →
      Holds (before ++ edit piece ++ behind))
    (before : List Char) (pieces : List (List Char))
    (holds : Holds (before ++ joinWith separator pieces)) :
    Holds (before ++ joinWith separator (pieces.map edit)) := by
  induction pieces generalizing before with
  | nil => exact holds
  | cons piece more ih =>
      cases more with
      | nil => simpa [joinWith] using edits before piece [] (by simpa [joinWith] using holds)
      | cons next others =>
          have first := edits before piece (separator ++ joinWith separator (next :: others))
          have later := ih (before ++ edit piece ++ separator)
          simp only [List.map_cons, joinWith_cons_cons, List.append_assoc] at first later holds ⊢
          exact later (first holds)

end Keeping

/-! A count of occurrences can be taken apart at characters that are none of the needle's. -/

theorem isPrefixOf_append_cons (needle text rest : List Char) (c : Char) (apart : c ∉ needle) :
    needle.isPrefixOf (text ++ c :: rest) = needle.isPrefixOf text := by
  induction needle generalizing text with
  | nil => simp
  | cons first more ih =>
      simp only [List.mem_cons, not_or] at apart
      cases text with
      | nil =>
          have different : first ≠ c := fun same => apart.1 same.symm
          simp [List.isPrefixOf_cons_cons, different]
      | cons other text =>
          simp only [List.cons_append, List.isPrefixOf_cons_cons, ih text apart.2]

theorem countFrom_append_cons (needle : List Char) (nonempty : needle ≠ []) (c : Char)
    (apart : c ∉ needle) (rest : List Char) (skipped : Nat) (text : List Char)
    (inside : skipped ≤ text.length) :
    countFrom needle skipped (text ++ c :: rest) =
      countFrom needle skipped text + count needle rest := by
  induction text generalizing skipped with
  | nil =>
      obtain rfl : skipped = 0 := by simpa using inside
      have none := isPrefixOf_append_cons needle [] rest c apart
      obtain ⟨first, more, rfl⟩ := List.exists_cons_of_ne_nil nonempty
      rw [List.nil_append] at none
      simp only [List.nil_append, countFrom, none]
      simp [count]
  | cons other text ih =>
      cases skipped with
      | succ skipped =>
          simp only [List.cons_append, countFrom]
          exact ih skipped (by simpa using inside)
      | zero =>
          have same := isPrefixOf_append_cons needle (other :: text) rest c apart
          rw [List.cons_append] at same
          simp only [List.cons_append, countFrom, same]
          by_cases starts : needle.isPrefixOf (other :: text) = true
          · have bound := (List.isPrefixOf_iff_prefix.mp starts).length_le
            have step := ih (needle.length - 1) (by simp at bound; omega)
            simp only [starts, if_true, step]
            omega
          · simpa [starts] using ih 0 (Nat.zero_le _)

theorem count_append_cons (needle : List Char) (nonempty : needle ≠ []) (c : Char)
    (apart : c ∉ needle) (text rest : List Char) :
    count needle (text ++ c :: rest) = count needle text + count needle rest :=
  countFrom_append_cons needle nonempty c apart rest 0 text (Nat.zero_le _)

theorem count_append_separator (needle : List Char) (nonempty : needle ≠ [])
    (separator : List Char) (present : separator ≠ []) (apart : ∀ c ∈ separator, c ∉ needle)
    (text rest : List Char) :
    count needle (text ++ separator ++ rest) = count needle text + count needle rest := by
  induction separator generalizing text with
  | nil => exact absurd rfl present
  | cons c more ih =>
      have here := count_append_cons needle nonempty c (apart c (by simp)) text (more ++ rest)
      rw [List.append_assoc, List.cons_append, here]
      cases more with
      | nil => simp
      | cons next others =>
          have tail := ih (by simp) (fun d member => apart d (List.mem_cons_of_mem c member)) []
          have empty : count needle [] = 0 := rfl
          rw [List.nil_append, empty, Nat.zero_add] at tail
          rw [tail]

/-! Where something stands in a text. -/

theorem contains_iff (needle text : List Char) : contains needle text = true ↔ needle <:+: text := by
  induction text with
  | nil => simp [contains]
  | cons c rest ih => simp [contains, ih, List.infix_cons_iff]

theorem somewhere_iff (here : Option Char → List Char → Bool) (previous : Option Char)
    (text : List Char) :
    somewhere here previous text = true ↔
      ∃ before rest, text = before ++ rest ∧ here (before.getLast?.or previous) rest = true := by
  induction text generalizing previous with
  | nil =>
      constructor
      · exact fun found => ⟨[], [], rfl, found⟩
      · rintro ⟨before, rest, whole, found⟩
        obtain ⟨rfl, rfl⟩ := List.append_eq_nil_iff.mp whole.symm
        exact found
  | cons c more ih =>
      have last : ∀ before : List Char,
          (c :: before).getLast?.or previous = before.getLast?.or (some c) := by
        intro before
        cases before with
        | nil => rfl
        | cons d others => simp [List.getLast?_cons]
      rw [somewhere, Bool.or_eq_true, ih]
      constructor
      · rintro (found | ⟨before, rest, rfl, found⟩)
        · exact ⟨[], c :: more, rfl, found⟩
        · exact ⟨c :: before, rest, rfl, by rw [last]; exact found⟩
      · rintro ⟨before, rest, whole, found⟩
        cases before with
        | nil =>
            obtain rfl : c :: more = rest := whole
            exact .inl found
        | cons d before =>
            obtain ⟨rfl, rfl⟩ := List.cons.inj whole
            exact .inr ⟨before, rest, rfl, by rw [← last]; exact found⟩

/-! Where two stretches of one text meet. -/

section Meeting

variable {before stretch rest lead needle tail : List Char}

theorem meeting_cases (present : needle ≠ [])
    (same : before ++ (stretch ++ rest) = lead ++ (needle ++ tail)) :
    (∃ between, before = lead ++ needle ++ between ∧ tail = between ++ (stretch ++ rest)) ∨
      (∃ between, lead = before ++ stretch ++ between ∧ rest = between ++ (needle ++ tail)) ∨
      (∃ first second, needle = first ++ second ∧ second ≠ [] ∧ before = lead ++ first ∧
        stretch ++ rest = second ++ tail) ∨
      ∃ first second, stretch = first ++ second ∧ first ≠ [] ∧ second ≠ [] ∧
        lead = before ++ first ∧ second ++ rest = needle ++ tail := by
  rcases List.append_eq_append_iff.mp same with ⟨between, rfl, behind⟩ | ⟨first, rfl, behind⟩
  · rcases List.append_eq_append_iff.mp behind with ⟨gap, rfl, later⟩ | ⟨second, rfl, later⟩
    · exact .inr (.inl ⟨gap, by rw [List.append_assoc], later⟩)
    · cases second with
      | nil => exact .inr (.inl ⟨[], by simp, by simpa using later.symm⟩)
      | cons c more =>
          cases between with
          | nil =>
              exact .inr (.inr (.inl ⟨[], needle, rfl, present, by simp, by simpa using later.symm⟩))
          | cons d others =>
              exact .inr (.inr (.inr
                ⟨d :: others, c :: more, rfl, by simp, by simp, rfl, later.symm⟩))
  · rcases List.append_eq_append_iff.mp behind with ⟨between, rfl, later⟩ | ⟨second, rfl, later⟩
    · exact .inl ⟨between, by rw [List.append_assoc], later⟩
    · cases second with
      | nil => exact .inl ⟨[], by simp, by simpa using later.symm⟩
      | cons c more => exact .inr (.inr (.inl ⟨first, c :: more, rfl, by simp, rfl, later⟩))

theorem exists_of_not_mem {c : Char} (free : c ∉ stretch)
    (same : stretch ++ rest = lead ++ c :: tail) :
    ∃ between, lead = stretch ++ between ∧ rest = between ++ c :: tail := by
  rcases List.append_eq_append_iff.mp same with found | ⟨second, rfl, later⟩
  · exact found
  · cases second with
    | nil => exact ⟨[], by simp, by simpa using later.symm⟩
    | cons d more =>
        obtain ⟨rfl, -⟩ := List.cons.inj later
        exact absurd (List.mem_append_right lead List.mem_cons_self) free

theorem suffix_of_not_mem {c : Char} (free : c ∉ stretch)
    (ends : stretch <:+ before ++ c :: rest) : stretch <:+ rest := by
  obtain ⟨lead, whole⟩ := ends
  rcases List.append_eq_append_iff.mp whole with ⟨between, rfl, rfl⟩ | ⟨between, rfl, shape⟩
  · exact absurd (List.mem_append_right between List.mem_cons_self) free
  · cases between with
    | nil =>
        obtain rfl : c :: rest = stretch := shape
        exact absurd List.mem_cons_self free
    | cons d others =>
        obtain ⟨-, rfl⟩ := List.cons.inj shape
        exact List.suffix_append others stretch

theorem exists_or_infix_of_not_mem {mark : Char} (free : mark ∉ stretch) (present : stretch ≠ [])
    (same : lead ++ mark :: tail = before ++ (stretch ++ rest)) :
    (∃ between, lead = before ++ (stretch ++ between) ∧ rest = between ++ mark :: tail) ∨
      stretch <:+: tail := by
  rcases List.append_eq_append_iff.mp same.symm with ⟨second, rfl, later⟩ | ⟨first, rfl, later⟩
  · obtain ⟨between, rfl, rfl⟩ := exists_of_not_mem free later
    exact .inl ⟨between, rfl, rfl⟩
  · cases first with
    | nil =>
        obtain ⟨c, more, rfl⟩ := List.exists_cons_of_ne_nil present
        obtain ⟨rfl, -⟩ := List.cons.inj later
        exact absurd List.mem_cons_self free
    | cons c more =>
        obtain ⟨-, rfl⟩ := List.cons.inj later
        exact .inr ⟨more, rest, by simp⟩

theorem not_infix_append_cons {mark : Char} (free : mark ∉ stretch) (present : stretch ≠ [])
    (left : ¬ stretch <:+: lead) (right : ¬ stretch <:+: tail) :
    ¬ stretch <:+: lead ++ mark :: tail := by
  rintro ⟨before, rest, whole⟩
  rw [List.append_assoc] at whole
  rcases exists_or_infix_of_not_mem free present whole.symm with ⟨between, rfl, -⟩ | inside
  · exact left ⟨before, between, by simp⟩
  · exact right inside

end Meeting

/-! Replacing goes on behind the stretch that was found. -/

theorem substitute_pending (findHere : Option Char → List Char → Option Replacement)
    (stretch rest : List Char) (previous : Option Char) :
    substitute findHere previous stretch.length (stretch ++ rest) =
      substitute findHere (stretch.getLast?.or previous) 0 rest := by
  induction stretch generalizing previous with
  | nil => simp
  | cons c more ih =>
      simp only [List.length_cons, List.cons_append, substitute, ih]
      cases more with
      | nil => simp
      | cons next others => simp [List.getLast?_cons]

theorem substitute_found (findHere : Option Char → List Char → Option Replacement)
    (stretch rest : List Char) (previous : Option Char) (found : Replacement)
    (here : findHere previous (stretch ++ rest) = some found) (present : stretch ≠ [])
    (spanned : found.span = stretch.length) :
    substitute findHere previous 0 (stretch ++ rest) =
      found.text ++ substitute findHere stretch.getLast? 0 rest := by
  obtain ⟨c, more, rfl⟩ := List.exists_cons_of_ne_nil present
  have going := substitute_pending findHere more rest (some c)
  rw [List.length_cons] at spanned
  rw [List.cons_append] at here ⊢
  simp only [substitute, here, spanned, going]
  cases more with
  | nil => simp
  | cons next others => simp [List.getLast?_cons]

theorem substitute_keeps (findHere : Option Char → List Char → Option Replacement)
    (Holds : (done : List Char) → (previous : Option Char) → (text : List Char) → Prop)
    (passes : ∀ done previous c rest, findHere previous (c :: rest) = none →
      Holds done previous (c :: rest) → Holds (done ++ [c]) (some c) rest)
    (replaces : ∀ done previous text found, findHere previous text = some found →
      Holds done previous text → ∃ stretch rest, text = stretch ++ rest ∧ stretch ≠ [] ∧
        found.span = stretch.length ∧ Holds (done ++ found.text) stretch.getLast? rest)
    (done : List Char) (previous : Option Char) (text : List Char)
    (holds : Holds done previous text) :
    ∃ last, Holds (done ++ substitute findHere previous 0 text) last [] := by
  induction measured : text.length using Nat.strongRecOn generalizing done previous text with
  | ind size ih =>
      cases here : findHere previous text with
      | some found =>
          obtain ⟨stretch, rest, rfl, present, spanned, kept⟩ :=
            replaces done previous text found here holds
          have shorter : rest.length < size := by
            have positive := List.length_pos_iff.mpr present
            rw [List.length_append] at measured
            omega
          rw [substitute_found _ stretch rest previous found here present spanned,
            ← List.append_assoc]
          exact ih rest.length shorter _ _ rest kept rfl
      | none =>
          cases text with
          | nil => exact ⟨previous, by simpa [substitute, here] using holds⟩
          | cons c rest =>
              have shorter : rest.length < size := by
                rw [List.length_cons] at measured
                omega
              have kept := passes done previous c rest here holds
              simpa [substitute, here] using ih rest.length shorter _ _ rest kept rfl

end StatusLine.Text

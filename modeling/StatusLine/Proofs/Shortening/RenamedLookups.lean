import StatusLine.Proofs.Shortening.NamesInUse

/-!
Lookups of commands in a text whose names get shorter. Renaming changes words only, and takes the
braces off variables. All other marks stay where they are, and with them what stands between them,
so that a lookup in the renamed text was one before.
-/

namespace StatusLine.Shortening

/-! Renaming, mark by mark. -/

section Marks

variable {long short word rest lead front back : List Char} {c : Char} {previous : Option Char}

theorem wordEnds_left (ends : WordEnds (lead ++ c :: rest)) : WordEnds lead := by
  cases lead with
  | nil => exact wordEnds_nil
  | cons d more => exact ends

abbrev Unopened (name text : List Char) : Prop :=
  ∀ tail, text = bracedVariable name ++ tail → ¬ WordEnds tail

theorem unopened_append (apart : c ∉ bracedVariable long) (unopened : Unopened long lead) :
    Unopened long (lead ++ c :: rest) := by
  intro tail whole ends
  obtain ⟨between, rfl, rfl⟩ := Text.exists_of_not_mem apart whole.symm
  exact unopened between rfl (wordEnds_left ends)

theorem unopened_left (mark : Text.isWord c = false) (unopened : Unopened long (lead ++ c :: rest)) :
    Unopened long lead := by
  rintro tail rfl ends
  exact unopened (tail ++ c :: rest) (by simp) (wordEnds_append ends mark)

theorem unopened_nil : Unopened long [] := by
  intro tail whole
  simp [bracedVariable] at whole

theorem renamedBehind_append_mark (longs : IsRun Text.isWord long)
    (shorts : IsRun Text.isWord short) (mark : Text.isWord c = false)
    (apart : c ∉ bracedVariable long) (lead rest : List Char) :
    renamedBehind long short previous (lead ++ c :: rest) =
      renamedBehind long short previous lead ++ c :: renamedBehind long short (some c) rest := by
  have stops : WordEnds (c :: rest) := mark
  induction lead using words_induction long generalizing previous with
  | nil =>
      rw [List.nil_append, renamedBehind_nil longs,
        renamedBehind_mark longs mark (unopened_append apart unopened_nil), List.nil_append]
  | braced tail ends ih =>
      rw [List.append_assoc, renamedBehind_braced longs shorts (wordEnds_append ends stops), ih,
        renamedBehind_braced longs shorts ends]
      simp
  | mark d tail kind plain ih =>
      have whole : Unopened long (d :: (tail ++ c :: rest)) := unopened_append apart plain
      rw [List.cons_append, renamedBehind_mark longs kind whole, ih,
        renamedBehind_mark longs kind plain, List.cons_append]
  | word word tail whole ends ih =>
      rw [List.append_assoc, renamedBehind_word longs whole (wordEnds_append ends stops), ih,
        renamedBehind_word longs whole ends, List.append_assoc]

theorem exists_of_renamedBehind_mark (front : List Char) (longs : IsRun Text.isWord long)
    (shorts : IsRun Text.isWord short) (mark : Text.isWord c = false)
    (apart : c ∉ bracedVariable long) {text : List Char}
    (same : renamedBehind long short previous text = front ++ c :: back) :
    ∃ lead rest, text = lead ++ c :: rest ∧ renamedBehind long short previous lead = front ∧
      renamedBehind long short (some c) rest = back := by
  have noWord : ∀ {word : List Char}, IsRun Text.isWord word → c ∉ word := fun whole =>
    whole.not_mem mark
  induction text using words_induction long generalizing previous front with
  | nil =>
      rw [renamedBehind_nil longs] at same
      simp at same
  | braced tail ends ih =>
      have free : c ∉ '$' :: short := by
        simp only [List.mem_cons, not_or]
        exact ⟨fun dollar => apart (by simp [dollar, bracedVariable]), noWord shorts⟩
      rw [renamedBehind_braced longs shorts ends, ← List.cons_append] at same
      obtain ⟨between, rfl, behind⟩ := Text.exists_of_not_mem free same
      obtain ⟨lead, rest, rfl, started, ended⟩ := ih _ behind
      refine ⟨bracedVariable long ++ lead, rest, by simp, ?_, ended⟩
      rw [renamedBehind_braced longs shorts (wordEnds_left ends), started, List.cons_append]
  | mark d tail kind plain ih =>
      rw [renamedBehind_mark longs kind plain] at same
      cases front with
      | nil =>
          obtain ⟨rfl, rfl⟩ := List.cons.inj same
          exact ⟨[], tail, rfl, renamedBehind_nil longs, rfl⟩
      | cons e front =>
          obtain ⟨rfl, behind⟩ := List.cons.inj same
          obtain ⟨lead, rest, rfl, rfl, ended⟩ := ih _ behind
          refine ⟨d :: lead, rest, rfl, ?_, ended⟩
          exact renamedBehind_mark longs kind (unopened_left mark plain)
  | word word tail whole ends ih =>
      rw [renamedBehind_word longs whole ends] at same
      obtain ⟨between, rfl, behind⟩ :=
        Text.exists_of_not_mem (noWord (wordRenamed_isRun shorts whole)) same
      obtain ⟨lead, rest, rfl, started, ended⟩ := ih _ behind
      refine ⟨word ++ lead, rest, by simp, ?_, ended⟩
      rw [renamedBehind_word longs whole (wordEnds_left ends), started]

theorem exists_of_renamedBehind_word (word back : List Char) (longs : IsRun Text.isWord long)
    (shorts : IsRun Text.isWord short) (whole : IsRun Text.isWord word) (other : word ≠ short)
    (ends : WordEnds back) {text : List Char}
    (same : renamedBehind long short previous text = word ++ back) :
    ∃ rest, text = word ++ rest ∧ renamedBehind long short none rest = back := by
  have goesOn : ¬ WordEnds text := fun stops =>
    not_wordEnds_append whole (same ▸ wordEnds_renamedBehind longs stops)
  obtain ⟨first, rest, letters, stops, rfl⟩ := exists_word_of_not_wordEnds goesOn
  rw [renamedBehind_word longs letters stops] at same
  obtain ⟨became, rfl⟩ := word_unique (wordRenamed_isRun shorts letters).2 whole.2
    (wordEnds_renamedBehind longs stops) ends same
  refine ⟨rest, ?_, rfl⟩
  have kept : first = word := by
    rw [wordRenamed] at became
    split at became
    · exact absurd became.symm other
    · exact became
  rw [kept]

theorem isRun_of_renamedBehind {accepts : Char → Bool} (longs : IsRun Text.isWord long)
    (shorts : IsRun Text.isWord short) (words : ∀ c, Text.isWord c = true → accepts c = true)
    (noDollar : accepts '$' = false) {text : List Char}
    (run : IsRun accepts (renamedBehind long short previous text)) : IsRun accepts text := by
  constructor
  · rintro rfl
    exact run.1 (renamedBehind_nil longs)
  · have each := run.2
    clear run
    induction text using words_induction long generalizing previous with
    | nil => simp
    | braced tail ends =>
        rw [renamedBehind_braced longs shorts ends] at each
        rw [each '$' List.mem_cons_self] at noDollar
        cases noDollar
    | mark d tail kind plain ih =>
        rw [renamedBehind_mark longs kind plain, List.forall_mem_cons] at each
        exact List.forall_mem_cons.mpr ⟨each.1, ih each.2⟩
    | word word tail whole ends ih =>
        rw [renamedBehind_word longs whole ends, List.forall_mem_append] at each
        exact List.forall_mem_append.mpr ⟨fun c member => words c (whole.2 c member), ih each.2⟩

end Marks

/-! Lookups of commands. -/

section Lookups

variable {long short stretch : List Char} {captures : List (List Char)} {previous : Option Char}

theorem takesAll_commandCheck :
    TakesAll commandCheck.pattern.elements stretch captures ↔
      ∃ lookup ∈ commandLookups, ∃ name, IsRun isCommandChar name ∧ captures = [name] ∧
        stretch = ['[', ' ', '"', '$', '('] ++ (lookup ++ name) ++ [')', '"', ' ', ']'] := by
  constructor
  · intro takes
    obtain ⟨_, rfl, behind⟩ := takesAll_literal takes
    obtain ⟨_, rfl, chosen⟩ := takesAll_literal behind
    obtain ⟨lookup, known, _, rfl, named⟩ := takesAll_either chosen
    obtain ⟨name, _, _, run, rfl, rfl, closed⟩ := takesAll_run named
    obtain ⟨_, rfl, ended⟩ := takesAll_literal closed
    obtain ⟨_, rfl, nothing⟩ := takesAll_literal ended
    obtain ⟨rfl, rfl⟩ := takesAll_nil nothing
    exact ⟨lookup, known, name, run, rfl, by simp⟩
  · rintro ⟨lookup, known, name, run, rfl, rfl⟩
    have closed : TakesAll [.literal ")\"".toList, .literal [' ', ']']] _ _ :=
      .cons (.literal _) (.cons (.literal _) .nil)
    have asked : TakesAll commandCheck.pattern.elements _ _ := .cons (.literal ['[', ' '])
      (.cons (.literal "\"$(".toList) (.cons (.either lookup known) (.cons (.run name run) closed)))
    simpa using asked

theorem not_mem_bracedVariable (longs : IsRun Text.isWord long) {c : Char}
    (mark : Text.isWord c = false) (other : c ∉ ['$', '\x7b', '\x7d']) :
    c ∉ bracedVariable long := by
  have free := longs.not_mem mark
  simp_all [bracedVariable]

theorem renamedBehind_eq_nil (longs : IsRun Text.isWord long) (shorts : IsRun Text.isWord short)
    {text : List Char} (same : renamedBehind long short previous text = []) : text = [] := by
  cases text using words_induction long with
  | nil => rfl
  | braced tail ends =>
      rw [renamedBehind_braced longs shorts ends] at same
      cases same
  | mark d tail kind plain =>
      rw [renamedBehind_mark longs kind plain] at same
      cases same
  | word word tail whole ends =>
      rw [renamedBehind_word longs whole ends] at same
      exact absurd (List.append_eq_nil_iff.mp same).1 (wordRenamed_isRun shorts whole).1

theorem renamedBehind_eq_dollar (longs : IsRun Text.isWord long) (shorts : IsRun Text.isWord short)
    {text : List Char} (same : renamedBehind long short previous text = ['$']) : text = ['$'] := by
  cases text using words_induction long with
  | nil =>
      rw [renamedBehind_nil longs] at same
      cases same
  | braced tail ends =>
      rw [renamedBehind_braced longs shorts ends] at same
      exact absurd (List.append_eq_nil_iff.mp (List.cons.inj same).2).1 shorts.1
  | mark d tail kind plain =>
      rw [renamedBehind_mark longs kind plain] at same
      obtain ⟨rfl, nothing⟩ := List.cons.inj same
      rw [renamedBehind_eq_nil longs shorts nothing]
  | word word tail whole ends =>
      rw [renamedBehind_word longs whole ends] at same
      exact absurd (same ▸ wordEnds_cons (by decide))
        (not_wordEnds_append (wordRenamed_isRun shorts whole))

theorem exists_of_renamedBehind_marks (marks behind : List Char) (longs : IsRun Text.isWord long)
    (shorts : IsRun Text.isWord short) {text : List Char}
    (plain : ∀ c ∈ marks, Text.isWord c = false ∧ c ≠ '$')
    (same : renamedBehind long short previous text = marks ++ behind) :
    ∃ rest before, text = marks ++ rest ∧ renamedBehind long short before rest = behind := by
  induction marks generalizing previous text with
  | nil => exact ⟨text, previous, rfl, same⟩
  | cons c more ih =>
      obtain ⟨⟨mark, noDollar⟩, others⟩ := List.forall_mem_cons.mp plain
      obtain ⟨tail, rfl, later⟩ := renamedBehind_eq_cons longs shorts mark noDollar same
      obtain ⟨rest, before, rfl, ends⟩ := ih others later.symm
      exact ⟨rest, before, rfl, ends⟩

theorem getLast?_renamedBehind (longs : IsRun Text.isWord long) (shorts : IsRun Text.isWord short)
    {c : Char} (mark : Text.isWord c = false) (apart : c ∉ bracedVariable long) {text : List Char}
    (last : text.getLast? = some c) :
    (renamedBehind long short previous text).getLast? = some c := by
  obtain ⟨front, rfl⟩ := List.getLast?_eq_some_iff.mp last
  rw [renamedBehind_append_mark longs shorts mark apart, renamedBehind_nil longs]
  simp

theorem head?_renamedBehind (longs : IsRun Text.isWord long) (shorts : IsRun Text.isWord short)
    {c : Char} (mark : Text.isWord c = false) (apart : c ∉ bracedVariable long) {text : List Char}
    (first : text.head? = some c) :
    (renamedBehind long short previous text).head? = some c := by
  obtain ⟨rest, rfl⟩ := List.head?_eq_some_iff.mp first
  have parted : renamedBehind long short previous ([] ++ c :: rest) = _ :=
    renamedBehind_append_mark longs shorts mark apart [] rest
  rw [renamedBehind_nil longs] at parted
  exact congrArg List.head? parted

def lookupWords : List (List Char) :=
  ["command".toList, ['v'], "which".toList]

theorem lookup_of_renamedBehind (longs : IsRun Text.isWord long) (shorts : IsRun Text.isWord short)
    (other : short ∉ lookupWords) {lookup name inner : List Char} (known : lookup ∈ commandLookups)
    (named : IsRun isCommandChar name)
    (same : renamedBehind long short previous inner = lookup ++ name) :
    ∃ before, IsRun isCommandChar before ∧ inner = lookup ++ before := by
  have isNone : ∀ word ∈ lookupWords, word ≠ short := fun word member here => other (here ▸ member)
  have runs : ∀ {text : List Char} {previous : Option Char},
      renamedBehind long short previous text = name → IsRun isCommandChar text := fun made =>
    isRun_of_renamedBehind longs shorts isCommandChar_of_isWord (by decide) (made ▸ named)
  simp only [commandLookups, List.mem_cons, List.not_mem_nil, or_false] at known
  rcases known with rfl | rfl
  · obtain ⟨_, rfl, first⟩ := exists_of_renamedBehind_word "command".toList (" -v ".toList ++ name)
      longs shorts ⟨by decide, by decide⟩ (isNone _ (by decide)) (wordEnds_cons (by decide))
      (by simpa using same)
    obtain ⟨_, _, rfl, second⟩ := exists_of_renamedBehind_marks [' ', '-'] ("v ".toList ++ name)
      longs shorts (by decide) (by simpa using first)
    obtain ⟨_, rfl, third⟩ := exists_of_renamedBehind_word ['v'] (' ' :: name) longs shorts
      ⟨by decide, by decide⟩ (isNone _ (by decide)) (wordEnds_cons (by decide))
      (by simpa using second)
    obtain ⟨rest, _, rfl, last⟩ :=
      exists_of_renamedBehind_marks [' '] name longs shorts (by decide) third
    exact ⟨rest, runs last, by simp⟩
  · obtain ⟨_, rfl, first⟩ := exists_of_renamedBehind_word "which".toList (' ' :: name) longs shorts
      ⟨by decide, by decide⟩ (isNone _ (by decide)) (wordEnds_cons (by decide))
      (by simpa using same)
    obtain ⟨rest, _, rfl, last⟩ :=
      exists_of_renamedBehind_marks [' '] name longs shorts (by decide) first
    exact ⟨rest, runs last, by simp⟩

theorem commandCheck_absent_renamed (longs : IsRun Text.isWord long)
    (shorts : IsRun Text.isWord short) (other : short ∉ lookupWords) {text : List Char}
    (absent : commandCheck.pattern.Absent text) :
    commandCheck.pattern.Absent (renamed long short text) := by
  rintro before ⟨stretch, rest, captures, same, takes, starts, ends⟩
  obtain ⟨lookup, known, name, named, rfl, rfl⟩ := takesAll_commandCheck.mp takes
  have apart : ∀ {c : Char}, Text.isWord c = false → c ∉ ['$', '\x7b', '\x7d'] →
      c ∉ bracedVariable long := not_mem_bracedVariable longs
  have opened : renamedBehind long short none text = before ++ '[' :: ' ' :: '"' :: '$' :: '(' ::
      (lookup ++ name ++ ')' :: '"' :: ' ' :: ']' :: rest) := by
    rw [renamedBehind_none, same]
    simp
  obtain ⟨lead, _, rfl, started, quoted⟩ := exists_of_renamedBehind_mark before longs shorts
    (by decide) (apart (by decide) (by decide)) opened
  obtain ⟨_, _, rfl, called⟩ :=
    exists_of_renamedBehind_marks [' ', '"'] _ longs shorts (by decide) quoted
  obtain ⟨dollar, _, rfl, alone, asked⟩ := exists_of_renamedBehind_mark ['$'] longs shorts
    (by decide) (apart (by decide) (by decide)) called
  obtain rfl := renamedBehind_eq_dollar longs shorts alone
  obtain ⟨inner, _, rfl, looked, closed⟩ := exists_of_renamedBehind_mark (lookup ++ name) longs
    shorts (by decide) (apart (by decide) (by decide)) asked
  obtain ⟨command, run, rfl⟩ := lookup_of_renamedBehind longs shorts other known named looked
  obtain ⟨tail, _, rfl, ended⟩ :=
    exists_of_renamedBehind_marks ['"', ' ', ']'] _ longs shorts (by decide) closed
  refine absent lead ⟨_, tail, [command], ?_,
    takesAll_commandCheck.mpr ⟨lookup, known, command, run, rfl, rfl⟩, ?_, ?_⟩
  · simp
  · refine isThere_of_imp (c := '[') (fun d passed => beq_iff_eq.mp passed) fun last => ?_
    rw [← started, getLast?_renamedBehind longs shorts (by decide)
      (apart (by decide) (by decide)) last] at starts
    cases starts
  · refine isThere_of_imp (c := ']') (fun d passed => beq_iff_eq.mp passed) fun first => ?_
    rw [← ended, head?_renamedBehind longs shorts (by decide)
      (apart (by decide) (by decide)) first] at ends
    cases ends

end Lookups

end StatusLine.Shortening

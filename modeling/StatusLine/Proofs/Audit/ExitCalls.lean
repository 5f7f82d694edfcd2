import StatusLine.Proofs.Audit.Spacing

/-!
Exit calls and the first line under shortening. Nothing that is rewritten is or holds an exit call
that what stands in for it does not hold, and nothing of it can stand in an interpreter line.
-/

namespace StatusLine.Audit

open Shortening

def isGap (text : List Char) : Bool :=
  text.head?.any isBreak && text.getLast?.any isBreak && exitCalls text == 0

theorem exitCalls_gap {gap : List Char} (apart : isGap gap = true) (before rest : List Char) :
    exitCalls (before ++ gap ++ rest) = exitCalls before + exitCalls rest := by
  simp only [isGap, Bool.and_eq_true, beq_iff_eq] at apart
  obtain ⟨⟨head, last⟩, none⟩ := apart
  obtain ⟨c, more, rfl⟩ : ∃ c more, gap = c :: more := by
    cases gap with
    | nil => simp at head
    | cons c more => exact ⟨c, more, rfl⟩
  obtain ⟨lead, d, same⟩ : ∃ lead d, c :: more = lead ++ [d] :=
    ⟨_, _, (List.dropLast_concat_getLast (by simp)).symm⟩
  have starts : StartsApart (c :: more) := .inr ⟨c, more, rfl, by simpa using head⟩
  have ends : EndsApart (before ++ c :: more) := by
    refine .inr ⟨before ++ lead, d, by rw [same, List.append_assoc], ?_⟩
    rw [same] at last
    simpa using last
  rw [exitCalls_behind ends, exitCalls_before starts, none, Nat.add_zero]

theorem exitCalls_framed {lead tail : List Char} (frame : (isGap lead && isGap tail) = true)
    (before name rest : List Char) :
    exitCalls (before ++ (lead ++ name ++ tail) ++ rest) =
      exitCalls before + exitCalls name + exitCalls rest := by
  rw [Bool.and_eq_true] at frame
  have split : before ++ (lead ++ name ++ tail) ++ rest = before ++ lead ++ name ++ tail ++ rest := by
    simp
  rw [split, exitCalls_gap frame.2, exitCalls_gap frame.1]

theorem exitCalls_of_free {text : List Char} (free : 'e' ∉ text) : exitCalls text = 0 := by
  rw [exitCalls]
  generalize none = previous
  induction text generalizing previous with
  | nil => rfl
  | cons c rest ih =>
      simp only [List.mem_cons, not_or] at free
      have nothing : isExit previous (c :: rest) = false := by
        rw [isExit, afterWord?, String.toList_ofList]
        split
        · rename_i found
          split at found
          · simp at found
          · simp [Text.after?, free.1] at found
        · rfl
      rw [Text.countPlaces, nothing, ih free.2]
      rfl

theorem exitCalls_joined {text word : List Char} (whole : IsWhole word)
    (long : exitWord.length < word.length) (ends : ¬ ∃ lead, text = lead ++ ['i', 't']) :
    exitCalls (text ++ word) = exitCalls text := by
  obtain ⟨lead, last, rfl, apart, lastWhole⟩ := exists_last_word text
  have other : last ≠ exitWord := by
    rintro rfl
    exact ends ⟨lead ++ ['e', 'x'], by simp [exitWord]⟩
  have joined : exitCalls (last ++ word) = 0 := by
    refine exitCalls_whole ?_ fun same => ?_
    · simp only [IsWhole, List.mem_append] at lastWhole whole ⊢
      rintro c (member | member)
      · exact lastWhole c member
      · exact whole c member
    · have size := congrArg List.length same
      rw [List.length_append] at size
      omega
  rw [List.append_assoc, exitCalls_behind apart, exitCalls_behind apart, joined,
    exitCalls_whole lastWhole other]

theorem isWhole_of_isRun {word : List Char} (named : IsRun Text.isWord word) : IsWhole word := by
  intro c member
  simp [isBreak, isWordOrDash, named.2 c member]

theorem shortNames_no_exit (long short : String) (paired : (long, short) ∈ shortNames) :
    ¬ long.toList <:+: exitWord ∧ ¬ short.toList <:+: exitWord := by
  have apart : ∀ names ∈ shortNames,
      ¬ names.1.toList <:+: exitWord ∧ ¬ names.2.toList <:+: exitWord := by
    simp only [shortNames, List.forall_mem_cons]
    repeat rw [String.toList_ofList]
    decide
  exact apart (long, short) paired

theorem exitCalls_name_append {name rest : List Char} (whole : IsWhole name)
    (other : ¬ name <:+: exitWord) (ends : isThere Text.isWord rest.head? = false) :
    exitCalls (name ++ rest) = exitCalls rest := by
  obtain ⟨first, behind, rfl, apart, firstWhole⟩ := exists_first_word rest
  have firstOther : first ≠ exitWord := by
    rintro rfl
    exact absurd ends (by simp [isThere, exitWord]; decide)
  have joined : exitCalls (name ++ first) = 0 := by
    refine exitCalls_whole ?_ fun same => other ⟨[], first, by simpa using same⟩
    simp only [IsWhole, List.mem_append] at whole firstWhole ⊢
    rintro c (member | member)
    · exact whole c member
    · exact firstWhole c member
  rw [← List.append_assoc, exitCalls_before apart, exitCalls_before apart, joined,
    exitCalls_whole firstWhole firstOther]

theorem IsSpaced.before_lookup {text before rest : List Char} (spaced : IsSpaced text)
    (shape : text = before ++ '[' :: ' ' :: '"' :: rest) :
    ¬ ∃ lead, before = lead ++ ['i', 't'] := by
  rintro ⟨lead, rfl⟩
  refine spaced.1 ?_
  rw [shape]
  rw [LineReader.read_append, LineReader.read_append]
  cases LeftReading.reader.read .apart lead <;> exact LeftReading.read_lost rest

theorem IsSpaced.behind_lookup {before rest : List Char} (spaced : IsSpaced (before ++ rest))
    (closed : RightReading.reader.read .space before = .closed) : StartsApart rest := by
  cases rest with
  | nil => exact .inl rfl
  | cons c more =>
      refine .inr ⟨c, more, rfl, (Bool.eq_false_or_eq_true _).resolve_right fun inside => ?_⟩
      have word : isWordOrDash c = true := by simpa [isBreak] using inside
      have gone : RightReading.reader.step .closed c = .lost := by
        show (if isWordOrDash c || c == '[' then RightReading.lost else _) = _
        rw [word]
        rfl
      refine spaced.2 ?_
      rw [LineReader.read_append, closed, LineReader.read_cons, gone, RightReading.read_lost]

theorem exitCalls_of_rewriting {text changed : List Char} (step : Rewriting text changed)
    (spaced : IsSpaced text) : exitCalls changed = exitCalls text := by
  obtain ⟨before, rest, stretch, replacement, rewrite, rfl, rfl⟩ := step
  cases rewrite with
  | unbraced long short paired ends =>
      obtain ⟨longWords, shortWords⟩ := isRun_of_mem_shortNames long short paired
      obtain ⟨longOther, shortOther⟩ := shortNames_no_exit long short paired
      have longNone := exitCalls_whole (isWhole_of_isRun longWords)
        fun same => longOther ⟨[], [], by simpa using same⟩
      have split : before ++ ('$' :: short.toList) ++ rest =
          before ++ '$' :: (short.toList ++ rest) := by
        simp
      rw [exitCalls_framed (by decide), longNone, split,
        exitCalls_append_break (by decide),
        exitCalls_name_append (isWhole_of_isRun shortWords) shortOther ends]
      rfl
  | shortened long short paired starts ends =>
      obtain ⟨longWords, shortWords⟩ := isRun_of_mem_shortNames long short paired
      obtain ⟨longOther, shortOther⟩ := shortNames_no_exit long short paired
      obtain ⟨number, around⟩ := exitCalls_around before rest
      rw [around _ (isWhole_of_isRun longWords) longOther,
        around _ (isWhole_of_isRun shortWords) shortOther]
  | command lookup name known named apart =>
      have shape : before ++ (['[', ' '] ++ "\"$(".toList ++ lookup ++ name ++ ")\"".toList ++
          [' ', ']']) ++ rest = before ++ '[' :: ' ' :: '"' ::
            (['$', '('] ++ lookup ++ name ++ ")\"".toList ++ [' ', ']'] ++ rest) := by
        simp
      have ends := spaced.before_lookup shape
      have starts : StartsApart rest := by
        refine IsSpaced.behind_lookup spaced ?_
        rw [LineReader.read_append]
        rcases RightReading.read_lookup _ known named with gone | ⟨closed, -⟩
        · refine absurd ?_ spaced.2
          rw [LineReader.read_append, LineReader.read_append, gone, RightReading.read_lost]
        · exact closed
      have stretchGaps : (isGap (['[', ' '] ++ "\"$(".toList ++ lookup) &&
          isGap (")\"".toList ++ [' ', ']'])) = true := by
        simp only [commandLookups, List.mem_cons, List.not_mem_nil, or_false] at known
        rcases known with rfl | rfl <;> decide
      have commandSplit : before ++ ("command -v ".toList ++ name ++ " >/dev/null 2>&1".toList) ++
          rest = (before ++ ['c', 'o', 'm', 'm', 'a', 'n', 'd']) ++
            ([' ', '-', 'v', ' '] ++ name ++ " >/dev/null 2>&".toList) ++ (['1'] ++ rest) := by
        simp
      have commandWhole : IsWhole ['c', 'o', 'm', 'm', 'a', 'n', 'd'] := by
        simp only [IsWhole, List.mem_cons, List.not_mem_nil, or_false]
        rintro c (rfl | rfl | rfl | rfl | rfl | rfl | rfl) <;> decide
      have digit : exitCalls ['1'] = 0 := by decide
      rw [commandSplit, exitCalls_framed (by decide),
        exitCalls_joined commandWhole (by decide) ends, exitCalls_before starts, digit,
        Nat.zero_add, List.append_assoc (_ ++ name), exitCalls_framed stretchGaps]
  | homeDirectory name named =>
      rw [String.toList_ofList, String.toList_ofList, String.toList_ofList, String.toList_ofList,
        exitCalls_framed (by decide), exitCalls_framed (by decide +kernel)]
  | clock =>
      rw [String.toList_ofList, String.toList_ofList, exitCalls_gap (by decide),
        exitCalls_gap (by decide)]
  | contents name variableText named quoted =>
      rw [String.toList_ofList, String.toList_ofList, String.toList_ofList,
        exitCalls_framed (by decide)]
      cases quoted
      · have split : ['$', '(', 'c', 'a', 't', ' '] ++ (['"', '$'] ++ name ++ ['"']) ++ [')'] =
            ['$', '(', 'c', 'a', 't', ' ', '"', '$'] ++ name ++ ['"', ')'] := by
          simp
        rw [split, exitCalls_framed (by decide)]
      · have split : ['$', '(', 'c', 'a', 't', ' '] ++ (['"', '$', '\x7b'] ++ name ++ ['\x7d', '"']) ++
            [')'] = ['$', '(', 'c', 'a', 't', ' ', '"', '$', '\x7b'] ++ name ++ ['\x7d', '"', ')'] := by
          simp
        rw [split, exitCalls_framed (by decide)]
  | status apart =>
      rw [String.toList_ofList, String.toList_ofList, exitCalls_gap (by decide),
        exitCalls_gap (by decide)]
  | test flag opening name variableText known named quoted apart =>
      obtain ⟨opens, closes, rfl, gaps⟩ : ∃ opens closes, variableText = opens ++ name ++ closes ∧
          (opens, closes) ∈ [(['"', '$'], ['"']), (['"', '$', '\x7b'], ['\x7d', '"'])] := by
        cases quoted
        · exact ⟨_, _, rfl, by simp⟩
        · exact ⟨_, _, rfl, by simp⟩
      have split : ['[', ' '] ++ flag ++ (opens ++ name ++ closes) ++ [' ', ']'] =
          (['[', ' '] ++ flag ++ opens) ++ name ++ (closes ++ [' ', ']']) := by
        simp
      have stretchGaps : (isGap (['[', ' '] ++ flag ++ opens) && isGap (closes ++ [' ', ']'])) = true ∧
          (isGap opening && isGap " ]]".toList) = true := by
        simp only [variableTests, List.mem_cons, List.not_mem_nil, or_false, Prod.mk.injEq]
          at known gaps
        rcases known with ⟨rfl, rfl⟩ | ⟨rfl, rfl⟩ | ⟨rfl, rfl⟩ | ⟨rfl, rfl⟩ | ⟨rfl, rfl⟩ | ⟨rfl, rfl⟩ <;>
          rcases gaps with ⟨rfl, rfl⟩ | ⟨rfl, rfl⟩ <;> decide
      rw [split, exitCalls_framed stretchGaps.1, exitCalls_framed stretchGaps.2]
  | blankLine line blank single ends =>
      have none := exitCalls_of_free (not_mem_of_blank blank (c := 'e') (by decide))
      have apart : StartsApart rest := by
        rcases ends with rfl | head
        · exact .inl rfl
        · obtain ⟨more, rfl⟩ := List.head?_eq_some_iff.mp head
          exact .inr ⟨'\n', more, rfl, by decide⟩
      have split : before ++ '\n' :: line ++ rest = before ++ '\n' :: (line ++ rest) := by simp
      rw [split, exitCalls_append_break (by decide), List.append_nil, exitCalls_before apart,
        exitCalls_before apart, none, Nat.zero_add]

theorem exitCalls_of_rewritten {text changed : List Char} (chain : Rewritten text changed)
    (spaced : IsSpaced text) : exitCalls changed = exitCalls text ∧ IsSpaced changed := by
  induction chain with
  | refl => exact ⟨rfl, spaced⟩
  | tail _ step ih =>
      obtain ⟨same, still⟩ := ih
      exact ⟨(exitCalls_of_rewriting step still).trans same, isSpaced_of_rewriting step still⟩

/-! The first line. -/

theorem sign_of_rewrite {before rest stretch replacement : List Char}
    (rewrite : Rewrite before rest stretch replacement) (inLine : '\n' ∉ stretch) :
    '_' ∈ stretch ∨ '[' ∈ stretch ∨ '$' ∈ stretch := by
  cases rewrite with
  | shortened long short paired =>
      have joined : ∀ names ∈ shortNames, names.1.toList.contains '_' = true := by decide
      exact .inl (by simpa using joined (long, short) paired)
  | blankLine => exact absurd List.mem_cons_self inLine
  | command | status | test => exact .inr (.inl (by simp))
  | unbraced | homeDirectory | clock | contents => exact .inr (.inr (by simp))

theorem firstLine_append {text : List Char} (inLine : '\n' ∉ text) (rest : List Char) :
    firstLine (text ++ rest) = text ++ firstLine rest := by
  refine List.takeWhile_append_of_pos fun c member => ?_
  have other : c ≠ '\n' := by
    rintro rfl
    exact inLine member
  simpa using other

theorem firstLine_append_newline {text : List Char} (newline : '\n' ∈ text) (rest : List Char) :
    firstLine (text ++ rest) = firstLine text := by
  induction text with
  | nil => simp at newline
  | cons c more ih =>
      by_cases here : c = '\n'
      · simp [firstLine, here]
      · have later := ih (by simpa [Ne.symm here] using newline)
        simpa [firstLine, here] using later

theorem firstLine_of_rewriting {text changed : List Char} (step : Rewriting text changed)
    (free : ∀ c ∈ firstLine text, c ∉ ['_', '[', '$']) : firstLine changed = firstLine text := by
  obtain ⟨before, rest, stretch, replacement, rewrite, rfl, rfl⟩ := step
  by_cases later : '\n' ∈ before
  · rw [List.append_assoc, List.append_assoc, firstLine_append_newline later,
      firstLine_append_newline later]
  · by_cases newline : '\n' ∈ stretch
    · obtain ⟨line, rfl, rfl, blank, single, ends⟩ := blank_of_rewrite rewrite newline
      have nothing : firstLine rest = [] := by
        rcases ends with rfl | head
        · rfl
        · obtain ⟨more, rfl⟩ := List.head?_eq_some_iff.mp head
          rfl
      rw [List.append_assoc, List.append_assoc, firstLine_append later, firstLine_append later,
        List.nil_append, nothing]
      rfl
    · rw [List.append_assoc, firstLine_append later, firstLine_append newline] at free
      have absent : ∀ c ∈ stretch, c ∉ ['_', '[', '$'] := fun c member =>
        free c (List.mem_append_right _ (List.mem_append_left _ member))
      rcases sign_of_rewrite rewrite newline with sign | sign | sign <;>
        exact absurd (by simp) (absent _ sign)

theorem firstLine_of_rewritten {text changed : List Char} (chain : Rewritten text changed)
    (free : ∀ c ∈ firstLine text, c ∉ ['_', '[', '$']) : firstLine changed = firstLine text := by
  induction chain with
  | refl => rfl
  | tail _ step ih =>
      rw [firstLine_of_rewriting step (by rwa [ih]), ih]

end StatusLine.Audit

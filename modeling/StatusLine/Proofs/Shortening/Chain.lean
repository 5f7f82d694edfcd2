import StatusLine.Proofs.Shortening.Rewriting

/-!
Every rule, and the shortening of blank runs, is a chain of rewrites; so is a whole run of passes,
and none of them fails. What no rewrite brings into a text, as a carriage return, is not brought in
by shortening.
-/

namespace StatusLine.Shortening

def Pattern.replacement (pattern : Pattern) (form : List (List Char) → List Char)
    (previous : Option Char) (here : List Char) : Option Text.Replacement :=
  (pattern.find previous here).map fun found =>
    ⟨here.length - found.rest.length, form found.captures⟩

/-- What a pattern finds may be rewritten, and what stands in for it ends in a character that keeps
off a further match only if the stretch did. -/
def Rewrites (pattern : Pattern) (form : List (List Char) → List Char) : Prop :=
  ∀ before rest stretch captures, TakesAll pattern.elements stretch captures →
    isThere pattern.notAfter before.getLast? = false →
    isThere pattern.notBefore rest.head? = false →
      stretch ≠ [] ∧ Rewrite before rest stretch (form captures) ∧
        (isThere pattern.notAfter (before ++ form captures).getLast? = true →
          isThere pattern.notAfter stretch.getLast? = true)

section Replacing

variable {pattern : Pattern} {form : List (List Char) → List Char}

theorem Pattern.replacement_eq_some {previous : Option Char} {text : List Char}
    {found : Text.Replacement} (here : pattern.replacement form previous text = some found) :
    ∃ stretch rest captures, text = stretch ++ rest ∧ TakesAll pattern.elements stretch captures ∧
      isThere pattern.notAfter previous = false ∧ isThere pattern.notBefore rest.head? = false ∧
      found = ⟨stretch.length, form captures⟩ := by
  obtain ⟨inner, taken, rfl⟩ := Option.map_eq_some_iff.mp here
  obtain ⟨stretch, whole, takes, starts, ends⟩ := pattern.find_spec previous text inner taken
  exact ⟨stretch, inner.rest, inner.captures, whole, takes, starts, ends, by simp [whole]⟩

theorem Pattern.replacement_spec (rewrites : Rewrites pattern form) (before : List Char)
    (previous : Option Char) (text : List Char) (found : Text.Replacement)
    (guarded : isThere pattern.notAfter before.getLast? = true →
      isThere pattern.notAfter previous = true)
    (here : pattern.replacement form previous text = some found) :
    ∃ stretch rest, text = stretch ++ rest ∧ stretch ≠ [] ∧ found.span = stretch.length ∧
      Rewrite before rest stretch found.text ∧
      (isThere pattern.notAfter (before ++ found.text).getLast? = true →
        isThere pattern.notAfter stretch.getLast? = true) := by
  obtain ⟨stretch, rest, captures, whole, takes, starts, ends, rfl⟩ :=
    Pattern.replacement_eq_some here
  have unguarded : isThere pattern.notAfter before.getLast? = false := by
    cases blocked : isThere pattern.notAfter before.getLast? with
    | false => rfl
    | true =>
        rw [guarded blocked] at starts
        exact Bool.noConfusion starts
  obtain ⟨present, rewrite, settled⟩ := rewrites before rest stretch captures takes unguarded ends
  exact ⟨stretch, rest, whole, present, rfl, rewrite, settled⟩

theorem Pattern.replace_rewritten (rewrites : Rewrites pattern form) (text : List Char) :
    Rewritten text (pattern.replace form text) := by
  have kept := Text.substitute_keeps (pattern.replacement form)
    (fun done previous rest => Rewritten text (done ++ rest) ∧
      (isThere pattern.notAfter done.getLast? = true → isThere pattern.notAfter previous = true))
    (fun done previous c rest _ holds => ⟨by simpa using holds.1, by simp⟩)
    (fun done previous here found replaced holds => by
      obtain ⟨stretch, rest, rfl, present, spanned, rewrite, settled⟩ :=
        Pattern.replacement_spec rewrites done previous here found holds.2 replaced
      have chain := holds.1.trans (by simpa using rewrite.rewritten)
      exact ⟨stretch, rest, rfl, present, spanned, by simpa using chain, settled⟩)
    [] none text ⟨Relation.ReflTransGen.refl, by simp [isThere]⟩
  obtain ⟨last, chain, -⟩ := kept
  rwa [List.nil_append, List.append_nil] at chain

end Replacing

/-! What the single elements take up. -/

theorem takesAll_nil {stretch : List Char} {captures : List (List Char)}
    (takes : TakesAll [] stretch captures) : stretch = [] ∧ captures = [] := by
  cases takes
  exact ⟨rfl, rfl⟩

theorem takesAll_literal {text : List Char} {more : List Element} {stretch : List Char}
    {captures : List (List Char)} (takes : TakesAll (.literal text :: more) stretch captures) :
    ∃ others, stretch = text ++ others ∧ TakesAll more others captures := by
  cases takes with
  | cons first rest =>
      cases first with
      | literal => exact ⟨_, rfl, rest⟩

theorem takesAll_either {options : List (List Char)} {more : List Element} {stretch : List Char}
    {captures : List (List Char)} (takes : TakesAll (.either options :: more) stretch captures) :
    ∃ option ∈ options, ∃ others, stretch = option ++ others ∧ TakesAll more others captures := by
  cases takes with
  | cons first rest =>
      cases first with
      | either _ member => exact ⟨_, member, _, rfl, rest⟩

theorem takesAll_run {accepts : Char → Bool} {more : List Element} {stretch : List Char}
    {captures : List (List Char)} (takes : TakesAll (.run accepts :: more) stretch captures) :
    ∃ name others later, IsRun accepts name ∧ stretch = name ++ others ∧
      captures = name :: later ∧ TakesAll more others later := by
  cases takes with
  | cons first rest =>
      cases first with
      | run _ accepted => exact ⟨_, _, _, accepted, rfl, rfl, rest⟩

theorem takesAll_oneOf {options : List Char} {more : List Element} {stretch : List Char}
    {captures : List (List Char)} (takes : TakesAll (.oneOf options :: more) stretch captures) :
    ∃ c ∈ options, ∃ others later, stretch = c :: others ∧ captures = [c] :: later ∧
      TakesAll more others later := by
  cases takes with
  | cons first rest =>
      cases first with
      | oneOf c member => exact ⟨c, member, _, _, rfl, rfl, rest⟩

theorem takesAll_quotedVariable {more : List Element} {stretch : List Char}
    {captures : List (List Char)} (takes : TakesAll (.quotedVariable :: more) stretch captures) :
    ∃ name variableText others later, IsRun Text.isWord name ∧ QuotedVariable name variableText ∧
      stretch = variableText ++ others ∧ captures = name :: later ∧ TakesAll more others later := by
  cases takes with
  | cons first rest =>
      cases first with
      | quotedVariable name _ named quoted => exact ⟨name, _, _, _, named, quoted, rfl, rfl, rest⟩

/-! The patterns of the rules. -/

theorem getLast?_append_of_some {text : List Char} {c : Char} (before : List Char)
    (ends : text.getLast? = some c) : (before ++ text).getLast? = some c := by
  rw [List.getLast?_append, ends]
  rfl

theorem rewrites_bracketed (elements : List Element) (form : List (List Char) → List Char)
    (forms : ∀ before rest stretch captures,
      TakesAll (elements ++ [.literal [' ', ']']]) stretch captures → Unbracketed before rest →
        Rewrite before rest (['[', ' '] ++ stretch) (form captures) ∧
          ∃ c, (form captures).getLast? = some c ∧ c ≠ '[') :
    Rewrites (bracketed elements) form := by
  intro before rest stretch captures takes starts ends
  obtain ⟨_, rfl, inside⟩ := takesAll_literal takes
  obtain ⟨rewrite, c, last, closed⟩ := forms before rest _ _ inside ⟨starts, ends⟩
  refine ⟨by simp, rewrite, ?_⟩
  rw [getLast?_append_of_some before last]
  intro opens
  exact absurd (by simpa [bracketed, isThere, isOpenBracket] using opens) closed

theorem rewrites_anywhere (elements : List Element) (form : List (List Char) → List Char)
    (forms : ∀ before rest stretch captures, TakesAll elements stretch captures →
      stretch ≠ [] ∧ Rewrite before rest stretch (form captures)) :
    Rewrites (anywhere elements) form := by
  intro before rest stretch captures takes _ _
  obtain ⟨present, rewrite⟩ := forms before rest stretch captures takes
  refine ⟨present, rewrite, ?_⟩
  cases (before ++ form captures).getLast? <;> simp [anywhere, isThere]

theorem rewrites_commandCheck : Rewrites commandCheck.pattern commandCheck.form := by
  refine rewrites_bracketed _ _ fun before rest stretch captures takes apart => ?_
  obtain ⟨_, rfl, asked⟩ := takesAll_literal takes
  obtain ⟨lookup, known, _, rfl, looked⟩ := takesAll_either asked
  obtain ⟨name, _, _, named, rfl, rfl, behind⟩ := takesAll_run looked
  obtain ⟨_, rfl, closed⟩ := takesAll_literal behind
  obtain ⟨_, rfl, nothing⟩ := takesAll_literal closed
  obtain ⟨rfl, rfl⟩ := takesAll_nil nothing
  have rewrite := Rewrite.command lookup name known named apart
  refine ⟨by simpa [commandCheck, capture] using rewrite, '1', ?_, by decide⟩
  exact getLast?_append_of_some _ (by decide)

theorem rewrites_homeAbbreviation : Rewrites homeAbbreviation.pattern homeAbbreviation.form := by
  refine rewrites_anywhere _ _ fun before rest stretch captures takes => ?_
  obtain ⟨_, rfl, opened⟩ := takesAll_literal takes
  obtain ⟨name, _, _, named, rfl, rfl, behind⟩ := takesAll_run opened
  obtain ⟨_, rfl, nothing⟩ := takesAll_literal behind
  obtain ⟨rfl, rfl⟩ := takesAll_nil nothing
  have rewrite : Rewrite before rest _ _ := .homeDirectory name named
  exact ⟨by simp, by simpa [homeAbbreviation, capture] using rewrite⟩

theorem rewrites_catRedirect : Rewrites catRedirect.pattern catRedirect.form := by
  refine rewrites_anywhere _ _ fun before rest stretch captures takes => ?_
  obtain ⟨_, rfl, opened⟩ := takesAll_literal takes
  obtain ⟨name, variableText, _, _, named, quoted, rfl, rfl, behind⟩ :=
    takesAll_quotedVariable opened
  obtain ⟨_, rfl, nothing⟩ := takesAll_literal behind
  obtain ⟨rfl, rfl⟩ := takesAll_nil nothing
  have rewrite : Rewrite before rest _ _ := .contents name variableText named quoted
  exact ⟨by simp, by simpa [catRedirect, capture] using rewrite⟩

theorem rewrites_statusCheck : Rewrites statusCheck.pattern statusCheck.form := by
  refine rewrites_bracketed _ _ fun before rest stretch captures takes apart => ?_
  obtain ⟨_, rfl, behind⟩ := takesAll_literal takes
  obtain ⟨_, rfl, nothing⟩ := takesAll_literal behind
  obtain ⟨rfl, rfl⟩ := takesAll_nil nothing
  have rewrite := Rewrite.status apart
  exact ⟨by simpa [statusCheck] using rewrite, ')', by decide, by decide⟩

theorem rewrites_test (flag opening : List Char) (known : (flag, opening) ∈ variableTests)
    (before rest stretch : List Char) (captures : List (List Char))
    (takes : TakesAll (.quotedVariable :: [.literal [' ', ']']]) stretch captures)
    (apart : Unbracketed before rest) :
    ∃ name, captures = [name] ∧
      Rewrite before rest (['[', ' '] ++ flag ++ stretch) (opening ++ name ++ " ]]".toList) := by
  obtain ⟨name, variableText, _, _, named, quoted, rfl, rfl, behind⟩ :=
    takesAll_quotedVariable takes
  obtain ⟨_, rfl, nothing⟩ := takesAll_literal behind
  obtain ⟨rfl, rfl⟩ := takesAll_nil nothing
  have rewrite := Rewrite.test flag opening name variableText known named quoted apart
  exact ⟨name, rfl, by simpa using rewrite⟩

theorem rewrites_nonemptyTest : Rewrites nonemptyTest.pattern nonemptyTest.form := by
  refine rewrites_bracketed _ _ fun before rest stretch captures takes apart => ?_
  obtain ⟨_, rfl, behind⟩ := takesAll_literal takes
  obtain ⟨name, rfl, rewrite⟩ := rewrites_test "-n ".toList "[[ $".toList (by simp [variableTests])
    before rest _ _ behind apart
  refine ⟨by simpa [nonemptyTest, capture] using rewrite, ']', ?_, by decide⟩
  exact getLast?_append_of_some _ (by decide)

theorem rewrites_emptyTest : Rewrites emptyTest.pattern emptyTest.form := by
  refine rewrites_bracketed _ _ fun before rest stretch captures takes apart => ?_
  obtain ⟨_, rfl, behind⟩ := takesAll_literal takes
  obtain ⟨name, rfl, rewrite⟩ := rewrites_test "-z ".toList "[[ ! $".toList (by simp [variableTests])
    before rest _ _ behind apart
  refine ⟨by simpa [emptyTest, capture] using rewrite, ']', ?_, by decide⟩
  exact getLast?_append_of_some _ (by decide)

theorem mem_variableTests_file (c : Char) (member : c ∈ ['f', 'd', 'r', 'e']) :
    (['-', c, ' '], "[[ -".toList ++ [c] ++ " $".toList) ∈ variableTests := by
  simp only [List.mem_cons, List.not_mem_nil, or_false] at member
  rcases member with rfl | rfl | rfl | rfl <;> decide

theorem rewrites_fileTest : Rewrites fileTest.pattern fileTest.form := by
  refine rewrites_bracketed _ _ fun before rest stretch captures takes apart => ?_
  obtain ⟨_, rfl, flagged⟩ := takesAll_literal takes
  obtain ⟨c, member, _, _, rfl, rfl, spaced⟩ := takesAll_oneOf flagged
  obtain ⟨_, rfl, behind⟩ := takesAll_literal spaced
  obtain ⟨name, rfl, rewrite⟩ := rewrites_test ['-', c, ' '] _ (mem_variableTests_file c member)
    before rest _ _ behind apart
  refine ⟨by simpa [fileTest, capture] using rewrite, ']', ?_, by decide⟩
  exact getLast?_append_of_some _ (by decide)

theorem rewrites_idiom (idiom : Idiom) (member : idiom ∈ idioms) :
    Rewrites idiom.pattern idiom.form := by
  simp only [idioms, List.mem_cons, List.not_mem_nil, or_false] at member
  rcases member with rfl | rfl | rfl | rfl | rfl | rfl | rfl
  · exact rewrites_commandCheck
  · exact rewrites_homeAbbreviation
  · exact rewrites_catRedirect
  · exact rewrites_statusCheck
  · exact rewrites_nonemptyTest
  · exact rewrites_emptyTest
  · exact rewrites_fileTest

/-! The names. -/

theorem rewrites_braced (long short : String) (paired : (long, short) ∈ shortNames) :
    Rewrites (braced long.toList) fun _ => '$' :: short.toList := by
  intro before rest stretch captures takes _ ends
  obtain ⟨_, rfl, nothing⟩ := takesAll_literal takes
  obtain ⟨rfl, rfl⟩ := takesAll_nil nothing
  have rewrite : Rewrite before _ _ _ := .unbraced long short paired ends
  refine ⟨by simp, by simpa using rewrite, ?_⟩
  cases (before ++ '$' :: short.toList).getLast? <;> simp [braced, isThere]

theorem rewrites_token (long short : String) (paired : (long, short) ∈ shortNames) :
    Rewrites (token long.toList) fun _ => short.toList := by
  intro before rest stretch captures takes starts ends
  obtain ⟨_, rfl, nothing⟩ := takesAll_literal takes
  obtain ⟨rfl, rfl⟩ := takesAll_nil nothing
  have words := (isRun_of_mem_shortNames long short paired).1
  have rewrite := Rewrite.shortened long short paired starts ends
  refine ⟨by simpa using words.1, by simpa using rewrite, fun _ => ?_⟩
  have last := List.getLast?_eq_some_getLast words.1
  rw [List.append_nil, last]
  simp [token, isThere, isWordOrDot, words.2 _ (List.getLast_mem words.1)]

/-! The rules. -/

def Rule.IsRewriting (rule : Rule) : Prop :=
  ∀ text, ∃ changed, rule.apply text = .ok changed ∧ Rewritten text changed

theorem Rule.isRewriting_of_edit (rule : Rule)
    (edits : ∀ text, ∃ changed, rule.edit text = .ok changed ∧ Rewritten text changed) :
    rule.IsRewriting := by
  intro text
  by_cases skips : rule.skip text = true
  · exact ⟨text, rule.apply_of_skip text skips, Relation.ReflTransGen.refl⟩
  · obtain ⟨changed, edited, rewritten⟩ := edits text
    exact ⟨changed, by simpa [Rule.apply, skips] using edited, rewritten⟩

theorem identifierRule_isRewriting (long short : String) (paired : (long, short) ∈ shortNames) :
    (identifierRule long.toList short.toList).IsRewriting := by
  refine Rule.isRewriting_of_edit _ fun text => ⟨_, rfl, ?_⟩
  have unbraced := Pattern.replace_rewritten (rewrites_braced long short paired) text
  exact unbraced.trans (Pattern.replace_rewritten (rewrites_token long short paired) _)

theorem idiomRule_isRewriting (idiom : Idiom) (member : idiom ∈ idioms)
    (guard : Option (List Char)) : (idiom.rule guard).IsRewriting :=
  Rule.isRewriting_of_edit _ fun text =>
    ⟨_, rfl, Pattern.replace_rewritten (rewrites_idiom idiom member) text⟩

theorem substringRule_keeps (name : String) {old new : List Char} (oldPresent : old ≠ [])
    (newPresent : new ≠ []) {Holds : List Char → Prop}
    (swap : ∀ before rest, Holds (before ++ old ++ rest) → Holds (before ++ new ++ rest))
    (text : List Char) (holds : Holds text) :
    ∃ changed, (substringRule name old new).edit text = .ok changed ∧ Holds changed := by
  refine ⟨Text.joinWith new ((Text.splitOn new text).map (Text.replaceAll old new)), ?_, ?_⟩
  · simp [substringRule, newPresent]
  have edits : ∀ before piece behind : List Char, Holds (before ++ piece ++ behind) →
      Holds (before ++ Text.replaceAll old new piece ++ behind) := by
    intro before piece behind kept
    rw [← Text.joinWith_splitOn old oldPresent piece] at kept
    rw [Text.replaceAll_of_ne_nil old new piece oldPresent]
    exact Text.joinWith_keeps old new swap before (Text.splitOn old piece) behind kept
  rw [← Text.joinWith_splitOn new newPresent text] at holds
  exact Text.joinWith_map_keeps new (Text.replaceAll old new) edits [] (Text.splitOn new text) holds

theorem substringRule_isRewriting (name : String) (old new : List Char) (oldPresent : old ≠ [])
    (newPresent : new ≠ []) (rewrite : ∀ before rest, Rewrite before rest old new) :
    (substringRule name old new).IsRewriting :=
  Rule.isRewriting_of_edit _ fun text =>
    substringRule_keeps name oldPresent newPresent
      (fun before rest chain => chain.trans (rewrite before rest).rewritten) text
      Relation.ReflTransGen.refl

theorem isRewriting_of_mem_identifierRules (rule : Rule) (member : rule ∈ identifierRules) :
    rule.IsRewriting := by
  obtain ⟨⟨long, short⟩, paired, rfl⟩ := List.mem_map.mp member
  exact identifierRule_isRewriting long short paired

theorem isRewriting_of_mem_idiomRules (rule : Rule) (member : rule ∈ idiomRules) :
    rule.IsRewriting := by
  simp only [idiomRules, List.mem_cons, List.not_mem_nil, or_false] at member
  rcases member with rfl | rfl | rfl | rfl | rfl | rfl | rfl | rfl
  case inr.inr.inl =>
    exact substringRule_isRewriting _ _ _ (by simp) (by simp) fun _ _ => .clock
  all_goals exact idiomRule_isRewriting _ (by simp [idioms]) none

/-! Blank lines. -/

theorem isBlank_of_trim_eq_nil (line : List Char) (empty : Text.trim line = []) (c : Char)
    (member : c ∈ line) : Text.isBlank c = true := by
  simp only [Text.trim, Text.trimWhere, Text.trimEndWhere, List.reverse_eq_nil_iff,
    List.dropWhile_eq_nil_iff, List.mem_reverse] at empty
  by_cases dropped : c ∈ line.dropWhile Text.isBlank
  · exact empty c dropped
  · have split := List.takeWhile_append_dropWhile (p := Text.isBlank) (l := line)
    rw [← split, List.mem_append] at member
    exact List.all_eq_true.mp List.all_takeWhile c (member.resolve_right dropped)

theorem step_stays_or_blank (state : BlankState) (line : List Char) :
    (state.step line).1 = true ∨ ∀ c ∈ line, Text.isBlank c = true := by
  simp only [BlankState.step]
  split
  · exact .inl rfl
  · split
    · rename_i empty
      exact .inr (isBlank_of_trim_eq_nil line (by simpa using empty))
    · split <;> exact .inl rfl

theorem keptLines_keeps {Holds : List Char → Prop}
    (drops : ∀ before line rest, (∀ c ∈ line, Text.isBlank c = true) → '\n' ∉ line →
      (rest = [] ∨ rest.head? = some '\n') → Holds (before ++ ('\n' :: line ++ rest)) →
        Holds (before ++ rest))
    (state : BlankState) (before : List Char) (lines : List (List Char))
    (single : ∀ line ∈ lines, '\n' ∉ line)
    (holds : Holds (before ++ lines.flatMap fun line => '\n' :: line)) :
    Holds (before ++ (keptLines state lines).flatMap fun line => '\n' :: line) := by
  induction lines generalizing state before with
  | nil => exact holds
  | cons line rest ih =>
      have others : ∀ other ∈ rest, '\n' ∉ other := fun other member =>
        single other (List.mem_cons_of_mem line member)
      rw [List.flatMap_cons] at holds
      simp only [keptLines]
      split
      · have later := ih (state.step line).2 (before ++ '\n' :: line) others (by simpa using holds)
        simpa [List.flatMap_cons] using later
      · rename_i dropped
        have blank := (step_stays_or_blank state line).resolve_left dropped
        have ends : (rest.flatMap fun other => '\n' :: other) = [] ∨
            (rest.flatMap fun other => '\n' :: other).head? = some '\n' := by
          cases rest <;> simp
        have dropped := drops before line _ blank (single line List.mem_cons_self) ends holds
        exact ih (state.step line).2 before others dropped

theorem step_start_stays (line : List Char) : (BlankState.start.step line).1 = true := by
  simp only [BlankState.step, BlankState.start]
  split
  · rfl
  · split <;> rfl

theorem shortenBlankRuns_keeps {Holds : List Char → Prop}
    (drops : ∀ before line rest, (∀ c ∈ line, Text.isBlank c = true) → '\n' ∉ line →
      (rest = [] ∨ rest.head? = some '\n') → Holds (before ++ ('\n' :: line ++ rest)) →
        Holds (before ++ rest))
    (text : List Char) (holds : Holds text) : Holds (shortenBlankRuns text) := by
  obtain ⟨line, rest, shape⟩ := List.exists_cons_of_ne_nil (Text.splitLines_ne_nil text)
  have single := Text.newline_not_mem_splitLines text
  rw [shape] at single
  rw [Text.eq_append_of_splitLines shape] at holds
  simp only [shortenBlankRuns, shape, keptLines, step_start_stays, if_true, Text.joinLines_cons]
  exact keptLines_keeps drops (BlankState.start.step line).2 line rest
    (fun other member => single other (List.mem_cons_of_mem line member)) holds

theorem shortenBlankRuns_rewritten (text : List Char) :
    Rewritten text (shortenBlankRuns text) := by
  refine shortenBlankRuns_keeps (fun before line rest blank single ends chain => ?_) text
    Relation.ReflTransGen.refl
  have rewrite : Rewrite before rest _ _ := .blankLine line blank single ends
  exact chain.trans (by simpa using rewrite.rewritten)

/-! A whole run. -/

theorem Progress.foldl_keeps (passName : String) (rules : List Rule) {Holds : List Char → Prop}
    (each : ∀ rule ∈ rules, ∀ text, Holds text →
      ∃ changed, rule.apply text = .ok changed ∧ Holds changed)
    (progress : Progress) (current : List Char) (reached : progress.result = .ok current)
    (holds : Holds current) :
    ∃ changed, (rules.foldl (Progress.apply passName) progress).result = .ok changed ∧
      Holds changed := by
  induction rules generalizing progress current with
  | nil => exact ⟨current, reached, holds⟩
  | cons rule more ih =>
      obtain ⟨next, applied, kept⟩ := each rule List.mem_cons_self current holds
      refine ih (fun other member => each other (List.mem_cons_of_mem rule member)) _ next ?_ kept
      simp [Progress.apply, reached, applied]

theorem Progress.foldl_rewritten (passName : String) (rules : List Rule)
    (rewriting : ∀ rule ∈ rules, rule.IsRewriting) (progress : Progress) (text current : List Char)
    (reached : progress.result = .ok current) (chain : Rewritten text current) :
    ∃ changed, (rules.foldl (Progress.apply passName) progress).result = .ok changed ∧
      Rewritten text changed := by
  refine Progress.foldl_keeps passName rules (fun rule member next chain => ?_) progress current
    reached chain
  obtain ⟨changed, applied, step⟩ := rewriting rule member next
  exact ⟨changed, applied, chain.trans step⟩

theorem Progress.passes_rewritten (passList : List Pass)
    (rewriting : ∀ pass ∈ passList, ∀ rule ∈ pass.rules, rule.IsRewriting) (progress : Progress)
    (text current : List Char) (reached : progress.result = .ok current)
    (chain : Rewritten text current) :
    ∃ changed, (passList.foldl Progress.applyPass progress).result = .ok changed ∧
      Rewritten text changed := by
  induction passList generalizing progress current with
  | nil => exact ⟨current, reached, chain⟩
  | cons pass more ih =>
      obtain ⟨next, applied, step⟩ := Progress.foldl_rewritten pass.name pass.rules
        (rewriting pass List.mem_cons_self) progress text current reached chain
      exact ih (fun other member => rewriting other (List.mem_cons_of_mem pass member)) _ next
        applied step

theorem isRewriting_of_mem_passes (options : Options) (pass : Pass)
    (member : pass ∈ passes options) (rule : Rule) (inside : rule ∈ pass.rules) :
    rule.IsRewriting := by
  simp only [passes, List.mem_append] at member
  rcases member with found | found <;> split at found
  · obtain rfl := List.mem_singleton.mp found
    exact isRewriting_of_mem_identifierRules rule inside
  · simp at found
  · obtain rfl := List.mem_singleton.mp found
    exact isRewriting_of_mem_idiomRules rule inside
  · simp at found

theorem optimize_rewritten (options : Options) (text : List Char) :
    Rewritten text (optimize options text).text := by
  obtain ⟨changed, reached, chain⟩ := Progress.passes_rewritten (passes options)
    (isRewriting_of_mem_passes options) ⟨[], .ok text⟩ text text rfl Relation.ReflTransGen.refl
  simp only [optimize, run, reached]
  split
  · exact chain.trans (shortenBlankRuns_rewritten changed)
  · exact chain

end StatusLine.Shortening

namespace StatusLine.Shortening

theorem return_not_mem_shortNames (long short : String) (paired : (long, short) ∈ shortNames) :
    '\r' ∉ short.toList := by
  have all : ∀ pair ∈ shortNames, '\r' ∉ pair.2.toList := by decide
  exact all (long, short) paired

theorem return_not_mem_opening (flag opening : List Char)
    (known : (flag, opening) ∈ variableTests) : '\r' ∉ opening := by
  have all : ∀ test ∈ variableTests, '\r' ∉ test.2 := by decide
  exact all (flag, opening) known

theorem Rewrite.return_not_mem {before rest stretch replacement : List Char}
    (rewrite : Rewrite before rest stretch replacement) : '\r' ∉ replacement := by
  cases rewrite with
  | unbraced long short paired => simp [return_not_mem_shortNames long short paired]
  | shortened long short paired => exact return_not_mem_shortNames long short paired
  | command lookup name known named => simp [named.not_mem (c := '\r') (by decide)]
  | homeDirectory name named => simp [named.not_mem (c := '\r') (by decide)]
  | clock => decide
  | contents name variableText named quoted => simp [named.not_mem (c := '\r') (by decide)]
  | status => decide
  | test flag opening name variableText known named =>
      simp [return_not_mem_opening flag opening known, named.not_mem (c := '\r') (by decide)]
  | blankLine => simp

theorem Rewriting.return_not_mem {text changed : List Char} (step : Rewriting text changed)
    (free : '\r' ∉ text) : '\r' ∉ changed := by
  obtain ⟨before, rest, stretch, replacement, rewrite, rfl, rfl⟩ := step
  have fresh := rewrite.return_not_mem
  simp only [List.mem_append, not_or] at free ⊢
  exact ⟨⟨free.1.1, fresh⟩, free.2⟩

theorem return_not_mem_optimize (options : Options) {text : List Char} (free : '\r' ∉ text) :
    '\r' ∉ (optimize options text).text := by
  have kept : ∀ changed, Rewritten text changed → '\r' ∉ changed := by
    intro changed chain
    induction chain with
    | refl => exact free
    | tail _ last ih => exact last.return_not_mem ih
  exact kept _ (optimize_rewritten options text)

end StatusLine.Shortening

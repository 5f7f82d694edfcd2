import StatusLine.Audit.Report
import StatusLine.Proofs.Shortening.Chain

/-!
Brackets under shortening. Every rewrite takes away as many opening and closing brackets of a kind
as it puts in, and it touches no bracket outside, so neither the balance of a kind nor the number of
triple brackets changes.
-/

namespace StatusLine.Shortening

open Audit

/-! The balance of a kind of brackets. -/

theorem balance_append (brackets : Brackets) (text more : List Char) :
    brackets.balance (text ++ more) = brackets.balance text + brackets.balance more := by
  simp only [Brackets.balance, List.count_append, Int.natCast_add]
  omega

theorem balance_of_not_mem (brackets : Brackets) (text : List Char)
    (opening : brackets.opening ∉ text) (closing : brackets.closing ∉ text) :
    brackets.balance text = 0 := by
  simp [Brackets.balance, List.count_eq_zero_of_not_mem opening,
    List.count_eq_zero_of_not_mem closing]

theorem balance_name (brackets : Brackets) (kind : brackets ∈ bracketKinds) {name : List Char}
    (named : IsRun isCommandChar name) : brackets.balance name = 0 := by
  simp only [bracketKinds, List.mem_cons, List.not_mem_nil, or_false] at kind
  rcases kind with rfl | rfl | rfl <;>
    exact balance_of_not_mem _ _ (named.not_mem (by decide)) (named.not_mem (by decide))

theorem balance_blank (brackets : Brackets) (kind : brackets ∈ bracketKinds) {line : List Char}
    (blank : ∀ c ∈ line, Text.isBlank c = true) : brackets.balance line = 0 := by
  simp only [bracketKinds, List.mem_cons, List.not_mem_nil, or_false] at kind
  rcases kind with rfl | rfl | rfl <;>
    exact balance_of_not_mem _ _ (not_mem_of_blank blank (by decide))
      (not_mem_of_blank blank (by decide))

theorem balance_quotedVariable (brackets : Brackets) (kind : brackets ∈ bracketKinds)
    {name variableText : List Char} (named : IsRun Text.isWord name)
    (quoted : QuotedVariable name variableText) : brackets.balance variableText = 0 := by
  have inner := balance_name brackets kind named.command
  simp only [bracketKinds, List.mem_cons, List.not_mem_nil, or_false] at kind
  cases quoted <;> rcases kind with rfl | rfl | rfl <;>
    simp only [balance_append, inner] <;> decide

theorem Rewrite.balance_eq {before rest stretch replacement : List Char}
    (rewrite : Rewrite before rest stretch replacement) (brackets : Brackets)
    (kind : brackets ∈ bracketKinds) :
    brackets.balance replacement = brackets.balance stretch := by
  cases rewrite with
  | unbraced long short paired ends =>
      obtain ⟨longWords, shortWords⟩ := isRun_of_mem_shortNames long short paired
      have longName := balance_name brackets kind longWords.command
      have shortName := balance_name brackets kind shortWords.command
      rw [← List.singleton_append]
      simp only [bracketKinds, List.mem_cons, List.not_mem_nil, or_false] at kind
      rcases kind with rfl | rfl | rfl <;> simp only [balance_append, longName, shortName] <;> decide
  | shortened long short paired starts ends =>
      obtain ⟨longWords, shortWords⟩ := isRun_of_mem_shortNames long short paired
      rw [balance_name brackets kind longWords.command, balance_name brackets kind shortWords.command]
  | command lookup name known named apart =>
      have inner := balance_name brackets kind named
      simp only [bracketKinds, commandLookups, List.mem_cons, List.not_mem_nil, or_false]
        at kind known
      rcases known with rfl | rfl <;> rcases kind with rfl | rfl | rfl <;>
        simp only [balance_append, inner] <;> decide
  | homeDirectory name named =>
      have inner := balance_name brackets kind named.command
      simp only [bracketKinds, List.mem_cons, List.not_mem_nil, or_false] at kind
      rcases kind with rfl | rfl | rfl <;> simp only [balance_append, inner] <;> decide
  | clock =>
      simp only [bracketKinds, List.mem_cons, List.not_mem_nil, or_false] at kind
      rcases kind with rfl | rfl | rfl <;> decide
  | contents name variableText named quoted =>
      have inner := balance_name brackets kind named.command
      have variablePart := balance_quotedVariable brackets kind named quoted
      simp only [bracketKinds, List.mem_cons, List.not_mem_nil, or_false] at kind
      rcases kind with rfl | rfl | rfl <;> simp only [balance_append, inner, variablePart] <;>
        decide
  | status apart =>
      simp only [bracketKinds, List.mem_cons, List.not_mem_nil, or_false] at kind
      rcases kind with rfl | rfl | rfl <;> decide
  | test flag opening name variableText known named quoted apart =>
      have inner := balance_name brackets kind named.command
      have variablePart := balance_quotedVariable brackets kind named quoted
      simp only [bracketKinds, variableTests, List.mem_cons, List.not_mem_nil, or_false,
        Prod.mk.injEq] at kind known
      rcases kind with rfl | rfl | rfl <;>
        rcases known with ⟨rfl, rfl⟩ | ⟨rfl, rfl⟩ | ⟨rfl, rfl⟩ | ⟨rfl, rfl⟩ | ⟨rfl, rfl⟩ | ⟨rfl, rfl⟩ <;>
        simp only [balance_append, inner, variablePart] <;> decide
  | blankLine line blank single ends =>
      have inner := balance_blank brackets kind blank
      rw [← List.singleton_append]
      simp only [bracketKinds, List.mem_cons, List.not_mem_nil, or_false] at kind
      rcases kind with rfl | rfl | rfl <;> simp only [balance_append, inner] <;> decide

/-! Triple brackets. What is rewritten starts and ends with at most two brackets, which no further
bracket touches, and there is something else between them. -/

section Triples

variable {bracket : Char} {before rest : List Char}

def triple (bracket : Char) : List Char :=
  [bracket, bracket, bracket]

theorem count_triple_of_short (brackets : List Char) (few : brackets.length ≤ 2) :
    Text.count (triple bracket) brackets = 0 := by
  match brackets, few with
  | [], _ => rfl
  | [_], _ => simp [Text.count, Text.countFrom, triple]
  | [_, _], _ => simp [Text.count, Text.countFrom, triple]

theorem count_triple_before (brackets : List Char) (few : brackets.length ≤ 2)
    (apart : before.getLast? ≠ some bracket) :
    Text.count (triple bracket) (before ++ brackets) = Text.count (triple bracket) before := by
  have none : Text.count (triple bracket) brackets = 0 := count_triple_of_short brackets few
  rcases List.eq_nil_or_concat before with rfl | ⟨lead, c, rfl⟩
  · rw [List.nil_append, none]
    rfl
  · have other : c ∉ triple bracket := by
      simpa [triple] using apart
    have taken := Text.count_append_cons (triple bracket) (by simp [triple]) c other lead brackets
    have ended := Text.count_append_cons (triple bracket) (by simp [triple]) c other lead []
    have empty : Text.count (triple bracket) [] = 0 := rfl
    rw [List.concat_eq_append, List.append_assoc, List.singleton_append]
    omega

theorem count_triple_behind (brackets : List Char) (few : brackets.length ≤ 2)
    (apart : rest.head? ≠ some bracket) :
    Text.count (triple bracket) (brackets ++ rest) = Text.count (triple bracket) rest := by
  have none : Text.count (triple bracket) brackets = 0 := count_triple_of_short brackets few
  cases rest with
  | nil =>
      rw [List.append_nil, none]
      rfl
  | cons c more =>
      have other : c ∉ triple bracket := by
        simpa [triple] using apart
      have taken := Text.count_append_cons (triple bracket) (by simp [triple]) c other brackets more
      have started := Text.count_append_cons (triple bracket) (by simp [triple]) c other [] more
      have empty : Text.count (triple bracket) [] = 0 := rfl
      simp only [List.nil_append] at started
      omega

def AddsNone (bracket : Char) (before rest text : List Char) : Prop :=
  Text.count (triple bracket) (before ++ text ++ rest) =
    Text.count (triple bracket) before + Text.count (triple bracket) rest

theorem addsNone_of_not_mem (text : List Char) (present : text ≠ []) (free : bracket ∉ text) :
    AddsNone bracket before rest text := by
  refine Text.count_append_separator _ (by simp [triple]) text present ?_ before rest
  intro c member
  have different : c ≠ bracket := fun same => free (same ▸ member)
  simpa [triple] using different

theorem addsNone_of_opening (brackets text : List Char) (few : brackets.length ≤ 2)
    (present : text ≠ []) (free : bracket ∉ text) (apart : before.getLast? ≠ some bracket) :
    AddsNone bracket before rest (brackets ++ text) := by
  have split : AddsNone bracket (before ++ brackets) rest text :=
    addsNone_of_not_mem text present free
  rw [AddsNone, count_triple_before brackets few apart] at split
  simpa [AddsNone, List.append_assoc] using split

theorem addsNone_of_closing (brackets text : List Char) (few : brackets.length ≤ 2)
    (present : text ≠ []) (free : bracket ∉ text) (apart : rest.head? ≠ some bracket) :
    AddsNone bracket before rest (text ++ brackets) := by
  have split : AddsNone bracket before (brackets ++ rest) text :=
    addsNone_of_not_mem text present free
  rw [AddsNone, count_triple_behind brackets few apart] at split
  simpa [AddsNone, List.append_assoc] using split

end Triples

theorem Unbracketed.before {before rest : List Char} (apart : Unbracketed before rest) :
    before.getLast? ≠ some '[' := by
  intro last
  have free := apart.1
  rw [last] at free
  exact Bool.noConfusion free

theorem Unbracketed.rest {before rest : List Char} (apart : Unbracketed before rest) :
    rest.head? ≠ some ']' := by
  intro first
  have free := apart.2
  rw [first] at free
  exact Bool.noConfusion free

theorem IsRun.bracketless {name : List Char} (named : IsRun isCommandChar name) {bracket : Char}
    (kind : bracket = '[' ∨ bracket = ']') : bracket ∉ name := by
  rcases kind with rfl | rfl <;> exact named.not_mem (by decide)

theorem QuotedVariable.bracketless {name variableText : List Char}
    (named : IsRun Text.isWord name) (quoted : QuotedVariable name variableText) {bracket : Char}
    (kind : bracket = '[' ∨ bracket = ']') : bracket ∉ variableText := by
  have free := named.command.bracketless kind
  rcases kind with rfl | rfl <;> cases quoted <;> simp [free]

theorem Rewrite.ends {before rest stretch replacement : List Char}
    (rewrite : Rewrite before rest stretch replacement) (empty : replacement = []) :
    rest = [] ∨ rest.head? = some '\n' := by
  cases rewrite with
  | blankLine line blank single ends => exact ends
  | unbraced => simp at empty
  | shortened long short paired => exact absurd empty (isRun_of_mem_shortNames long short paired).2.1
  | command => simp at empty
  | homeDirectory => simp at empty
  | clock => simp at empty
  | contents => simp at empty
  | status => simp at empty
  | test => simp at empty

theorem Rewrite.addsNone_stretch {before rest stretch replacement : List Char}
    (rewrite : Rewrite before rest stretch replacement) {bracket : Char}
    (kind : bracket = '[' ∨ bracket = ']') : AddsNone bracket before rest stretch := by
  cases rewrite with
  | unbraced long short paired ends =>
      have free := (isRun_of_mem_shortNames long short paired).1.command.bracketless kind
      refine addsNone_of_not_mem _ (by simp) ?_
      rcases kind with rfl | rfl <;> simp [free]
  | shortened long short paired starts ends =>
      have words := (isRun_of_mem_shortNames long short paired).1
      exact addsNone_of_not_mem _ words.1 (words.command.bracketless kind)
  | command lookup name known named apart =>
      have free := named.bracketless kind
      have plain : bracket ∉ lookup := by
        simp only [commandLookups, List.mem_cons, List.not_mem_nil, or_false] at known
        rcases kind with rfl | rfl <;> rcases known with rfl | rfl <;> decide
      rcases kind with rfl | rfl
      · exact addsNone_of_opening ['['] _ (by simp) (by simp) (by simp [free, plain]) apart.before
      · have split : AddsNone ']' before rest _ := addsNone_of_closing [']']
          (['[', ' '] ++ "\"$(".toList ++ lookup ++ name ++ ")\"".toList ++ [' ']) (by simp) (by simp)
          (by simp [free, plain]) apart.rest
        simpa using split
  | homeDirectory name named =>
      have free := named.command.bracketless kind
      refine addsNone_of_not_mem _ (by simp) ?_
      rcases kind with rfl | rfl <;> simp [free]
  | clock => exact addsNone_of_not_mem _ (by simp) (by rcases kind with rfl | rfl <;> decide)
  | contents name variableText named quoted =>
      have free := quoted.bracketless named kind
      refine addsNone_of_not_mem _ (by simp) ?_
      rcases kind with rfl | rfl <;> simp [free]
  | status apart =>
      rcases kind with rfl | rfl
      · exact addsNone_of_opening ['['] _ (by simp) (by simp) (by simp) apart.before
      · have split : AddsNone ']' before rest _ := addsNone_of_closing [']']
          (['[', ' '] ++ "$? -eq 0".toList ++ [' ']) (by simp) (by simp) (by simp) apart.rest
        simpa using split
  | test flag opening name variableText known named quoted apart =>
      have free := quoted.bracketless named kind
      have plain : bracket ∉ flag := by
        simp only [variableTests, List.mem_cons, List.not_mem_nil, or_false, Prod.mk.injEq] at known
        rcases kind with rfl | rfl <;>
          rcases known with ⟨rfl, _⟩ | ⟨rfl, _⟩ | ⟨rfl, _⟩ | ⟨rfl, _⟩ | ⟨rfl, _⟩ | ⟨rfl, _⟩ <;>
          decide
      rcases kind with rfl | rfl
      · exact addsNone_of_opening ['['] _ (by simp) (by simp) (by simp [free, plain]) apart.before
      · have split : AddsNone ']' before rest _ := addsNone_of_closing [']']
          (['[', ' '] ++ flag ++ variableText ++ [' ']) (by simp) (by simp) (by simp [free, plain])
          apart.rest
        simpa using split
  | blankLine line blank single ends =>
      have free : bracket ∉ line := by
        rcases kind with rfl | rfl <;> exact not_mem_of_blank blank (by decide)
      refine addsNone_of_not_mem _ (by simp) ?_
      rcases kind with rfl | rfl <;> simp [free]

theorem Rewrite.addsNone_replacement {before rest stretch replacement : List Char}
    (rewrite : Rewrite before rest stretch replacement) (present : replacement ≠ [])
    {bracket : Char} (kind : bracket = '[' ∨ bracket = ']') :
    AddsNone bracket before rest replacement := by
  cases rewrite with
  | unbraced long short paired ends =>
      have free := (isRun_of_mem_shortNames long short paired).2.command.bracketless kind
      refine addsNone_of_not_mem _ present ?_
      rcases kind with rfl | rfl <;> simp [free]
  | shortened long short paired starts ends =>
      have words := (isRun_of_mem_shortNames long short paired).2
      exact addsNone_of_not_mem _ words.1 (words.command.bracketless kind)
  | command lookup name known named apart =>
      have free := named.bracketless kind
      refine addsNone_of_not_mem _ present ?_
      rcases kind with rfl | rfl <;> simp [free]
  | homeDirectory name named =>
      have free := named.command.bracketless kind
      refine addsNone_of_not_mem _ present ?_
      rcases kind with rfl | rfl <;> simp [free]
  | clock =>
      exact addsNone_of_not_mem _ present (by rcases kind with rfl | rfl <;> decide)
  | contents name variableText named quoted =>
      have free := named.command.bracketless kind
      refine addsNone_of_not_mem _ present ?_
      rcases kind with rfl | rfl <;> simp [free]
  | status apart =>
      exact addsNone_of_not_mem _ present (by rcases kind with rfl | rfl <;> decide)
  | test flag opening name variableText known named quoted apart =>
      have free := named.command.bracketless kind
      have opens : opening = ['[', '['] ++ opening.drop 2 ∧ '[' ∉ opening.drop 2 ∧ ']' ∉ opening := by
        simp only [variableTests, List.mem_cons, List.not_mem_nil, or_false, Prod.mk.injEq] at known
        rcases known with ⟨_, rfl⟩ | ⟨_, rfl⟩ | ⟨_, rfl⟩ | ⟨_, rfl⟩ | ⟨_, rfl⟩ | ⟨_, rfl⟩ <;>
          decide
      rcases kind with rfl | rfl
      · rw [opens.1]
        have split : AddsNone '[' before rest _ := addsNone_of_opening ['[', '[']
          (opening.drop 2 ++ name ++ " ]]".toList) (by simp) (by simp) (by simp [free, opens.2.1])
          apart.before
        simpa using split
      · have split : AddsNone ']' before rest _ := addsNone_of_closing [']', ']']
          (opening ++ name ++ [' ']) (by simp) (by simp) (by simp [free, opens.2.2]) apart.rest
        simpa using split
  | blankLine line blank single ends => exact absurd rfl present

theorem Rewrite.count_triple_eq {before rest stretch replacement : List Char}
    (rewrite : Rewrite before rest stretch replacement) {bracket : Char}
    (kind : bracket = '[' ∨ bracket = ']') :
    Text.count (triple bracket) (before ++ replacement ++ rest) =
      Text.count (triple bracket) (before ++ stretch ++ rest) := by
  rw [rewrite.addsNone_stretch kind]
  by_cases empty : replacement = []
  · subst empty
    have newline : '\n' ∉ triple bracket := by
      rcases kind with rfl | rfl <;> decide
    rw [List.append_nil]
    rcases rewrite.ends rfl with rfl | ended
    · simp [Text.count, Text.countFrom]
    · obtain ⟨more, rfl⟩ := List.head?_eq_some_iff.mp ended
      rw [Text.count_append_cons _ (by simp [triple]) '\n' newline]
      have started := Text.count_append_cons (triple bracket) (by simp [triple]) '\n' newline [] more
      rw [List.nil_append] at started
      have none : Text.count (triple bracket) [] = 0 := rfl
      omega
  · exact rewrite.addsNone_replacement empty kind

/-! Shortening. -/

theorem Rewriting.balance_eq {text changed : List Char} (step : Rewriting text changed)
    (brackets : Brackets) (kind : brackets ∈ bracketKinds) :
    brackets.balance changed = brackets.balance text := by
  obtain ⟨before, rest, stretch, replacement, rewrite, rfl, rfl⟩ := step
  simp only [balance_append, rewrite.balance_eq brackets kind]

theorem Rewriting.count_marker_eq {text changed : List Char} (step : Rewriting text changed)
    (marker : List Char) (malformed : marker ∈ malformedMarkers) :
    Text.count marker changed = Text.count marker text := by
  obtain ⟨before, rest, stretch, replacement, rewrite, rfl, rfl⟩ := step
  simp only [malformedMarkers, List.mem_cons, List.not_mem_nil, or_false] at malformed
  rcases malformed with rfl | rfl
  · have same := rewrite.count_triple_eq (.inl rfl : '[' = '[' ∨ '[' = ']')
    simpa [triple] using same
  · have same := rewrite.count_triple_eq (.inr rfl : ']' = '[' ∨ ']' = ']')
    simpa [triple] using same

theorem Rewritten.balance_eq {text changed : List Char} (chain : Rewritten text changed)
    (brackets : Brackets) (kind : brackets ∈ bracketKinds) :
    brackets.balance changed = brackets.balance text := by
  induction chain with
  | refl => rfl
  | tail _ last ih => rw [last.balance_eq brackets kind, ih]

theorem Rewritten.count_marker_eq {text changed : List Char} (chain : Rewritten text changed)
    (marker : List Char) (malformed : marker ∈ malformedMarkers) :
    Text.count marker changed = Text.count marker text := by
  induction chain with
  | refl => rfl
  | tail _ last ih => rw [last.count_marker_eq marker malformed, ih]

/-- A finding on the balance of brackets, or on brackets that run into each other. -/
def IsBracketFinding (finding : Finding) : Prop :=
  "Bracket balance for ".toList <+: finding.message.toList ∨
    "Malformed test bracket ".toList <+: finding.message.toList

theorem mem_findingIf {holds : Bool} {finding other : Finding}
    (member : other ∈ findingIf holds finding) : other = finding := by
  simp only [findingIf] at member
  split at member
  · exact List.mem_singleton.mp member
  · simp at member

theorem not_isBracketFinding_of_head (finding : Finding) (c : Char)
    (starts : finding.message.toList.head? = some c) (notB : c ≠ 'B') (notM : c ≠ 'M') :
    ¬ IsBracketFinding finding := by
  rintro (⟨more, whole⟩ | ⟨more, whole⟩) <;> rw [← whole] at starts
  · exact notB (Option.some.inj starts).symm
  · exact notM (Option.some.inj starts).symm

theorem quoteFindings_no_bracket (raw optimized : List Char) (finding : Finding)
    (member : finding ∈ quoteFindings raw optimized) : ¬ IsBracketFinding finding := by
  simp only [quoteFindings] at member
  split at member
  · obtain rfl := List.mem_singleton.mp member
    exact not_isBracketFinding_of_head _ 'U' (by simp) (by decide) (by decide)
  · obtain rfl := mem_findingIf member
    exact not_isBracketFinding_of_head _ 'Q' (by simp) (by decide) (by decide)

theorem behaviorFindings_no_bracket (raw optimized : List Char) (finding : Finding)
    (member : finding ∈ behaviorFindings raw optimized) : ¬ IsBracketFinding finding := by
  rcases List.mem_append.mp member with found | found <;> obtain rfl := mem_findingIf found
  · exact not_isBracketFinding_of_head _ 'S' (by simp) (by decide) (by decide)
  · exact not_isBracketFinding_of_head _ 'N' (by simp) (by decide) (by decide)

theorem performanceFindings_no_bracket (raw optimized : List Char) (finding : Finding)
    (member : finding ∈ performanceFindings raw optimized) : ¬ IsBracketFinding finding := by
  rcases List.mem_append.mp member with found | found
  · obtain ⟨call, _, here⟩ := List.mem_flatMap.mp found
    obtain rfl := mem_findingIf here
    exact not_isBracketFinding_of_head _ 'N' (by simp) (by decide) (by decide)
  · obtain rfl := mem_findingIf found
    exact not_isBracketFinding_of_head _ 'O' (by simp) (by decide) (by decide)

theorem bracketFinding_eq_nil (raw optimized : List Char) (brackets : Brackets)
    (same : brackets.balance optimized = brackets.balance raw) :
    bracketFinding raw optimized brackets = [] := by
  simp [bracketFinding, findingIf, same]

theorem markerFinding_eq_nil (raw optimized marker : List Char)
    (same : Text.count marker optimized ≤ Text.count marker raw) :
    markerFinding raw optimized marker = [] := by
  simp only [markerFinding, findingIf, decide_eq_true_eq, Nat.not_lt.mpr same, if_false]

theorem Rewritten.balanceFindings {text changed : List Char} (chain : Rewritten text changed) :
    bracketKinds.flatMap (bracketFinding text changed) = [] :=
  List.flatMap_eq_nil_iff.mpr fun brackets kind =>
    bracketFinding_eq_nil _ _ brackets (chain.balance_eq brackets kind)

theorem Rewritten.markerFindings {text changed : List Char} (chain : Rewritten text changed) :
    malformedMarkers.flatMap (markerFinding text changed) = [] :=
  List.flatMap_eq_nil_iff.mpr fun marker malformed =>
    markerFinding_eq_nil _ _ marker (chain.count_marker_eq marker malformed).le

/-- Shortening keeps the balance of every kind of brackets and adds no triple brackets, so that the
audit has nothing to say about the brackets of what comes out. -/
theorem optimize_keeps_brackets (options : Options) (text : List Char) :
    (∀ brackets ∈ bracketKinds,
      brackets.balance (optimize options text).text = brackets.balance text) ∧
    (∀ marker ∈ malformedMarkers,
      Text.count marker (optimize options text).text ≤ Text.count marker text) ∧
    ∀ finding ∈ (audit text (optimize options text).text).findings, ¬ IsBracketFinding finding := by
  have chain := optimize_rewritten options text
  refine ⟨chain.balance_eq, fun marker malformed => (chain.count_marker_eq marker malformed).le,
    fun finding member => ?_⟩
  simp only [audit, syntaxFindings, chain.balanceFindings, chain.markerFindings,
    List.append_nil] at member
  rcases List.mem_append.mp member with found | found
  · rcases List.mem_append.mp found with quotes | behavior
    · exact quoteFindings_no_bracket _ _ finding quotes
    · exact behaviorFindings_no_bracket _ _ finding behavior
  · exact performanceFindings_no_bracket _ _ finding found

end StatusLine.Shortening

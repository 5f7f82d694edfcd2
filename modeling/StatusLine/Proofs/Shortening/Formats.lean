import Mathlib.Data.List.Forall2
import Mathlib.Data.List.Induction
import StatusLine.Proofs.Shortening.Chain

/-!
The format strings of a script. No rewrite takes or brings a single quote, and none makes or breaks
a call of `printf` before one, so that shortening works on every format string by itself.
-/

namespace StatusLine.Shortening

def formatCall : List Char :=
  "printf ".toList

def formatsOf : (pieces : List (List Char)) → List (List Char)
  | before :: format :: next :: rest =>
      if formatCall <:+ before then format :: formatsOf (next :: rest)
      else formatsOf (format :: next :: rest)
  | _ => []

/-- The format strings in single quotes that a text gives to `printf`. -/
def formats (text : List Char) : List (List Char) :=
  formatsOf (text.splitOn '\'')

/-! Pieces between single quotes. -/

theorem exists_lastPiece (text : List Char) :
    ∃ pieces last, '\'' ∉ last ∧ (last = [] ∨ last.getLast? = text.getLast?) ∧
      ∀ more, (text ++ more).splitOn '\'' = pieces ++ (last ++ more).splitOn '\'' := by
  by_cases quoted : '\'' ∈ text.reverse
  · obtain ⟨back, front, parted, free⟩ := List.eq_append_cons_of_mem quoted
    have whole : text = front.reverse ++ '\'' :: back.reverse := by
      rw [← List.reverse_reverse text, parted]
      simp
    refine ⟨front.reverse.splitOn '\'', back.reverse, by simpa using free, ?_, fun more => ?_⟩
    · by_cases empty : back = []
      · exact .inl (by simp [empty])
      · right
        rw [whole, List.getLast?_append_cons, List.getLast?_cons_of_ne_nil (by simpa using empty)]
    · rw [whole, List.append_assoc, List.cons_append]
      exact List.splitOn_append_cons_self _ _
  · exact ⟨[], text, by simpa using quoted, .inr rfl, fun more => rfl⟩

theorem exists_firstPiece (text : List Char) :
    ∃ first pieces, '\'' ∉ first ∧
      (first = text ∧ pieces = [] ∨ ∃ more, text = first ++ '\'' :: more) ∧
      ∀ lead, '\'' ∉ lead → (lead ++ text).splitOn '\'' = (lead ++ first) :: pieces := by
  by_cases quoted : '\'' ∈ text
  · obtain ⟨first, more, rfl, free⟩ := List.eq_append_cons_of_mem quoted
    refine ⟨first, more.splitOn '\'', free, .inr ⟨more, rfl⟩, fun lead plain => ?_⟩
    have single : '\'' ∉ lead ++ first := by simp [plain, free]
    rw [← List.append_assoc]
    exact List.splitOn_append_cons_self_of_not_mem single more
  · refine ⟨text, [], quoted, .inl ⟨rfl, rfl⟩, fun lead plain => ?_⟩
    exact List.splitOn_eq_singleton (by simp [plain, quoted])

/-! Rewrites between two quotes. -/

section Rewrite

variable {before rest stretch replacement : List Char}

theorem Rewrite.narrow (rewrite : Rewrite before rest stretch replacement) {lead more : List Char}
    (starts : lead = [] ∨ lead.getLast? = before.getLast?)
    (ends : more = [] ∨ more.head? = rest.head?) : Rewrite lead more stretch replacement := by
  have front {accepts : Char → Bool} (apart : isThere accepts before.getLast? = false) :
      isThere accepts lead.getLast? = false := by
    rcases starts with rfl | same
    · rfl
    · rwa [same]
  have back {accepts : Char → Bool} (apart : isThere accepts rest.head? = false) :
      isThere accepts more.head? = false := by
    rcases ends with rfl | same
    · rfl
    · rwa [same]
  cases rewrite with
  | unbraced long short paired ends => exact .unbraced long short paired (back ends)
  | shortened long short paired starts ends =>
      exact .shortened long short paired (front starts) (back ends)
  | command lookup name known named apart =>
      exact .command lookup name known named ⟨front apart.1, back apart.2⟩
  | homeDirectory name named => exact .homeDirectory name named
  | clock => exact .clock
  | contents name variableText named quoted => exact .contents name variableText named quoted
  | status apart => exact .status ⟨front apart.1, back apart.2⟩
  | test flag opening name variableText known named quoted apart =>
      exact .test flag opening name variableText known named quoted ⟨front apart.1, back apart.2⟩
  | blankLine line blank single broken =>
      refine .blankLine line blank single ?_
      rcases ends with rfl | same
      · exact .inl rfl
      · rcases broken with rfl | newline
        · exact .inl (List.head?_eq_none_iff.mp same)
        · exact .inr (same.trans newline)

theorem Rewrite.quote_not_mem (rewrite : Rewrite before rest stretch replacement) :
    '\'' ∉ stretch ∧ '\'' ∉ replacement := by
  cases rewrite with
  | unbraced long short paired | shortened long short paired =>
      have words := isRun_of_mem_shortNames long short paired
      have freeLong := words.1.not_mem (c := '\'') (by decide)
      have freeShort := words.2.not_mem (c := '\'') (by decide)
      simp [freeLong, freeShort]
  | command lookup name known named =>
      have free := named.not_mem (c := '\'') (by decide)
      simp only [commandLookups, List.mem_cons, List.not_mem_nil, or_false] at known
      rcases known with rfl | rfl <;> simp [free]
  | homeDirectory name named => simp [named.not_mem (c := '\'') (by decide)]
  | clock => decide
  | contents name variableText named quoted =>
      have free := named.not_mem (c := '\'') (by decide)
      have inner := quoted.not_mem named (c := '\'') (by decide) (by decide)
      simp [free, inner]
  | status => decide
  | test flag opening name variableText known named quoted =>
      have free := named.not_mem (c := '\'') (by decide)
      have inner := quoted.not_mem named (c := '\'') (by decide) (by decide)
      have plain : ∀ test ∈ variableTests, '\'' ∉ test.1 ∧ '\'' ∉ test.2 := by decide
      obtain ⟨freeFlag, freeOpening⟩ := plain _ known
      simp [free, inner, freeFlag, freeOpening]
  | blankLine line blank =>
      have free := not_mem_of_blank blank (by decide : Text.isBlank '\'' = false)
      simp [free]

/-! Calls before a quote. -/

def EndsApart (stretch rest : List Char) : Prop :=
  ∀ lead call, call ++ rest = formatCall → call ≠ [] → ¬ call <:+ lead ++ stretch

theorem EndsApart.suffix_iff (apart : EndsApart stretch rest) (lead : List Char) :
    formatCall <:+ lead ++ stretch ++ rest ↔ formatCall <:+ rest := by
  constructor
  · intro here
    rcases List.suffix_or_suffix_of_suffix here (List.suffix_append _ rest) with inside | ⟨call, shape⟩
    · exact inside
    · by_cases empty : call = []
      · exact ⟨[], by rw [← shape, empty]; rfl⟩
      · obtain ⟨front, whole⟩ := here
        rw [← shape, ← List.append_assoc] at whole
        exact absurd ⟨front, List.append_cancel_right whole⟩ (apart lead call shape empty)
  · exact fun inside => inside.trans (List.suffix_append _ rest)

theorem EndsApart.of_last {c : Char} (last : stretch.getLast? = some c) (foreign : c ∉ formatCall) :
    EndsApart stretch rest := by
  intro lead call shape present here
  have nonempty : stretch ≠ [] := by
    rintro rfl
    cases last
  have same : call.getLast present = c := by
    rw [List.getLast?_eq_some_getLast nonempty] at last
    rw [here.getLast present, List.getLast_append_of_ne_nil _ nonempty, Option.some.inj last]
  have member : call.getLast present ∈ formatCall := by
    rw [← shape]
    exact List.mem_append_left rest (List.getLast_mem present)
  exact foreign (same ▸ member)

theorem EndsApart.of_name {name : List Char} (named : IsRun Text.isWord name)
    (long : 2 ≤ name.length) (other : ¬ ['t', 'f'] <:+ name)
    (ends : isThere Text.isWord rest.head? = false) : EndsApart name rest := by
  intro lead call shape present here
  have parts : ∀ n < 8, 0 < n → isThere Text.isWord (formatCall.drop n).head? = false →
      ['t', 'f'] <:+ formatCall.take n ∨ (formatCall.take n).getLast? = some ' ' := by
    decide
  have bound : call.length < 8 := by
    have total := congrArg List.length shape
    rw [List.length_append] at total
    exact Nat.lt_succ_of_le ((Nat.le_add_right _ _).trans_eq total)
  have front : formatCall.take call.length = call := by rw [← shape, List.take_left]
  have back : formatCall.drop call.length = rest := by rw [← shape, List.drop_left]
  rcases parts call.length bound (List.length_pos_of_ne_nil present) (back ▸ ends) with cut | whole
  · rw [front] at cut
    exact other (List.suffix_of_suffix_length_le (cut.trans here) (List.suffix_append lead name) long)
  · rw [front, List.getLast?_eq_some_getLast present, here.getLast present,
      List.getLast_append_of_ne_nil _ named.1] at whole
    have word := named.2 _ (List.getLast_mem named.1)
    rw [Option.some.inj whole] at word
    exact absurd word (by decide)

theorem EndsApart.of_mem_shortNames {long short : String} (paired : (long, short) ∈ shortNames)
    (ends : isThere Text.isWord rest.head? = false) :
    EndsApart long.toList rest ∧ EndsApart short.toList rest := by
  have all : ∀ words ∈ shortNames.map fun names => (names.1.toList, names.2.toList),
      (2 ≤ words.1.length ∧ ¬ ['t', 'f'] <:+ words.1) ∧
        2 ≤ words.2.length ∧ ¬ ['t', 'f'] <:+ words.2 := by
    simp only [shortNames, List.map_cons, List.map_nil]
    repeat rw [String.toList_ofList]
    decide
  obtain ⟨⟨longLength, longEnd⟩, shortLength, shortEnd⟩ := all _ (List.mem_map_of_mem paired)
  have words := isRun_of_mem_shortNames long short paired
  exact ⟨.of_name words.1 longLength longEnd ends, .of_name words.2 shortLength shortEnd ends⟩

theorem EndsApart.of_newline (newline : rest.head? = some '\n') : EndsApart stretch rest := by
  intro lead call shape present here
  have member : '\n' ∈ rest := List.mem_of_head? newline
  have foreign : '\n' ∉ formatCall := by decide
  exact foreign (shape ▸ List.mem_append_right call member)

theorem EndsApart.prepend (apart : EndsApart stretch rest) (lead : List Char) :
    EndsApart (lead ++ stretch) rest := by
  intro front call shape present here
  rw [← List.append_assoc] at here
  exact apart (front ++ lead) call shape present here

theorem EndsApart.of_append {tail : List Char} {c : Char} (lead : List Char)
    (last : tail.getLast? = some c) (foreign : c ∉ formatCall) : EndsApart (lead ++ tail) rest :=
  .of_last (getLast?_append_of_some lead last) foreign

theorem Rewrite.endsApart {more others : List Char}
    (rewrite : Rewrite before (more ++ '\'' :: others) stretch replacement) :
    EndsApart stretch more ∧ EndsApart replacement more := by
  have bracket : ']' ∉ formatCall := by decide
  have brace : '\x7d' ∉ formatCall := by decide
  have close : ')' ∉ formatCall := by decide
  have back (ends : isThere Text.isWord (more ++ '\'' :: others).head? = false) :
      isThere Text.isWord more.head? = false := by
    cases more with
    | nil => rfl
    | cons c rest => exact ends
  cases rewrite with
  | unbraced long short paired ends =>
      have apart := (EndsApart.of_mem_shortNames paired (back ends)).2
      exact ⟨.of_append _ (by decide) brace, apart.prepend ['$']⟩
  | shortened long short paired starts ends => exact EndsApart.of_mem_shortNames paired (back ends)
  | command lookup name known named =>
      exact ⟨.of_append _ (by decide) bracket, .of_append _ (by decide) (by decide : '1' ∉ _)⟩
  | homeDirectory name named => exact ⟨.of_append _ (by decide) close, .of_append _ (by decide) brace⟩
  | clock => exact ⟨.of_last (by decide) close, .of_last (by decide) brace⟩
  | contents name variableText named quoted =>
      exact ⟨.of_append _ (by decide) close, .of_append _ (by decide) close⟩
  | status => exact ⟨.of_append _ (by decide) bracket, .of_last (by decide) close⟩
  | test flag opening name variableText known named quoted =>
      exact ⟨.of_append _ (by decide) bracket, .of_append _ (by decide) bracket⟩
  | blankLine line blank single ends =>
      have newline : more.head? = some '\n' := by
        have there := ends.resolve_left (by simp)
        cases more with
        | nil => exact absurd there (by simp)
        | cons c rest => exact there
      exact ⟨.of_newline newline, .of_newline newline⟩

end Rewrite

/-! Format by format. -/

theorem formatsOf_cons_cons (before format : List Char) {rest : List (List Char)}
    (present : rest ≠ []) :
    formatsOf (before :: format :: rest) =
      if formatCall <:+ before then format :: formatsOf rest else formatsOf (format :: rest) := by
  obtain ⟨next, more, rfl⟩ := List.exists_cons_of_ne_nil present
  exact formatsOf.eq_1 before format next more

section Change

variable {piece changed : List Char} {behind : List (List Char)}
  (same : behind ≠ [] → (formatCall <:+ piece ↔ formatCall <:+ changed))

include same

theorem formatsOf_change_first : formatsOf (piece :: behind) = formatsOf (changed :: behind) := by
  match behind with
  | [] => rfl
  | [_] => rfl
  | format :: next :: rest =>
      have calls : formatCall <:+ piece ↔ formatCall <:+ changed := same (by simp)
      simp only [formatsOf, calls]

/-- A change in one piece changes at most one format string, as long as it keeps the call before the
next quote. -/
theorem formatsOf_change (step : Rewriting piece changed) (pieces : List (List Char)) :
    List.Forall₂ (Relation.ReflGen Rewriting) (formatsOf (pieces ++ piece :: behind))
      (formatsOf (pieces ++ changed :: behind)) := by
  have still (texts : List (List Char)) : List.Forall₂ (Relation.ReflGen Rewriting) texts texts :=
    List.forall₂_refl texts
  induction pieces using List.twoStepInduction with
  | nil =>
      have first := formatsOf_change_first same
      rw [List.nil_append, List.nil_append, first]
      exact still _
  | singleton before =>
      by_cases last : behind = []
      · subst last
        exact .nil
      · rw [List.singleton_append, List.singleton_append, formatsOf_cons_cons before piece last,
          formatsOf_cons_cons before changed last, formatsOf_change_first same]
        split
        · exact .cons (.single step) (still _)
        · exact still _
  | cons_cons before format more ih later =>
      simp only [List.cons_append] at later ⊢
      rw [formatsOf_cons_cons before format (by simp), formatsOf_cons_cons before format (by simp)]
      split
      · exact .cons .refl ih
      · exact later format

end Change

theorem Rewriting.formats {text changed : List Char} (step : Rewriting text changed) :
    List.Forall₂ (Relation.ReflGen Rewriting) (formats text) (formats changed) := by
  obtain ⟨before, rest, stretch, replacement, rewrite, rfl, rfl⟩ := step
  obtain ⟨pieces, lead, leadFree, leadEnd, split⟩ := exists_lastPiece before
  obtain ⟨more, behind, moreFree, shape, parted⟩ := exists_firstPiece rest
  obtain ⟨stretchFree, replacementFree⟩ := rewrite.quote_not_mem
  have whole {middle : List Char} (free : '\'' ∉ middle) :
      (before ++ middle ++ rest).splitOn '\'' = pieces ++ (lead ++ middle ++ more) :: behind := by
    rw [List.append_assoc, split, ← List.append_assoc, parted _ (by simp [leadFree, free])]
  have moreStart : more = [] ∨ more.head? = rest.head? := by
    rcases shape with ⟨rfl, -⟩ | ⟨others, rfl⟩
    · exact .inr rfl
    · cases more with
      | nil => exact .inl rfl
      | cons c others => exact .inr rfl
  have narrow := rewrite.narrow leadEnd moreStart
  rw [StatusLine.Shortening.formats, StatusLine.Shortening.formats, whole stretchFree,
    whole replacementFree]
  refine formatsOf_change (fun inside => ?_) ⟨lead, more, stretch, replacement, narrow, rfl, rfl⟩ pieces
  rcases shape with ⟨-, last⟩ | ⟨others, rfl⟩
  · exact absurd last inside
  · obtain ⟨old, new⟩ := rewrite.endsApart
    rw [old.suffix_iff lead, new.suffix_iff lead]

theorem rewritten_each {texts middle changed : List (List Char)}
    (chains : List.Forall₂ Rewritten texts middle)
    (steps : List.Forall₂ (Relation.ReflGen Rewriting) middle changed) :
    List.Forall₂ Rewritten texts changed := by
  induction chains generalizing changed with
  | nil =>
      cases steps
      exact .nil
  | cons chain chains ih =>
      cases steps with
      | cons step steps => exact .cons (chain.trans step.to_reflTransGen) (ih steps)

/-- Rewriting keeps the number and the order of the format strings, and acts on each of them by
itself. -/
theorem formats_rewritten {text changed : List Char} (chain : Rewritten text changed) :
    List.Forall₂ Rewritten (formats text) (formats changed) := by
  induction chain with
  | refl => exact List.forall₂_refl _
  | tail _ last ih => exact rewritten_each ih last.formats

theorem formats_optimize (options : Options) (text : List Char) :
    List.Forall₂ Rewritten (formats text) (formats (optimize options text).text) :=
  formats_rewritten (optimize_rewritten options text)

end StatusLine.Shortening

import StatusLine.Document.Scan
import StatusLine.Proofs.Results

/-!
Scanning goes through a text from its start to its end, so that what is read at a place stands in
the text. Hence a failure that scanning lets out is the one that cuts the text off, or it comes from
what is written there: the number of no character behind a backslash, or a number that is too long.
-/

namespace StatusLine.Document

structure Follows (after before : Cursor) : Prop where
  rest : after.rest <:+ before.rest
  cut : after.cut = before.cut

namespace Follows

theorem refl (place : Cursor) : Follows place place :=
  ⟨List.suffix_refl _, rfl⟩

theorem trans {last middle first : Cursor} (late : Follows last middle)
    (early : Follows middle first) : Follows last first :=
  ⟨late.rest.trans early.rest, late.cut.trans early.cut⟩

theorem advance (place : Cursor) : Follows place.advance place := by
  unfold Cursor.advance
  split
  · exact .refl place
  · next c rest shape =>
    have behind : rest <:+ place.rest := shape ▸ List.suffix_cons c rest
    dsimp only
    split
    · exact ⟨behind, rfl⟩
    · split <;> exact ⟨behind, rfl⟩

theorem skip (count : Nat) (place : Cursor) : Follows (place.skip count) place := by
  induction count generalizing place with
  | zero => exact .refl place
  | succ count ih => exact (ih _).trans (.advance place)

end Follows

def EscapesBeyond (text : List Char) (failure : Failure) : Prop :=
  ∃ mark digits, escapeWidth mark = some digits.length ∧ '\\' :: mark :: digits <:+: text ∧
    characterAt (Decimal.digitsValue 16 digits) = .error (.unusable failure)

inductive Stems (place : Cursor) : Failure → Prop
  | cut {failure : Failure} : place.cut = some (.unusable failure) → Stems place failure
  | escape {failure : Failure} : EscapesBeyond place.rest failure → Stems place failure
  | number {digits : List Char} : digits <:+: place.rest → digits.all Text.isAsciiDigit = true →
      mostDigits < digits.length → Stems place (tooManyDigits digits.length)
  | depth : Stems place tooDeep

theorem Stems.of_follows {after before : Cursor} {failure : Failure} (stems : Stems after failure)
    (follows : Follows after before) : Stems before failure := by
  cases stems with
  | cut same => exact .cut (follows.cut ▸ same)
  | escape beyond =>
      obtain ⟨mark, digits, wide, inside, refused⟩ := beyond
      exact .escape ⟨mark, digits, wide, inside.trans follows.rest.isInfix, refused⟩
  | number inside digits long => exact .number (inside.trans follows.rest.isInfix) digits long
  | depth => exact .depth

/-- What a step comes to: it goes on in the text, or the text is refused, or there is a failure that
stems from the text ahead. -/
inductive ReadsAt {σ α : Type} (here : σ → Cursor) (step : StateT σ (Except Fault) α) (before : σ) :
    Prop
  | reads (found : α) (after : σ) (read : step before = .ok (found, after))
      (follows : Follows (here after) (here before))
  | malformed (refused : step before = .error .malformed)
  | fails (failure : Failure) (failed : step before = .error (.unusable failure))
      (stems : Stems (here before) failure)

def ReadsOn {σ α : Type} (here : σ → Cursor) (step : StateT σ (Except Fault) α) : Prop :=
  ∀ before, ReadsAt here step before

section Steps

variable {σ τ α β : Type} {here : σ → Cursor} {step : StateT σ (Except Fault) α} {before : σ}

theorem ReadsAt.stems (reads : ReadsAt here step before) {failure : Failure}
    (failed : step before = .error (.unusable failure)) : Stems (here before) failure := by
  cases reads with
  | reads _ _ same _ => cases same.symm.trans failed
  | malformed same => cases same.symm.trans failed
  | fails _ same stems =>
      cases same.symm.trans failed
      exact stems

theorem ReadsAt.ofExcept {result : Except Fault α}
    (stems : ∀ failure, result = .error (.unusable failure) → Stems (here before) failure) :
    ReadsAt here (Document.ofExcept result) before := by
  cases result with
  | ok value => exact .reads value before rfl (.refl _)
  | error fault =>
      cases fault with
      | malformed => exact .malformed rfl
      | unusable failure => exact .fails failure rfl (stems failure rfl)

theorem ReadsAt.bind {next : α → StateT σ (Except Fault) β} (first : ReadsAt here step before)
    (rest : ∀ found after, step before = .ok (found, after) → ReadsAt here (next found) after) :
    ReadsAt here (step >>= next) before := by
  have unfolds : (step >>= next) before = step before >>= fun pair => next pair.1 pair.2 := rfl
  cases first with
  | reads found after read follows =>
      have goesOn : (step >>= next) before = next found after := by rw [unfolds, read]; rfl
      cases rest found after read with
      | reads value last later behind =>
          exact .reads value last (goesOn.trans later) (behind.trans follows)
      | malformed refused => exact .malformed (goesOn.trans refused)
      | fails failure failed stems =>
          exact .fails failure (goesOn.trans failed) (stems.of_follows follows)
  | malformed refused => exact .malformed (by rw [unfolds, refused]; rfl)
  | fails failure failed stems => exact .fails failure (by rw [unfolds, failed]; rfl) stems

theorem bind_refuse_ne_ok (step : StateT σ (Except Fault) α) (found : β × σ) :
    (step >>= fun _ => (refuse : StateT σ (Except Fault) β)) before ≠ .ok found := by
  have unfolds : (step >>= fun _ => (refuse : StateT σ (Except Fault) β)) before =
      step before >>= fun _ => .error .malformed := rfl
  rw [unfolds]
  cases step before <;> exact fun same => nomatch same

namespace ReadsOn

theorem pure (value : α) : ReadsOn here (Pure.pure value) :=
  fun before => .reads value before rfl (.refl _)

theorem refuse : ReadsOn here (Document.refuse : StateT σ (Except Fault) α) :=
  fun _ => .malformed rfl

theorem get : ReadsOn here (MonadState.get : StateT σ (Except Fault) σ) :=
  fun before => .reads before before rfl (.refl _)

theorem modify {change : σ → σ} (follows : ∀ state, Follows (here (change state)) (here state)) :
    ReadsOn here (modify change : StateT σ (Except Fault) Unit) :=
  fun before => .reads () (change before) rfl (follows before)

theorem bind (first : ReadsOn here step) {next : α → StateT σ (Except Fault) β}
    (rest : ∀ found, ReadsOn here (next found)) : ReadsOn here (step >>= next) :=
  fun before => (first before).bind fun found after _ => rest found after

theorem ite {p : Prop} [Decidable p] {otherwise : StateT σ (Except Fault) α}
    (yes : ReadsOn here step) (no : ReadsOn here otherwise) :
    ReadsOn here (if p then step else otherwise) := by
  split
  · exact yes
  · exact no

theorem onPart {part : τ → σ} {put : σ → τ → τ} (reads : ReadsOn here step)
    (keeps : ∀ after whole, part (put after whole) = after) :
    ReadsOn (fun whole => here (part whole)) (onPart part put step) := by
  intro before
  cases reads (part before) with
  | reads found after read follows =>
      exact .reads found (put after before) (by rw [Document.onPart, read]; rfl)
        (by rwa [keeps])
  | malformed refused => exact .malformed (by rw [Document.onPart, refused]; rfl)
  | fails failure failed stems => exact .fails failure (by rw [Document.onPart, failed]; rfl) stems

end ReadsOn

end Steps

namespace Scanner

abbrev Reads {α : Type} (scanner : Scanner α) : Prop :=
  ReadsOn (fun place => place) scanner

theorem reads_look (ahead : Nat) : Reads (look ahead) := by
  intro place
  cases there : place.rest[ahead]? with
  | some c => exact .reads c place (by simp [look, there]) (.refl _)
  | none =>
      cases why : place.cut with
      | none => exact .reads '\x00' place (by simp [look, there, why]) (.refl _)
      | some fault =>
          have failed : look ahead place = .error fault := by simp [look, there, why]
          cases fault with
          | malformed => exact .malformed failed
          | unusable failure => exact .fails failure failed (.cut why)

theorem look_eq_ok {ahead : Nat} {place after : Cursor} {c : Char}
    (read : look ahead place = .ok (c, after)) :
    after = place ∧ (c ≠ '\x00' → place.rest[ahead]? = some c) := by
  unfold look at read
  split at read
  · next there =>
    obtain ⟨rfl, rfl⟩ := Prod.mk.inj (Except.ok.inj read)
    exact ⟨rfl, fun _ => there⟩
  · obtain ⟨rfl, rfl⟩ := Prod.mk.inj (Except.ok.inj read)
    exact ⟨rfl, fun shown => absurd rfl shown⟩
  · cases read

theorem reads_forward (count : Nat) : Reads (forward count) :=
  .bind (reads_look _) fun _ => .modify fun place => .skip count place

theorem reads_takeWhile (passes : Char → Bool) : Reads (takeWhile passes) :=
  .bind .get fun _ => .bind (reads_forward _) fun _ => .pure _

theorem reads_skipWhile (passes : Char → Bool) : Reads (skipWhile passes) :=
  .bind (reads_takeWhile _) fun _ => .pure _

theorem reads_skipSpaces : Reads skipSpaces :=
  reads_skipWhile _

theorem reads_skipSpacesTo (column : Nat) : Reads (skipSpacesTo column) :=
  .bind .get fun _ => reads_forward _

theorem reads_skipComment : Reads skipComment :=
  .bind (reads_look 0) fun _ => .ite (reads_skipWhile _) (.pure _)

theorem reads_takeBreak : Reads takeBreak :=
  .bind (reads_look 0) fun _ => .ite (.bind (reads_forward 1) fun _ => .pure _) (.pure _)

theorem reads_isMarked (mark : Char) : Reads (isMarked mark) :=
  .bind (reads_look 2) fun _ => .bind (reads_look 0) fun _ => .bind (reads_look 1) fun _ =>
    .ite (.bind (reads_look 3) fun _ => .pure _) (.pure _)

theorem reads_isDocumentMark : Reads isDocumentMark :=
  .bind (reads_isMarked _) fun _ => .ite (.pure _) (reads_isMarked _)

theorem reads_finishLine : Reads finishLine :=
  .bind reads_skipSpaces fun _ => .bind reads_skipComment fun _ => .bind (reads_look 0) fun _ =>
    .ite (.bind reads_takeBreak fun _ => .pure _) .refuse

/-! ### Scalars between quotes -/

theorem reads_lookHex (ahead width : Nat) : Reads (lookHex ahead width) :=
  .bind .get fun _ => .ite (.pure _) (.bind (reads_look _) fun _ => .refuse)

theorem lookHex_eq_ok {ahead width point : Nat} {place after : Cursor}
    (read : lookHex ahead width place = .ok (point, after)) :
    after = place ∧ ∃ digits, digits <+: place.rest.drop ahead ∧ digits.length = width ∧
      point = Decimal.digitsValue 16 digits := by
  let digits := ((place.rest.drop ahead).take width).takeWhile isHexDigit
  have unfolds : lookHex ahead width place =
      (if digits.length == width then Pure.pure (Decimal.digitsValue 16 digits)
        else look (ahead + digits.length) >>= fun _ => refuse) place := rfl
  rw [unfolds] at read
  split at read
  · next long =>
    obtain ⟨rfl, rfl⟩ := Prod.mk.inj (Except.ok.inj read)
    exact ⟨rfl, digits, (List.takeWhile_prefix _).trans (List.take_prefix _ _), eq_of_beq long, rfl⟩
  · exact absurd read (bind_refuse_ne_ok _ _)

theorem reads_takeQuotedBreaks (fuel : Nat) : Reads (takeQuotedBreaks fuel) := by
  induction fuel with
  | zero => exact .refuse
  | succ fuel ih =>
      exact .bind reads_isDocumentMark fun _ => .ite .refuse <| .bind (reads_skipWhile _) fun _ =>
        .bind (reads_look 0) fun _ =>
          .ite (.bind reads_takeBreak fun _ => .bind ih fun _ => .pure _) (.pure _)

theorem reads_takeQuotedSpaces : Reads takeQuotedSpaces :=
  .bind (reads_takeWhile _) fun _ => .bind (reads_look 0) fun _ => .ite .refuse <|
    .ite (.bind reads_takeBreak fun _ => .bind .get fun _ =>
      .bind (reads_takeQuotedBreaks _) fun _ => .pure _) (.pure _)

theorem escapesBeyond_of_digits {text digits : List Char} {mark : Char} {failure : Failure}
    (slash : text.head? = some '\\') (there : text[1]? = some mark)
    (wide : escapeWidth mark = some digits.length) (behind : digits <+: text.drop 2)
    (refused : characterAt (Decimal.digitsValue 16 digits) = .error (.unusable failure)) :
    EscapesBeyond text failure := by
  match text with
  | [] => cases slash
  | [_] => cases there
  | first :: second :: rest =>
      obtain rfl := Option.some.inj slash
      obtain rfl := Option.some.inj there
      exact ⟨second, digits, wide, List.IsPrefix.isInfix
        (List.cons_prefix_cons.mpr ⟨rfl, List.cons_prefix_cons.mpr ⟨rfl, behind⟩⟩), refused⟩

theorem readsAt_takeEscape {place : Cursor} (slash : place.rest.head? = some '\\') :
    ReadsAt (fun place => place) takeEscape place := by
  refine .bind (reads_look 1 place) fun mark after marked => ?_
  obtain ⟨rfl, there⟩ := look_eq_ok marked
  split
  · exact (ReadsOn.bind (reads_forward 2) fun _ => .pure _) after
  · next width _ wide =>
    refine .bind (reads_lookHex 2 width after) fun point place read => ?_
    obtain ⟨rfl, digits, behind, rfl, rfl⟩ := lookHex_eq_ok read
    have shown : mark ≠ '\x00' := by
      rintro rfl
      cases wide
    refine .bind (.ofExcept fun failure refused => .escape ?_) fun character place _ => ?_
    · exact escapesBeyond_of_digits slash (there shown) wide behind refused
    · exact (ReadsOn.bind (reads_forward _) fun _ => .pure _) place
  · exact (ReadsOn.ite (.bind (reads_forward 1) fun _ => .bind reads_takeBreak fun _ =>
      .bind .get fun _ => reads_takeQuotedBreaks _) .refuse) after

theorem reads_isDoubled : Reads isDoubled :=
  .bind (reads_look 0) fun _ => .ite (.bind (reads_look 1) fun _ => .pure _) (.pure _)

theorem reads_takeQuotedWord (quote : Char) (fuel : Nat) : Reads (takeQuotedWord quote fuel) := by
  induction fuel with
  | zero => exact .refuse
  | succ fuel ih =>
      intro place
      refine .bind (reads_look 0 place) fun c after looked => ?_
      obtain ⟨rfl, there⟩ := look_eq_ok looked
      split
      · exact ReadsOn.pure _ _
      split
      · next escaped =>
        obtain rfl : c = '\\' := by simp_all
        have slash : after.rest.head? = some '\\' := List.head?_eq_getElem? ▸ there (by decide)
        exact .bind (readsAt_takeEscape slash) fun _ place _ =>
          (ReadsOn.bind ih fun _ => .pure _) place
      split
      · have doubled : Reads (if quote == '\'' then isDoubled else Pure.pure false) :=
          .ite reads_isDoubled (.pure _)
        exact (ReadsOn.bind doubled fun _ => .ite (.bind (reads_forward 2) fun _ =>
          .bind ih fun _ => .pure _) (.pure _)) after
      · exact (ReadsOn.bind (reads_forward 1) fun _ => .bind ih fun _ => .pure _) after

theorem reads_takeQuotedParts (quote : Char) (fuel : Nat) :
    Reads (takeQuotedParts quote fuel) := by
  induction fuel with
  | zero => exact .refuse
  | succ fuel ih =>
      exact .bind (reads_look 0) fun _ => .ite (.bind (reads_forward 1) fun _ => .pure _) <|
        .bind reads_takeQuotedSpaces fun _ => .bind .get fun _ =>
          .bind (reads_takeQuotedWord _ _) fun _ => .bind ih fun _ => .pure _

theorem reads_takeQuoted : Reads takeQuoted :=
  .bind (reads_look 0) fun _ => .bind (reads_forward 1) fun _ => .bind .get fun _ =>
    .bind (reads_takeQuotedWord _ _) fun _ => .bind .get fun _ =>
      .bind (reads_takeQuotedParts _ _) fun _ => .pure _

/-! ### Blocks -/

theorem reads_takeIncrement : Reads takeIncrement :=
  .bind (reads_look 0) fun _ => .ite .refuse <|
    .ite (.bind (reads_forward 1) fun _ => .pure _) (.pure _)

theorem reads_takeChomping : Reads takeChomping := by
  refine .bind (reads_look 0) fun c => ?_
  split
  · exact .bind (reads_forward 1) fun _ => .pure _
  · exact .pure _

theorem reads_takeBlockHeader : Reads takeBlockHeader := by
  refine .bind reads_takeChomping fun early => .bind reads_takeIncrement fun increment => ?_
  extract_lets finished
  have finishes (sign : Option Chomping) : Reads (finished sign) :=
    .bind (reads_look 0) fun _ => .ite (.pure _) .refuse
  split
  · exact .bind (.pure _) finishes
  · exact .bind reads_takeChomping finishes

theorem reads_takeBlockIndentation (fuel deepest : Nat) :
    Reads (takeBlockIndentation fuel deepest) := by
  induction fuel generalizing deepest with
  | zero => exact .pure _
  | succ fuel ih =>
      exact .bind (reads_look 0) fun _ =>
        .ite (.bind (reads_forward 1) fun _ => .bind .get fun _ => ih _) <|
        .ite (.bind reads_takeBreak fun _ => .bind (ih _) fun _ => .pure _) (.pure _)

theorem reads_takeBlockBreaks (indent fuel : Nat) : Reads (takeBlockBreaks indent fuel) := by
  induction fuel with
  | zero => exact .pure _
  | succ fuel ih =>
      exact .bind (reads_skipSpacesTo _) fun _ => .bind (reads_look 0) fun _ =>
        .ite (.bind reads_takeBreak fun _ => .bind ih fun _ => .pure _) (.pure _)

theorem reads_isBlockLine (indent : Nat) : Reads (isBlockLine indent) :=
  .bind .get fun _ => .bind (reads_look 0) fun _ => .pure _

theorem reads_takeBlockLines (folded : Bool) (chomping : Chomping) (indent fuel : Nat)
    (breaks : List Char) : Reads (takeBlockLines folded chomping indent fuel breaks) := by
  induction fuel generalizing breaks with
  | zero => exact .pure _
  | succ fuel ih =>
      exact .bind (reads_look 0) fun _ => .bind (reads_takeWhile _) fun _ =>
        .bind reads_takeBreak fun _ => .bind .get fun _ => .bind (reads_takeBlockBreaks _ _) fun _ =>
        .bind (reads_isBlockLine _) fun _ =>
          .ite (.bind (reads_look 0) fun _ => .bind (ih _) fun _ => .pure _) (.pure _)

theorem reads_takeBlockStart (least : Nat) (increment : Option Nat) :
    Reads (takeBlockStart least increment) := by
  refine .bind .get fun place => ?_
  cases increment with
  | some digit => exact .bind (reads_takeBlockBreaks _ _) fun _ => .pure _
  | none => exact .bind (reads_takeBlockIndentation _ _) fun _ => .pure _

theorem reads_takeBlock (outer : Int) : Reads (takeBlock outer) :=
  .bind (reads_look 0) fun _ => .bind (reads_forward 1) fun _ => .bind reads_takeBlockHeader fun _ =>
    .bind reads_finishLine fun _ => .bind (reads_takeBlockStart _ _) fun _ =>
    .bind (reads_isBlockLine _) fun _ =>
      .ite (.bind .get fun _ => reads_takeBlockLines _ _ _ _ _) (.pure _)

/-! ### Plain scalars -/

theorem reads_endsPlain (inFlow : Bool) : Reads (endsPlain inFlow) :=
  .bind (reads_look 0) fun _ => .ite (.bind (reads_look 1) fun _ => .pure _) (.pure _)

theorem reads_takePlainWord (inFlow : Bool) (fuel : Nat) : Reads (takePlainWord inFlow fuel) := by
  induction fuel with
  | zero => exact .pure _
  | succ fuel ih =>
      exact .bind (reads_endsPlain _) fun _ => .ite (.pure _) <| .bind (reads_look 0) fun _ =>
        .bind (reads_forward 1) fun _ => .bind ih fun _ => .pure _

theorem reads_takePlainBreaks (fuel : Nat) : Reads (takePlainBreaks fuel) := by
  induction fuel with
  | zero => exact .pure _
  | succ fuel ih =>
      exact .bind (reads_look 0) fun _ => .ite (.bind (reads_forward 1) fun _ => ih) <|
        .ite (.bind reads_takeBreak fun _ => .bind reads_isDocumentMark fun _ =>
          .ite (.pure _) (.bind ih fun _ => .pure _)) (.pure _)

theorem reads_takePlainSpaces : Reads takePlainSpaces :=
  .bind (reads_takeWhile _) fun _ => .bind (reads_look 0) fun _ =>
    .ite (.bind reads_takeBreak fun _ => .bind reads_isDocumentMark fun _ => .ite (.pure _) <|
      .bind .get fun _ => .bind (reads_takePlainBreaks _) fun _ => .pure _) (.pure _)

theorem reads_takePlain (inFlow : Bool) (indent : Int) (fuel : Nat) (blanks : List Char)
    (lineEnded : Bool) : Reads (takePlain inFlow indent fuel blanks lineEnded) := by
  induction fuel generalizing blanks lineEnded with
  | zero => exact .pure _
  | succ fuel ih =>
      exact .bind (reads_look 0) fun _ => .ite (.pure _) <| .bind (reads_endsPlain _) fun _ =>
        .ite (.pure _) <| .bind .get fun _ => .bind (reads_takePlainWord _ _) fun _ =>
        .bind reads_takePlainSpaces fun _ => .bind .get fun _ => .bind (reads_look 0) fun _ =>
          .ite (.pure _) (.bind (ih _ _) fun _ => .pure _)

/-! ### Tokens -/

theorem reads_takeAnchorName : Reads takeAnchorName :=
  .bind (reads_forward 1) fun _ => .bind (reads_takeWhile _) fun _ => .bind (reads_look 0) fun _ =>
    .ite .refuse (.pure _)

theorem reads_takePercentBytes (fuel : Nat) : Reads (takePercentBytes fuel) := by
  induction fuel with
  | zero => exact .refuse
  | succ fuel ih =>
      exact .bind (reads_look 0) fun _ => .ite (.bind (reads_lookHex _ _) fun _ =>
        .bind (reads_forward 3) fun _ => .bind ih fun _ => .pure _) (.pure _)

theorem reads_takeUriParts (fuel : Nat) : Reads (takeUriParts fuel) := by
  induction fuel with
  | zero => exact .refuse
  | succ fuel ih =>
      refine .bind (reads_look 0) fun _ => .ite (.bind .get fun _ =>
        .bind (reads_takePercentBytes _) fun bytes => ?_) <|
          .ite (.bind (reads_forward 1) fun _ => .bind ih fun _ => .pure _) (.pure _)
      split
      · exact .refuse
      · exact .bind ih fun _ => .pure _

theorem reads_takeUri : Reads takeUri :=
  .bind (reads_look 0) fun _ => .ite (.bind .get fun _ => reads_takeUriParts _) .refuse

theorem reads_takeHandle : Reads takeHandle :=
  .bind (reads_look 0) fun _ => .ite .refuse <| .bind (reads_look 1) fun _ =>
    .ite (.bind (reads_forward 1) fun _ => .pure _) <| .bind (reads_forward 1) fun _ =>
    .bind (reads_takeWhile _) fun _ => .bind (reads_look 0) fun _ =>
      .ite (.bind (reads_forward 1) fun _ => .pure _) .refuse

theorem reads_hasHandle : Reads hasHandle :=
  .bind .get fun _ => .bind (reads_look _) fun _ => .pure _

theorem reads_finishTag (name : TagName) : Reads (finishTag name) :=
  .bind (reads_look 0) fun _ => .ite (.pure _) .refuse

theorem reads_takeTag : Reads takeTag := by
  refine .bind (reads_look 1) fun next => .ite (.bind (reads_forward 2) fun _ =>
    .bind reads_takeUri fun _ => .bind (reads_look 0) fun _ =>
      .ite (.bind (reads_forward 1) fun _ => reads_finishTag _) .refuse) <|
    .ite (.bind (reads_forward 1) fun _ => reads_finishTag _) ?_
  extract_lets finished
  have finishes (handle : List Char) : Reads (finished handle) :=
    .bind reads_takeUri fun _ => reads_finishTag _
  exact .bind reads_hasHandle fun _ => .ite (.bind reads_takeHandle finishes)
    (.bind (reads_forward 1) fun _ => .bind (.pure _) finishes)

theorem tooManyDigits_of_numberOf {digits : List Char} {failure : Failure}
    (failed : numberOf digits = .error (.unusable failure)) :
    mostDigits < digits.length ∧ failure = tooManyDigits digits.length := by
  unfold numberOf at failed
  split at failed
  · next long => exact ⟨long, (Fault.unusable.inj (Except.error.inj failed)).symm⟩
  · cases failed

theorem reads_takeNumber : Reads takeNumber := by
  intro place
  refine .bind (ReadsOn.get place) fun before after got => ?_
  obtain ⟨rfl, rfl⟩ := Prod.mk.inj (Except.ok.inj got)
  refine .bind (reads_look _ place) fun _ after looked => ?_
  obtain ⟨rfl, -⟩ := look_eq_ok looked
  split
  · exact .malformed rfl
  · refine .bind (.ofExcept fun failure failed => ?_) fun _ next _ => ?_
    · obtain ⟨long, rfl⟩ := tooManyDigits_of_numberOf failed
      exact .number (List.takeWhile_prefix _).isInfix List.all_takeWhile long
    · exact (ReadsOn.bind (reads_forward _) fun _ => .pure _) next

theorem reads_takeVersion : Reads takeVersion :=
  .bind reads_skipSpaces fun _ => .bind reads_takeNumber fun _ => .bind (reads_look 0) fun _ =>
    .ite .refuse <| .bind (reads_forward 1) fun _ => .bind reads_takeNumber fun _ =>
    .bind (reads_look 0) fun _ => .ite (.pure _) .refuse

theorem reads_takeHandleMeaning : Reads takeHandleMeaning :=
  .bind reads_skipSpaces fun _ => .bind reads_takeHandle fun _ => .bind (reads_look 0) fun _ =>
    .ite .refuse <| .bind reads_skipSpaces fun _ => .bind reads_takeUri fun _ =>
    .bind (reads_look 0) fun _ => .ite (.pure _) .refuse

theorem reads_takeDirectiveBody (name : List Char) : Reads (takeDirectiveBody name) :=
  .ite reads_takeVersion <| .ite reads_takeHandleMeaning <|
    .bind (reads_skipWhile _) fun _ => .pure _

theorem reads_takeDirective : Reads takeDirective :=
  .bind (reads_forward 1) fun _ => .bind (reads_takeWhile _) fun _ => .bind (reads_look 0) fun _ =>
    .ite .refuse <| .bind (reads_takeDirectiveBody _) fun _ => .bind reads_finishLine fun _ =>
      .pure _

theorem reads_startsPlain (inFlow : Bool) : Reads (startsPlain inFlow) :=
  .bind (reads_look 0) fun _ => .ite (.bind (reads_look 1) fun _ => .pure _) (.pure _)

theorem reads_takeQuotedToken : Reads takeQuotedToken :=
  .bind .get fun _ => .bind reads_takeQuoted fun _ => .bind .get fun _ => .pure _

end Scanner

/-! ### Scans -/

namespace Scan

open Scanner

abbrev Scans {α : Type} (step : Scanning α) : Prop :=
  ReadsOn Scan.here step

section Steps

variable {α : Type}

theorem scans_read {scanner : Scanner α} (reads : Reads scanner) : Scans (read scanner) :=
  ReadsOn.onPart reads fun _ _ => rfl

theorem scans_stays {change : Scan → Scan} (stays : ∀ scan, (change scan).here = scan.here) :
    Scans (modify change : Scanning Unit) :=
  .modify fun scan => stays scan ▸ .refl _

theorem scans_push (token : Token) : Scans (push token) :=
  scans_stays fun _ => rfl

theorem scans_insertAt (number : Nat) (token : Token) : Scans (insertAt number token) :=
  scans_stays fun _ => rfl

theorem scans_allowKey (allowed : Bool) : Scans (allowKey allowed) :=
  scans_stays fun _ => rfl

theorem scans_forgetKey : Scans forgetKey :=
  scans_stays fun _ => rfl

theorem scans_indentTo (column : Nat) : Scans (indentTo column) :=
  scans_stays fun _ => rfl

theorem scans_changeLevel (change : Nat → Nat) : Scans (changeLevel change) :=
  scans_stays fun _ => rfl

theorem scans_finish : Scans finish :=
  scans_stays fun _ => rfl

theorem scans_dropKey : Scans dropKey := by
  refine .bind .get fun scan => ?_
  split
  · exact .ite .refuse scans_forgetKey
  · exact .pure _

theorem scans_saveKey : Scans saveKey :=
  .bind .get fun _ => .ite (.bind scans_dropKey fun _ => scans_stays fun _ => rfl) (.pure _)

theorem scans_dropStaleKeys : Scans dropStaleKeys :=
  .bind .get fun _ => .ite .refuse (scans_stays fun _ => rfl)

theorem unwindFrom_here (column : Int) (outer : List Int) (scan : Scan) :
    (unwindFrom column outer scan).here = scan.here := by
  induction outer generalizing scan with
  | nil => rfl
  | cons indent rest ih =>
      unfold unwindFrom
      split
      · exact ih _
      · rfl

theorem scans_unwind (column : Int) : Scans (unwind column) := by
  refine scans_stays fun scan => ?_
  split
  · rfl
  · exact unwindFrom_here _ _ _

theorem scans_deepen (column : Nat) : Scans (deepen column) :=
  .bind .get fun _ => .ite (.bind (scans_indentTo _) fun _ => .pure _) (.pure _)

theorem scans_skipGaps (fuel : Nat) : Scans (skipGaps fuel) := by
  induction fuel with
  | zero => exact .pure _
  | succ fuel ih =>
      exact .bind (scans_read reads_skipSpaces) fun _ => .bind (scans_read reads_skipComment) fun _ =>
        .bind (scans_read reads_takeBreak) fun _ => .ite (.pure _) <| .bind .get fun _ =>
          .ite (.bind (scans_allowKey _) fun _ => ih) ih

theorem scans_skipByteOrderMark : Scans skipByteOrderMark :=
  .bind .get fun _ => .ite (.bind (scans_read (reads_look 0)) fun _ =>
    .ite (scans_read (reads_forward 1)) (.pure _)) (.pure _)

theorem scans_step (count : Nat) (token : Token) : Scans (step count token) :=
  .bind (scans_read (reads_forward _)) fun _ => scans_push _

theorem scans_closeAll : Scans closeAll :=
  .bind (scans_unwind _) fun _ => .bind scans_dropKey fun _ => scans_allowKey _

theorem scans_documentMark (token : Token) : Scans (documentMark token) :=
  .bind scans_closeAll fun _ => scans_step _ _

theorem scans_openFlow (token : Token) : Scans (openFlow token) :=
  .bind scans_saveKey fun _ => .bind (scans_changeLevel _) fun _ =>
    .bind (scans_allowKey _) fun _ => scans_step _ _

theorem scans_closeFlow (token : Token) : Scans (closeFlow token) :=
  .bind scans_dropKey fun _ => .bind (scans_changeLevel _) fun _ =>
    .bind (scans_allowKey _) fun _ => scans_step _ _

theorem scans_comma : Scans comma :=
  .bind (scans_allowKey _) fun _ => .bind scans_dropKey fun _ => scans_step _ _

theorem scans_openBlock (token : Token) : Scans (openBlock token) :=
  .bind .get fun _ => .ite (.pure _) <| .ite .refuse <| .bind (scans_deepen _) fun _ =>
    .ite (scans_push _) (.pure _)

theorem scans_dash : Scans dash :=
  .bind (scans_openBlock _) fun _ => .bind (scans_allowKey _) fun _ =>
    .bind scans_dropKey fun _ => scans_step _ _

theorem scans_explicitMark (token : Token) : Scans (explicitMark token) :=
  .bind (scans_openBlock _) fun _ => .bind .get fun _ => .bind (scans_allowKey _) fun _ =>
    .bind scans_dropKey fun _ => scans_step _ _

theorem scans_value : Scans value := by
  refine .bind .get fun scan => ?_
  split
  · refine .bind scans_forgetKey fun _ => .bind (scans_insertAt _ _) fun _ => ?_
    extract_lets finished
    have finishes (_ : Unit) : Scans (finished ()) :=
      .bind (scans_allowKey _) fun _ => scans_step _ _
    exact .ite (.bind (scans_deepen _) fun _ =>
      .ite (.bind (scans_insertAt _ _) finishes) (finishes ())) (finishes ())
  · exact scans_explicitMark _

theorem scans_keyLike {scanner : Scanner Token} (reads : Reads scanner) :
    Scans (keyLike scanner) :=
  .bind scans_saveKey fun _ => .bind (scans_allowKey _) fun _ => .bind (scans_read reads) fun _ =>
    scans_push _

theorem scans_block : Scans block :=
  .bind (scans_allowKey _) fun _ => .bind scans_dropKey fun _ => .bind .get fun _ =>
    .bind (scans_read (reads_takeBlock _)) fun _ => scans_push _

theorem scans_plain : Scans plain :=
  .bind scans_saveKey fun _ => .bind .get fun _ =>
    .bind (scans_read (reads_takePlain _ _ _ _ _)) fun _ => .bind (scans_allowKey _) fun _ =>
      scans_push _

theorem scans_directive : Scans directive :=
  .bind scans_closeAll fun _ => .bind (scans_read reads_takeDirective) fun _ => scans_push _

theorem scans_isApart : Scans isApart :=
  .bind .get fun _ => .ite (.pure _) (.bind (scans_read (reads_look 1)) fun _ => .pure _)

theorem scans_token (c : Char) : Scans (token c) := by
  have name (make : List Char → Token) :
      Scans (keyLike (do return make (← takeAnchorName))) :=
    scans_keyLike (.bind reads_takeAnchorName fun _ => .pure _)
  have marked (mark : Char) : Scans (read (isMarked mark)) := scans_read (reads_isMarked _)
  have gap : Scans (read (do return isGap (← look 1))) :=
    scans_read (.bind (reads_look 1) fun _ => .pure _)
  exact .bind .get fun _ =>
    .bind (.ite (marked _) (.pure _)) fun _ => .ite (scans_documentMark _) <|
    .bind (.ite (marked _) (.pure _)) fun _ => .ite (scans_documentMark _) <|
    .ite scans_directive <| .ite (scans_openFlow _) <| .ite (scans_openFlow _) <|
    .ite (scans_closeFlow _) <| .ite (scans_closeFlow _) <| .ite scans_comma <|
    .bind (.ite gap (.pure _)) fun _ => .ite scans_dash <|
    .bind (.ite scans_isApart (.pure _)) fun _ => .ite (scans_explicitMark _) <|
    .bind (.ite scans_isApart (.pure _)) fun _ => .ite scans_value <|
    .ite (name _) <| .ite (name _) <|
    .ite (scans_keyLike (.bind reads_takeTag fun _ => .pure _)) <|
    .bind .get fun _ => .ite scans_block <| .ite (scans_keyLike reads_takeQuotedToken) <|
    .bind .get fun _ => .bind (scans_read (reads_startsPlain _)) fun _ => .ite scans_plain .refuse

theorem scans_fetch : Scans fetch :=
  .bind scans_skipByteOrderMark fun _ => .bind .get fun _ => .bind (scans_skipGaps _) fun _ =>
    .bind scans_dropStaleKeys fun _ => .bind .get fun _ => .bind (scans_unwind _) fun _ =>
    .bind (scans_read (reads_look 0)) fun _ =>
      .ite (.bind scans_closeAll fun _ => scans_finish) (scans_token _)

theorem scans_supply (fuel : Nat) : Scans (supply fuel) := by
  induction fuel with
  | zero => exact .refuse
  | succ fuel ih =>
      have goesOn : Scans (do fetch; supply fuel) := .bind scans_fetch fun _ => ih
      exact .bind .get fun _ => .ite (.pure _) <| .bind .get fun _ => .ite goesOn <|
        .bind scans_dropStaleKeys fun _ => .bind .get fun _ => .ite goesOn (.pure _)

theorem scans_peek? : Scans peek? :=
  .bind .get fun _ => .bind (scans_supply _) fun _ => .bind .get fun _ => .pure _

theorem scans_drop : Scans drop :=
  scans_stays fun _ => rfl

end Steps

end Scan

end StatusLine.Document

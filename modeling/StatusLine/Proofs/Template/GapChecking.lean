import StatusLine.Template.Rendering

/-!
The check of gaps. The gaps of a template are the names that occur where no loop around them binds
them; while it is rendered, names are looked up in scopes that grow and shrink with the loops. Both
meet: once the gaps are filled, every name that is looked up has a meaning, so it makes no difference
what a name without one would do.
-/

namespace StatusLine

/-! ### Names left open -/

namespace Piece

/-- A name occurs in a piece where no loop of the piece binds it. -/
inductive LeavesOpen (name : String) : Piece → Prop
  | output {value} (occurs : name ∈ value.names) : LeavesOpen name (.output value)
  | test {test yes no} (occurs : name ∈ test.names) : LeavesOpen name (.branch test yes no)
  | yes {test yes no inner} (member : inner ∈ yes) (opens : LeavesOpen name inner) :
      LeavesOpen name (.branch test yes no)
  | no {test yes no inner} (member : inner ∈ no) (opens : LeavesOpen name inner) :
      LeavesOpen name (.branch test yes no)
  | source {targets source body} (occurs : name ∈ source.names) :
      LeavesOpen name (.loop targets source body)
  | body {targets source body inner} (member : inner ∈ body) (opens : LeavesOpen name inner)
      (notTarget : name ∉ targets.names) (notLoop : name ≠ loopName) :
      LeavesOpen name (.loop targets source body)

mutual

theorem mem_freeNames_iff (name : String) :
    ∀ piece : Piece, name ∈ piece.freeNames ↔ piece.LeavesOpen name
  | .text words => by
      rw [freeNames]
      exact ⟨(nomatch ·), (nomatch ·)⟩
  | .output value => by
      rw [freeNames]
      exact ⟨.output, fun | .output occurs => occurs⟩
  | .branch test yes no => by
      rw [freeNames, List.mem_append, List.mem_append, mem_freeNamesAll_iff name yes,
        mem_freeNamesAll_iff name no]
      constructor
      · rintro ((occurs | ⟨inner, member, opens⟩) | ⟨inner, member, opens⟩)
        · exact .test occurs
        · exact .yes member opens
        · exact .no member opens
      · intro opens
        cases opens with
        | test occurs => exact .inl (.inl occurs)
        | yes member opens => exact .inl (.inr ⟨_, member, opens⟩)
        | no member opens => exact .inr ⟨_, member, opens⟩
  | .loop targets source body => by
      simp only [freeNames, List.mem_append, List.mem_filter, mem_freeNamesAll_iff name body,
        Bool.and_eq_true, Bool.not_eq_true', List.contains_eq_mem, decide_eq_false_iff_not,
        bne_iff_ne]
      constructor
      · rintro (occurs | ⟨⟨inner, member, opens⟩, notTarget, notLoop⟩)
        · exact .source occurs
        · exact .body member opens notTarget notLoop
      · intro opens
        cases opens with
        | source occurs => exact .inl occurs
        | body member opens notTarget notLoop => exact .inr ⟨⟨_, member, opens⟩, notTarget, notLoop⟩

theorem mem_freeNamesAll_iff (name : String) :
    ∀ pieces : List Piece, name ∈ freeNamesAll pieces ↔ ∃ piece ∈ pieces, piece.LeavesOpen name
  | [] => by simp [freeNamesAll]
  | piece :: rest => by
      rw [freeNamesAll, List.mem_append, mem_freeNames_iff name piece,
        mem_freeNamesAll_iff name rest]
      simp

end

end Piece

theorem Template.mem_gaps_iff (template : Template) (name : String) :
    name ∈ template.gaps ↔
      (∃ piece ∈ template.pieces, piece.LeavesOpen name) ∧ isProvided name = false := by
  rw [gaps, Names.mem_ordered, List.mem_filter, Piece.mem_freeNamesAll_iff, Bool.not_eq_true']

/-! ### Scopes -/

namespace Scope

/-- A name means something, in a scope or by itself. -/
def Covers (scope : Scope) (name : String) : Prop :=
  name ∈ scope.map Prod.fst ∨ isProvided name = true

theorem find?_eq_none_iff {scope : Scope} {name : String} :
    scope.find? name = none ↔ name ∉ scope.map Prod.fst := by
  simp only [Scope.find?, Option.map_eq_none_iff, List.find?_eq_none, List.mem_map, beq_iff_eq,
    not_exists, not_and]

theorem find?_provided_eq_none_iff {name : String} :
    Scope.find? provided name = none ↔ isProvided name = false := by
  simp [Scope.find?, isProvided]

def meaning? (scope : Scope) (name : String) : Option Datum :=
  (scope.find? name).orElse fun _ => Scope.find? provided name

theorem Covers.meaning {scope : Scope} {name : String} (covers : scope.Covers name) :
    ∃ value, scope.meaning? name = some value := by
  cases found : scope.find? name with
  | some value => exact ⟨value, by rw [meaning?, found]; rfl⟩
  | none =>
      have byItself := covers.resolve_left (find?_eq_none_iff.mp found)
      cases own : Scope.find? provided name with
      | some value => exact ⟨value, by rw [meaning?, found]; exact own⟩
      | none => simp [find?_provided_eq_none_iff.mp own] at byItself

end Scope

theorem Datum.length_of_unpack {count : Nat} {value : Datum} {parts : List Datum}
    (unpacked : value.unpack count = .ok parts) : parts.length = count := by
  unfold unpack at unpacked
  dsimp only at unpacked
  split at unpacked
  · cases unpacked
  · split at unpacked
    · cases unpacked
    · split at unpacked
      · cases unpacked
      · obtain rfl := Except.ok.inj unpacked
        omega

theorem Targets.names_of_bind {targets : Targets} {item : Datum} {bound : Scope}
    (binds : targets.bind item = .ok bound) {name : String} (member : name ∈ targets.names) :
    name ∈ bound.map Prod.fst := by
  cases targets with
  | one own =>
      obtain rfl := Except.ok.inj binds
      simpa [names] using member
  | parts own =>
      simp only [bind] at binds
      cases unpacked : item.unpack own.length with
      | error failure => simp [unpacked, Except.map] at binds
      | ok parts =>
          simp only [unpacked, Except.map, Except.ok.injEq] at binds
          obtain rfl := binds
          have all := Datum.length_of_unpack unpacked
          rw [List.map_reverse, List.mem_reverse, List.map_fst_zip (by omega)]
          exact member

/-! ### Rendering under any treatment of names without a meaning -/

/-- What becomes of a name without a meaning, if it is looked up. -/
abbrev Treatment := String → Except String Datum

def Expression.valueUnder (absent : Treatment) (scope : Scope) : Expression → Except String Datum
  | .named name =>
      match scope.meaning? name with
      | some value => .ok value
      | none => absent name
  | .constant value => .ok value
  | .field subject name =>
      match valueUnder absent scope subject with
      | .error reason => .error reason
      | .ok owner =>
          match owner.attribute? name with
          | some found => .ok found
          | none => .error (lacking owner name)
  | .element subject number =>
      match valueUnder absent scope subject with
      | .error reason => .error reason
      | .ok owner =>
          match owner.entry? (.int number) with
          | some found => .ok found
          | none => .error (owner.ownerName ++ " has no element " ++ count number)
  | .filtered subject filter =>
      match valueUnder absent scope subject with
      | .error reason => .error reason
      | .ok found => filter.apply found

namespace Piece

mutual

def renderUnder (absent : Treatment) (failed : String → Failure) (scope : Scope) :
    Piece → Except Failure (List Char)
  | text words => .ok words.toList
  | output value =>
      match value.valueUnder absent scope with
      | .error reason => .error (failed reason)
      | .ok found => .ok found.plainText
  | branch test yes no =>
      match test.valueUnder absent scope with
      | .error reason => .error (failed reason)
      | .ok found =>
          if found.isTruthy then renderAllUnder absent failed scope yes
          else renderAllUnder absent failed scope no
  | loop targets source body =>
      match source.valueUnder absent scope with
      | .error reason => .error (failed reason)
      | .ok found =>
          match walked found with
          | .error failure => .error failure
          | .ok items =>
              concatenated ((turns items.length 0 none items).map fun (item, turn) =>
                match targets.bind item with
                | .error failure => .error failure
                | .ok bound =>
                    renderAllUnder absent failed (bound ++ (loopName, turn) :: scope) body)

def renderAllUnder (absent : Treatment) (failed : String → Failure) (scope : Scope) :
    List Piece → Except Failure (List Char)
  | [] => .ok []
  | piece :: rest =>
      match renderUnder absent failed scope piece with
      | .error failure => .error failure
      | .ok first => (renderAllUnder absent failed scope rest).map (first ++ ·)

end

end Piece

theorem Expression.valueUnder_eq (absent : Treatment) {scope : Scope} {value : Expression}
    (covered : ∀ name ∈ value.names, scope.Covers name) :
    value.valueUnder absent scope = value.value scope := by
  induction value with
  | named name =>
      obtain ⟨found, meaning⟩ := (covered name List.mem_cons_self).meaning
      rw [valueUnder, meaning, Expression.value]
      rw [Scope.meaning?] at meaning
      rewrite [meaning]
      rfl
  | constant value => rfl
  | field subject name ih =>
      rewrite [valueUnder, Expression.value, ih covered]
      rfl
  | element subject number ih =>
      rewrite [valueUnder, Expression.value, ih covered]
      rfl
  | filtered subject filter ih =>
      rewrite [valueUnder, Expression.value, ih covered]
      rfl

namespace Piece

def Closes (scope : Scope) (piece : Piece) : Prop :=
  ∀ name, piece.LeavesOpen name → scope.Covers name

theorem Closes.turn {scope : Scope} {targets : Targets} {source : Expression} {body : List Piece}
    (closes : Closes scope (.loop targets source body)) {item turn : Datum} {bound : Scope}
    (binds : targets.bind item = .ok bound) {inner : Piece} (member : inner ∈ body) :
    Closes (bound ++ (loopName, turn) :: scope) inner := by
  intro name opens
  simp only [Scope.Covers, List.map_append, List.map_cons, List.mem_append, List.mem_cons]
  by_cases isTarget : name ∈ targets.names
  · exact .inl (.inl (Targets.names_of_bind binds isTarget))
  · by_cases isLoop : name = loopName
    · exact .inl (.inr (.inl isLoop))
    · exact (closes name (.body member opens isTarget isLoop)).imp_left (.inr ∘ .inr)

mutual

theorem renderUnder_eq (absent : Treatment) (failed : String → Failure) (scope : Scope) :
    ∀ piece : Piece, Closes scope piece →
      piece.renderUnder absent failed scope = piece.render failed scope
  | .text words, _ => rfl
  | .output value, closes => by
      rewrite [renderUnder, render,
        Expression.valueUnder_eq absent fun name occurs => closes name (.output occurs)]
      rfl
  | .branch test yes no, closes => by
      rewrite [renderUnder, render,
        Expression.valueUnder_eq absent fun name occurs => closes name (.test occurs),
        renderAllUnder_eq absent failed scope yes
          fun _ member name opens => closes name (.yes member opens),
        renderAllUnder_eq absent failed scope no
          fun _ member name opens => closes name (.no member opens)]
      rfl
  | .loop targets source body, closes => by
      rw [renderUnder, render,
        Expression.valueUnder_eq absent fun name occurs => closes name (.source occurs)]
      cases source.value scope with
      | error reason => rfl
      | ok found =>
          dsimp only
          cases walked found with
          | error failure => rfl
          | ok items =>
              refine congrArg concatenated (List.map_congr_left fun (item, turn) _ => ?_)
              cases binds : targets.bind item with
              | error failure => rfl
              | ok bound =>
                  exact renderAllUnder_eq absent failed _ body fun _ member =>
                    closes.turn binds member

theorem renderAllUnder_eq (absent : Treatment) (failed : String → Failure) (scope : Scope) :
    ∀ pieces : List Piece, (∀ piece ∈ pieces, Closes scope piece) →
      renderAllUnder absent failed scope pieces = renderAll failed scope pieces
  | [], _ => rfl
  | piece :: rest, closes => by
      rewrite [renderAllUnder, renderAll,
        renderUnder_eq absent failed scope piece (closes piece List.mem_cons_self),
        renderAllUnder_eq absent failed scope rest
          fun other member => closes other (List.mem_cons_of_mem piece member)]
      rfl

end

end Piece

namespace Template

variable {template : Template} {values : Scope}

/-- The names that are given are the gaps. -/
def IsFilledBy (template : Template) (names : List String) : Prop :=
  ∀ name, name ∈ names ↔ name ∈ template.gaps

theorem mem_missing_iff {names : List String} {name : String} :
    name ∈ (template.mismatch names).1 ↔ name ∈ template.gaps ∧ name ∉ names := by
  simp [mismatch]

theorem mem_unexpected_iff {names : List String} {name : String} :
    name ∈ (template.mismatch names).2 ↔ name ∈ names ∧ name ∉ template.gaps := by
  simp [mismatch]

theorem mismatch_eq_nil_iff {names : List String} :
    template.mismatch names = ([], []) ↔ template.IsFilledBy names := by
  rw [Prod.ext_iff, List.eq_nil_iff_forall_not_mem, List.eq_nil_iff_forall_not_mem]
  simp only [mem_missing_iff, mem_unexpected_iff, IsFilledBy]
  constructor
  · rintro ⟨nothingMissing, nothingMore⟩ name
    constructor
    · exact fun given => Decidable.byContradiction fun noGap => nothingMore name ⟨given, noGap⟩
    · exact fun gap => Decidable.byContradiction fun notGiven =>
        nothingMissing name ⟨gap, notGiven⟩
  · intro filled
    exact ⟨fun name ⟨gap, notGiven⟩ => notGiven ((filled name).mpr gap),
      fun name ⟨given, noGap⟩ => noGap ((filled name).mp given)⟩

theorem render_of_accepted (accepted : template.isRefused = false)
    (noSelf : selfName ∉ values.map Prod.fst) :
    template.render values =
      match template.mismatch (values.map Prod.fst) with
      | ([], []) => Piece.renderAll template.failed values template.pieces
      | (missing, unexpected) => .error (.gaps template.name missing unexpected) := by
  rewrite [render, if_neg (by simpa using noSelf), if_neg (by simp [accepted])]
  rfl

theorem render_of_filled (accepted : template.isRefused = false)
    (noSelf : selfName ∉ values.map Prod.fst)
    (filled : template.IsFilledBy (values.map Prod.fst)) :
    template.render values = Piece.renderAll template.failed values template.pieces := by
  rw [render_of_accepted accepted noSelf, mismatch_eq_nil_iff.mpr filled]

theorem render_of_not_filled (accepted : template.isRefused = false)
    (noSelf : selfName ∉ values.map Prod.fst)
    (notFilled : ¬ template.IsFilledBy (values.map Prod.fst)) :
    template.render values = .error (.gaps template.name
      (template.mismatch (values.map Prod.fst)).1 (template.mismatch (values.map Prod.fst)).2) := by
  rw [render_of_accepted accepted noSelf]
  rw [← mismatch_eq_nil_iff] at notFilled
  split
  · next nothing => exact absurd nothing notFilled
  · next missing unexpected _ same => rw [same]

theorem closes_of_filled (filled : template.IsFilledBy (values.map Prod.fst)) {piece : Piece}
    (member : piece ∈ template.pieces) : Piece.Closes values piece := by
  intro name opens
  cases own : isProvided name with
  | true => exact .inr own
  | false =>
      exact .inl ((filled name).mpr ((template.mem_gaps_iff name).mpr ⟨⟨piece, member, opens⟩, own⟩))

/-- A template is rendered just if the given names are its gaps. Then it makes no difference what a
name without a meaning would do. -/
theorem render_checks_gaps (template : Template) (values : Scope)
    (accepted : template.isRefused = false) (noSelf : selfName ∉ values.map Prod.fst) :
    (∀ name, name ∈ template.gaps ↔
      (∃ piece ∈ template.pieces, piece.LeavesOpen name) ∧ isProvided name = false) ∧
    (¬ template.IsFilledBy (values.map Prod.fst) →
      ∃ missing unexpected,
        template.render values = .error (.gaps template.name missing unexpected) ∧
        (∀ name, name ∈ missing ↔ name ∈ template.gaps ∧ name ∉ values.map Prod.fst) ∧
        ∀ name, name ∈ unexpected ↔ name ∈ values.map Prod.fst ∧ name ∉ template.gaps) ∧
    (template.IsFilledBy (values.map Prod.fst) → ∀ absent : Treatment,
      template.render values =
        Piece.renderAllUnder absent template.failed values template.pieces) := by
  refine ⟨template.mem_gaps_iff, fun notFilled => ?_, fun filled absent => ?_⟩
  · exact ⟨_, _, render_of_not_filled accepted noSelf notFilled, fun _ => mem_missing_iff,
      fun _ => mem_unexpected_iff⟩
  · rw [render_of_filled accepted noSelf filled]
    exact (Piece.renderAllUnder_eq absent _ values template.pieces fun _ =>
      closes_of_filled filled).symm

theorem render_checks_gaps_shadowed :
    let template : Template := ⟨"rows", [.loop (.one "x") (.named "xs") [.output (.named "x")],
      .output (.named "x")]⟩
    let values : Scope := [("xs", .list [.int 1]), ("x", .int 2)]
    (template.isRefused = false ∧ selfName ∉ values.map Prod.fst) ∧
      template.IsFilledBy (values.map Prod.fst) ∧
      ∀ absent : Treatment, template.render values =
        Piece.renderAllUnder absent template.failed values template.pieces := by
  intro template values
  have filled : template.IsFilledBy (values.map Prod.fst) :=
    mismatch_eq_nil_iff.mp (by decide)
  exact ⟨⟨by decide, by decide⟩, filled,
    (render_checks_gaps template values (by decide) (by decide)).2.2 filled⟩

example : Piece.renderAllUnder (fun name => .error (name ++ " is undefined")) .generation []
    [.output (.named "x")] = .error (.generation "x is undefined") := rfl

/-- A value for the name of the template itself is refused before anything is compared, and not as a
name that fills no gap. -/
theorem self_not_unexpected :
    let template : Template := ⟨"t", [.output (.named "x")]⟩
    let values : Scope := [("x", .int 1), (selfName, .int 2)]
    template.isRefused = false ∧ ¬ template.IsFilledBy (values.map Prod.fst) ∧
      template.render values = .error selfGiven ∧
      ∀ missing unexpected, selfGiven ≠ .gaps template.name missing unexpected := by
  intro template values
  refine ⟨by decide, ?_, rfl, fun _ _ same => nomatch same⟩
  rw [← mismatch_eq_nil_iff]
  decide

end Template

end StatusLine

import StatusLine.Proofs.Text.Substring

/-!
Separators that do not overlap themselves. Pieces without such a stretch that are joined by it come
apart again at the same places, so a text can be split in two wherever the stretch stands, and each
of both on its own.
-/

namespace StatusLine.Text

/-- No start of a stretch ends it as well, but for the empty one and the whole. -/
def Unbordered (stretch : List Char) : Prop :=
  ∀ border, border ≠ [] → border ≠ stretch → border <+: stretch → ¬ border <:+ stretch

/-- A part of a text from one place where a separator stands, or from its start, up to the next such
place, or to its end. -/
def LiesBetween (separator text piece : List Char) : Prop :=
  ∃ before rest, text = before ++ (piece ++ rest) ∧ (before = [] ∨ separator <:+ before) ∧
    (rest = [] ∨ separator <+: rest) ∧ ¬ separator <:+: piece

theorem unbordered_iff (stretch : List Char) :
    Unbordered stretch ↔ ∀ k < stretch.length, 0 < k → ¬ stretch.take k <:+ stretch := by
  constructor
  · intro unbordered k below positive
    have size : (stretch.take k).length = k := by
      rw [List.length_take]
      omega
    refine unbordered (stretch.take k) ?_ ?_ (List.take_prefix k stretch)
    · exact List.length_pos_iff.mp (by omega)
    · intro whole
      rw [whole] at size
      omega
  · rintro none border present other ⟨rest, rfl⟩
    have positive := List.length_pos_iff.mpr present
    have more : rest ≠ [] := by
      rintro rfl
      exact other (List.append_nil border).symm
    have behind := List.length_pos_iff.mpr more
    have start := none border.length (by rw [List.length_append]; omega) positive
    rwa [List.take_left] at start

instance (stretch : List Char) : Decidable (Unbordered stretch) :=
  decidable_of_iff _ (unbordered_iff stretch).symm

variable {separator piece : List Char}

theorem Unbordered.not_prefix {front back : List Char} (unbordered : Unbordered (front ++ back))
    (begun : front ≠ []) (remains : back ≠ []) (rest : List Char) :
    ¬ back <+: front ++ back ++ rest := by
  intro goesOn
  have shorter : back.length ≤ (front ++ back).length := by
    rw [List.length_append]
    omega
  refine unbordered back remains ?_ ?_ (List.suffix_append front back)
  · intro whole
    exact begun (List.append_left_eq_self.mp whole.symm)
  · exact List.prefix_of_prefix_length_le goesOn (List.prefix_append _ rest) shorter

theorem splitFrom_append (separator stretch rest : List Char) :
    splitFrom separator stretch.length (stretch ++ rest) = splitOn separator rest := by
  induction stretch with
  | nil => rfl
  | cons c more ih => simpa only [List.length_cons, List.cons_append, splitFrom] using ih

theorem splitOn_separator (present : separator ≠ []) (rest : List Char) :
    splitOn separator (separator ++ rest) = [] :: splitOn separator rest := by
  obtain ⟨c, more, rfl⟩ := List.exists_cons_of_ne_nil present
  have starts : (c :: more).isPrefixOf (c :: (more ++ rest)) = true :=
    List.isPrefixOf_iff_prefix.mpr (List.prefix_append (c :: more) rest)
  have behind := splitFrom_append (c :: more) more rest
  simp only [splitOn, List.cons_append, splitFrom, starts, if_true, List.length_cons,
    Nat.add_sub_cancel] at behind ⊢
  rw [behind]

theorem splitOn_append_separator (present : separator ≠ []) (unbordered : Unbordered separator)
    (free : ¬ separator <:+: piece) (rest : List Char) :
    splitOn separator (piece ++ (separator ++ rest)) = piece :: splitOn separator rest := by
  induction piece with
  | nil => exact splitOn_separator present rest
  | cons c more ih =>
      have later := ih fun inside => free (List.infix_cons inside)
      have elsewhere : ¬ separator <+: c :: more ++ (separator ++ rest) := by
        rintro ⟨tail, whole⟩
        rcases List.append_eq_append_iff.mp whole with ⟨between, ends, -⟩ | ⟨between, rfl, goesOn⟩
        · exact free ⟨[], between, by simpa using ends.symm⟩
        · by_cases closed : between = []
          · subst closed
            exact free (by simp)
          · exact unbordered.not_prefix (List.cons_ne_nil c more) closed rest ⟨tail, goesOn.symm⟩
      rw [List.cons_append] at elsewhere ⊢
      have other : ¬ separator.isPrefixOf (c :: (more ++ (separator ++ rest))) = true := fun starts =>
        elsewhere (List.isPrefixOf_iff_prefix.mp starts)
      simp only [splitOn] at later ⊢
      simp only [splitFrom, other, Bool.false_eq_true, if_false, later]

theorem splitOn_joinWith (present : separator ≠ []) (unbordered : Unbordered separator)
    {pieces : List (List Char)} (nonempty : pieces ≠ [])
    (free : ∀ piece ∈ pieces, ¬ separator <:+: piece) :
    splitOn separator (joinWith separator pieces) = pieces := by
  induction pieces with
  | nil => exact absurd rfl nonempty
  | cons piece more ih =>
      obtain ⟨here, behind⟩ := List.forall_mem_cons.mp free
      cases more with
      | nil => exact splitOn_of_absent here
      | cons next others =>
          have later := ih (List.cons_ne_nil next others) behind
          rw [joinWith_cons_cons, List.append_assoc,
            splitOn_append_separator present unbordered here, later]

theorem splitOn_ne_nil (separator text : List Char) : splitOn separator text ≠ [] :=
  splitFrom_ne_nil separator 0 text

theorem splitOn_append (present : separator ≠ []) (unbordered : Unbordered separator)
    (before rest : List Char) :
    splitOn separator (before ++ (separator ++ rest)) =
      splitOn separator before ++ splitOn separator rest := by
  have whole : joinWith separator (splitOn separator before ++ splitOn separator rest) =
      before ++ (separator ++ rest) := by
    rw [joinWith_append separator (splitOn_ne_nil _ _) (splitOn_ne_nil _ _),
      joinWith_splitOn separator present, joinWith_splitOn separator present, List.append_assoc]
  rw [← whole]
  refine splitOn_joinWith present unbordered ?_ fun piece member => ?_
  · exact List.append_ne_nil_of_left_ne_nil (splitOn_ne_nil separator before) _
  · rcases List.mem_append.mp member with here | there
    · exact not_infix_of_mem_splitOn present here
    · exact not_infix_of_mem_splitOn present there

theorem LiesBetween.mem_splitOn (present : separator ≠ []) (unbordered : Unbordered separator)
    {text : List Char} (between : LiesBetween separator text piece) :
    piece ∈ splitOn separator text := by
  obtain ⟨before, rest, rfl, opens, closes, free⟩ := between
  have upTo : piece ∈ splitOn separator (piece ++ rest) := by
    rcases closes with rfl | ⟨behind, rfl⟩
    · rw [List.append_nil, splitOn_of_absent free]
      exact List.mem_singleton_self piece
    · rw [splitOn_append_separator present unbordered free]
      exact List.mem_cons_self
  rcases opens with rfl | ⟨lead, rfl⟩
  · exact upTo
  · rw [List.append_assoc, splitOn_append present unbordered]
    exact List.mem_append_right _ upTo

end StatusLine.Text

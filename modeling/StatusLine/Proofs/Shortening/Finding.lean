import StatusLine.Proofs.Shortening.Chain

/-!
What a pattern takes up is found wherever it stands. A run is taken up as far as it goes and the
first of several fixed stretches that fits is chosen, so a match could be missed where a shorter run
or another stretch were needed; determined patterns leave no such choice.
-/

namespace StatusLine.Shortening

variable {accepts : Char → Bool} {run rest : List Char}

theorem takeWhile_run (accepted : ∀ c ∈ run, accepts c = true)
    (ends : isThere accepts rest.head? = false) : (run ++ rest).takeWhile accepts = run := by
  rw [List.takeWhile_append_of_pos accepted]
  cases rest with
  | nil => simp
  | cons c more =>
      have refused : accepts c = false := ends
      simp [refused]

theorem takeRun_append (accepted : IsRun accepts run) (ends : isThere accepts rest.head? = false) :
    takeRun accepts (run ++ rest) = some (run, rest) := by
  have taken := takeWhile_run accepted.2 ends
  have whole := List.takeWhile_append_dropWhile (p := accepts) (l := run ++ rest)
  rw [taken] at whole
  obtain ⟨c, more, rfl⟩ := List.exists_cons_of_ne_nil accepted.1
  simp only [takeRun, taken, List.append_cancel_left whole]

theorem takeNamed_append {name : List Char} (named : IsRun Text.isWord name) (c : Char)
    (more : List Char) (closes : Text.isWord c = false) (rest : List Char) :
    takeNamed (c :: more) (name ++ (c :: more ++ rest)) = some (name, rest) := by
  have taken : takeRun Text.isWord (name ++ (c :: more ++ rest)) = some (name, c :: more ++ rest) :=
    takeRun_append named closes
  simp only [takeNamed, taken, Text.after?_append, Option.map_some]

theorem takeVariable_append {name variableText : List Char} (named : IsRun Text.isWord name)
    (quoted : QuotedVariable name variableText) (rest : List Char) :
    takeVariable (variableText ++ rest) = some (name, rest) := by
  cases quoted with
  | bare =>
      have inside := takeNamed_append named '"' [] (by decide) rest
      obtain ⟨c, more, rfl⟩ := List.exists_cons_of_ne_nil named.1
      have noBrace : c ≠ '\x7b' := fun same => by
        have word := named.2 c List.mem_cons_self
        rw [same] at word
        exact absurd word (by decide)
      simpa [takeVariable, Text.after?, noBrace] using inside
  | braced =>
      have inside := takeNamed_append named '\x7d' ['"'] (by decide) rest
      simpa [takeVariable, Text.after?] using inside

/-- Whether there is one way only to take up elements: every run ends at a character that it does
not accept, and fixed stretches to choose from differ in their first characters. -/
def isDetermined : List Element → Bool
  | [] => true
  | .run accepts :: .literal (c :: text) :: more =>
      !accepts c && isDetermined (.literal (c :: text) :: more)
  | .run _ :: _ => false
  | .either options :: more =>
      options.all (!·.isEmpty) &&
        decide (options.Pairwise fun one other => one.head? ≠ other.head?) &&
        isDetermined more
  | _ :: more => isDetermined more

theorem after?_of_head_ne {one other : List Char} (present : one ≠ []) (given : other ≠ [])
    (apart : one.head? ≠ other.head?) (rest : List Char) :
    Text.after? one (other ++ rest) = none := by
  obtain ⟨c, more, rfl⟩ := List.exists_cons_of_ne_nil present
  obtain ⟨d, others, rfl⟩ := List.exists_cons_of_ne_nil given
  have different : c ≠ d := by simpa using apart
  simp [Text.after?, different]

theorem findSome?_after? {options : List (List Char)} (present : ∀ option ∈ options, option ≠ [])
    (apart : options.Pairwise fun one other => one.head? ≠ other.head?) {stretch : List Char}
    (member : stretch ∈ options) (rest : List Char) :
    (options.findSome? fun option => Text.after? option (stretch ++ rest)) = some rest := by
  induction options with
  | nil => cases member
  | cons option more ih =>
      obtain ⟨here, later⟩ := List.pairwise_cons.mp apart
      rcases List.mem_cons.mp member with rfl | behind
      · simp [Text.after?_append]
      · have missed := after?_of_head_ne (present option List.mem_cons_self)
          (present stretch member) (here stretch behind) rest
        rw [List.findSome?_cons, missed]
        exact ih (fun other known => present other (List.mem_cons_of_mem option known)) later behind

theorem head_of_isDetermined_run {more : List Element} {others : List Char}
    {later : List (List Char)} (determined : isDetermined (.run accepts :: more) = true)
    (takes : TakesAll more others later) :
    (∀ rest, isThere accepts (others ++ rest).head? = false) ∧ isDetermined more = true := by
  cases takes with
  | nil => simp [isDetermined] at determined
  | @cons _ _ stretch _ _ _ first _ =>
      cases first with
      | literal =>
          cases stretch with
          | nil => simp [isDetermined] at determined
          | cons c text =>
              simp only [isDetermined, Bool.and_eq_true, Bool.not_eq_true'] at determined
              exact ⟨fun rest => determined.1, determined.2⟩
      | either | run | oneOf | quotedVariable => simp [isDetermined] at determined

theorem findAll_of_takesAll {elements : List Element} (determined : isDetermined elements = true)
    {stretch : List Char} {captures : List (List Char)} (takes : TakesAll elements stretch captures)
    (rest : List Char) : findAll elements (stretch ++ rest) = some ⟨captures, rest⟩ := by
  induction takes with
  | nil => rfl
  | @cons element more first others captured later takesFirst takesMore ih =>
      have found : element.find (first ++ (others ++ rest)) = some ⟨captured, others ++ rest⟩ ∧
          isDetermined more = true := by
        cases takesFirst with
        | literal => exact ⟨by simp [Element.find, Text.after?_append], determined⟩
        | either _ member =>
            simp only [isDetermined, Bool.and_eq_true, List.all_eq_true, decide_eq_true_eq]
              at determined
            refine ⟨?_, determined.2⟩
            have present := fun option known => by simpa using determined.1.1 option known
            simp [Element.find, findSome?_after? present determined.1.2 member]
        | run _ accepted =>
            obtain ⟨closes, behind⟩ := head_of_isDetermined_run determined takesMore
            have ends : isThere _ (others ++ rest).head? = false := closes rest
            exact ⟨by simp [Element.find, takeRun_append accepted ends], behind⟩
        | oneOf c member => exact ⟨by simp [Element.find, member], determined⟩
        | quotedVariable name _ named quoted =>
            exact ⟨by simp [Element.find, takeVariable_append named quoted], determined⟩
      simp only [findAll, List.append_assoc, found.1, ih found.2, Option.map_some]

theorem Pattern.find_of_takesAll (pattern : Pattern)
    (determined : isDetermined pattern.elements = true) {stretch rest : List Char}
    {captures : List (List Char)} (takes : TakesAll pattern.elements stretch captures)
    {previous : Option Char} (starts : isThere pattern.notAfter previous = false)
    (ends : isThere pattern.notBefore rest.head? = false) :
    pattern.find previous (stretch ++ rest) = some ⟨captures, rest⟩ := by
  simp [Pattern.find, starts, findAll_of_takesAll determined takes rest, ends]

end StatusLine.Shortening

import StatusLine.Failure

/-!
What is known about something made step by step: the steps of a result that is there were done, and
the elements of a list come from the lists and elements that it was made from.
-/

namespace StatusLine

theorem bind_eq_ok {ε α β : Type} {value : Except ε α} {next : α → Except ε β} {result : β}
    (done : (value >>= next) = .ok result) :
    ∃ first, value = .ok first ∧ next first = .ok result := by
  cases value with
  | error failure => cases done
  | ok first => exact ⟨first, rfl, done⟩

theorem map_eq_ok {ε α β : Type} {value : Except ε α} {change : α → β} {result : β}
    (done : value.map change = .ok result) :
    ∃ first, value = .ok first ∧ change first = result := by
  cases value with
  | error failure => cases done
  | ok first => exact ⟨first, rfl, Except.ok.inj done⟩

theorem map_eq_error {ε α β : Type} {value : Except ε α} {change : α → β} {failure : ε}
    (failed : value.map change = .error failure) : value = .error failure := by
  cases value with
  | error other => exact congrArg Except.error (Except.error.inj failed)
  | ok first => cases failed

theorem eq_ok_of_toOption {ε α : Type} {result : Except ε α} {value : α}
    (found : result.toOption = some value) : result = .ok value := by
  cases result with
  | error failure => cases found
  | ok other => exact congrArg Except.ok (Option.some.inj found)

def BothGive {α β : Type} (holds : α → β → Prop) (first : Except Failure α)
    (second : Except Failure β) : Prop :=
  ∀ here there, first = .ok here → second = .ok there → holds here there

namespace BothGive

variable {α β γ δ : Type} {holds : α → β → Prop} {wanted : γ → δ → Prop}
  {first : Except Failure α} {second : Except Failure β}

theorem ok {here : α} {there : β} (known : holds here there) :
    BothGive holds (.ok here) (.ok there) := by
  intro _ _ made madeThere
  obtain rfl := Except.ok.inj made
  obtain rfl := Except.ok.inj madeThere
  exact known

theorem bind (both : BothGive holds first second) {next : α → Except Failure γ}
    {nextThere : β → Except Failure δ}
    (each : ∀ here there, holds here there → BothGive wanted (next here) (nextThere there)) :
    BothGive wanted (first >>= next) (second >>= nextThere) := by
  intro result resultThere made madeThere
  obtain ⟨here, given, done⟩ := bind_eq_ok made
  obtain ⟨there, givenThere, doneThere⟩ := bind_eq_ok madeThere
  exact each here there (both here there given givenThere) result resultThere done doneThere

theorem map (both : BothGive holds first second) {change : α → γ} {changeThere : β → δ}
    (each : ∀ here there, holds here there → wanted (change here) (changeThere there)) :
    BothGive wanted (first.map change) (second.map changeThere) := by
  intro result resultThere made madeThere
  obtain ⟨here, given, rfl⟩ := map_eq_ok made
  obtain ⟨there, givenThere, rfl⟩ := map_eq_ok madeThere
  exact each here there (both here there given givenThere)

theorem given : BothGive (fun here there => first = .ok here ∧ second = .ok there) first second :=
  fun _ _ made madeThere => ⟨made, madeThere⟩

theorem same (step : Except Failure α) : BothGive Eq step step := by
  intro here there made madeThere
  exact Except.ok.inj (made.symm.trans madeThere)

end BothGive

theorem mem_of_mem_foldl {α : Type} {add : List α → α → List α}
    (brings : ∀ found item other, other ∈ add found item → other = item ∨ other ∈ found)
    {items start : List α} {other : α} (member : other ∈ items.foldl add start) :
    other ∈ start ∨ other ∈ items := by
  induction items generalizing start with
  | nil => exact .inl member
  | cons item rest ih =>
      rcases ih member with here | later
      · rcases brings start item other here with rfl | before
        · exact .inr List.mem_cons_self
        · exact .inl before
      · exact .inr (List.mem_cons_of_mem item later)

theorem mem_ifAbsent {α : Type} {isThere : Prop} [Decidable isThere] {found : List α}
    {item other : α} (member : other ∈ if isThere then found else found ++ [item]) :
    other = item ∨ other ∈ found := by
  split at member
  · exact .inr member
  · rcases List.mem_append.mp member with before | last
    · exact .inr before
    · exact .inl (List.mem_singleton.mp last)

end StatusLine

import StatusLine.Action

/-!
What actions keep. An invariant of the state is kept from step to step, and what is known about the
result of each step, whether it failed or not, leads to what is known about the result of all.
-/

namespace StatusLine.Action

variable {σ τ α β : Type} {invariant : σ → Prop}

/-! Two steps, of which the first failed or gave a value. -/

theorem bind_of_error {action : Action σ α} {next : α → Action σ β} {state : σ} {failure : Failure}
    (failed : (action state).result = .error failure) :
    ((action >>= next) state).result = .error failure ∧
      ((action >>= next) state).state = (action state).state := by
  show (andThen action next state).result = _ ∧ (andThen action next state).state = _
  simp only [andThen, failed, and_self]

theorem bind_of_ok {action : Action σ α} {next : α → Action σ β} {state : σ} {value : α}
    (done : (action state).result = .ok value) :
    ((action >>= next) state).result = (next value (action state).state).result ∧
      ((action >>= next) state).state = (next value (action state).state).state := by
  show (andThen action next state).result = _ ∧ (andThen action next state).state = _
  simp only [andThen, done, and_self]

/-! Invariants. -/

def Keeps (invariant : σ → Prop) (wanted : Except Failure α → Prop) (action : Action σ α) : Prop :=
  ∀ state, invariant state → invariant (action state).state ∧ wanted (action state).result

def OnValue (wanted : α → Prop) (result : Except Failure α) : Prop :=
  ∀ value, result = .ok value → wanted value

theorem OnValue.error {wanted : α → Prop} (failure : Failure) :
    OnValue wanted (.error failure) := by
  intro value present
  cases present

theorem OnValue.ok {wanted : α → Prop} {value : α} (holds : wanted value) :
    OnValue wanted (.ok value) := by
  intro other present
  obtain rfl := Except.ok.inj present
  exact holds

theorem Keeps.mono {wanted other : Except Failure α → Prop} {action : Action σ α}
    (keeps : Keeps invariant wanted action) (implies : ∀ result, wanted result → other result) :
    Keeps invariant other action := by
  intro state holds
  obtain ⟨kept, met⟩ := keeps state holds
  exact ⟨kept, implies _ met⟩

theorem keeps_pure {wanted : Except Failure α → Prop} {value : α} (met : wanted (.ok value)) :
    Keeps invariant wanted (pure value : Action σ α) :=
  fun _ holds => ⟨holds, met⟩

theorem keeps_ofExcept {wanted : Except Failure α → Prop} {result : Except Failure α}
    (met : wanted result) : Keeps invariant wanted (ofExcept result : Action σ α) :=
  fun _ holds => ⟨holds, met⟩

theorem keeps_fail {wanted : Except Failure α → Prop} {failure : Failure}
    (met : wanted (.error failure)) : Keeps invariant wanted (fail failure : Action σ α) :=
  fun _ holds => ⟨holds, met⟩

theorem Keeps.bind {wanted : Except Failure α → Prop} {other : Except Failure β → Prop}
    {action : Action σ α} {next : α → Action σ β} (first : Keeps invariant wanted action)
    (failed : ∀ failure, wanted (.error failure) → other (.error failure))
    (later : ∀ value, wanted (.ok value) → Keeps invariant other (next value)) :
    Keeps invariant other (action >>= next) := by
  intro state holds
  obtain ⟨kept, met⟩ := first state holds
  show invariant (andThen action next state).state ∧ other (andThen action next state).result
  unfold andThen
  cases result : (action state).result with
  | error failure =>
      rw [result] at met
      exact ⟨by simpa [result] using kept, by simpa [result] using failed failure met⟩
  | ok value =>
      rw [result] at met
      obtain ⟨keptAfter, metAfter⟩ := later value met (action state).state kept
      exact ⟨by simpa [result] using keptAfter, by simpa [result] using metAfter⟩

theorem Keeps.bindValue {wanted : α → Prop} {other : β → Prop} {action : Action σ α}
    {next : α → Action σ β} (first : Keeps invariant (OnValue wanted) action)
    (later : ∀ value, wanted value → Keeps invariant (OnValue other) (next value)) :
    Keeps invariant (OnValue other) (action >>= next) :=
  first.bind (fun failure _ => OnValue.error failure)
    fun value met => later value (met value rfl)

theorem Keeps.mapFailure {wanted other : Except Failure α → Prop} {action : Action σ α}
    {change : Failure → Failure} (keeps : Keeps invariant wanted action)
    (implies : ∀ result, wanted result → other (result.mapError change)) :
    Keeps invariant other (mapFailure change action) := by
  intro state holds
  obtain ⟨kept, met⟩ := keeps state holds
  exact ⟨kept, implies _ met⟩

theorem Keeps.bindResult {first : Except Failure α} {second : α → Except Failure β}
    {action : Action σ α} {next : α → Action σ β} (gives : Keeps invariant (· = first) action)
    (later : ∀ value, first = .ok value → Keeps invariant (· = second value) (next value)) :
    Keeps invariant (· = first >>= second) (action >>= next) := by
  refine gives.bind ?_ ?_
  · rintro failure rfl
    rfl
  · rintro value rfl
    exact later value rfl

theorem keeps_bindState {wanted : Except Failure β → Prop} {next : σ → Action σ β}
    (later : ∀ current, invariant current →
      invariant (next current current).state ∧ wanted (next current current).result) :
    Keeps invariant wanted (state >>= next) :=
  fun current holds => later current holds

theorem Keeps.onPart {part : τ → σ} {put : σ → τ → τ} {whole : τ → Prop}
    {wanted : Except Failure α → Prop} {action : Action σ α}
    (keeps : ∀ state, whole state →
      whole (put (action (part state)).state state) ∧ wanted (action (part state)).result) :
    Keeps whole wanted (onPart part put action) :=
  fun state holds => keeps state holds

end StatusLine.Action

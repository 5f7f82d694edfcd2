import StatusLine.Failure

/-!
Actions: what is done on a state, step by step. An action may fail, and it may make notes. What it
did to the state and what it noted before it failed stays.
-/

namespace StatusLine

structure Run (σ α : Type) where
  result : Except Failure α
  state : σ
  notes : List String

def Action (σ α : Type) : Type :=
  σ → Run σ α

namespace Action

def succeed {σ α : Type} (value : α) : Action σ α :=
  fun state => ⟨.ok value, state, []⟩

def fail {σ α : Type} (failure : Failure) : Action σ α :=
  fun state => ⟨.error failure, state, []⟩

def andThen {σ α β : Type} (action : Action σ α) (next : α → Action σ β) : Action σ β :=
  fun state =>
    let run := action state
    match run.result with
    | .error failure => ⟨.error failure, run.state, run.notes⟩
    | .ok value =>
        let rest := next value run.state
        ⟨rest.result, rest.state, run.notes ++ rest.notes⟩

instance {σ : Type} : Monad (Action σ) where
  pure := succeed
  bind := andThen

def ofExcept {σ α : Type} (value : Except Failure α) : Action σ α :=
  fun state => ⟨value, state, []⟩

def note {σ : Type} (line : String) : Action σ Unit :=
  fun state => ⟨.ok (), state, [line]⟩

def state {σ : Type} : Action σ σ :=
  fun current => ⟨.ok current, current, []⟩

def onPart {σ τ α : Type} (part : τ → σ) (put : σ → τ → τ) (action : Action σ α) : Action τ α :=
  fun whole =>
    let run := action (part whole)
    ⟨run.result, put run.state whole, run.notes⟩

/-- Replaces the failure of an action; what it did and noted stays. -/
def mapFailure {σ α : Type} (change : Failure → Failure) (action : Action σ α) : Action σ α :=
  fun state =>
    let run := action state
    ⟨run.result.mapError change, run.state, run.notes⟩

theorem andThen_succeed {σ α β : Type} (value : α) (next : α → Action σ β) :
    andThen (succeed value) next = next value := by
  funext state
  simp [andThen, succeed]

end Action

end StatusLine

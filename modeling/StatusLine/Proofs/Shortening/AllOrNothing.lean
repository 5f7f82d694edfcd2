import StatusLine.Compiler.Compilation

/-!
Runs of rules that may fail. The rules stand in passes, and each is handed the text that the rules
before it made; it may fail there in its guard or in its rewrite. A run gives the text that all of
its rules make, or the text that it was given, and never what only some of them make.
-/

namespace StatusLine.Shortening

/-- A rule whose guard may fail like its rewrite. -/
def Rule.guarded (name : String) (guard : List Char → Except Failure Bool)
    (rewrite : List Char → Except Failure (List Char)) : Rule where
  name := name
  skip := fun _ => false
  edit := fun text => do
    if ← guard text then return text else rewrite text

/-- The rules turn one text into another, each in its turn. -/
inductive Applied : List Rule → List Char → List Char → Prop
  | done (text : List Char) : Applied [] text text
  | next {rule : Rule} {rules : List Rule} {text between changed : List Char}
      (applied : rule.apply text = .ok between) (others : Applied rules between changed) :
      Applied (rule :: rules) text changed

/-- One of the rules fails on the text that the rules before it made. -/
def FailsWith (rules : List Rule) (text : List Char) (failure : Failure) : Prop :=
  ∃ before rule behind reached, rules = before ++ rule :: behind ∧
    Applied before text reached ∧ rule.apply reached = .error failure

def applyAll (rules : List Rule) (text : List Char) : Except Failure (List Char) :=
  rules.foldlM (fun current rule => rule.apply current) text

/-- The rules of all passes, in order. -/
def rulesOf (passList : List Pass) : List Rule :=
  passList.flatMap Pass.rules

theorem Rule.apply_guarded_of_error {guard : List Char → Except Failure Bool} {text : List Char}
    {failure : Failure} (fails : guard text = .error failure) (name : String)
    (rewrite : List Char → Except Failure (List Char)) :
    (Rule.guarded name guard rewrite).apply text = .error failure := by
  simp [Rule.apply, Rule.guarded, fails, bind, Except.bind]

/-! One rule after the other. -/

theorem applyAll_cons (rule : Rule) (rules : List Rule) (text : List Char) :
    applyAll (rule :: rules) text = rule.apply text >>= applyAll rules := rfl

theorem applyAll_append (rules more : List Rule) (text : List Char) :
    applyAll (rules ++ more) text = applyAll rules text >>= applyAll more :=
  List.foldlM_append

theorem applyAll_eq_ok_iff (rules : List Rule) (text changed : List Char) :
    applyAll rules text = .ok changed ↔ Applied rules text changed := by
  constructor
  · intro reached
    induction rules generalizing text with
    | nil =>
        obtain rfl := Except.ok.inj reached
        exact .done text
    | cons rule rules ih =>
        rw [applyAll_cons] at reached
        cases applied : rule.apply text with
        | error failure => simp [applied, bind, Except.bind] at reached
        | ok between =>
            rw [applied] at reached
            exact .next applied (ih between reached)
  · intro chain
    induction chain with
    | done text => rfl
    | next applied _ ih =>
        rw [applyAll_cons, applied]
        exact ih

theorem applyAll_eq_error_iff (rules : List Rule) (text : List Char) (failure : Failure) :
    applyAll rules text = .error failure ↔ FailsWith rules text failure := by
  constructor
  · intro stopped
    induction rules generalizing text with
    | nil => cases stopped
    | cons rule rules ih =>
        rw [applyAll_cons] at stopped
        cases applied : rule.apply text with
        | error cause =>
            rw [applied] at stopped
            obtain rfl := Except.error.inj stopped
            exact ⟨[], rule, rules, text, rfl, .done text, applied⟩
        | ok between =>
            rw [applied] at stopped
            obtain ⟨before, failing, behind, reached, rfl, chain, fails⟩ := ih between stopped
            exact ⟨rule :: before, failing, behind, reached, rfl, .next applied chain, fails⟩
  · rintro ⟨before, rule, behind, reached, rfl, chain, fails⟩
    rw [applyAll_append, (applyAll_eq_ok_iff before text reached).mpr chain]
    change applyAll (rule :: behind) reached = .error failure
    rw [applyAll_cons, fails]
    rfl

theorem applied_or_fails (rules : List Rule) (text : List Char) :
    (∃ failure, FailsWith rules text failure) ∨ ∃ changed, Applied rules text changed := by
  cases ended : applyAll rules text with
  | error failure => exact .inl ⟨failure, (applyAll_eq_error_iff rules text failure).mp ended⟩
  | ok changed => exact .inr ⟨changed, (applyAll_eq_ok_iff rules text changed).mp ended⟩

/-! The two loops. -/

theorem Progress.result_apply (passName : String) (progress : Progress) (rule : Rule) :
    (progress.apply passName rule).result = progress.result >>= rule.apply := by
  rcases progress with ⟨log, failure | text⟩
  · rfl
  · simp only [Progress.apply, bind, Except.bind]
    cases rule.apply text <;> rfl

theorem Progress.result_applyPass (progress : Progress) (pass : Pass) :
    (progress.applyPass pass).result = progress.result >>= applyAll pass.rules := by
  rw [Progress.applyPass]
  generalize pass.rules = rules
  induction rules generalizing progress with
  | nil => exact (bind_pure progress.result).symm
  | cons rule rules ih =>
      rw [List.foldl_cons, ih, Progress.result_apply, bind_assoc]
      rfl

theorem Progress.result_passes (progress : Progress) (passList : List Pass) :
    (passList.foldl Progress.applyPass progress).result =
      progress.result >>= applyAll (rulesOf passList) := by
  induction passList generalizing progress with
  | nil => exact (bind_pure progress.result).symm
  | cons pass others ih =>
      rw [List.foldl_cons, ih, Progress.result_applyPass, bind_assoc]
      congr 1
      funext text
      exact (applyAll_append pass.rules (rulesOf others) text).symm

/-! A whole run. -/

theorem run_of_applied {passList : List Pass} {text changed : List Char}
    (chain : Applied (rulesOf passList) text changed) (blankRuns : Bool) :
    (run passList blankRuns text).text =
      if blankRuns then shortenBlankRuns changed else changed := by
  have reached := Progress.result_passes ⟨[], .ok text⟩ passList
  rw [show (Except.ok text : Except Failure (List Char)) >>= applyAll (rulesOf passList) =
    .ok changed from (applyAll_eq_ok_iff _ text changed).mpr chain] at reached
  simp only [run, reached]

theorem run_of_fails {passList : List Pass} {text : List Char} {failure : Failure}
    (fails : FailsWith (rulesOf passList) text failure) (blankRuns : Bool) :
    (run passList blankRuns text).text = text ∧
      (run passList blankRuns text).log.getLast? =
        some ("Optimization failed, keeping original text: " ++ failure.message) := by
  have stopped := Progress.result_passes ⟨[], .ok text⟩ passList
  rw [show (Except.ok text : Except Failure (List Char)) >>= applyAll (rulesOf passList) =
    .error failure from (applyAll_eq_error_iff _ text failure).mpr fails] at stopped
  simp [run, stopped]

/-- Whatever the rules are and wherever one of them fails, a run gives what all rules make in order,
or the text that it was given. -/
theorem run_all_or_nothing (passList : List Pass) (blankRuns : Bool) (text : List Char) :
    (∀ failure, FailsWith (rulesOf passList) text failure →
      (run passList blankRuns text).text = text ∧
        (run passList blankRuns text).log.getLast? =
          some ("Optimization failed, keeping original text: " ++ failure.message)) ∧
    (∀ before name guard rewrite behind reached failure,
      rulesOf passList = before ++ Rule.guarded name guard rewrite :: behind →
      Applied before text reached → guard reached = .error failure →
      (run passList blankRuns text).text = text) ∧
    ((¬ ∃ failure, FailsWith (rulesOf passList) text failure) →
      ∃ changed, Applied (rulesOf passList) text changed ∧
        (run passList blankRuns text).text =
          if blankRuns then shortenBlankRuns changed else changed) ∧
    ∀ (compiler : Compiler) (store : Store Fragment), ∃ script,
      ({ compiler with optimizes := true, shorten := run passList blankRuns }.finish text
        store).result = .ok script ∧
      (script.text = text ∨
        ∃ changed, Applied (rulesOf passList) text changed ∧
          script.text = if blankRuns then shortenBlankRuns changed else changed) := by
  have decided := applied_or_fails (rulesOf passList) text
  refine ⟨fun failure fails => run_of_fails fails blankRuns, ?_, fun none => ?_, ?_⟩
  · intro before name guard rewrite behind reached failure split chain fails
    have stopped := Rule.apply_guarded_of_error fails name rewrite
    exact (run_of_fails ⟨before, _, behind, reached, split, chain, stopped⟩ blankRuns).1
  · obtain ⟨changed, chain⟩ := decided.resolve_left none
    exact ⟨changed, chain, run_of_applied chain blankRuns⟩
  · intro compiler store
    refine ⟨_, rfl, ?_⟩
    simp only [CompiledScript.text]
    split
    · rcases decided with ⟨failure, fails⟩ | ⟨changed, chain⟩
      · exact .inl (run_of_fails fails blankRuns).1
      · exact .inr ⟨changed, chain, run_of_applied chain blankRuns⟩
    · exact .inl rfl

example :
    let rules := [substringRule "first" ['a'] ['b'], substringRule "second" ['b'] []]
    run [⟨"broken", rules⟩] true ['a'] = ⟨['a'], ["broken: applied first",
      "Optimization failed, keeping original text: empty separator"]⟩ := by
  decide

end StatusLine.Shortening

import StatusLine.Compiler.Compilation
import StatusLine.Proofs.Compiler.Anew

/-!
The fragments that memory keeps. They come from earlier compilations, so that what holds of every
fragment which compilers encode holds of all that a script is assembled from.
-/

namespace StatusLine.Compiler

open StatusLine.Action

def AllKept (holds : Fragment → Prop) (store : Store Fragment) : Prop :=
  ∀ key entry fragment, store.remembered key = some entry → entry.value = .object fragment →
    holds fragment

def Encodes (compiler : Compiler) (holds : Fragment → Prop) (config : Configuration) : Prop :=
  ∀ pair ∈ compiler.wanted config, ∀ fragment,
    compiler.encode pair.1 (.ofConfiguration config) pair.2 = .ok fragment → holds fragment

/-- A finished script that was assembled from a fragment of every wanted encoder, of all of which
something holds. -/
def MadeOf (compiler : Compiler) (holds : Fragment → Prop) (config : Configuration)
    (script : CompiledScript) : Prop :=
  ∃ fragments, fragments.length = (compiler.wanted config).length ∧
    (∀ fragment ∈ fragments, holds fragment) ∧
    Script.assemble compiler.context config fragments (.ofConfiguration config) =
      .ok script.raw ∧ script = compiler.finished script.raw

variable {holds : Fragment → Prop}

theorem allKept_of_forgotten {store : Store Fragment} (fresh : store.memory = []) :
    AllKept holds store := by
  intro key entry fragment found
  simp [Store.remembered, fresh] at found

theorem allKept_remember {store : Store Fragment} (kept : AllKept holds store)
    {entry : Entry Fragment}    (new : ∀ fragment, entry.value = .object fragment → holds fragment) :
    AllKept holds (store.remember entry) := by
  intro key held fragment found object
  by_cases same : key = entry.key
  · subst same
    rw [store.remembered_remember entry] at found
    obtain rfl := Option.some.inj found
    exact new fragment object
  · rw [store.remembered_remember_of_ne entry key same] at found
    exact kept key held fragment found object

theorem keeps_memoize {cache : Cache} {key : String} {made : Except Failure Fragment}
    (each : ∀ fragment, made = .ok fragment → holds fragment) :
    Keeps (AllKept holds) (OnValue fun kept => ∀ fragment, kept = .object fragment → holds fragment)
      (cache.memoize key (ofExcept made)) := by
  intro store kept
  unfold Cache.memoize
  cases held : store.remembered key with
  | some entry =>
      exact ⟨kept, OnValue.ok fun fragment object => kept key entry fragment held object⟩
  | none =>
      cases made with
      | error failure => exact ⟨kept, OnValue.error failure⟩
      | ok fragment =>
          have new : ∀ other, Kept.object fragment = .object other → holds other := by
            intro other same
            cases same
            exact each fragment rfl
          exact ⟨allKept_remember kept new, OnValue.ok new⟩

section Compiling

variable {compiler : Compiler}

theorem keeps_fragment {style : Style} {encoder : Encoder} {options : EncoderOptions}
    (each : ∀ fragment, compiler.encode encoder style options = .ok fragment → holds fragment) :
    Keeps (AllKept holds) (OnValue holds) (compiler.fragment style encoder options) := by
  have keyed : Keeps (AllKept holds) (OnValue fun _ => True)
      (ofExcept (compiler.fragmentKey encoder options style)) :=
    keeps_ofExcept fun _ _ => trivial
  refine keyed.bindValue ?_
  intro key _
  refine (keeps_memoize each).bindValue ?_
  intro kept known
  cases kept with
  | object fragment => exact keeps_pure (OnValue.ok (known fragment rfl))
  | text words => exact keeps_fail (OnValue.error _)

theorem keeps_fragmentsFor {style : Style} {pairs : List (Encoder × EncoderOptions)}
    (each : ∀ pair ∈ pairs, ∀ fragment,
      compiler.encode pair.1 style pair.2 = .ok fragment → holds fragment) :
    Keeps (AllKept holds)
      (OnValue fun fragments =>
        fragments.length = pairs.length ∧ ∀ fragment ∈ fragments, holds fragment)
      (compiler.fragmentsFor style pairs) := by
  induction pairs with
  | nil =>
      exact keeps_pure (OnValue.ok ⟨rfl, fun fragment member => absurd member List.not_mem_nil⟩)
  | cons pair rest ih =>
      refine (keeps_fragment (each pair List.mem_cons_self)).bindValue ?_
      intro first here
      refine (ih fun other member => each other (List.mem_cons_of_mem pair member)).bindValue ?_
      rintro others ⟨counted, behind⟩
      refine keeps_pure (OnValue.ok ⟨?_, List.forall_mem_cons.mpr ⟨here, behind⟩⟩)
      rw [List.length_cons, List.length_cons, counted]

theorem keeps_compile {config : Configuration} (encodes : compiler.Encodes holds config) :
    Keeps (AllKept holds) (OnValue (compiler.MadeOf holds config)) (compiler.compile config) := by
  let isMade (raw : List Char) : Prop := ∃ fragments,
    fragments.length = (compiler.wanted config).length ∧
    (∀ fragment ∈ fragments, holds fragment) ∧
    Script.assemble compiler.context config fragments (.ofConfiguration config) = .ok raw
  have made : Keeps (AllKept holds) (OnValue isMade)
      (compiler.rawScript config (.ofConfiguration config)) :=
    (keeps_fragmentsFor encodes).bindValue fun fragments each =>
      keeps_ofExcept fun raw done => ⟨fragments, each.1, each.2, done⟩
  have raw : Keeps (AllKept holds) (OnValue isMade) (Action.mapFailure Failure.asGeneration
      (compiler.rawScript config (.ofConfiguration config))) := by
    refine made.mapFailure ?_
    rintro (failure | raw) known other done
    · cases done
    · exact known other done
  refine raw.bindValue fun raw known store kept => ?_
  obtain ⟨fragments, counted, each, done⟩ := known
  unfold finish
  split
  · rename_i shortens
    refine ⟨kept, OnValue.ok ⟨fragments, counted, each, done, ?_⟩⟩
    rw [finished, if_pos shortens]
  · rename_i plain
    refine ⟨kept, OnValue.ok ⟨fragments, counted, each, done, ?_⟩⟩
    rw [finished, if_neg plain]

/-- A compiled script is assembled from a fragment of every wanted encoder and then finished,
whatever memory holds. -/
theorem assembled_of_compile {config : Configuration} {store : Store Fragment}
    {script : CompiledScript} (compiled : (compiler.compile config store).result = .ok script) :
    ∃ fragments, fragments.length = (compiler.wanted config).length ∧
      Script.assemble compiler.context config fragments (.ofConfiguration config) =
        .ok script.raw ∧ script = compiler.finished script.raw := by
  have any : compiler.Encodes (fun _ => True) config := fun _ _ _ _ => trivial
  have kept : AllKept (fun _ => True) store := fun _ _ _ _ _ => trivial
  obtain ⟨fragments, counted, -, assembled, finished⟩ :=
    (keeps_compile any store kept).2 script compiled
  exact ⟨fragments, counted, assembled, finished⟩

end Compiling

/-- The store after some compilations, whether or not they failed. -/
def afterCompiling (store : Store Fragment) (calls : List (Compiler × Configuration)) :
    Store Fragment :=
  calls.foldl (fun store call => (call.1.compile call.2 store).state) store

theorem allKept_afterCompiling {calls : List (Compiler × Configuration)}
    (encodes : ∀ call ∈ calls, call.1.Encodes holds call.2) {store : Store Fragment}
    (kept : AllKept holds store) : AllKept holds (afterCompiling store calls) := by
  induction calls generalizing store with
  | nil => exact kept
  | cons call rest ih =>
      have after := (keeps_compile (encodes call List.mem_cons_self) store kept).1
      exact ih (fun other member => encodes other (List.mem_cons_of_mem call member)) after

theorem madeOf_afterCompiling {calls : List (Compiler × Configuration)}
    (encodeCalls : ∀ call ∈ calls, call.1.Encodes holds call.2) {start : Store Fragment}
    (fresh : start.memory = []) {compiler : Compiler} {config : Configuration}
    (encodes : compiler.Encodes holds config) {script : CompiledScript}
    (compiled : (compiler.compile config (afterCompiling start calls)).result = .ok script) :
    compiler.MadeOf holds config script :=
  (keeps_compile encodes _ (allKept_afterCompiling encodeCalls (allKept_of_forgotten fresh))).2
    script compiled

end StatusLine.Compiler

import StatusLine.Proofs.Action
import StatusLine.Proofs.Compiler.Fields

/-!
Compiling anew, with nothing in memory. A compiler whose memory tier recalls only what encoding
gives anew compiles everything as it would anew, as long as keys tell apart what is compiled.
-/

namespace StatusLine.Compiler

open StatusLine.Action

/-! Scripts and fragments that are made anew. -/

def fragmentAnew (compiler : Compiler) (style : Style) (pair : Encoder × EncoderOptions) :
    Except Failure Fragment := do
  let _ ← compiler.fragmentKey pair.1 pair.2 style
  compiler.encode pair.1 style pair.2

def fragmentsAnew (compiler : Compiler) (style : Style) :
    List (Encoder × EncoderOptions) → Except Failure (List Fragment)
  | [] => .ok []
  | pair :: rest => do
      let first ← compiler.fragmentAnew style pair
      let others ← compiler.fragmentsAnew style rest
      return first :: others

def rawAnew (compiler : Compiler) (config : Configuration) : Except Failure (List Char) := do
  let fragments ← compiler.fragmentsAnew (.ofConfiguration config) (compiler.wanted config)
  Script.assemble compiler.context config fragments (.ofConfiguration config)

/-- A script as it leaves the compiler. -/
def finished (compiler : Compiler) (raw : List Char) : CompiledScript :=
  if compiler.optimizes then
    let outcome := compiler.shorten raw
    ⟨raw, outcome.text, Audit.audit raw outcome.text⟩
  else ⟨raw, raw, .clean⟩

def compiledAnew (compiler : Compiler) (config : Configuration) :
    Except Failure CompiledScript :=
  ((compiler.rawAnew config).mapError Failure.asGeneration).map compiler.finished

def textAnew (compiler : Compiler) (config : Configuration) : Except Failure (List Char) :=
  (compiler.compiledAnew config).map CompiledScript.text

theorem compiledAnew_congr {compiler : Compiler} {a b : Configuration}
    (same : compiler.scriptFields a = compiler.scriptFields b) :
    compiler.compiledAnew a = compiler.compiledAnew b := by
  obtain ⟨alike, wanted⟩ := alike_of_scriptFields same
  simp only [compiledAnew, rawAnew, wanted, alike.style, alike.assemble]

theorem textAnew_congr {compiler : Compiler} {a b : Configuration}
    (same : compiler.scriptFields a = compiler.scriptFields b) :
    compiler.textAnew a = compiler.textAnew b := by
  rw [textAnew, textAnew, compiledAnew_congr same]

theorem optimized_of_finished {compiler : Compiler} {context : Context} {cache : Option Cache}
    {optimizes : Bool} (made : make context cache optimizes = .ok compiler) (raw : List Char) :
    (compiler.finished raw).optimized =
      if compiler.optimizes then (Shortening.optimize .all raw).text else raw := by
  unfold finished
  rw [(encode_of_make made).2.1]
  split <;> rfl

/-! Keys. -/

theorem exists_of_key {domain key : String} {fields : Datum}
    (made : Fingerprint.key domain fields = .ok key) : ∃ hex, key = domain ++ "-" ++ hex := by
  unfold Fingerprint.key at made
  split at made
  · obtain ⟨hex, -, rfl⟩ := map_eq_ok made
    exact ⟨hex, rfl⟩
  · cases made

theorem scriptKey_ne_fragmentKey {compiler : Compiler} {config : Configuration}
    {encoder : Encoder} {options : EncoderOptions} {style : Style} {key other : String}
    (script : compiler.scriptKey config = .ok key)
    (fragment : compiler.fragmentKey encoder options style = .ok other) : key ≠ other := by
  obtain ⟨first, rfl⟩ := exists_of_key script
  obtain ⟨second, rfl⟩ := exists_of_key fragment
  intro same
  have heads := congrArg (fun text : String => text.toList.head?) same
  simp at heads

/-- No two different fields of what is compiled have the same key. -/
structure KeysApart (compiler : Compiler) (isCompiled : Configuration → Prop) : Prop where
  scripts : ∀ a b, isCompiled a → isCompiled b → ∀ key, compiler.scriptKey a = .ok key →
    compiler.scriptKey b = .ok key → compiler.scriptFields a = compiler.scriptFields b
  fragments : ∀ a b, isCompiled a → isCompiled b → ∀ first ∈ compiler.wanted a,
    ∀ second ∈ compiler.wanted b, ∀ key,
      compiler.fragmentKey first.1 first.2 (.ofConfiguration a) = .ok key →
      compiler.fragmentKey second.1 second.2 (.ofConfiguration b) = .ok key →
        compiler.fragmentFields first.1 first.2 (.ofConfiguration a) =
          compiler.fragmentFields second.1 second.2 (.ofConfiguration b)

/-! Memory. -/

/-- What the memory tier has is what encoding and compiling give anew. -/
structure Recalls (compiler : Compiler) (isCompiled : Configuration → Prop)
    (store : Store Fragment) : Prop where
  fragment : ∀ config, isCompiled config → ∀ pair ∈ compiler.wanted config, ∀ key entry,
    compiler.fragmentKey pair.1 pair.2 (.ofConfiguration config) = .ok key →
    store.remembered key = some entry → ∃ fragment, entry.value = .object fragment ∧
      compiler.encode pair.1 (.ofConfiguration config) pair.2 = .ok fragment
  script : ∀ config, isCompiled config → ∀ key entry, compiler.scriptKey config = .ok key →
    store.remembered key = some entry → ∃ text, entry.value = .text text ∧
      compiler.textAnew config = .ok text

theorem Recalls.of_forgotten {compiler : Compiler} {isCompiled : Configuration → Prop}
    {store : Store Fragment} (fresh : store.memory = []) : compiler.Recalls isCompiled store := by
  have forgotten : ∀ key, store.remembered key = none := by
    intro key
    simp [Store.remembered, fresh]
  constructor
  · intro config _ pair _ key entry _ found
    cases (forgotten key).symm.trans found
  · intro config _ key entry _ found
    cases (forgotten key).symm.trans found

theorem Recalls.congr {compiler : Compiler} {isCompiled : Configuration → Prop}
    {store other : Store Fragment} (recalls : compiler.Recalls isCompiled store)
    (same : other.memory = store.memory) : compiler.Recalls isCompiled other := by
  have alike : ∀ key, other.remembered key = store.remembered key := by
    intro key
    simp only [Store.remembered, same]
  constructor
  · intro config asked pair wanted key entry keyed found
    exact recalls.fragment config asked pair wanted key entry keyed (alike key ▸ found)
  · intro config asked key entry keyed found
    exact recalls.script config asked key entry keyed (alike key ▸ found)

def RecallsOn (compiler : Compiler) (isCompiled : Configuration → Prop) (disk : Disk) (now : Float)
    (store : Store Fragment) : Prop :=
  compiler.Recalls isCompiled store ∧ store.disk = disk ∧ store.now = now

theorem recalls_finish {compiler : Compiler} {isCompiled : Configuration → Prop} {disk : Disk}
    {now : Float} (raw : List Char) :
    Keeps (compiler.RecallsOn isCompiled disk now) (· = .ok (compiler.finished raw))
      (compiler.finish raw) := by
  intro store holds
  unfold finish finished
  cases compiler.optimizes with
  | false => exact ⟨holds, rfl⟩
  | true => exact ⟨holds, rfl⟩

section Recalling

variable {compiler : Compiler} {isCompiled : Configuration → Prop}
  (apart : compiler.KeysApart isCompiled) {config : Configuration} (compiled : isCompiled config)

include apart compiled

theorem Recalls.rememberFragment {store : Store Fragment}
    (recalls : compiler.Recalls isCompiled store) {pair : Encoder × EncoderOptions}
    (wanted : pair ∈ compiler.wanted config) {entry : Entry Fragment} {fragment : Fragment}
    (keyed : compiler.fragmentKey pair.1 pair.2 (.ofConfiguration config) = .ok entry.key)
    (encoded : compiler.encode pair.1 (.ofConfiguration config) pair.2 = .ok fragment)
    (held : entry.value = .object fragment) :
    compiler.Recalls isCompiled (store.remember entry) := by
  constructor
  · intro other asked second member key found keyedOther there
    by_cases same : key = entry.key
    · subst same
      rw [store.remembered_remember entry] at there
      obtain rfl := Option.some.inj there
      have fields := apart.fragments config other compiled asked pair wanted second member _ keyed
        keyedOther
      obtain ⟨encoders, options, styles⟩ := eq_of_fragmentFields fields
      exact ⟨fragment, held, by rw [← encoders, ← options, ← styles]; exact encoded⟩
    · rw [store.remembered_remember_of_ne entry key same] at there
      exact recalls.fragment other asked second member key found keyedOther there
  · intro other asked key found keyedOther there
    have different := scriptKey_ne_fragmentKey keyedOther keyed
    rw [store.remembered_remember_of_ne entry key different] at there
    exact recalls.script other asked key found keyedOther there

theorem Recalls.rememberScript {store : Store Fragment}
    (recalls : compiler.Recalls isCompiled store) {entry : Entry Fragment} {text : List Char}
    (keyed : compiler.scriptKey config = .ok entry.key)
    (made : compiler.textAnew config = .ok text) (held : entry.value = .text text) :
    compiler.Recalls isCompiled (store.remember entry) := by
  constructor
  · intro other asked second member key found keyedOther there
    have different := (scriptKey_ne_fragmentKey keyed keyedOther).symm
    rw [store.remembered_remember_of_ne entry key different] at there
    exact recalls.fragment other asked second member key found keyedOther there
  · intro other asked key found keyedOther there
    by_cases same : key = entry.key
    · subst same
      rw [store.remembered_remember entry] at there
      obtain rfl := Option.some.inj there
      have fields := apart.scripts config other compiled asked _ keyed keyedOther
      exact ⟨text, held, by rw [← textAnew_congr fields]; exact made⟩
    · rw [store.remembered_remember_of_ne entry key same] at there
      exact recalls.script other asked key found keyedOther there

variable {disk : Disk} {now : Float}

theorem recalls_memoize {pair : Encoder × EncoderOptions}
    (wanted : pair ∈ compiler.wanted config) {key : String}
    (keyed : compiler.fragmentKey pair.1 pair.2 (.ofConfiguration config) = .ok key) :
    Keeps (compiler.RecallsOn isCompiled disk now)
      (· = (compiler.encode pair.1 (.ofConfiguration config) pair.2).map .object)
      (compiler.cache.memoize key
        (ofExcept (compiler.encode pair.1 (.ofConfiguration config) pair.2))) := by
  intro store holds
  unfold Cache.memoize
  cases held : store.remembered key with
  | some entry =>
      obtain ⟨fragment, object, encoded⟩ :=
        holds.1.fragment config compiled pair wanted key entry keyed held
      exact ⟨holds, by simp [object, encoded, Except.map]⟩
  | none =>
      cases made : compiler.encode pair.1 (.ofConfiguration config) pair.2 with
      | error failure => exact ⟨holds, rfl⟩
      | ok fragment =>
          obtain ⟨recalls, onDisk, atTime⟩ := holds
          exact ⟨⟨recalls.rememberFragment apart compiled wanted keyed made rfl, onDisk, atTime⟩,
            rfl⟩

theorem recalls_fragment {pair : Encoder × EncoderOptions}
    (wanted : pair ∈ compiler.wanted config) :
    Keeps (compiler.RecallsOn isCompiled disk now)
      (· = compiler.fragmentAnew (.ofConfiguration config) pair)
      (compiler.fragment (.ofConfiguration config) pair.1 pair.2) := by
  refine (keeps_ofExcept rfl).bindResult ?_
  intro key keyed
  refine (recalls_memoize apart compiled wanted keyed).bind ?_ ?_
  · intro failure made
    cases encoded : compiler.encode pair.1 (.ofConfiguration config) pair.2 with
    | error other => rw [encoded] at made; cases made; rfl
    | ok fragment => rw [encoded] at made; cases made
  · intro value made
    obtain ⟨fragment, encoded, rfl⟩ := map_eq_ok made.symm
    exact keeps_pure encoded.symm

theorem recalls_fragmentsFor {pairs : List (Encoder × EncoderOptions)}
    (wanted : ∀ pair ∈ pairs, pair ∈ compiler.wanted config) :
    Keeps (compiler.RecallsOn isCompiled disk now)
      (· = compiler.fragmentsAnew (.ofConfiguration config) pairs)
      (compiler.fragmentsFor (.ofConfiguration config) pairs) := by
  induction pairs with
  | nil => exact keeps_pure rfl
  | cons pair rest ih =>
      refine (recalls_fragment apart compiled (wanted pair List.mem_cons_self)).bindResult ?_
      intro first _
      refine (ih fun other member => wanted other (List.mem_cons_of_mem pair member)).bindResult ?_
      intro others _
      exact keeps_pure rfl

theorem recalls_compile :
    Keeps (compiler.RecallsOn isCompiled disk now) (· = compiler.compiledAnew config)
      (compiler.compile config) := by
  have raw : Keeps (compiler.RecallsOn isCompiled disk now) (· = compiler.rawAnew config)
      (compiler.rawScript config (.ofConfiguration config)) := by
    refine (recalls_fragmentsFor apart compiled fun _ member => member).bindResult ?_
    intro fragments _
    exact keeps_ofExcept rfl
  have assembled : Keeps (compiler.RecallsOn isCompiled disk now)
      (· = (compiler.rawAnew config).mapError Failure.asGeneration)
      (Action.mapFailure Failure.asGeneration
        (compiler.rawScript config (.ofConfiguration config))) := by
    refine raw.mapFailure ?_
    rintro result rfl
    rfl
  refine assembled.bind ?_ ?_
  · intro failure made
    rw [compiledAnew, ← made]
    rfl
  · intro text made
    rw [compiledAnew, ← made]
    exact recalls_finish text

end Recalling

theorem compile_of_forgotten {compiler : Compiler} {config : Configuration}
    (apart : compiler.KeysApart (· = config)) {store : Store Fragment}
    (fresh : store.memory = []) :
    (compiler.compile config store).result = compiler.compiledAnew config :=
  (recalls_compile apart rfl store ⟨.of_forgotten fresh, rfl, rfl⟩).2

end StatusLine.Compiler

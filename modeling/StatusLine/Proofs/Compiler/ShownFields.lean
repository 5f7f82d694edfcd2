import StatusLine.Proofs.Compiler.HeaderComment
import StatusLine.Proofs.Compiler.ShownScripts
import StatusLine.Proofs.Fingerprint.Keyable
import StatusLine.Proofs.Store.FileText

/-!
Keys of one script. A key covers some things that a script need not show: whether emojis are on, if
there is nothing to label, and thresholds of metrics that are not shown, or not in color.
Configurations of one script share a key just if they agree in these as well.
-/

namespace StatusLine

open Script

namespace Fingerprint

theorem sha256_of_key {domain : String} (known : domains.contains domain = true)
    {fields others : Datum} {text other : List Char} (here : fields.canonicalText = .ok text)
    (there : others.canonicalText = .ok other) (same : key domain fields = key domain others) :
    Sha256.digest (text.flatMap String.utf8EncodeChar) =
      Sha256.digest (other.flatMap String.utf8EncodeChar) := by
  rw [key, key, if_pos known, if_pos known, digest, digest, here, there] at same
  have hashes := (String.append_right_inj _).mp (Except.ok.inj same)
  rw [← utf8_eq, ← utf8_eq]
  exact String.ofList_injective hashes

end Fingerprint

namespace Compiler

variable {compiler : Compiler} {a b : Configuration}

/-- The configurations agree in what their keys cover and their scripts do not show. -/
structure SameUnseen (compiler : Compiler) (a b : Configuration) : Prop where
  emojis : compiler.wanted a = [] →
    (Style.ofConfiguration a).emojis = (Style.ofConfiguration b).emojis
  cpu : Metrics.features.any a.has = true → ¬ (a.has "cpu" = true ∧ a.colors = true) →
    a.monitoring.cpuThreshold = b.monitoring.cpuThreshold
  memory : Metrics.features.any a.has = true → ¬ (a.has "memory" = true ∧ a.colors = true) →
    a.monitoring.memoryThreshold = b.monitoring.memoryThreshold
  /-- A load that is shown is known as far as it is printed. -/
  load : Metrics.features.any a.has = true → (a.has "load" = true → a.colors = true →
      Metrics.LoadsAlike a.monitoring.loadThreshold b.monitoring.loadThreshold) →
    a.monitoring.loadThreshold = b.monitoring.loadThreshold

theorem mem_wanted_of_configure {config : Configuration} {encoder : Encoder}
    {options : EncoderOptions}
    (configured : encoder.configure compiler.context.settings config = some options) :
    (encoder, options) ∈ compiler.wanted config :=
  List.mem_filterMap.mpr ⟨encoder, by cases encoder <;> decide, by rw [configured]; rfl⟩

theorem emojis_of_shown (shown : compiler.SameShown a b) (wanted : compiler.wanted a ≠ []) :
    (Style.ofConfiguration a).emojis = (Style.ofConfiguration b).emojis := by
  obtain ⟨⟨encoder, options⟩, rest, shape⟩ := List.exists_cons_of_ne_nil wanted
  have member : (encoder, options) ∈ compiler.wanted a := shape ▸ List.mem_cons_self
  have displayed := shown.displays _ member
  cases encoder with
  | metrics =>
      have configured := configure_of_mem_wanted member
      rw [Encoder.configure_metrics] at configured
      obtain ⟨asked, -⟩ := Option.ite_none_right_eq_some.mp configured
      simp only [Metrics.features, List.any_cons, List.any_nil, Bool.or_eq_true,
        Bool.false_eq_true, or_false] at asked
      rcases asked with cpu | memory | load
      · exact (displayed.cpu cpu).2
      · exact (displayed.memory memory).2
      · exact (displayed.load load).2
  | _ => exact displayed

theorem monitoring_of_shown (shown : compiler.SameShown a b) (unseen : compiler.SameUnseen a b)
    (asked : Metrics.features.any a.has = true) : a.monitoring = b.monitoring := by
  have configured := (Encoder.configure_metrics compiler.context.settings a).trans (if_pos asked)
  have member := mem_wanted_of_configure configured
  have rate : a.monitoring.refreshRate = b.monitoring.refreshRate := shown.queries _ member
  have displayed := shown.displays _ member
  have cpu : a.monitoring.cpuThreshold = b.monitoring.cpuThreshold := by
    by_cases visible : a.has "cpu" = true ∧ a.colors = true
    · exact (displayed.cpu visible.1).1 visible.2
    · exact unseen.cpu asked visible
  have memory : a.monitoring.memoryThreshold = b.monitoring.memoryThreshold := by
    by_cases visible : a.has "memory" = true ∧ a.colors = true
    · exact (displayed.memory visible.1).1 visible.2
    · exact unseen.memory asked visible
  have load := unseen.load asked fun has colors => (displayed.load has).1 colors
  cases shape : a.monitoring
  cases shapeThere : b.monitoring
  rw [shape, shapeThere] at rate cpu memory load
  simp only at rate cpu memory load
  rw [rate, cpu, memory, load]

theorem style_of_shown (shown : compiler.SameShown a b) (unseen : compiler.SameUnseen a b) :
    Style.ofConfiguration a = Style.ofConfiguration b := by
  have emojis : (Style.ofConfiguration a).emojis = (Style.ofConfiguration b).emojis := by
    by_cases wanted : compiler.wanted a = []
    · exact unseen.emojis wanted
    · exact emojis_of_shown shown wanted
  simp only [Style.ofConfiguration, shown.header.theme, shown.header.colors] at emojis ⊢
  rw [emojis]

theorem wanted_of_shown (shown : compiler.SameShown a b) (unseen : compiler.SameUnseen a b) :
    compiler.wanted a = compiler.wanted b := by
  have asked : Metrics.features.any a.has = Metrics.features.any b.has :=
    any_has_of_sameHeader shown.header (by decide)
  have configured : ∀ encoder : Encoder, encoder.configure compiler.context.settings a =
      encoder.configure compiler.context.settings b := by
    intro encoder
    by_cases metrics : encoder = .metrics
    · subst metrics
      rw [Encoder.configure_metrics, Encoder.configure_metrics, ← asked,
        Metrics.chosenBy_congr shown.header]
      cases present : Metrics.features.any a.has with
      | false => rfl
      | true => rw [monitoring_of_shown shown unseen present]
    · exact Encoder.configure_congr shown.header _ (fun _ => shown.usage) metrics
  simp only [wanted, configured]

theorem monitoring_of_wanted (same : compiler.wanted a = compiler.wanted b)
    (asked : Metrics.features.any a.has = true) :
    a.monitoring.cpuThreshold = b.monitoring.cpuThreshold ∧
      a.monitoring.memoryThreshold = b.monitoring.memoryThreshold ∧
      a.monitoring.loadThreshold = b.monitoring.loadThreshold := by
  have configured := (Encoder.configure_metrics compiler.context.settings a).trans (if_pos asked)
  have member := mem_wanted_of_configure configured
  rw [same] at member
  have there := configure_of_mem_wanted member
  rw [Encoder.configure_metrics] at there
  obtain ⟨-, chosen⟩ := Option.ite_none_right_eq_some.mp there
  have options := EncoderOptions.metrics.inj (Option.some.inj chosen)
  have field := fun value : Metrics.Options → Datum => congrArg value options
  exact ⟨(Datum.int.inj (field (·.cpuThreshold))).symm,
    (Datum.int.inj (field (·.memoryThreshold))).symm,
    (Datum.float.inj (field (·.loadThreshold))).symm⟩

theorem scriptFields_eq_iff (shown : compiler.SameShown a b) :
    compiler.scriptFields a = compiler.scriptFields b ↔ compiler.SameUnseen a b := by
  constructor
  · intro same
    obtain ⟨alike, wanted⟩ := alike_of_scriptFields same
    have thresholds := monitoring_of_wanted wanted
    exact ⟨fun _ => congrArg Style.emojis alike.style, fun asked _ => (thresholds asked).1,
      fun asked _ => (thresholds asked).2.1, fun asked _ => (thresholds asked).2.2⟩
  · intro unseen
    simp only [scriptFields, shown.header.features, style_of_shown shown unseen, shown.logging,
      wanted_of_shown shown unseen]

theorem rawAnew_of_compiledAnew {config : Configuration} {script : CompiledScript}
    (compiled : compiler.compiledAnew config = .ok script) :
    compiler.rawAnew config = .ok script.raw := by
  obtain ⟨raw, made, rfl⟩ := map_eq_ok compiled
  cases anew : compiler.rawAnew config with
  | error failure =>
      rw [anew] at made
      cases made
  | ok text =>
      rw [anew] at made
      obtain rfl := Except.ok.inj made
      unfold finished
      split <;> rfl

theorem compiledAnew_of_compile {isCompiled : Configuration → Prop}
    (apart : compiler.KeysApart isCompiled) {config : Configuration} (compiled : isCompiled config)
    {store : Store Fragment} (recalls : compiler.Recalls isCompiled store) :
    (compiler.compile config store).result = compiler.compiledAnew config :=
  (recalls_compile apart compiled store ⟨recalls, rfl, rfl⟩).2

/-- Of configurations that are compiled into the same script, just those share a key that agree in
what keys cover and the script does not show. -/
theorem scriptKey_eq_iff {context : Context} {cache : Option Cache} {optimizes : Bool}
    (made : make context cache optimizes = .ok compiler) {isCompiled : Configuration → Prop}
    (apart : compiler.KeysApart isCompiled) (first : isCompiled a) (second : isCompiled b)
    {store other : Store Fragment} (recalls : compiler.Recalls isCompiled store)
    (recallsToo : compiler.Recalls isCompiled other) {script shared : CompiledScript}
    (here : (compiler.compile a store).result = .ok script)
    (there : (compiler.compile b other).result = .ok shared) (same : script.raw = shared.raw) :
    compiler.scriptKey a = compiler.scriptKey b ↔ compiler.SameUnseen a b := by
  rw [compiledAnew_of_compile apart first recalls] at here
  rw [compiledAnew_of_compile apart second recallsToo] at there
  have shown := (raw_eq_iff made (rawAnew_of_compiledAnew here)
    (rawAnew_of_compiledAnew there)).mp same
  rw [← scriptFields_eq_iff shown]
  constructor
  · intro keys
    obtain ⟨key, keyed⟩ := compiler.exists_scriptKey a
    exact apart.scripts a b first second key keyed (keys ▸ keyed)
  · intro fields
    rw [scriptKey, scriptKey, fields]

theorem scriptKey_eq_with_weather :
    ∃ script shared,
      ((compilerIn "~/.cache/slc").compile emptyConfiguration emptyStore).result = .ok script ∧
      ((compilerIn "~/.cache/slc").compile { emptyConfiguration with features := ["weather"] }
        emptyStore).result = .ok shared ∧ script.raw = shared.raw ∧
      (compilerIn "~/.cache/slc").scriptKey emptyConfiguration =
        (compilerIn "~/.cache/slc").scriptKey
          { emptyConfiguration with features := ["weather"] } := by
  have made : make (contextIn "~/.cache/slc") (some (compilerIn "~/.cache/slc").cache) false =
      .ok (compilerIn "~/.cache/slc") := rfl
  have done : ((compilerIn "~/.cache/slc").compile emptyConfiguration emptyStore).result.isOk =
      true := by decide +kernel
  have same : ((compilerIn "~/.cache/slc").compile
      { emptyConfiguration with features := ["weather"] } emptyStore).result =
        ((compilerIn "~/.cache/slc").compile emptyConfiguration emptyStore).result := rfl
  have apart : (compilerIn "~/.cache/slc").KeysApart fun config =>
      config = emptyConfiguration ∨ config = { emptyConfiguration with features := ["weather"] } := by
    constructor
    · rintro a b (rfl | rfl) (rfl | rfl) key _ _ <;> rfl
    · have here : (compilerIn "~/.cache/slc").wanted emptyConfiguration = [] := rfl
      have there : (compilerIn "~/.cache/slc").wanted
        { emptyConfiguration with features := ["weather"] } = [] := rfl
      rintro a b (rfl | rfl) _ first wanted
      · exact absurd (here ▸ wanted) List.not_mem_nil
      · exact absurd (there ▸ wanted) List.not_mem_nil
  have fresh : (compilerIn "~/.cache/slc").Recalls (fun config =>
      config = emptyConfiguration ∨ config = { emptyConfiguration with features := ["weather"] })
        emptyStore := Recalls.of_forgotten rfl
  have unseen : (compilerIn "~/.cache/slc").SameUnseen emptyConfiguration
      { emptyConfiguration with features := ["weather"] } := by
    have none : ¬ Metrics.features.any emptyConfiguration.has = true := by decide
    exact ⟨fun _ => rfl, fun asked => absurd asked none, fun asked => absurd asked none,
      fun asked => absurd asked none⟩
  cases compiled : ((compilerIn "~/.cache/slc").compile emptyConfiguration emptyStore).result with
  | error failure => rw [compiled] at done; cases done
  | ok script =>
      exact ⟨script, script, rfl, same.trans compiled, rfl,
        (scriptKey_eq_iff made apart (.inl rfl) (.inr rfl) fresh fresh compiled
          (same.trans compiled) rfl).mpr unseen⟩

/-- Emojis without anything to label make another key for the same script. -/
theorem emojis_unseen :
    (∃ script shared,
      ((compilerIn "~/.cache/slc").compile emptyConfiguration emptyStore).result = .ok script ∧
      ((compilerIn "~/.cache/slc").compile { emptyConfiguration with customEmojis := true }
        emptyStore).result = .ok shared ∧ script.raw = shared.raw) ∧
      (compilerIn "~/.cache/slc").scriptKey emptyConfiguration ≠
        (compilerIn "~/.cache/slc").scriptKey { emptyConfiguration with customEmojis := true } := by
  constructor
  · have done : ((compilerIn "~/.cache/slc").compile emptyConfiguration emptyStore).result.isOk =
        true := by decide +kernel
    have same : ((compilerIn "~/.cache/slc").compile { emptyConfiguration with customEmojis := true }
        emptyStore).result = ((compilerIn "~/.cache/slc").compile emptyConfiguration
          emptyStore).result := rfl
    cases compiled : ((compilerIn "~/.cache/slc").compile emptyConfiguration emptyStore).result with
    | error failure => rw [compiled] at done; cases done
    | ok script => exact ⟨script, script, rfl, same.trans compiled, rfl⟩
  · intro keys
    let fields := (compilerIn "~/.cache/slc").scriptFields emptyConfiguration
    let others := (compilerIn "~/.cache/slc").scriptFields
      { emptyConfiguration with customEmojis := true }
    have here : fields.canonicalText = .ok (fields.canonicalText.toOption.getD []) := by
      decide +kernel
    have there : others.canonicalText = .ok (others.canonicalText.toOption.getD []) := by
      decide +kernel
    have hashes := Fingerprint.sha256_of_key (by decide) here there keys
    revert hashes
    decide +kernel

end Compiler

end StatusLine

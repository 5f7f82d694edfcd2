import StatusLine.Proofs.Compiler.ShownFields
import StatusLine.Proofs.Fingerprint.SameTexts

/-!
Keys are sound but for loads that are not finite. If the text of what a key covers is the same for
two configurations, then so are the settings and whether scripts are shortened, and the scripts are
compiled alike; only a load threshold that is infinite, or no number, is lost on the way into the
text.
-/

namespace StatusLine

open Datum List Script

variable {a b : Configuration}

/-! What the parts of the text tell. -/

theorem Theme.eq_of_name {theme other : Theme} (same : theme.name = other.name) : theme = other := by
  cases theme <;> cases other <;> first
    | rfl
    | exact absurd same (by decide)

theorem Style.eq_of_sameText
    (same : SameText (Style.ofConfiguration a).datum (Style.ofConfiguration b).datum) :
    Style.ofConfiguration a = Style.ofConfiguration b := by
  have each := sameText_record same rfl (by simp)
  simp only [ofConfiguration, forall₂_cons, sameText_bool, sameText_text] at each
  obtain ⟨colors, emojis, theme, -⟩ := each
  simp only [ofConfiguration, colors, theme]
  rw [← emojis, colors]

theorem Settings.eq_of_sameText {settings others : Settings}
    (normal : settings.cacheDirectory.IsNormal) (also : others.cacheDirectory.IsNormal)
    (same : SameText settings.datum others.datum) : settings = others := by
  have each := sameText_record same rfl (by simp)
  simp only [forall₂_cons, sameText_int] at each
  obtain ⟨directory, scriptTtl, scriptGrace, lookupTtl, lookupGrace, timeout, gitTtl, gitGrace,
    gap, -⟩ := each
  have places := eq_of_sameText_path normal also directory
  cases settings
  cases others
  simp_all

theorem names_of_sameText {names others : List String}
    (same : SameText (list (names.map text)) (list (others.map text))) : names = others := by
  have each := sameText_items same
  rw [forall₂_map_left_iff, forall₂_map_right_iff] at each
  simpa only [sameText_text, forall₂_eq_eq_eq] using each

/-! Encoders. -/

namespace Compiler

variable {compiler : Compiler}

def wantedFields (compiler : Compiler) (config : Configuration) : List (String × Datum) :=
  (compiler.wanted config).map fun (encoder, options) => (encoder.name, options.datum)

theorem mem_wantedFields {config : Configuration} {encoder : Encoder} {value : Datum} :
    (encoder.name, value) ∈ compiler.wantedFields config ↔
      ∃ options, encoder.configure compiler.context.settings config = some options ∧
        options.datum = value := by
  constructor
  · intro member
    obtain ⟨⟨other, options⟩, wanted, same⟩ := List.mem_map.mp member
    obtain ⟨named, rfl⟩ := Prod.mk.inj same
    obtain rfl := Encoder.eq_of_name named
    exact ⟨options, configure_of_mem_wanted wanted, rfl⟩
  · rintro ⟨options, configured, rfl⟩
    exact List.mem_map.mpr ⟨(encoder, options), mem_wanted_of_configure configured, rfl⟩

theorem names_wantedFields (config : Configuration) :
    ((compiler.wantedFields config).map Prod.fst).Nodup := by
  rw [wantedFields, wanted, List.map_map, List.map_filterMap]
  refine List.Nodup.filterMap ?_ (by decide)
  intro encoder other name here there
  simp only [Option.map_map, Option.mem_map, Function.comp] at here there
  obtain ⟨_, -, named⟩ := here
  obtain ⟨_, -, namedToo⟩ := there
  exact Encoder.eq_of_name (named.trans namedToo.symm)

/-- Either neither of two configurations wants an encoder, or both do, and its options have one
text. -/
def SameOptions (compiler : Compiler) (a b : Configuration) (encoder : Encoder) : Prop :=
    (encoder.configure compiler.context.settings a = none ∧
        encoder.configure compiler.context.settings b = none) ∨
      ∃ options others, encoder.configure compiler.context.settings a = some options ∧
        encoder.configure compiler.context.settings b = some others ∧
        SameText options.datum others.datum

theorem options_of_sameText
    (same : SameText (object (compiler.wantedFields a)) (object (compiler.wantedFields b)))
    (encoder : Encoder) : compiler.SameOptions a b encoder := by
  obtain ⟨perm, each⟩ := sameText_object (names_wantedFields a) (names_wantedFields b) same
  have named : ∀ config, encoder.name ∈ (compiler.wantedFields config).map Prod.fst ↔
      (encoder.configure compiler.context.settings config).isSome = true := by
    intro config
    rw [List.mem_map, Option.isSome_iff_exists]
    constructor
    · rintro ⟨⟨name, value⟩, member, rfl⟩
      obtain ⟨options, configured, -⟩ := mem_wantedFields.mp member
      exact ⟨options, configured⟩
    · rintro ⟨options, configured⟩
      exact ⟨_, mem_wantedFields.mpr ⟨options, configured, rfl⟩, rfl⟩
  have alike := (named a).symm.trans (perm.mem_iff.trans (named b))
  cases here : encoder.configure compiler.context.settings a with
  | none =>
      cases there : encoder.configure compiler.context.settings b with
      | none => exact .inl ⟨here, there⟩
      | some others => simp [here, there] at alike
  | some options =>
      cases there : encoder.configure compiler.context.settings b with
      | none => simp [here, there] at alike
      | some others =>
          exact .inr ⟨options, others, here, there, each encoder.name _ _
            (mem_wantedFields.mpr ⟨options, here, rfl⟩)
            (mem_wantedFields.mpr ⟨others, there, rfl⟩)⟩

end Compiler

/-! What the whole text tells. -/

/-- The settings of monitoring agree, but that a load that is not finite is as good as another one. -/
structure Monitoring.SameCovered (watched watching : Monitoring) : Prop where
  rate : watched.refreshRate = watching.refreshRate
  cpu : watched.cpuThreshold = watching.cpuThreshold
  memory : watched.memoryThreshold = watching.memoryThreshold
  load : watched.loadThreshold = watching.loadThreshold ∨
    ¬ Decimal.IsFinite watched.loadThreshold ∧ ¬ Decimal.IsFinite watching.loadThreshold

theorem Monitoring.SameCovered.eq {watched watching : Monitoring}
    (same : watched.SameCovered watching) (finite : Decimal.IsFinite watched.loadThreshold) :
    watched = watching := by
  have load := same.load.resolve_right fun infinite => infinite.1 finite
  cases watched
  cases watching
  simp only [mk.injEq]
  exact ⟨same.rate, same.cpu, same.memory, load⟩

structure Configuration.SameCovered (a b : Configuration) : Prop where
  header : SameHeader a b
  style : Style.ofConfiguration a = Style.ofConfiguration b
  logging : a.logging = b.logging
  usage : SameUsage a b
  monitoring : Metrics.features.any a.has = true → a.monitoring.SameCovered b.monitoring

namespace Compiler

variable {compiler : Compiler}

theorem sameUsage_of_options (header : SameHeader a b)
    (same : SameText (object (compiler.wantedFields a)) (object (compiler.wantedFields b))) :
    SameUsage a b := by
  intro asked
  have askedToo : Usage.features.any b.has = true :=
    (any_has_of_sameHeader header (by decide)).symm.trans asked
  have wanted : ∀ config : Configuration, Usage.features.any config.has = true →
      (Encoder.usage.configure compiler.context.settings config).isSome =
        config.usageIntegration := by
    intro config asks
    cases wants : config.usageIntegration <;>
      simp [Encoder.configure, Usage.Options.ofConfiguration?, asks, wants]
  rw [← wanted a asked, ← wanted b askedToo]
  rcases options_of_sameText same .usage with ⟨here, there⟩ | ⟨options, others, here, there, -⟩
  · rw [here, there]
  · rw [here, there]
    rfl

theorem monitoring_of_options
    (same : SameText (object (compiler.wantedFields a)) (object (compiler.wantedFields b)))
    (asked : Metrics.features.any a.has = true) : a.monitoring.SameCovered b.monitoring := by
  have configured := (Encoder.configure_metrics compiler.context.settings a).trans (if_pos asked)
  rcases options_of_sameText same .metrics with ⟨here, -⟩ | ⟨options, others, here, there, texts⟩
  · rw [configured] at here
    cases here
  · obtain rfl := Option.some.inj (configured.symm.trans here)
    rw [Encoder.configure_metrics] at there
    obtain ⟨-, chosen⟩ := Option.ite_none_right_eq_some.mp there
    obtain rfl := Option.some.inj chosen
    have each := sameText_record texts rfl (by simp)
    simp only [Metrics.Options.watching, forall₂_cons, sameText_int, sameText_float] at each
    obtain ⟨-, -, -, rate, cpu, memory, load, -⟩ := each
    exact ⟨rate, cpu, memory, load⟩

theorem parts_of_sameText {other : Compiler}
    (same : SameText (compiler.scriptFields a) (other.scriptFields b)) :
    orderedFeatures a.has = orderedFeatures b.has ∧
      Style.ofConfiguration a = Style.ofConfiguration b ∧ a.logging = b.logging ∧
      SameText (object (compiler.wantedFields a)) (object (other.wantedFields b)) ∧
      SameText compiler.context.settings.datum other.context.settings.datum ∧
      compiler.optimizes = other.optimizes := by
  have each := sameText_fields same rfl (by simp)
  simp only [forall₂_cons, sameText_bool] at each
  obtain ⟨features, style, logging, encoders, settings, optimizes, -⟩ := each
  exact ⟨names_of_sameText features, Style.eq_of_sameText style, logging, encoders, settings,
    optimizes⟩

theorem sameCovered_of_sameText
    (same : SameText (compiler.scriptFields a) (compiler.scriptFields b)) : a.SameCovered b := by
  obtain ⟨features, style, logging, encoders, -⟩ := parts_of_sameText same
  have theme : a.theme = b.theme := by
    have named := congrArg Style.theme style
    exact Theme.eq_of_name (Datum.text.inj named)
  have header : SameHeader a b := ⟨theme, congrArg Style.colors style, features⟩
  exact ⟨header, style, logging, sameUsage_of_options header encoders,
    monitoring_of_options encoders⟩

theorem sameFields_of_options (same : ∀ encoder, compiler.SameOptions a b encoder) :
    Forall₂ SameField (compiler.wantedFields a) (compiler.wantedFields b) := by
  rw [wantedFields, wantedFields, forall₂_map_left_iff, forall₂_map_right_iff, wanted, wanted]
  induction Encoder.all with
  | nil => exact .nil
  | cons encoder rest ih =>
      rcases same encoder with ⟨here, there⟩ | ⟨options, others, here, there, texts⟩
      · simpa only [filterMap_cons, here, there, Option.map_none] using ih
      · simp only [filterMap_cons, here, there, Option.map_some]
        exact .cons ⟨rfl, texts⟩ ih

theorem options_of_sameCovered (same : a.SameCovered b) (encoder : Encoder) :
    compiler.SameOptions a b encoder := by
  by_cases metrics : encoder = .metrics
  · subst metrics
    have asked : Metrics.features.any a.has = Metrics.features.any b.has :=
      any_has_of_sameHeader same.header (by decide)
    rw [SameOptions, Encoder.configure_metrics, Encoder.configure_metrics, ← asked,
      ← Metrics.chosenBy_congr same.header]
    cases present : Metrics.features.any a.has with
    | false => exact .inl ⟨rfl, rfl⟩
    | true =>
        obtain ⟨rate, cpu, memory, load⟩ := same.monitoring present
        refine .inr ⟨_, _, rfl, rfl, SameText.record ?_ (by simp)⟩
        simp only [Metrics.Options.watching, Metrics.Options.chosenBy, forall₂_cons, SameField,
          sameText_bool, sameText_int, sameText_float, rate, cpu, memory, load]
        simp
  · have alike := Encoder.configure_congr same.header compiler.context.settings
      (fun _ => same.usage) metrics
    cases configured : encoder.configure compiler.context.settings a with
    | none => exact .inl ⟨configured, alike ▸ configured⟩
    | some options =>
        exact .inr ⟨options, options, configured, alike ▸ configured,
          sameText_refl (Encoder.keyable_configure configured)⟩

theorem sameText_scriptFields_iff :
    SameText (compiler.scriptFields a) (compiler.scriptFields b) ↔ a.SameCovered b := by
  refine ⟨sameCovered_of_sameText, fun same => ?_⟩
  have encoders : SameText (object (compiler.wantedFields a)) (object (compiler.wantedFields b)) :=
    SameText.object (sameFields_of_options (options_of_sameCovered same)) (names_wantedFields a)
  have features : Keyable (.list ((orderedFeatures a.has).map text)) := .list (by simp [Keyable.text])
  have style := Style.keyable_ofConfiguration a
  have settings := Settings.keyable compiler.context.settings
  refine SameText.object ?_ (by simp)
  rw [← same.header.features, ← same.style, ← same.logging]
  simp only [forall₂_cons, forall₂_nil_right_iff, SameField, true_and, and_true]
  exact ⟨sameText_refl features, sameText_refl style, sameText_refl (.bool _), encoders,
    sameText_refl settings, sameText_refl (.bool _), sameText_refl (.text _)⟩

theorem scriptFields_of_sameCovered (same : a.SameCovered b)
    (finite : Metrics.features.any a.has = true →
      Decimal.IsFinite a.monitoring.loadThreshold) :
    compiler.scriptFields a = compiler.scriptFields b := by
  have asked : Metrics.features.any a.has = Metrics.features.any b.has :=
    any_has_of_sameHeader same.header (by decide)
  have configured : ∀ encoder : Encoder, encoder.configure compiler.context.settings a =
      encoder.configure compiler.context.settings b := by
    intro encoder
    by_cases metrics : encoder = .metrics
    · subst metrics
      rw [Encoder.configure_metrics, Encoder.configure_metrics, ← asked,
        ← Metrics.chosenBy_congr same.header]
      cases present : Metrics.features.any a.has with
      | false => rfl
      | true => rw [(same.monitoring present).eq (finite present)]
    · exact Encoder.configure_congr same.header _ (fun _ => same.usage) metrics
  simp only [scriptFields, wanted, configured, same.header.features, same.style, same.logging]

theorem loadsAlike_iff {load compared : Float} :
    Metrics.LoadsAlike load compared ↔ load = compared := by
  constructor
  · exact fun alike => Decimal.text_plain_injective alike.threshold
  · rintro rfl
    exact ⟨rfl, rfl⟩

theorem asked_of_mem_wanted {config : Configuration} {options : EncoderOptions}
    (member : (.metrics, options) ∈ compiler.wanted config) :
    Metrics.features.any config.has = true := by
  have configured := configure_of_mem_wanted member
  rw [Encoder.configure_metrics] at configured
  exact (Option.ite_none_right_eq_some.mp configured).1

theorem sameShown_iff (same : a.SameCovered b) :
    compiler.SameShown a b ↔ (a.has "load" = true → a.colors = true →
      a.monitoring.loadThreshold = b.monitoring.loadThreshold) := by
  constructor
  · intro shown has colors
    have asked : Metrics.features.any a.has = true := by
      simp [Metrics.features, has]
    have configured := (Encoder.configure_metrics compiler.context.settings a).trans (if_pos asked)
    have displayed := shown.displays _ (mem_wanted_of_configure configured)
    exact loadsAlike_iff.mp ((displayed.load has).1 colors)
  · intro load
    have emojis := congrArg Style.emojis same.style
    refine ⟨same.header, same.usage, same.logging, ?_, ?_⟩
    · rintro ⟨encoder, options⟩ member
      cases encoder with
      | metrics => exact (same.monitoring (asked_of_mem_wanted member)).rate
      | _ => trivial
    · rintro ⟨encoder, options⟩ member
      cases encoder with
      | metrics =>
          have covered := same.monitoring (asked_of_mem_wanted member)
          exact ⟨fun _ => ⟨fun _ => covered.cpu, emojis⟩, fun _ => ⟨fun _ => covered.memory, emojis⟩,
            fun has => ⟨fun colors => loadsAlike_iff.mpr (load has colors), emojis⟩⟩
      | _ => exact emojis

theorem eq_of_make {context : Context} {cache : Option Cache} {optimizes : Bool}
    {here there : Compiler} (made : make context cache optimizes = .ok here)
    (madeToo : make context cache optimizes = .ok there) : here = there :=
  Except.ok.inj (made.symm.trans madeToo)

theorem context_of_make {context : Context} {cache : Option Cache} {optimizes : Bool}
    (made : make context cache optimizes = .ok compiler) : compiler.context = context := by
  unfold make at made
  cases cache with
  | some given =>
      obtain ⟨_, _, done⟩ := bind_eq_ok made
      obtain rfl := Except.ok.inj done
      rfl
  | none =>
      obtain ⟨_, _, done⟩ := bind_eq_ok made
      obtain rfl := Except.ok.inj done
      rfl

theorem compile_congr (same : compiler.scriptFields a = compiler.scriptFields b) :
    compiler.compile a = compiler.compile b := by
  obtain ⟨alike, wanted⟩ := alike_of_scriptFields same
  simp only [compile, rawScript, wanted, alike.style, alike.assemble]

theorem raw_finished (raw : List Char) : (compiler.finished raw).raw = raw := by
  unfold finished
  split <;> rfl

section Sound

variable {home : Option (List Char)} {settings others : Settings} {optimizes shortens : Bool}
  {here there : Compiler} (made : make ⟨settings, home⟩ none optimizes = .ok here)
  (madeToo : make ⟨others, home⟩ none shortens = .ok there)
  (normal : settings.cacheDirectory.IsNormal) (also : others.cacheDirectory.IsNormal)
  (same : (here.scriptFields a).canonicalText = (there.scriptFields b).canonicalText)

include made madeToo normal also same

theorem sound_of_sameText : here = there ∧ a.SameCovered b := by
  obtain ⟨written, done⟩ := (keyable_scriptFields here a).exists_canonicalText
  have texts : SameText (here.scriptFields a) (there.scriptFields b) :=
    ⟨written, done, same ▸ done⟩
  obtain ⟨-, -, -, -, data, flags⟩ := parts_of_sameText texts
  rw [context_of_make made, context_of_make madeToo] at data
  rw [(encode_of_make made).2.2, (encode_of_make madeToo).2.2] at flags
  obtain rfl := Settings.eq_of_sameText normal also data
  subst flags
  obtain rfl := eq_of_make made madeToo
  exact ⟨rfl, sameCovered_of_sameText texts⟩

/-- If the keys of two configurations cover the same text, for compilers in one home, the scripts
are the same, unless a load that is not finite is shown. -/
theorem scripts_known_from_keys :
    here = there ∧
      ((Metrics.features.any a.has = true → Decimal.IsFinite a.monitoring.loadThreshold) →
        here.compile a = there.compile b) ∧
      ∀ script other, here.compiledAnew a = .ok script → there.compiledAnew b = .ok other →
        (script = other ↔ (a.has "load" = true → a.colors = true →
          a.monitoring.loadThreshold = b.monitoring.loadThreshold)) := by
  obtain ⟨rfl, covered⟩ := sound_of_sameText made madeToo normal also same
  refine ⟨rfl, fun finite => compile_congr (scriptFields_of_sameCovered covered finite), ?_⟩
  intro script other compiled compiledToo
  have shown := raw_eq_iff made (rawAnew_of_compiledAnew compiled)
    (rawAnew_of_compiledAnew compiledToo)
  rw [← sameShown_iff covered, ← shown]
  obtain ⟨raw, -, rfl⟩ := map_eq_ok compiled
  obtain ⟨raw, -, rfl⟩ := map_eq_ok compiledToo
  rw [raw_finished, raw_finished]
  exact ⟨fun same => by rw [← raw_finished raw, ← same, raw_finished], congrArg _⟩

end Sound

/-- A configuration that shows nothing but the load, which is too high from a threshold on. -/
def loadConfiguration (threshold : Float) : Configuration :=
  { emptyConfiguration with
    features := ["load"]
    monitoring? := some { Monitoring.standard with loadThreshold := threshold } }

theorem scripts_known_from_keys_with_weather :
    let config := loadConfiguration 2.5
    let other := { config with features := ["weather", "load"] }
    make (contextIn "~/.cache/slc") none false = .ok (compilerIn "~/.cache/slc") ∧
      ((compilerIn "~/.cache/slc").scriptFields config).canonicalText =
        ((compilerIn "~/.cache/slc").scriptFields other).canonicalText ∧
      Decimal.IsFinite config.monitoring.loadThreshold ∧
      (compilerIn "~/.cache/slc").compile config = (compilerIn "~/.cache/slc").compile other := by
  intro config other
  have made : make (contextIn "~/.cache/slc") none false = .ok (compilerIn "~/.cache/slc") := rfl
  have normal : (contextIn "~/.cache/slc").settings.cacheDirectory.IsNormal :=
    PathName.isNormal_ofChars _
  have same : ((compilerIn "~/.cache/slc").scriptFields config).canonicalText =
      ((compilerIn "~/.cache/slc").scriptFields other).canonicalText := rfl
  have finite : Decimal.IsFinite config.monitoring.loadThreshold :=
    ⟨false, 5629499534213120, -51, by decide +kernel⟩
  exact ⟨made, same, finite, (scripts_known_from_keys made made normal normal same).2.1 fun _ => finite⟩

theorem compile_loadConfiguration (threshold : Float) :
    ((compilerIn "~/.cache/slc").compile (loadConfiguration threshold) emptyStore).result =
      (compilerIn "~/.cache/slc").compiledAnew (loadConfiguration threshold) := by
  refine compile_of_forgotten ⟨?_, ?_⟩ rfl
  · rintro _ _ rfl rfl _ _ _
    rfl
  · have lone : ∃ pair, (compilerIn "~/.cache/slc").wanted (loadConfiguration threshold) = [pair] :=
      ⟨_, rfl⟩
    obtain ⟨pair, lone⟩ := lone
    rintro _ _ rfl rfl first here second there _ _ _
    rw [lone] at here there
    rw [List.mem_singleton.mp here, List.mem_singleton.mp there]

/-- What is not finite has the same text in a key, and is not the same in a script. -/
theorem infinite_load_lost :
    ((compilerIn "~/.cache/slc").scriptFields (loadConfiguration (1.0 / 0.0))).canonicalText =
        ((compilerIn "~/.cache/slc").scriptFields (loadConfiguration (0.0 / 0.0))).canonicalText ∧
      ∃ script other,
        ((compilerIn "~/.cache/slc").compile (loadConfiguration (1.0 / 0.0)) emptyStore).result =
          .ok script ∧
        ((compilerIn "~/.cache/slc").compile (loadConfiguration (0.0 / 0.0)) emptyStore).result =
          .ok other ∧ script.raw ≠ other.raw := by
  have made : make (contextIn "~/.cache/slc") none false = .ok (compilerIn "~/.cache/slc") := rfl
  have overflowed : Decimal.parts (1.0 / 0.0) = .infinite false := by decide +kernel
  have undefined : Decimal.parts (0.0 / 0.0) = .nan := by decide +kernel
  have infinite : ¬ Decimal.IsFinite (1.0 / 0.0) ∧ ¬ Decimal.IsFinite (0.0 / 0.0) := by
    constructor
    · rintro ⟨negative, mantissa, exponent, form⟩
      cases overflowed.symm.trans form
    · rintro ⟨negative, mantissa, exponent, form⟩
      cases undefined.symm.trans form
  have different : (1.0 / 0.0 : Float) ≠ 0.0 / 0.0 := by
    intro equal
    cases overflowed.symm.trans ((congrArg Decimal.parts equal).trans undefined)
  have covered : (loadConfiguration (1.0 / 0.0)).SameCovered (loadConfiguration (0.0 / 0.0)) :=
    ⟨⟨rfl, rfl, rfl⟩, rfl, rfl, fun _ => rfl, fun _ =>
      ⟨rfl, rfl, rfl, .inr infinite⟩⟩
  obtain ⟨written, here, there⟩ : SameText
      ((compilerIn "~/.cache/slc").scriptFields (loadConfiguration (1.0 / 0.0)))
      ((compilerIn "~/.cache/slc").scriptFields (loadConfiguration (0.0 / 0.0))) :=
    sameText_scriptFields_iff.mpr covered
  have done : ∀ threshold ∈ [1.0 / 0.0, 0.0 / 0.0],
      (((compilerIn "~/.cache/slc").compile (loadConfiguration threshold)
        emptyStore).result).isOk = true := by decide +kernel
  have first := done _ List.mem_cons_self
  have second := done _ (List.mem_cons_of_mem _ List.mem_cons_self)
  refine ⟨here.trans there.symm, ?_⟩
  rw [compile_loadConfiguration] at first second ⊢
  rw [compile_loadConfiguration]
  cases compiled : (compilerIn "~/.cache/slc").compiledAnew (loadConfiguration (1.0 / 0.0)) with
  | error failure => rw [compiled] at first; cases first
  | ok script =>
      cases compiledToo : (compilerIn "~/.cache/slc").compiledAnew
          (loadConfiguration (0.0 / 0.0)) with
      | error failure => rw [compiledToo] at second; cases second
      | ok shared =>
          refine ⟨script, shared, rfl, rfl, fun raws => different ?_⟩
          have shown := (raw_eq_iff made (rawAnew_of_compiledAnew compiled)
            (rawAnew_of_compiledAnew compiledToo)).mp raws
          exact (sameShown_iff covered).mp shown rfl rfl

end Compiler

end StatusLine

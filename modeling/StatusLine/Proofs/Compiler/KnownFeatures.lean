import StatusLine.Proofs.Compiler.Fields
import StatusLine.Proofs.Compiler.Runs

/-!
Of the features that a configuration lists, only the known ones count, whatever their order and
number: each way in which features reach a script asks for known names alone.
-/

namespace StatusLine

structure SameButListing (a b : Configuration) : Prop where
  known : ∀ name ∈ knownFeatures, a.has name = b.has name
  theme : a.theme = b.theme
  colors : a.colors = b.colors
  customEmojis : a.customEmojis = b.customEmojis
  usageIntegration : a.usageIntegration = b.usageIntegration
  logging : a.logging = b.logging
  monitoring : a.monitoring = b.monitoring

namespace SameButListing

variable {a b : Configuration}

theorem of_listings {given others : List String}
    (same : ∀ name ∈ knownFeatures, name ∈ given ↔ name ∈ others) (config : Configuration) :
    SameButListing { config with features := given } { config with features := others } where
  known name isKnown := by
    rw [Bool.eq_iff_iff]
    simpa only [Configuration.has, List.contains_iff_mem] using same name isKnown
  theme := rfl
  colors := rfl
  customEmojis := rfl
  usageIntegration := rfl
  logging := rfl
  monitoring := rfl

theorem any_has (same : SameButListing a b) {names : List String}
    (known : ∀ name ∈ names, name ∈ knownFeatures) : names.any a.has = names.any b.has := by
  rw [Bool.eq_iff_iff, List.any_eq_true, List.any_eq_true]
  refine exists_congr fun name => and_congr_right fun named => ?_
  rw [same.known name (known name named)]

theorem configure (same : SameButListing a b) (settings : Settings) (encoder : Encoder) :
    encoder.configure settings a = encoder.configure settings b := by
  have has : ∀ name, knownFeatures.contains name = true → a.has name = b.has name :=
    fun name known => same.known name (List.contains_iff_mem.mp known)
  cases encoder with
  | directory =>
      have asked : Directory.isWanted a = Directory.isWanted b := has "directory" rfl
      simp only [Encoder.configure, asked]
  | git => simp only [Encoder.configure, Git.Options.ofConfiguration?, has "git" rfl]
  | model =>
      simp only [Encoder.configure, Model.Options.ofConfiguration?, has "model" rfl, same.theme]
  | metrics =>
      have asked : Metrics.features.any a.has = Metrics.features.any b.has :=
        same.any_has (by decide)
      simp only [Encoder.configure, Metrics.Options.ofConfiguration?, asked, has "cpu" rfl,
        has "memory" rfl, has "load" rfl, same.theme, same.monitoring]
  | usage =>
      have asked : Usage.features.any a.has = Usage.features.any b.has :=
        same.any_has (by decide)
      simp only [Encoder.configure, Usage.Options.ofConfiguration?, asked, has "usage" rfl,
        has "tokens" rfl, has "burnrate" rfl, has "session" rfl, has "cache" rfl,
        has "projections" rfl, has "alerts" rfl, same.theme, same.usageIntegration]

theorem style (same : SameButListing a b) :
    Style.ofConfiguration a = Style.ofConfiguration b := by
  simp only [Style.ofConfiguration, same.theme, same.colors, same.customEmojis]

theorem wanted (same : SameButListing a b) (compiler : Compiler) :
    compiler.wanted a = compiler.wanted b := by
  simp only [Compiler.wanted, same.configure]

theorem alike (same : SameButListing a b) : Compiler.Alike a b where
  features := orderedFeatures_congr _ _ same.known
  style := same.style
  logging := same.logging

theorem scriptKey (same : SameButListing a b) (compiler : Compiler) :
    compiler.scriptKey a = compiler.scriptKey b := by
  simp only [Compiler.scriptKey, Compiler.scriptFields, same.alike.features, same.style,
    same.logging, same.wanted compiler]

theorem compile (same : SameButListing a b) (compiler : Compiler) :
    compiler.compile a = compiler.compile b := by
  have raw : ∀ style, compiler.rawScript a style = compiler.rawScript b style := by
    intro style
    simp only [Compiler.rawScript, same.wanted compiler, same.alike.assemble]
  simp only [Compiler.compile, same.style, raw]

end SameButListing

/-! Features that are given as data. -/

theorem Check.map_apply {α β γ : Type} (change : β → γ) (function : Check (α → β))
    (value : Check α) :
    (Check.apply function value).map change =
      Check.apply (function.map fun f x => change (f x)) value := by
  cases function <;> cases value <;> rfl

theorem Check.map_closed {α β : Type} (change : α → β) (known : List String)
    (entries : List (Datum × Datum)) (value : Check α) :
    (Check.closed known entries value).map change =
      Check.closed known entries (value.map change) := by
  have issues : Check.issues (value.map change) = Check.issues value := by
    cases value <;> rfl
  simp only [Check.closed, issues]
  split <;> rfl

theorem Datum.lookup_append (key : Datum) (before after : List (Datum × Datum)) :
    Datum.lookup key (before ++ after) = (Datum.lookup key before).or (Datum.lookup key after) := by
  induction before with
  | nil => rfl
  | cons entry rest ih =>
      simp only [List.cons_append, Datum.lookup]
      split
      · rfl
      · exact ih

theorem Check.names_texts (features : List String) :
    Check.names (.list (features.map .text)) = .ok (Names.ordered features) := by
  have texts : ∀ index, Check.texts index (features.map .text) = .ok features := by
    induction features with
    | nil => exact fun _ => rfl
    | cons name rest ih =>
        intro index
        simp only [List.map_cons, Check.texts, ih]
        rfl
  simp only [Check.names, Datum.items?, texts]
  rfl

/-- Entries that list the given features, among others. -/
def listing (before after : List (Datum × Datum)) (features : List String) :
    List (Datum × Datum) :=
  before ++ (.text "features", .list (features.map .text)) :: after

section Reading

variable (before after : List (Datum × Datum)) (given others : List String)

theorem field_listing {α : Type} (name : String) (fallback : α) (read : Datum → Check α)
    (different : name ≠ "features") :
    Check.field (listing before after given) name fallback read =
      Check.field (listing before after others) name fallback read := by
  have apart : Datum.same (.text "features") (.text name) = false := by
    simpa [Datum.same] using different.symm
  have found : Datum.lookup (.text name) (listing before after given) =
      Datum.lookup (.text name) (listing before after others) := by
    simp only [listing, Datum.lookup_append, Datum.lookup, apart, Bool.false_eq_true, if_false]
  simp only [Check.field, found]

theorem field_features (fallback : List String) :
    Check.field (listing before after given) "features" fallback Check.names =
        Check.field (listing before after others) "features" fallback Check.names ∨
      ∀ features, Check.field (listing before after features) "features" fallback Check.names =
        .ok (Names.ordered features) := by
  have here : Datum.same (.text "features") (.text "features") = true := by simp [Datum.same]
  cases earlier : Datum.lookup (.text "features") before with
  | some value => exact .inl (by simp only [Check.field, listing, Datum.lookup_append, earlier,
      Option.some_or])
  | none =>
      refine .inr fun features => ?_
      simp only [Check.field, listing, Datum.lookup_append, earlier, Option.none_or, Datum.lookup,
        here, if_true, Check.names_texts]
      rfl

theorem unknownFields_listing (known : List String) :
    Check.unknownFields known (listing before after given) =
      Check.unknownFields known (listing before after others) := by
  simp only [Check.unknownFields, listing, List.filterMap_append, List.filterMap_cons]

end Reading

/-- What does not tell apart configurations with the same known features does not tell apart data
that list them. -/
theorem map_ofDatum_listing {α : Type} (before after : List (Datum × Datum))
    {given others : List String} (view : Configuration → α)
    (blind : ∀ config : Configuration, view { config with features := Names.ordered given } =
      view { config with features := Names.ordered others }) :
    (Configuration.ofDatum (.mapping (listing before after given))).map view =
      (Configuration.ofDatum (.mapping (listing before after others))).map view := by
  simp only [Configuration.ofDatum, Configuration.ofEntries, Check.map_closed, Check.map_apply]
  rw [Check.closed, Check.closed, unknownFields_listing before after given others]
  simp (disch := decide) only [field_listing before after given others]
  rcases field_features before after given others Configuration.standard.features with same | read
  · rw [same]
  · have views : (fun theme colors customEmojis usageIntegration logging monitoring =>
          view ⟨Names.ordered given, theme, colors, customEmojis, usageIntegration, logging,
            monitoring⟩) =
        fun theme colors customEmojis usageIntegration logging monitoring =>
          view ⟨Names.ordered others, theme, colors, customEmojis, usageIntegration, logging,
            monitoring⟩ := by
      funext theme colors customEmojis usageIntegration logging monitoring
      exact blind ⟨[], theme, colors, customEmojis, usageIntegration, logging, monitoring⟩
    simp only [read, Except.map, views]

namespace Compiler

/-- Lists of features with the same known ones are compiled by the same action, and have one key,
whether a configuration holds them as they are or is read from data. -/
theorem only_known_features_count (compiler : Compiler) {given others : List String}
    (same : ∀ name ∈ knownFeatures, name ∈ given ↔ name ∈ others) :
    (∀ config : Configuration,
      compiler.compile { config with features := given } =
          compiler.compile { config with features := others } ∧
        compiler.scriptKey { config with features := given } =
          compiler.scriptKey { config with features := others }) ∧
      ∀ before after : List (Datum × Datum),
        (Configuration.ofDatum (.mapping (listing before after given))).map
            (fun config => (compiler.compile config, compiler.scriptKey config)) =
          (Configuration.ofDatum (.mapping (listing before after others))).map
            fun config => (compiler.compile config, compiler.scriptKey config) := by
  constructor
  · intro config
    have alike := SameButListing.of_listings same config
    exact ⟨alike.compile compiler, alike.scriptKey compiler⟩
  · intro before after
    refine map_ofDatum_listing before after _ fun config => ?_
    have ordered : ∀ name ∈ knownFeatures,
        name ∈ Names.ordered given ↔ name ∈ Names.ordered others := by
      simpa only [Names.mem_ordered] using same
    have alike := SameButListing.of_listings ordered config
    rw [alike.compile compiler, alike.scriptKey compiler]

theorem weather_does_not_count :
    homeCompiler.compile
        { Configuration.standard with features := ["git", "weather", "cpu", "git"] } =
      homeCompiler.compile { Configuration.standard with features := ["cpu", "git"] } :=
  ((homeCompiler.only_known_features_count (by decide)).1 .standard).1

end Compiler

end StatusLine

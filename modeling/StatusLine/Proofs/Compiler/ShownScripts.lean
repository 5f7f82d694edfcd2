import StatusLine.Proofs.Compiler.Anew
import StatusLine.Proofs.Script.FurtherRoutines
import StatusLine.Proofs.Script.ShownHeader

/-!
What a script shows of its configuration: the header, whether there is a log and whether usage is
there, and what the fragments tell of emojis and of monitoring.
-/

namespace StatusLine

open Script Text

variable {a b : Configuration}

/-! Encoders. -/

theorem has_of_sameHeader (same : SameHeader a b) (name : String)
    (known : knownFeatures.contains name = true) : a.has name = b.has name := by
  have listed : ∀ config : Configuration, config.has name = true ↔
      name ∈ orderedFeatures config.has := by
    intro config
    rw [orderedFeatures, List.mem_filter]
    exact ⟨fun has => ⟨List.contains_iff_mem.mp known, has⟩, And.right⟩
  rw [Bool.eq_iff_iff, listed, listed, same.features]

theorem any_has_of_sameHeader (same : SameHeader a b) {names : List String}
    (known : ∀ name ∈ names, knownFeatures.contains name = true) :
    names.any a.has = names.any b.has := by
  rw [Bool.eq_iff_iff, List.any_eq_true, List.any_eq_true]
  refine exists_congr fun name => and_congr_right fun named => ?_
  rw [has_of_sameHeader same name (known name named)]

def Metrics.Options.chosenBy (config : Configuration) : Metrics.Options :=
  ⟨.bool (config.has "cpu"), .bool (config.has "memory"), .bool (config.has "load"), .null, .null,
    .null, .null, .bool (config.theme == .compact)⟩

theorem Encoder.configure_metrics (settings : Settings) (config : Configuration) :
    metrics.configure settings config = if Metrics.features.any config.has then
      some (.metrics ((Metrics.Options.chosenBy config).watching config.monitoring)) else none := by
  unfold configure Metrics.Options.ofConfiguration?
  cases Metrics.features.any config.has <;> rfl

theorem Metrics.chosenBy_congr (same : SameHeader a b) :
    Metrics.Options.chosenBy a = Metrics.Options.chosenBy b := by
  have has := has_of_sameHeader same
  simp only [Metrics.Options.chosenBy, has "cpu" rfl, has "memory" rfl, has "load" rfl, same.theme]

def SameUsage (a b : Configuration) : Prop :=
  Usage.features.any a.has = true → a.usageIntegration = b.usageIntegration

theorem Usage.ofConfiguration?_congr (same : SameHeader a b) (usage : SameUsage a b)
    (settings : Settings) : Usage.Options.ofConfiguration? settings a =
      Usage.Options.ofConfiguration? settings b := by
  have has := has_of_sameHeader same
  have asked : Usage.features.any a.has = Usage.features.any b.has :=
    any_has_of_sameHeader same (by decide)
  unfold Usage.Options.ofConfiguration?
  cases any : Usage.features.any a.has with
  | false => simp only [← asked, any, Bool.and_false, Bool.false_eq_true, if_false]
  | true =>
      simp only [← asked, any, usage any, has "usage" rfl, has "tokens" rfl, has "burnrate" rfl,
        has "session" rfl, has "cache" rfl, has "projections" rfl, has "alerts" rfl, same.theme]

def Encoder.QueryShown (a b : Configuration) : Encoder → Prop
  | metrics => a.monitoring.refreshRate = b.monitoring.refreshRate
  | _ => True

def Encoder.DisplayShown (a b : Configuration) : Encoder → Prop
  | metrics => Metrics.BlocksAlike (.chosenBy a) (.ofConfiguration a) (.ofConfiguration b)
      a.monitoring b.monitoring
  | _ => (Style.ofConfiguration a).emojis = (Style.ofConfiguration b).emojis

def Encoder.Tells (context : Context) (a b : Configuration) (encoder : Encoder) : Prop :=
  encoder.configure context.settings a = none ∧ encoder.configure context.settings b = none ∨
    ∃ options others, encoder.configure context.settings a = some options ∧
      encoder.configure context.settings b = some others ∧
      BothGive (FragmentTells (encoder.QueryShown a b) (encoder.DisplayShown a b))
        (options.encode context (.ofConfiguration a)) (others.encode context (.ofConfiguration b))

theorem Encoder.tells_of_same {context : Context} {encoder : Encoder}
    (same : encoder.configure context.settings a = encoder.configure context.settings b)
    (each : ∀ options, encoder.configure context.settings a = some options →
      BothGive (FragmentTells (encoder.QueryShown a b) (encoder.DisplayShown a b))
        (options.encode context (.ofConfiguration a)) (options.encode context (.ofConfiguration b))) :
    encoder.Tells context a b := by
  cases wanted : encoder.configure context.settings a with
  | none => exact .inl ⟨wanted, same ▸ wanted⟩
  | some options => exact .inr ⟨options, options, wanted, same ▸ wanted, each options wanted⟩

theorem Usage.showsAny_of_some {settings : Settings} {config : Configuration}
    {options : Usage.Options}
    (wanted : Usage.Options.ofConfiguration? settings config = some options) :
    options.showsAny = true := by
  obtain ⟨asked, chosen⟩ := Option.ite_none_right_eq_some.mp wanted
  obtain rfl := Option.some.inj chosen
  simp only [Usage.features, List.any_cons, List.any_nil, Bool.and_eq_true, Bool.or_eq_true,
    Bool.false_eq_true, or_false] at asked
  simp only [Usage.Options.showsAny, Datum.isTruthy, Bool.or_eq_true]
  tauto

theorem Encoder.configure_congr (same : SameHeader a b) (settings : Settings) {encoder : Encoder}
    (usage : encoder = .usage → SameUsage a b) (others : encoder ≠ .metrics) :
    encoder.configure settings a = encoder.configure settings b := by
  have has := has_of_sameHeader same
  cases encoder with
  | directory =>
      have asked : Directory.isWanted a = Directory.isWanted b := has "directory" rfl
      simp only [configure, asked]
  | git => simp only [configure, Git.Options.ofConfiguration?, has "git" rfl]
  | model => simp only [configure, Model.Options.ofConfiguration?, has "model" rfl, same.theme]
  | metrics => exact absurd rfl others
  | usage => simp only [configure, Usage.ofConfiguration?_congr same (usage rfl) settings]

theorem Encoder.tells (same : SameHeader a b) (context : Context) (encoder : Encoder)
    (usage : encoder = .usage → SameUsage a b) : encoder.Tells context a b := by
  have colors : (Style.ofConfiguration a).colors = (Style.ofConfiguration b).colors := same.colors
  have alike := configure_congr same context.settings usage
  cases encoder with
  | directory =>
      refine tells_of_same (alike (by decide)) fun options wanted => ?_
      obtain ⟨-, chosen⟩ := Option.ite_none_right_eq_some.mp wanted
      obtain rfl := Option.some.inj chosen
      exact tells_directory colors
  | git =>
      refine tells_of_same (alike (by decide)) fun options wanted => ?_
      obtain ⟨chosen, -, rfl⟩ := Option.map_eq_some_iff.mp wanted
      exact tells_git colors context chosen
  | model =>
      refine tells_of_same (alike (by decide)) fun options wanted => ?_
      obtain ⟨chosen, -, rfl⟩ := Option.map_eq_some_iff.mp wanted
      exact tells_model colors chosen
  | metrics =>
      have asked : Metrics.features.any a.has = Metrics.features.any b.has :=
        any_has_of_sameHeader same (by decide)
      rw [Encoder.Tells, configure_metrics, configure_metrics, ← asked,
        ← Metrics.chosenBy_congr same]
      cases Metrics.features.any a.has with
      | false => exact .inl ⟨rfl, rfl⟩
      | true => exact .inr ⟨_, _, rfl, rfl, Metrics.tells_metrics colors context _ _ _⟩
  | usage =>
      refine tells_of_same (alike (by decide)) fun options wanted => ?_
      obtain ⟨chosen, given, rfl⟩ := Option.map_eq_some_iff.mp wanted
      have shows := Usage.showsAny_of_some given
      have tells := Usage.tells_usage colors context chosen
      simp only [shows, forall_const] at tells
      exact tells

/-! Fragments. -/

namespace Compiler

variable {compiler : Compiler}

def wantedOf (compiler : Compiler) (config : Configuration) (encoders : List Encoder) :
    List (Encoder × EncoderOptions) :=
  encoders.filterMap fun encoder =>
    (encoder.configure compiler.context.settings config).map fun options => (encoder, options)

theorem wantedOf_append (config : Configuration) (encoders others : List Encoder) :
    compiler.wantedOf config (encoders ++ others) =
      compiler.wantedOf config encoders ++ compiler.wantedOf config others :=
  List.filterMap_append

theorem wantedOf_sublist (config : Configuration) (encoders : List Encoder) :
    ((compiler.wantedOf config encoders).map Prod.fst).Sublist encoders := by
  induction encoders with
  | nil => exact List.Sublist.refl []
  | cons encoder rest ih =>
      cases wanted : encoder.configure compiler.context.settings config with
      | none => simpa [wantedOf, wanted] using ih.cons encoder
      | some options => simpa [wantedOf, wanted] using ih.cons_cons encoder

theorem fragmentsAnew_append {style : Style} {pairs others : List (Encoder × EncoderOptions)}
    {fragments : List Fragment}
    (made : compiler.fragmentsAnew style (pairs ++ others) = .ok fragments) :
    ∃ first second, compiler.fragmentsAnew style pairs = .ok first ∧
      compiler.fragmentsAnew style others = .ok second ∧ fragments = first ++ second := by
  induction pairs generalizing fragments with
  | nil => exact ⟨[], fragments, rfl, made, rfl⟩
  | cons pair rest ih =>
      obtain ⟨fragment, here, made⟩ := bind_eq_ok made
      obtain ⟨more, behind, made⟩ := bind_eq_ok made
      obtain rfl := Except.ok.inj made
      obtain ⟨first, second, given, givenBehind, rfl⟩ := ih behind
      refine ⟨fragment :: first, second, ?_, givenBehind, rfl⟩
      simp only [fragmentsAnew, here, given]
      rfl

section Made

variable {context : Context} {cache : Option Cache} {optimizes : Bool}
  (made : make context cache optimizes = .ok compiler)

include made

theorem encode_of_fragmentAnew {style : Style} {pair : Encoder × EncoderOptions}
    {fragment : Fragment} (given : compiler.fragmentAnew style pair = .ok fragment) :
    pair.2.encode compiler.context style = .ok fragment := by
  obtain ⟨key, -, encoded⟩ := bind_eq_ok given
  rw [(encode_of_make made).1] at encoded
  exact encoded

theorem encodedBy_fragmentsAnew {config : Configuration} {style : Style} {encoders : List Encoder}
    {fragments : List Fragment}
    (given : compiler.fragmentsAnew style (compiler.wantedOf config encoders) = .ok fragments) :
    List.Forall₂ EncodedBy ((compiler.wantedOf config encoders).map Prod.fst) fragments := by
  have each : ∀ pairs : List (Encoder × EncoderOptions), (∀ pair ∈ pairs,
      pair.1.configure compiler.context.settings config = some pair.2) → ∀ fragments,
      compiler.fragmentsAnew style pairs = .ok fragments →
        List.Forall₂ EncodedBy (pairs.map Prod.fst) fragments := by
    intro pairs
    induction pairs with
    | nil =>
        intro _ fragments given
        obtain rfl := Except.ok.inj given
        exact .nil
    | cons pair rest ih =>
        intro configured fragments given
        obtain ⟨here, later⟩ := List.forall_mem_cons.mp configured
        obtain ⟨fragment, first, given⟩ := bind_eq_ok given
        obtain ⟨others, behind, given⟩ := bind_eq_ok given
        obtain rfl := Except.ok.inj given
        exact .cons (pair.1.encodedBy here (encode_of_fragmentAnew made first))
          (ih later others behind)
  refine each _ (fun pair member => ?_) fragments given
  obtain ⟨encoder, -, chosen⟩ := List.mem_filterMap.mp member
  obtain ⟨options, configured, rfl⟩ := Option.map_eq_some_iff.mp chosen
  exact configured

omit made in
theorem notAfter_of_encodedBy {encoders : List Encoder} {fragments : List Fragment}
    (encoded : List.Forall₂ EncodedBy encoders fragments) (known : encoders.Sublist Encoder.all) :
    fragments.Pairwise NotAfter := by
  have names : fragments.map Fragment.name = encoders.map Encoder.name := by
    clear known
    induction encoded with
    | nil => rfl
    | cons here later ih => rw [List.map_cons, List.map_cons, here.name, ih]
  have ranks : (Encoder.all.map Encoder.name).Pairwise fun name other => rank name ≤ rank other := by
    decide
  have inOrder := ranks.sublist (known.map Encoder.name)
  rw [← names, List.pairwise_map] at inOrder
  exact inOrder

theorem fragmentsTell {encoders : List Encoder}
    (tells : ∀ encoder ∈ encoders, encoder.Tells compiler.context a b) :
    BothGive (FragmentsTell
        (∀ pair ∈ compiler.wantedOf a encoders, pair.1.QueryShown a b)
        (∀ pair ∈ compiler.wantedOf a encoders, pair.1.DisplayShown a b))
      (compiler.fragmentsAnew (.ofConfiguration a) (compiler.wantedOf a encoders))
      (compiler.fragmentsAnew (.ofConfiguration b) (compiler.wantedOf b encoders)) := by
  induction encoders with
  | nil => exact .ok (by simpa [wantedOf] using FragmentsTell.nil)
  | cons encoder rest ih =>
      obtain ⟨here, later⟩ := List.forall_mem_cons.mp tells
      rcases here with ⟨none, noneThere⟩ | ⟨options, others, some, someThere, both⟩
      · have shape : compiler.wantedOf a (encoder :: rest) = compiler.wantedOf a rest := by
          simp [wantedOf, none]
        have shapeThere : compiler.wantedOf b (encoder :: rest) = compiler.wantedOf b rest := by
          simp [wantedOf, noneThere]
        rw [shape, shapeThere]
        exact ih later
      · have shape : compiler.wantedOf a (encoder :: rest) =
            (encoder, options) :: compiler.wantedOf a rest := by
          simp [wantedOf, some]
        have shapeThere : compiler.wantedOf b (encoder :: rest) =
            (encoder, others) :: compiler.wantedOf b rest := by
          simp [wantedOf, someThere]
        simp only [shape, shapeThere, List.forall_mem_cons]
        refine BothGive.given.bind fun first second given => ?_
        refine (ih later).bind fun more behind known => .ok ?_
        exact .cons (both first second (encode_of_fragmentAnew made given.1)
          (encode_of_fragmentAnew made given.2)) known

/-! Scripts. -/

theorem notAfter_fragmentsAnew {config : Configuration} {style : Style} {fragments : List Fragment}
    (given : compiler.fragmentsAnew style (compiler.wanted config) = .ok fragments) :
    fragments.Pairwise NotAfter :=
  notAfter_of_encodedBy (encodedBy_fragmentsAnew made given) (wantedOf_sublist config Encoder.all)

def otherEncoders : List Encoder :=
  [.directory, .git, .model, .metrics]

omit made in
theorem wanted_of_usage {config : Configuration} {options : EncoderOptions}
    (wanted : Encoder.usage.configure compiler.context.settings config = some options) :
    compiler.wanted config = compiler.wantedOf config otherEncoders ++ [(.usage, options)] := by
  refine (wantedOf_append config otherEncoders [.usage]).trans ?_
  simp [wantedOf, wanted]

omit made in
theorem wanted_of_no_usage {config : Configuration}
    (unwanted : Encoder.usage.configure compiler.context.settings config = none) :
    compiler.wanted config = compiler.wantedOf config otherEncoders := by
  refine (wantedOf_append config otherEncoders [.usage]).trans ?_
  simp [wantedOf, unwanted]

theorem startsKnown_fragmentsAnew {config : Configuration} {style : Style}
    {fragments : List Fragment}
    (given : compiler.fragmentsAnew style (compiler.wantedOf config otherEncoders) =
      .ok fragments) :
    ∀ fragment ∈ fragments, StartsKnown fragment.setup ∧ StartsKnown fragment.query := by
  have encoded := encodedBy_fragmentsAnew made given
  have others : ∀ encoder ∈ (compiler.wantedOf config otherEncoders).map Prod.fst,
      encoder ≠ .usage := by
    rintro _ member rfl
    exact absurd ((wantedOf_sublist config otherEncoders).subset member) (by decide)
  clear given
  generalize (compiler.wantedOf config otherEncoders).map Prod.fst = encoders at encoded others
  induction encoded with
  | nil => exact nofun
  | cons here later ih =>
      obtain ⟨first, rest⟩ := List.forall_mem_cons.mp others
      exact List.forall_mem_cons.mpr ⟨here.starts first, ih rest⟩

theorem diverge_of_usage (same : SameHeader a b) (asked : Usage.features.any a.has = true)
    (here : a.usageIntegration = true) (there : b.usageIntegration = false) :
    BothGive Diverge (compiler.rawAnew a) (compiler.rawAnew b) := by
  obtain ⟨options, wanted⟩ : ∃ options,
      Encoder.usage.configure compiler.context.settings a = some options := by
    simp [Encoder.configure, Usage.Options.ofConfiguration?, here, asked]
  have unwanted : Encoder.usage.configure compiler.context.settings b = none := by
    simp [Encoder.configure, Usage.Options.ofConfiguration?, there]
  have tells : ∀ encoder ∈ otherEncoders, encoder.Tells compiler.context a b :=
    fun encoder member => encoder.tells same compiler.context fun usage =>
      absurd (usage ▸ member) (by decide)
  refine BothGive.given.bind fun fragments others given => ?_
  have inOrder := notAfter_fragmentsAnew made given.1
  have inOrderThere := notAfter_fragmentsAnew made given.2
  rw [wanted_of_usage wanted, wanted_of_no_usage unwanted] at given
  obtain ⟨base, last, first, usage, rfl⟩ := fragmentsAnew_append given.1
  obtain ⟨fragment, encoded, usage⟩ := bind_eq_ok usage
  obtain rfl := Except.ok.inj usage
  obtain ⟨start, noInputs⟩ := (Encoder.usage.encodedBy wanted
    (encode_of_fragmentAnew made encoded)).usage rfl
  have theme : (Style.ofConfiguration a).theme = (Style.ofConfiguration b).theme := by
    rw [Style.ofConfiguration, Style.ofConfiguration, same.theme]
  have colors : (Style.ofConfiguration a).colors = (Style.ofConfiguration b).colors := same.colors
  exact assemble_ne_of_usage same colors theme inOrder inOrderThere
    (fragmentsTell made tells base others first given.2)
    (startsKnown_fragmentsAnew made given.2) start noInputs compiler.context

structure SameShown (compiler : Compiler) (a b : Configuration) : Prop where
  header : SameHeader a b
  usage : SameUsage a b
  logging : a.logging = b.logging
  queries : ∀ pair ∈ compiler.wanted a, pair.1.QueryShown a b
  displays : ∀ pair ∈ compiler.wanted a, pair.1.DisplayShown a b

theorem tells_rawAnew (same : SameHeader a b) (usage : SameUsage a b) :
    BothGive (Text.Tells (a.logging = b.logging ∧
        (∀ pair ∈ compiler.wanted a, pair.1.QueryShown a b) ∧
        ∀ pair ∈ compiler.wanted a, pair.1.DisplayShown a b))
      (compiler.rawAnew a) (compiler.rawAnew b) := by
  have tells : ∀ encoder ∈ Encoder.all, encoder.Tells compiler.context a b :=
    fun encoder _ => encoder.tells same compiler.context fun _ => usage
  have theme : (Style.ofConfiguration a).theme = (Style.ofConfiguration b).theme := by
    rw [Style.ofConfiguration, Style.ofConfiguration, same.theme]
  have colors : (Style.ofConfiguration a).colors = (Style.ofConfiguration b).colors := same.colors
  refine BothGive.given.bind fun fragments others given => ?_
  have both := fragmentsTell made tells fragments others given.1 given.2
  exact tells_assemble same colors theme (notAfter_fragmentsAnew made given.1)
    (notAfter_fragmentsAnew made given.2) both.inputFields both compiler.context

omit made in
theorem sameHeader_of_rawAnew {raw : List Char} (here : compiler.rawAnew a = .ok raw)
    (there : compiler.rawAnew b = .ok raw) : SameHeader a b := by
  obtain ⟨fragments, -, assembled⟩ := bind_eq_ok here
  obtain ⟨others, -, assembledThere⟩ := bind_eq_ok there
  obtain ⟨directory, named, names⟩ := namesDirectory_of_assemble assembled
  obtain ⟨other, namedThere, namesThere⟩ := namesDirectory_of_assemble assembledThere
  obtain rfl := Except.ok.inj (named.symm.trans namedThere)
  obtain ⟨first, rest, lines⟩ := splitLines_header names.header
  obtain ⟨second, behind, linesThere⟩ := splitLines_header namesThere.header
  have themes : themeLine a = themeLine b := by
    have same := lines.symm.trans linesThere
    simp only [List.cons.injEq] at same
    exact same.2.2.1
  obtain ⟨theme, colors, features⟩ := shown_of_themeLine themes
  exact ⟨theme, colors, features⟩

theorem raw_eq_iff {raw other : List Char} (here : compiler.rawAnew a = .ok raw)
    (there : compiler.rawAnew b = .ok other) : raw = other ↔ compiler.SameShown a b := by
  constructor
  · rintro rfl
    have header := sameHeader_of_rawAnew here there
    have usage : SameUsage a b := by
      intro asked
      have alike : Usage.features.any a.has = Usage.features.any b.has :=
        any_has_of_sameHeader header (by decide)
      have askedThere := alike ▸ asked
      have reversed : SameHeader b a :=
        ⟨header.theme.symm, header.colors.symm, header.features.symm⟩
      cases wants : a.usageIntegration <;> cases wantsThere : b.usageIntegration
      · rfl
      · exact absurd rfl (diverge_of_usage made reversed askedThere wantsThere wants raw raw there
          here).ne
      · exact absurd rfl (diverge_of_usage made header asked wants wantsThere raw raw here there).ne
      · rfl
    obtain ⟨logging, queries, displays⟩ :=
      (tells_rawAnew made header usage raw raw here there).eq_iff.mp rfl
    exact ⟨header, usage, logging, queries, displays⟩
  · intro same
    exact (tells_rawAnew made same.header same.usage raw other here there).eq_iff.mpr
      ⟨same.logging, same.queries, same.displays⟩

end Made

end Compiler

end StatusLine

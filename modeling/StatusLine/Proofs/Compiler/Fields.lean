import StatusLine.Compiler.Compilation
import StatusLine.Proofs.Results

/-!
The fields of keys hold everything that compiling reads. Configurations with the same fields are
compiled into the same script, and fragments with the same fields are encoded alike.
-/

namespace StatusLine

theorem Style.eq_of_datum {a b : Style} (same : a.datum = b.datum) : a = b := by
  cases a
  cases b
  simp_all [Style.datum]

theorem Git.Options.eq_of_datum {a b : Git.Options} (same : a.datum = b.datum) : a = b := by
  cases a
  cases b
  simp_all [Git.Options.datum]

theorem Model.Options.eq_of_datum {a b : Model.Options} (same : a.datum = b.datum) : a = b := by
  cases a
  cases b
  simp_all [Model.Options.datum]

theorem Metrics.Options.eq_of_datum {a b : Metrics.Options} (same : a.datum = b.datum) :
    a = b := by
  cases a
  cases b
  simp_all [Metrics.Options.datum]

theorem Usage.Options.eq_of_datum {a b : Usage.Options} (same : a.datum = b.datum) : a = b := by
  cases a
  cases b
  simp_all [Usage.Options.datum]

/-- The kind of the record that options are written as. -/
def EncoderOptions.kind : EncoderOptions → RecordKind
  | directory => Directory.signature.made
  | git _ => Git.Options.signature.made
  | model _ => Model.Options.signature.made
  | metrics _ => Metrics.Options.signature.made
  | usage _ => Usage.Options.signature.made

theorem EncoderOptions.exists_fields (options : EncoderOptions) :
    ∃ fields, options.datum = .record options.kind fields := by
  cases options <;> exact ⟨_, rfl⟩

theorem EncoderOptions.eq_of_datum {a b : EncoderOptions} (same : a.datum = b.datum) : a = b := by
  have kinds : a.kind = b.kind := by
    obtain ⟨left, shapeLeft⟩ := a.exists_fields
    obtain ⟨right, shapeRight⟩ := b.exists_fields
    rw [shapeLeft, shapeRight] at same
    exact (Datum.record.inj same).1
  cases a <;> cases b
  case directory.directory => rfl
  case git.git => exact congrArg _ (Git.Options.eq_of_datum same)
  case model.model => exact congrArg _ (Model.Options.eq_of_datum same)
  case metrics.metrics => exact congrArg _ (Metrics.Options.eq_of_datum same)
  case usage.usage => exact congrArg _ (Usage.Options.eq_of_datum same)
  all_goals
    simp [kind, Directory.signature, Git.Options.signature, Model.Options.signature,
      Metrics.Options.signature, Usage.Options.signature] at kinds

theorem Encoder.eq_of_name {a b : Encoder} (same : a.name = b.name) : a = b := by
  cases a <;> cases b <;> first
    | rfl
    | exact absurd same (by decide)

namespace Compiler

theorem encode_of_make {compiler : Compiler} {context : Context} {cache : Option Cache}
    {optimizes : Bool} (made : make context cache optimizes = .ok compiler) :
    compiler.encode = (fun _ style options => options.encode compiler.context style) ∧
      compiler.shorten = Shortening.optimize .all ∧ compiler.optimizes = optimizes := by
  unfold make at made
  cases cache with
  | some given =>
      obtain ⟨_, _, done⟩ := bind_eq_ok made
      obtain rfl := Except.ok.inj done
      exact ⟨rfl, rfl, rfl⟩
  | none =>
      obtain ⟨_, _, done⟩ := bind_eq_ok made
      obtain rfl := Except.ok.inj done
      exact ⟨rfl, rfl, rfl⟩

theorem configure_of_mem_wanted {compiler : Compiler} {config : Configuration}
    {pair : Encoder × EncoderOptions} (member : pair ∈ compiler.wanted config) :
    pair.1.configure compiler.context.settings config = some pair.2 := by
  obtain ⟨encoder, -, chosen⟩ := List.mem_filterMap.mp member
  obtain ⟨options, configured, rfl⟩ := Option.map_eq_some_iff.mp chosen
  exact configured

/-- What the text of a script depends on, apart from its fragments. -/
structure Alike (a b : Configuration) : Prop where
  features : orderedFeatures a.has = orderedFeatures b.has
  style : Style.ofConfiguration a = .ofConfiguration b
  logging : a.logging = b.logging

theorem Alike.assemble {a b : Configuration} (alike : Alike a b) (context : Context)
    (fragments : List Fragment) (style : Style) :
    Script.assemble context a fragments style = Script.assemble context b fragments style := by
  have theme : a.theme.name = b.theme.name := by
    have named := congrArg Style.theme alike.style
    exact Datum.text.inj named
  have colors : a.colors = b.colors := congrArg Style.colors alike.style
  have header : ∀ directory, Script.headerValues directory a context.settings =
      Script.headerValues directory b context.settings := by
    intro directory
    simp only [Script.headerValues, Script.featuresText, theme, colors, alike.features]
  simp only [Script.assemble, Script.parts, header, alike.logging]

theorem eq_of_fragmentFields {compiler : Compiler} {encoder other : Encoder}
    {options others : EncoderOptions} {style different : Style}
    (same : compiler.fragmentFields encoder options style =
      compiler.fragmentFields other others different) :
    encoder = other ∧ options = others ∧ style = different := by
  simp only [fragmentFields, Fingerprint.fragmentFields, Datum.object, List.map_cons, List.map_nil,
    Datum.mapping.injEq, List.cons.injEq, Prod.mk.injEq, Datum.text.injEq] at same
  obtain ⟨⟨_, names⟩, ⟨_, data⟩, ⟨_, styles⟩, -⟩ := same
  exact ⟨Encoder.eq_of_name names, EncoderOptions.eq_of_datum data, Style.eq_of_datum styles⟩

theorem eq_of_named {pairs others : List (Encoder × EncoderOptions)}
    (same : Datum.object (pairs.map fun (encoder, options) => (encoder.name, options.datum)) =
      .object (others.map fun (encoder, options) => (encoder.name, options.datum))) :
    pairs = others := by
  simp only [Datum.object, Datum.mapping.injEq, List.map_map] at same
  refine (List.map_inj_right ?_).mp same
  rintro ⟨encoder, options⟩ ⟨other, others⟩ pair
  simp only [Function.comp, Prod.mk.injEq, Datum.text.injEq] at pair
  rw [Encoder.eq_of_name pair.1, EncoderOptions.eq_of_datum pair.2]

theorem alike_of_scriptFields {compiler : Compiler} {a b : Configuration}
    (same : compiler.scriptFields a = compiler.scriptFields b) :
    Alike a b ∧ compiler.wanted a = compiler.wanted b := by
  have entries := Datum.mapping.inj same
  simp only [List.map_cons, List.map_nil, List.cons.injEq, Prod.mk.injEq, Datum.list.injEq,
    Datum.bool.injEq] at entries
  obtain ⟨⟨_, features⟩, ⟨_, style⟩, ⟨_, logging⟩, ⟨_, encoders⟩, -⟩ := entries
  have texts : ∀ a b, Datum.text a = .text b → a = b := fun _ _ => Datum.text.inj
  exact ⟨⟨(List.map_inj_right texts).mp features, Style.eq_of_datum style, logging⟩,
    eq_of_named encoders⟩

end Compiler

end StatusLine

import StatusLine.Compiler.Basic
import StatusLine.Proofs.Fingerprint.CanonicalForm

/-!
Data that has a key. Numbers, texts, path names and what lists, records and mappings make of them
have a canonical form that can be encoded. The fields of a script are such data, so that every
configuration has a key.
-/

namespace StatusLine

open Encoding

namespace Datum

def HasEncoding (value : Datum) : Prop :=
  ∃ text, encode value = .ok text

def Keyable (value : Datum) : Prop :=
  ∃ plain, canonical value = .ok plain ∧ HasEncoding plain

theorem hasEncoding_list {items : List Datum} (each : ∀ item ∈ items, HasEncoding item) :
    HasEncoding (.list items) := by
  have pieces : ∃ pieces, encodeItems items = .ok pieces := by
    induction items with
    | nil => exact ⟨[], rfl⟩
    | cons item rest ih =>
        obtain ⟨first, here⟩ := each item List.mem_cons_self
        obtain ⟨others, there⟩ := ih fun other member => each other (List.mem_cons_of_mem _ member)
        exact ⟨first :: others, by simp only [encodeItems, here, there, Except.map]⟩
  obtain ⟨pieces, done⟩ := pieces
  exact ⟨bracketed pieces, by simp only [encode, done, Except.map]⟩

theorem hasEncoding_mapping {entries : List (Datum × Datum)}
    (each : ∀ entry ∈ entries, HasEncoding entry.2) : HasEncoding (.mapping entries) := by
  have pieces : ∃ pieces, encodeEntries entries = .ok pieces := by
    induction entries with
    | nil => exact ⟨[], rfl⟩
    | cons entry rest ih =>
        obtain ⟨first, here⟩ := each entry List.mem_cons_self
        obtain ⟨others, there⟩ := ih fun other member => each other (List.mem_cons_of_mem _ member)
        exact ⟨(entry.1.plainText, first) :: others, by
          simp only [encodeEntries, here, there, Except.map]⟩
  obtain ⟨pieces, done⟩ := pieces
  exact ⟨braced (orderByKey pieces), by simp only [encode, done, Except.map]⟩

theorem hasEncoding_ofEntries {entries : List (Datum × Datum)}
    (each : ∀ entry ∈ entries, HasEncoding entry.2) : HasEncoding (ofEntries entries) := by
  have bound : ∀ bound : List (Datum × Datum), (∀ entry ∈ bound, HasEncoding entry.2) →
      ∀ entry ∈ entries.foldl (fun bound entry => bind entry.1 entry.2 bound) bound,
        HasEncoding entry.2 := by
    induction entries with
    | nil => exact fun _ known => known
    | cons entry rest ih =>
        obtain ⟨here, there⟩ := List.forall_mem_cons.mp each
        exact fun bound known => ih there _ (values_bind known here)
  exact hasEncoding_mapping (bound [] (by simp))

theorem canonicalEntries_named (fields : List (String × Datum)) :
    canonicalEntries (fields.map fun field => (.text field.1, field.2)) =
      canonicalFields fields := by
  induction fields with
  | nil => rfl
  | cons field rest ih =>
      simp only [List.map_cons, canonicalEntries, canonicalFields, ih, plainText,
        String.ofList_toList]

namespace Keyable

theorem bool (value : Bool) : Keyable (.bool value) :=
  ⟨.bool value, rfl, _, rfl⟩

theorem int (value : Int) : Keyable (.int value) :=
  ⟨.int value, rfl, _, rfl⟩

theorem float (value : Float) : Keyable (.float value) :=
  ⟨.float value, rfl, _, rfl⟩

theorem text (value : String) : Keyable (.text value) :=
  ⟨.text value, rfl, _, rfl⟩

theorem path (value : PathName) : Keyable (.path value) :=
  ⟨.text value.toString, rfl, _, rfl⟩

theorem list {items : List Datum} (each : ∀ item ∈ items, Keyable item) :
    Keyable (.list items) := by
  have parts : ∃ plain, canonicalItems items = .ok plain ∧ ∀ item ∈ plain, HasEncoding item := by
    induction items with
    | nil => exact ⟨[], rfl, by simp⟩
    | cons item rest ih =>
        obtain ⟨here, there⟩ := List.forall_mem_cons.mp each
        obtain ⟨first, plain, encoded⟩ := here
        obtain ⟨others, plains, known⟩ := ih there
        exact ⟨first :: others, by simp only [canonicalItems, plain, plains, Except.map],
          List.forall_mem_cons.mpr ⟨encoded, known⟩⟩
  obtain ⟨plain, made, known⟩ := parts
  exact ⟨.list plain, by simp only [canonical, made, Except.map], hasEncoding_list known⟩

theorem exists_canonicalFields {fields : List (String × Datum)}
    (each : ∀ field ∈ fields, Keyable field.2) :
    ∃ plain, canonicalFields fields = .ok plain ∧ HasEncoding (ofEntries plain) := by
  have parts : ∃ plain, canonicalFields fields = .ok plain ∧
      ∀ entry ∈ plain, HasEncoding entry.2 := by
    induction fields with
    | nil => exact ⟨[], rfl, by simp⟩
    | cons field rest ih =>
        obtain ⟨here, there⟩ := List.forall_mem_cons.mp each
        obtain ⟨first, plain, encoded⟩ := here
        obtain ⟨others, plains, known⟩ := ih there
        exact ⟨(.text field.1, first) :: others, by
          simp only [canonicalFields, plain, plains, Except.map],
          List.forall_mem_cons.mpr ⟨encoded, known⟩⟩
  obtain ⟨plain, made, known⟩ := parts
  exact ⟨plain, made, hasEncoding_ofEntries known⟩

theorem record {kind : RecordKind} {fields : List (String × Datum)}
    (each : ∀ field ∈ fields, Keyable field.2) : Keyable (.record kind fields) := by
  obtain ⟨plain, made, known⟩ := exists_canonicalFields each
  exact ⟨ofEntries plain, by simp only [canonical, made, Except.map], known⟩

theorem object {fields : List (String × Datum)} (each : ∀ field ∈ fields, Keyable field.2) :
    Keyable (.object fields) := by
  obtain ⟨plain, made, known⟩ := exists_canonicalFields each
  exact ⟨ofEntries plain, by
    simp only [Datum.object, canonical, canonicalEntries_named, made, Except.map], known⟩

theorem exists_canonicalText {value : Datum} (keyable : value.Keyable) :
    ∃ text, value.canonicalText = .ok text := by
  obtain ⟨plain, canonical, text, encoded⟩ := keyable
  exact ⟨text, by simp only [canonicalText, canonical, encoded]⟩

end Keyable

end Datum

namespace Fingerprint

theorem exists_key {domain : String} (known : domains.contains domain = true) {fields : Datum}
    (keyable : fields.Keyable) : ∃ made, key domain fields = .ok made := by
  obtain ⟨text, form⟩ := keyable.exists_canonicalText
  exact ⟨_, by simp only [key, known, digest, form, if_true, Except.map]; rfl⟩

end Fingerprint

open Datum

theorem Encoder.keyable_configure {settings : Settings} {config : Configuration}
    {encoder : Encoder} {options : EncoderOptions}
    (configured : encoder.configure settings config = some options) : options.datum.Keyable := by
  cases encoder with
  | directory =>
      simp only [configure, Option.ite_none_right_eq_some, Option.some.injEq] at configured
      obtain ⟨-, rfl⟩ := configured
      exact .record (by simp)
  | git =>
      simp only [configure, Git.Options.ofConfiguration?, Option.map_eq_some_iff,
        Option.ite_none_right_eq_some, Option.some.injEq] at configured
      obtain ⟨_, ⟨-, rfl⟩, rfl⟩ := configured
      exact .record (by simp [Keyable.int])
  | model =>
      simp only [configure, Model.Options.ofConfiguration?, Option.map_eq_some_iff,
        Option.ite_none_right_eq_some, Option.some.injEq] at configured
      obtain ⟨_, ⟨-, rfl⟩, rfl⟩ := configured
      exact .record (by simp [Keyable.bool])
  | metrics =>
      simp only [configure, Metrics.Options.ofConfiguration?, Option.map_eq_some_iff,
        Option.ite_none_right_eq_some, Option.some.injEq] at configured
      obtain ⟨_, ⟨-, rfl⟩, rfl⟩ := configured
      exact .record (by simp [Keyable.bool, Keyable.int, Keyable.float])
  | usage =>
      simp only [configure, Usage.Options.ofConfiguration?, Option.map_eq_some_iff,
        Option.ite_none_right_eq_some, Option.some.injEq] at configured
      obtain ⟨_, ⟨-, rfl⟩, rfl⟩ := configured
      exact .record (by simp [Keyable.bool, Keyable.int, Keyable.float])

theorem Style.keyable_ofConfiguration (config : Configuration) :
    (Style.ofConfiguration config).datum.Keyable :=
  .record (by simp [ofConfiguration, Keyable.bool, Keyable.text])

theorem Settings.keyable (settings : Settings) : settings.datum.Keyable :=
  .record (by simp [Keyable.path, Keyable.int])

namespace Compiler

theorem keyable_of_mem_wanted {compiler : Compiler} {config : Configuration}
    {pair : Encoder × EncoderOptions} (member : pair ∈ compiler.wanted config) :
    pair.2.datum.Keyable := by
  obtain ⟨encoder, -, chosen⟩ := List.mem_filterMap.mp member
  obtain ⟨options, configured, rfl⟩ := Option.map_eq_some_iff.mp chosen
  exact Encoder.keyable_configure configured

theorem exists_fragmentKey {compiler : Compiler} {config : Configuration}
    {pair : Encoder × EncoderOptions} (member : pair ∈ compiler.wanted config) :
    ∃ key, compiler.fragmentKey pair.1 pair.2 (.ofConfiguration config) = .ok key := by
  refine Fingerprint.exists_key (by decide) (.object ?_)
  simp [keyable_of_mem_wanted member, Style.keyable_ofConfiguration, Settings.keyable, Keyable.text]

theorem keyable_scriptFields (compiler : Compiler) (config : Configuration) :
    (compiler.scriptFields config).Keyable := by
  have features : Keyable (.list ((orderedFeatures config.has).map .text)) :=
    .list (by simp [Keyable.text])
  have encoders : Keyable (.object ((compiler.wanted config).map fun pair =>
      (pair.1.name, pair.2.datum))) := by
    refine .object fun field member => ?_
    obtain ⟨pair, wanted, rfl⟩ := List.mem_map.mp member
    exact keyable_of_mem_wanted wanted
  exact .object (by
    simp [features, encoders, Style.keyable_ofConfiguration, Settings.keyable, Keyable.bool,
      Keyable.text])

theorem exists_scriptKey (compiler : Compiler) (config : Configuration) :
    ∃ key, compiler.scriptKey config = .ok key :=
  Fingerprint.exists_key (by decide) (keyable_scriptFields compiler config)

end Compiler

end StatusLine

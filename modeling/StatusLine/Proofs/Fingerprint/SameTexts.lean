import StatusLine.Proofs.Fingerprint.Keyable
import StatusLine.Proofs.Fingerprint.Legibility
import StatusLine.Proofs.Text.NormalPath

/-!
What data of one canonical text have in common. Their parts have one text each: item by item in
lists, name by name in records and mappings, down to the values themselves. Only doubles that are
not finite are written alike without being the same.
-/

namespace StatusLine.Datum

open Encoding List

def SameText (value other : Datum) : Prop :=
  ∃ written, canonicalText value = .ok written ∧ canonicalText other = .ok written

theorem legible_canonicalText {value : Datum} {written : List Char}
    (done : canonicalText value = .ok written) : Legible written := by
  obtain ⟨plain, -, encoded⟩ := canonicalText_eq_ok_iff.mp done
  exact legible_encode plain written encoded

/-! Single values. -/

section Values

variable {first second : List Char}

theorem eq_of_done (same : ∃ written, (Except.ok first : Except Failure (List Char)) = .ok written ∧
    (Except.ok second : Except Failure (List Char)) = .ok written) : first = second := by
  obtain ⟨_, ⟨⟩, ⟨⟩⟩ := same
  rfl

end Values

theorem sameText_text {value other : String} :
    SameText (text value) (text other) ↔ value = other := by
  constructor
  · intro same
    have quotes : quoted value.toList = quoted other.toList := eq_of_done same
    exact String.toList_inj.mp (quoted_append_inj (congrArg (· ++ []) quotes)).1
  · rintro rfl
    exact ⟨_, rfl, rfl⟩

theorem sameText_bool {value other : Bool} : SameText (bool value) (bool other) ↔ value = other := by
  constructor
  · intro same
    have words : (if value then "true".toList else "false".toList) =
        if other then "true".toList else "false".toList := eq_of_done same
    cases value <;> cases other <;> simp at words ⊢
  · rintro rfl
    exact ⟨_, rfl, rfl⟩

theorem sameText_int {value other : Int} : SameText (int value) (int other) ↔ value = other := by
  constructor
  · intro same
    have digits : Text.ofInt value = Text.ofInt other := eq_of_done same
    exact Text.ofInt_injective digits
  · rintro rfl
    exact ⟨_, rfl, rfl⟩

theorem sameText_float {value other : Float} : SameText (float value) (float other) ↔
    value = other ∨ ¬ Decimal.IsFinite value ∧ ¬ Decimal.IsFinite other := by
  rw [← Decimal.text_encoded_eq_iff]
  constructor
  · intro same
    exact eq_of_done same
  · intro same
    exact ⟨_, rfl, congrArg Except.ok same.symm⟩

theorem eq_of_sameText_path {value other : PathName} (normal : value.IsNormal)
    (also : other.IsNormal) (same : SameText (path value) (path other)) : value = other := by
  have quotes : quoted value.toString.toList = quoted other.toString.toList := eq_of_done same
  have texts := (quoted_append_inj (congrArg (· ++ []) quotes)).1
  rw [PathName.toString, PathName.toString, String.toList_ofList, String.toList_ofList] at texts
  exact normal.eq_of_chars also texts

/-! Lists. -/

theorem forall₂_comp {α β γ : Type} {first : α → β → Prop} {second : β → γ → Prop}
    {both : α → γ → Prop} (step : ∀ a b c, first a b → second b c → both a c) :
    ∀ {as : List α} {bs : List β} {cs : List γ}, Forall₂ first as bs → Forall₂ second bs cs →
      Forall₂ both as cs
  | _, _, _, .nil, .nil => .nil
  | _, _, _, .cons here rest, .cons there others =>
      .cons (step _ _ _ here there) (forall₂_comp step rest others)

theorem exists_of_mem_right {α β : Type} {rel : α → β → Prop} {as : List α} {bs : List β} {b : β}
    (each : Forall₂ rel as bs) (member : b ∈ bs) : ∃ a ∈ as, rel a b := by
  induction each with
  | nil => cases member
  | cons here _ ih =>
      rcases List.mem_cons.mp member with rfl | later
      · exact ⟨_, List.mem_cons_self, here⟩
      · obtain ⟨a, inside, known⟩ := ih later
        exact ⟨a, List.mem_cons_of_mem _ inside, known⟩

theorem exists_pieces_of_list {items : List Datum} {written : List Char}
    (done : canonicalText (list items) = .ok written) :
    ∃ pieces, Forall₂ (fun item piece => canonicalText item = .ok piece) items pieces ∧
      written = bracketed pieces := by
  obtain ⟨plain, made, encoded⟩ := canonicalText_eq_ok_iff.mp done
  rw [canonical] at made
  obtain ⟨plains, each, rfl⟩ := map_eq_ok made
  rw [encode] at encoded
  obtain ⟨pieces, texts, rfl⟩ := map_eq_ok encoded
  refine ⟨pieces, forall₂_comp ?_ (canonicalItems_eq_ok_iff.mp each)
    (encodeItems_eq_ok_iff.mp texts), rfl⟩
  exact fun item plain piece here there => canonicalText_eq_ok_iff.mpr ⟨plain, here, there⟩

theorem sameText_items {items others : List Datum} (same : SameText (list items) (list others)) :
    Forall₂ SameText items others := by
  obtain ⟨written, here, there⟩ := same
  obtain ⟨pieces, each, rfl⟩ := exists_pieces_of_list here
  obtain ⟨morePieces, eachOther, written⟩ := exists_pieces_of_list there
  have legible : ∀ {items : List Datum} {pieces : List (List Char)},
      Forall₂ (fun item piece => canonicalText item = .ok piece) items pieces →
        ∀ piece ∈ pieces, Legible piece := by
    intro items pieces each piece member
    obtain ⟨item, -, done⟩ := exists_of_mem_right each member
    exact legible_canonicalText done
  obtain rfl := bracketed_inj (legible each) (legible eachOther) written
  exact forall₂_comp (fun item piece other here there => ⟨piece, here, there⟩) each eachOther.flip

/-! Fields. -/

def FieldWritten (field : String × Datum) (piece : List Char × List Char) : Prop :=
  field.1.toList = piece.1 ∧ canonicalText field.2 = .ok piece.2

theorem canonicalText_record (kind : RecordKind) (fields : List (String × Datum)) :
    canonicalText (record kind fields) = canonicalText (object fields) := by
  simp only [canonicalText, canonical, object, canonicalEntries_named]

theorem fieldsWritten {fields : List (String × Datum)} {plains : List (Datum × Datum)}
    {pieces : List (List Char × List Char)} (made : canonicalFields fields = .ok plains)
    (encoded : encodeEntries plains = .ok pieces) : Forall₂ FieldWritten fields pieces := by
  induction fields generalizing plains pieces with
  | nil =>
      obtain rfl := Except.ok.inj made
      obtain rfl := Except.ok.inj encoded
      exact .nil
  | cons field rest ih =>
      obtain ⟨name, value⟩ := field
      simp only [canonicalFields] at made
      split at made
      · cases made
      · rename_i plain here
        obtain ⟨others, later, rfl⟩ := map_eq_ok made
        simp only [encodeEntries] at encoded
        split at encoded
        · cases encoded
        · rename_i piece there
          obtain ⟨more, texts, rfl⟩ := map_eq_ok encoded
          refine .cons ⟨?_, canonicalText_eq_ok_iff.mpr ⟨plain, here, there⟩⟩ (ih later texts)
          simp [plainText]

theorem keys_of_canonicalFields {fields : List (String × Datum)} {plains : List (Datum × Datum)}
    (made : canonicalFields fields = .ok plains) :
    plains.map Prod.fst = (fields.map Prod.fst).map text := by
  induction fields generalizing plains with
  | nil =>
      obtain rfl := Except.ok.inj made
      rfl
  | cons field rest ih =>
      simp only [canonicalFields] at made
      split at made
      · cases made
      · obtain ⟨others, later, rfl⟩ := map_eq_ok made
        simp [ih later]

theorem areNames_texts {names : List String} (distinct : names.Nodup) :
    AreNames (names.map text) := by
  refine ⟨distinct.map fun _ _ => Datum.text.inj, fun key member => ?_⟩
  obtain ⟨name, -, rfl⟩ := List.mem_map.mp member
  exact ⟨name, rfl⟩

theorem exists_pieces_of_object {fields : List (String × Datum)} {written : List Char}
    (distinct : (fields.map Prod.fst).Nodup) (done : canonicalText (object fields) = .ok written) :
    ∃ pieces, Forall₂ FieldWritten fields pieces ∧ written = braced (orderByKey pieces) := by
  obtain ⟨plain, made, encoded⟩ := canonicalText_eq_ok_iff.mp done
  rw [object, canonical, canonicalEntries_named] at made
  obtain ⟨plains, each, rfl⟩ := map_eq_ok made
  rw [ofEntries_of_names (keys_of_canonicalFields each ▸ areNames_texts distinct), encode] at encoded
  obtain ⟨pieces, texts, rfl⟩ := map_eq_ok encoded
  exact ⟨pieces, fieldsWritten each texts, rfl⟩

theorem keys_of_fieldsWritten {fields : List (String × Datum)}
    {pieces : List (List Char × List Char)} (each : Forall₂ FieldWritten fields pieces) :
    pieces.map Prod.fst = (fields.map Prod.fst).map String.toList := by
  induction each with
  | nil => rfl
  | cons here _ ih => simp [here.1, ih]

theorem sameText_object {fields others : List (String × Datum)}
    (distinct : (fields.map Prod.fst).Nodup) (distinctToo : (others.map Prod.fst).Nodup)
    (same : SameText (object fields) (object others)) :
    (fields.map Prod.fst).Perm (others.map Prod.fst) ∧
      ∀ name value other, (name, value) ∈ fields → (name, other) ∈ others →
        SameText value other := by
  obtain ⟨written, here, there⟩ := same
  obtain ⟨pieces, each, rfl⟩ := exists_pieces_of_object distinct here
  obtain ⟨morePieces, eachOther, written⟩ := exists_pieces_of_object distinctToo there
  have legible : ∀ {fields : List (String × Datum)} {pieces : List (List Char × List Char)},
      Forall₂ FieldWritten fields pieces → ∀ piece ∈ orderByKey pieces, Legible piece.2 := by
    intro fields pieces each piece member
    obtain ⟨field, -, -, done⟩ := exists_of_mem_right each ((orderByKey_perm pieces).subset member)
    exact legible_canonicalText done
  have ordered := braced_inj (legible each) (legible eachOther) written
  have perm : pieces.Perm morePieces :=
    ((orderByKey_perm pieces).symm.trans (ordered ▸ List.Perm.refl _)).trans
      (orderByKey_perm morePieces)
  have keys := perm.map Prod.fst
  rw [keys_of_fieldsWritten each, keys_of_fieldsWritten eachOther] at keys
  refine ⟨(List.map_perm_map_iff fun _ _ => String.toList_inj.mp).mp keys, ?_⟩
  intro name value other inside insideToo
  obtain ⟨piece, member, named, done⟩ := exists_of_mem_right each.flip inside
  obtain ⟨morePiece, memberToo, namedToo, doneToo⟩ := exists_of_mem_right eachOther.flip insideToo
  have distinctKeys : (morePieces.map Prod.fst).Nodup := by
    rw [keys_of_fieldsWritten eachOther]
    exact distinctToo.map fun _ _ => String.toList_inj.mp
  have equal : piece = morePiece := List.inj_on_of_nodup_map distinctKeys (perm.subset member)
    memberToo (named.symm.trans namedToo)
  exact ⟨piece.2, done, equal ▸ doneToo⟩

theorem sameText_fields {fields others : List (String × Datum)}
    (same : SameText (object fields) (object others))
    (names : fields.map Prod.fst = others.map Prod.fst)
    (distinct : (fields.map Prod.fst).Nodup) :
    Forall₂ (fun field other => SameText field.2 other.2) fields others := by
  have each := (sameText_object distinct (names ▸ distinct) same).2
  clear same distinct
  induction fields generalizing others with
  | nil =>
      obtain rfl := List.map_eq_nil_iff.mp names.symm
      exact .nil
  | cons field rest ih =>
      obtain ⟨other, more, rfl⟩ := List.exists_cons_of_ne_nil (l := others) (by
        rintro rfl
        cases names)
      obtain ⟨named, later⟩ := List.cons.inj names
      refine .cons ?_ (ih later fun name value other inside insideToo =>
        each name value other (List.mem_cons_of_mem _ inside) (List.mem_cons_of_mem _ insideToo))
      exact each field.1 field.2 other.2 List.mem_cons_self
        (by rw [show field.1 = other.1 from named]; exact List.mem_cons_self)

theorem sameText_record {kind other : RecordKind} {fields others : List (String × Datum)}
    (same : SameText (record kind fields) (record other others))
    (names : fields.map Prod.fst = others.map Prod.fst)
    (distinct : (fields.map Prod.fst).Nodup) :
    Forall₂ (fun field other => SameText field.2 other.2) fields others := by
  refine sameText_fields ?_ names distinct
  rwa [SameText, canonicalText_record, canonicalText_record] at same

/-! Parts of one text make wholes of one text. -/

theorem sameText_refl {value : Datum} (keyable : value.Keyable) : SameText value value := by
  obtain ⟨written, done⟩ := keyable.exists_canonicalText
  exact ⟨written, done, done⟩

def SameField (field other : String × Datum) : Prop :=
  field.1 = other.1 ∧ SameText field.2 other.2

theorem exists_pieces_of_sameFields {fields others : List (String × Datum)}
    (each : Forall₂ SameField fields others) :
    ∃ pieces, Forall₂ FieldWritten fields pieces ∧ Forall₂ FieldWritten others pieces := by
  induction each with
  | nil => exact ⟨[], .nil, .nil⟩
  | cons here _ ih =>
      obtain ⟨named, written, done, doneToo⟩ := here
      obtain ⟨pieces, first, second⟩ := ih
      exact ⟨(_, written) :: pieces, .cons ⟨rfl, done⟩ first,
        .cons ⟨congrArg String.toList named.symm, doneToo⟩ second⟩

theorem canonicalText_object {fields : List (String × Datum)}
    {pieces : List (List Char × List Char)} (distinct : (fields.map Prod.fst).Nodup)
    (each : Forall₂ FieldWritten fields pieces) :
    canonicalText (object fields) = .ok (braced (orderByKey pieces)) := by
  refine canonicalText_mapping (forall₂_map_left_iff.mpr (each.imp ?_)) ?_
  · rintro ⟨name, value⟩ piece ⟨named, done⟩
    exact ⟨by simpa [plainText] using named, done⟩
  · have keys := areNames_texts distinct
    rwa [List.map_map] at keys ⊢

theorem SameText.object {fields others : List (String × Datum)}
    (each : Forall₂ SameField fields others) (distinct : (fields.map Prod.fst).Nodup) :
    SameText (Datum.object fields) (Datum.object others) := by
  have names : fields.map Prod.fst = others.map Prod.fst := by
    clear distinct
    induction each with
    | nil => rfl
    | cons here _ ih => simp only [List.map_cons, here.1, ih]
  obtain ⟨pieces, first, second⟩ := exists_pieces_of_sameFields each
  exact ⟨_, canonicalText_object distinct first, canonicalText_object (names ▸ distinct) second⟩

theorem SameText.record {kind other : RecordKind} {fields others : List (String × Datum)}
    (each : Forall₂ SameField fields others) (distinct : (fields.map Prod.fst).Nodup) :
    SameText (Datum.record kind fields) (Datum.record other others) := by
  rw [SameText, canonicalText_record, canonicalText_record]
  exact SameText.object each distinct

end StatusLine.Datum

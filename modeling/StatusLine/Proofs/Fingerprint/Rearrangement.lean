import StatusLine.Fingerprint.Key
import StatusLine.Proofs.Fingerprint.CanonicalForm

/-!
The order in which data were put together. Set elements and the entries of mappings, at any depth,
can be given in any order: the encoded canonical form is the same, and with it every key.
-/

namespace StatusLine

namespace Datum

open Encoding List

/-! The data in question, and the same data in another order. -/

mutual

/-- Scalars, texts, path names and named constants, and what lists, tuples, sets and mappings of
distinct texts make of them. Nothing is asked of the elements of sets, not even that they differ. -/
def IsNested : Datum → Prop
  | null | bool _ | int _ | float _ | text _ | bytes _ | path _ => True
  | list items | tuple items | set items | frozenSet items => AreNested items
  | mapping entries => AreNames (entries.map Prod.fst) ∧ ValuesNested entries
  | member value => IsNested value
  | record _ _ | kind _ | thing _ _ _ => False

def AreNested : List Datum → Prop
  | [] => True
  | item :: rest => IsNested item ∧ AreNested rest

def ValuesNested : List (Datum × Datum) → Prop
  | [] => True
  | (_, value) :: rest => IsNested value ∧ ValuesNested rest

end

/-- The same data but for the order of set elements and mapping entries, at any depth. -/
inductive Rearranged : Datum → Datum → Prop
  | same (value : Datum) : Rearranged value value
  | list {items others : List Datum} (each : Forall₂ Rearranged items others) :
      Rearranged (.list items) (.list others)
  | tuple {items others : List Datum} (each : Forall₂ Rearranged items others) :
      Rearranged (.tuple items) (.tuple others)
  | set {items others shuffled : List Datum} (each : Forall₂ Rearranged items others)
      (order : others.Perm shuffled) : Rearranged (.set items) (.set shuffled)
  | frozenSet {items others shuffled : List Datum} (each : Forall₂ Rearranged items others)
      (order : others.Perm shuffled) : Rearranged (.frozenSet items) (.frozenSet shuffled)
  | mapping {entries others shuffled : List (Datum × Datum)}
      (keys : entries.map Prod.fst = others.map Prod.fst)
      (each : Forall₂ Rearranged (entries.map Prod.snd) (others.map Prod.snd))
      (order : others.Perm shuffled) : Rearranged (.mapping entries) (.mapping shuffled)
  | member {value other : Datum} (inside : Rearranged value other) :
      Rearranged (.member value) (.member other)

/-! Making things item by item. -/

theorem encodeItems_eq_ok_iff {items : List Datum} {pieces : List (List Char)} :
    encodeItems items = .ok pieces ↔
      Forall₂ (fun item piece => encode item = .ok piece) items pieces := by
  induction items generalizing pieces with
  | nil => simp [encodeItems, eq_comm]
  | cons item rest ih =>
      rw [forall₂_cons_left_iff]
      cases here : encode item with
      | error failure => simp [encodeItems, here]
      | ok first =>
          simp only [encodeItems, here]
          constructor
          · intro done
            obtain ⟨others, there, rfl⟩ := map_eq_ok done
            exact ⟨first, others, rfl, ih.mp there, rfl⟩
          · rintro ⟨_, others, ⟨⟩, each, rfl⟩
            rw [ih.mpr each]
            rfl

theorem withEncodings_eq_ok {items : List Datum} {pieces : List (List Char)}
    (each : Forall₂ (fun item piece => encode item = .ok piece) items pieces) :
    withEncodings items = .ok (pieces.zip items) := by
  induction each with
  | nil => rfl
  | cons here _ ih => simp [withEncodings, here, ih, Except.map]

/-! Texts of lists and sets. -/

theorem canonicalText_eq_ok_iff {value : Datum} {written : List Char} :
    canonicalText value = .ok written ↔
      ∃ plain, canonical value = .ok plain ∧ encode plain = .ok written := by
  unfold canonicalText
  cases canonical value with
  | error failure => simp
  | ok plain => simp

section Items

variable {items : List Datum} {pieces : List (List Char)}
  (each : Forall₂ (fun item piece => canonicalText item = .ok piece) items pieces)

include each

theorem exists_canonicalItems :
    ∃ plain, canonicalItems items = .ok plain ∧
      Forall₂ (fun item piece => encode item = .ok piece) plain pieces := by
  induction each with
  | nil => exact ⟨[], rfl, .nil⟩
  | cons here _ ih =>
      obtain ⟨first, plain, encoded⟩ := canonicalText_eq_ok_iff.mp here
      obtain ⟨others, plains, known⟩ := ih
      exact ⟨first :: others, by simp [canonicalItems, plain, plains, Except.map],
        .cons encoded known⟩

theorem canonicalText_list : canonicalText (list items) = .ok (bracketed pieces) := by
  obtain ⟨plain, made, encoded⟩ := exists_canonicalItems each
  refine canonicalText_eq_ok_iff.mpr ⟨list plain, by simp [canonical, made, Except.map], ?_⟩
  simp [encode, encodeItems_eq_ok_iff.mpr encoded, Except.map]

/-- The elements of a set are written in the order of their texts. Elements of one text may change
places. -/
theorem exists_canonicalText_set :
    ∃ sorted : List (List Char), sorted.Perm pieces ∧ sorted.Pairwise (· ≤ ·) ∧
      canonicalText (set items) = .ok (bracketed sorted) := by
  obtain ⟨plain, made, encoded⟩ := exists_canonicalItems each
  have ordered : orderedByEncoding plain =
      .ok ((orderByKey (pieces.zip plain)).map Prod.snd) := by
    rw [orderedByEncoding, withEncodings_eq_ok encoded]
    rfl
  have keys : (pieces.zip plain).map Prod.fst = pieces :=
    List.map_fst_zip (le_of_eq encoded.length_eq.symm)
  have written : encodeItems ((orderByKey (pieces.zip plain)).map Prod.snd) =
      .ok ((orderByKey (pieces.zip plain)).map Prod.fst) := by
    refine encodeItems_eq_ok_iff.mpr ?_
    rw [forall₂_map_left_iff, forall₂_map_right_iff, forall₂_same]
    intro pair member
    exact (forall₂_iff_zip.mp encoded.flip).2 ((orderByKey_perm _).subset member)
  refine ⟨(orderByKey (pieces.zip plain)).map Prod.fst, ?_, ?_, ?_⟩
  · have perm := (orderByKey_perm (pieces.zip plain)).map Prod.fst
    rwa [keys] at perm
  · exact List.pairwise_map.mpr (orderByKey_sorted _)
  · refine canonicalText_eq_ok_iff.mpr ⟨list ((orderByKey (pieces.zip plain)).map Prod.snd), ?_, ?_⟩
    · simp [canonical, made, ordered, Except.map]
    · simp [encode, written, Except.map]

end Items

/-! Texts of mappings. -/

def IsWritten (entry : Datum × Datum) (piece : List Char × List Char) : Prop :=
  entry.1.plainText = piece.1 ∧ canonicalText entry.2 = .ok piece.2

theorem canonicalText_mapping {entries : List (Datum × Datum)}
    {pieces : List (List Char × List Char)} (each : Forall₂ IsWritten entries pieces)
    (names : AreNames (entries.map Prod.fst)) :
    canonicalText (mapping entries) = .ok (braced (orderByKey pieces)) := by
  have made : ∃ plain, canonicalEntries entries = .ok plain ∧
      plain.map Prod.fst = entries.map Prod.fst ∧ encodeEntries plain = .ok pieces := by
    induction each with
    | nil => exact ⟨[], rfl, rfl, rfl⟩
    | @cons entry piece _ _ here _ ih =>
        obtain ⟨name, isText, -, later⟩ := names.of_cons
        obtain ⟨named, written⟩ := here
        obtain ⟨first, plain, encoded⟩ := canonicalText_eq_ok_iff.mp written
        obtain ⟨others, plains, keys, known⟩ := ih later
        refine ⟨(entry.1, first) :: others, ?_, by simp [keys], ?_⟩
        · simp [canonicalEntries, plain, plains, isText, plainText, Except.map]
        · simp [encodeEntries, encoded, known, named, Except.map]
  obtain ⟨plain, done, keys, encoded⟩ := made
  refine canonicalText_eq_ok_iff.mpr ⟨mapping plain, ?_, ?_⟩
  · simp [canonical, done, ofEntries_of_names (keys ▸ names), Except.map]
  · simp [encode, encoded, Except.map]

theorem isWritten_zip {entries : List (Datum × Datum)} {values : List (List Char)}
    (each : Forall₂ (fun value piece => canonicalText value = .ok piece) (entries.map Prod.snd)
      values) :
    Forall₂ IsWritten entries (((entries.map Prod.fst).map plainText).zip values) := by
  induction entries generalizing values with
  | nil => simp
  | cons entry rest ih =>
      obtain ⟨first, others, here, later, rfl⟩ := forall₂_cons_left_iff.mp each
      exact .cons ⟨rfl, here⟩ (ih later)

theorem keys_of_isWritten {entries : List (Datum × Datum)} {pieces : List (List Char × List Char)}
    (each : Forall₂ IsWritten entries pieces) :
    pieces.map Prod.fst = (entries.map Prod.fst).map plainText := by
  induction each with
  | nil => rfl
  | cons here _ ih => simp only [List.map_cons, here.1, ih]

theorem nodup_plainText {keys : List Datum} (names : AreNames keys) :
    (keys.map plainText).Nodup := by
  refine List.Nodup.map_on ?_ names.1
  intro key member other memberToo same
  obtain ⟨name, rfl⟩ := names.2 key member
  obtain ⟨label, rfl⟩ := names.2 other memberToo
  exact congrArg text (String.toList_inj.mp same)

/-! The order. -/

theorem canonicalText_shuffled_set {items shuffled : List Datum} {pieces sorted : List (List Char)}
    (each : Forall₂ (fun item piece => canonicalText item = .ok piece) items pieces)
    (order : items.Perm shuffled) (perm : sorted.Perm pieces) (inOrder : sorted.Pairwise (· ≤ ·)) :
    canonicalText (set shuffled) = .ok (bracketed sorted) := by
  obtain ⟨others, eachShuffled, shuffledPieces⟩ := List.perm_comp_forall₂ order.symm each
  obtain ⟨again, permAgain, inOrderAgain, written⟩ := exists_canonicalText_set eachShuffled
  have same : again.Perm sorted := (permAgain.trans shuffledPieces).trans perm.symm
  rw [written, same.eq_of_pairwise (fun _ _ _ _ => le_antisymm) inOrderAgain inOrder]

theorem canonicalText_shuffled_mapping {entries shuffled : List (Datum × Datum)}
    {pieces : List (List Char × List Char)} (each : Forall₂ IsWritten entries pieces)
    (order : entries.Perm shuffled) (names : AreNames (entries.map Prod.fst)) :
    canonicalText (mapping shuffled) = .ok (braced (orderByKey pieces)) := by
  have shuffledNames : AreNames (shuffled.map Prod.fst) := by
    have keys := order.map Prod.fst
    exact ⟨keys.nodup_iff.mp names.1, fun key member => names.2 key (keys.symm.subset member)⟩
  obtain ⟨others, eachShuffled, perm⟩ := List.perm_comp_forall₂ order.symm each
  have distinct : (others.map Prod.fst).Nodup := by
    rw [keys_of_isWritten eachShuffled]
    exact nodup_plainText shuffledNames
  rw [canonicalText_mapping eachShuffled shuffledNames, orderByKey_of_perm perm distinct]

mutual

theorem exists_canonicalText : ∀ value : Datum, IsNested value →
    ∃ written, canonicalText value = .ok written ∧
      ∀ other, Rearranged value other → canonicalText other = .ok written
  | null, _ | bool _, _ | int _, _ | float _, _ | text _, _ | bytes _, _ | path _, _ =>
      ⟨_, rfl, fun _ order => by cases order; rfl⟩
  | list items, nested => by
      obtain ⟨pieces, each, rearranged⟩ := exists_pieces items nested
      refine ⟨bracketed pieces, canonicalText_list each, fun other order => ?_⟩
      cases order with
      | same => exact canonicalText_list each
      | list order => exact canonicalText_list (rearranged _ order)
  | tuple items, nested => by
      obtain ⟨pieces, each, rearranged⟩ := exists_pieces items nested
      refine ⟨bracketed pieces, canonicalText_list each, fun other order => ?_⟩
      cases order with
      | same => exact canonicalText_list each
      | tuple order => exact canonicalText_list (rearranged _ order)
  | set items, nested => by
      obtain ⟨pieces, each, rearranged⟩ := exists_pieces items nested
      obtain ⟨sorted, perm, inOrder, written⟩ := exists_canonicalText_set each
      refine ⟨bracketed sorted, written, fun other order => ?_⟩
      cases order with
      | same => exact written
      | set inside order =>
          exact canonicalText_shuffled_set (rearranged _ inside) order perm inOrder
  | frozenSet items, nested => by
      obtain ⟨pieces, each, rearranged⟩ := exists_pieces items nested
      obtain ⟨sorted, perm, inOrder, written⟩ := exists_canonicalText_set each
      refine ⟨bracketed sorted, written, fun other order => ?_⟩
      cases order with
      | same => exact written
      | frozenSet inside order =>
          exact canonicalText_shuffled_set (rearranged _ inside) order perm inOrder
  | mapping entries, nested => by
      obtain ⟨names, inside⟩ := nested
      obtain ⟨values, each, rearranged⟩ := exists_values entries inside
      refine ⟨_, canonicalText_mapping (isWritten_zip each) names, fun other order => ?_⟩
      cases order with
      | same => exact canonicalText_mapping (isWritten_zip each) names
      | @mapping _ others _ keys inside order =>
          have written := isWritten_zip (rearranged _ inside)
          rw [← keys] at written
          exact canonicalText_shuffled_mapping written order (keys ▸ names)
  | member value, nested => by
      obtain ⟨written, here, rearranged⟩ := exists_canonicalText value nested
      refine ⟨written, here, fun other order => ?_⟩
      cases order with
      | same => exact here
      | @member _ other inside => exact rearranged other inside

theorem exists_pieces : ∀ items : List Datum, AreNested items →
    ∃ pieces, Forall₂ (fun item piece => canonicalText item = .ok piece) items pieces ∧
      ∀ others, Forall₂ Rearranged items others →
        Forall₂ (fun item piece => canonicalText item = .ok piece) others pieces
  | [], _ => ⟨[], .nil, fun _ order => by cases order; exact .nil⟩
  | item :: rest, nested => by
      obtain ⟨written, here, rearranged⟩ := exists_canonicalText item nested.1
      obtain ⟨pieces, each, rearrangedRest⟩ := exists_pieces rest nested.2
      refine ⟨written :: pieces, .cons here each, fun others order => ?_⟩
      cases order with
      | cons first later => exact .cons (rearranged _ first) (rearrangedRest _ later)

theorem exists_values : ∀ entries : List (Datum × Datum), ValuesNested entries →
    ∃ values, Forall₂ (fun value piece => canonicalText value = .ok piece) (entries.map Prod.snd)
        values ∧
      ∀ others, Forall₂ Rearranged (entries.map Prod.snd) others →
        Forall₂ (fun value piece => canonicalText value = .ok piece) others values
  | [], _ => ⟨[], .nil, fun _ order => by cases order; exact .nil⟩
  | (_, value) :: rest, nested => by
      obtain ⟨written, here, rearranged⟩ := exists_canonicalText value nested.1
      obtain ⟨values, each, rearrangedRest⟩ := exists_values rest nested.2
      refine ⟨written :: values, .cons here each, fun others order => ?_⟩
      cases order with
      | cons first later => exact .cons (rearranged _ first) (rearrangedRest _ later)

end

end Datum

namespace Fingerprint

open Datum

/-- Of data that keys are made of, neither text nor digest nor any key depends on the order in which
it was put together, and its canonical form is final. -/
theorem order_never_counts {value : Datum} (nested : value.IsNested) :
    ∃ plain written, canonical value = .ok plain ∧ canonical plain = .ok plain ∧
      canonicalText value = .ok written ∧
        ∀ other, Rearranged value other → canonicalText other = .ok written ∧
          digest other = digest value ∧ ∀ domain, key domain other = key domain value := by
  obtain ⟨written, here, rearranged⟩ := exists_canonicalText value nested
  obtain ⟨plain, made, -⟩ := canonicalText_eq_ok_iff.mp here
  refine ⟨plain, written, made, isSettled_of_canonical value plain made, here, ?_⟩
  intro other order
  have there := rearranged other order
  have digests : digest other = digest value := by rw [digest, digest, here, there]
  exact ⟨there, digests, fun domain => by rw [key, key, digests]⟩

def place : Datum × Datum :=
  (.text "a", .member (.path (.ofString "/srv")))

def bundle (elements : List Datum) : Datum × Datum :=
  (.text "b", .set elements)

/-- A tuple and a frozen set are written alike, so that nothing decides which one comes first. -/
def knotted : Datum :=
  .mapping [bundle [.tuple [.int 1, .int 2], .frozenSet [.int 1, .int 2]], place]

def reknotted : Datum :=
  .mapping [place, bundle [.frozenSet [.int 2, .int 1], .tuple [.int 1, .int 2]]]

theorem order_never_counts_knotted :
    knotted.IsNested ∧ Rearranged knotted reknotted ∧
      canonicalText reknotted = canonicalText knotted ∧
      key "usage" reknotted = key "usage" knotted := by
  have nested : knotted.IsNested := by
    simp [knotted, bundle, place, IsNested, AreNested, ValuesNested, AreNames]
  have inner : Rearranged (.frozenSet [.int 1, .int 2]) (.frozenSet [.int 2, .int 1]) :=
    .frozenSet (.cons (.same _) (.cons (.same _) .nil)) (.swap _ _ _)
  have outer : Rearranged (.set [.tuple [.int 1, .int 2], .frozenSet [.int 1, .int 2]])
      (.set [.frozenSet [.int 2, .int 1], .tuple [.int 1, .int 2]]) :=
    .set (.cons (.same _) (.cons inner .nil)) (.swap _ _ _)
  have order : [bundle [.frozenSet [.int 2, .int 1], .tuple [.int 1, .int 2]], place].Perm
      [place, bundle [.frozenSet [.int 2, .int 1], .tuple [.int 1, .int 2]]] := .swap _ _ _
  have rearranged : Rearranged knotted reknotted := by
    refine .mapping ?_ ?_ order
    · rfl
    · exact .cons outer (.cons (.same _) .nil)
  obtain ⟨plain, written, -, -, here, others⟩ := order_never_counts nested
  obtain ⟨there, -, keys⟩ := others reknotted rearranged
  exact ⟨nested, rearranged, there.trans here.symm, keys "usage"⟩

end Fingerprint

end StatusLine

import Mathlib.Data.Char
import Mathlib.Data.List.Lex
import Mathlib.Data.List.Nodup
import Mathlib.Data.List.Perm.Basic
import StatusLine.Fingerprint.Canonical
import StatusLine.Fingerprint.Encoding
import StatusLine.Proofs.Results

/-!
The canonical form of data is final: making it once more changes nothing. Its mappings bind distinct
texts, so that putting their entries together again gives the same mapping. Entries with keys of
their own come out in one order, whatever order they are given in.
-/

namespace StatusLine.Encoding

theorem before_iff {a b : List Char} : before a b = true ↔ a < b := by
  induction a generalizing b with
  | nil => cases b <;> simp [before]
  | cons c rest ih =>
      cases b with
      | nil => simp [before]
      | cons d others =>
          by_cases same : c = d
          · simp [before, same, ih]
          · simp [before, same, List.cons_lt_cons_iff]

theorem not_before_iff {a b : List Char} : before a b = false ↔ b ≤ a := by
  rw [← Bool.not_eq_true, before_iff, not_lt]

variable {α : Type} {items others : List (List Char × α)}

def NotLater (first second : List Char × α) : Prop :=
  first.1 ≤ second.1

theorem insertByKey_perm (key : List Char) (item : α) (sorted : List (List Char × α)) :
    (insertByKey key item sorted).Perm ((key, item) :: sorted) := by
  induction sorted with
  | nil => exact List.Perm.refl _
  | cons first rest ih =>
      by_cases earlier : before key first.1 = true
      · simp only [insertByKey, earlier, if_true]
        exact List.Perm.refl _
      · simp only [insertByKey, earlier, Bool.false_eq_true, if_false]
        exact (ih.cons first).trans (List.Perm.swap _ first rest)

theorem insertByKey_sorted (key : List Char) (item : α) {sorted : List (List Char × α)}
    (inOrder : sorted.Pairwise NotLater) : (insertByKey key item sorted).Pairwise NotLater := by
  induction sorted with
  | nil => exact List.pairwise_singleton NotLater _
  | cons first rest ih =>
      obtain ⟨firstFirst, restInOrder⟩ := List.pairwise_cons.mp inOrder
      cases earlier : before key first.1 with
      | true =>
          simp only [insertByKey, earlier, if_true]
          refine List.pairwise_cons.mpr ⟨?_, inOrder⟩
          intro other member
          have least : key ≤ first.1 := le_of_lt (before_iff.mp earlier)
          rcases List.mem_cons.mp member with rfl | later
          · exact least
          · exact le_trans least (firstFirst other later)
      | false =>
          simp only [insertByKey, earlier, Bool.false_eq_true, if_false]
          refine List.pairwise_cons.mpr ⟨?_, ih restInOrder⟩
          intro other member
          rcases List.mem_cons.mp ((insertByKey_perm key item rest).subset member) with rfl | later
          · exact not_before_iff.mp earlier
          · exact firstFirst other later

theorem orderByKey_perm (items : List (List Char × α)) : (orderByKey items).Perm items := by
  have inserted : ∀ sorted : List (List Char × α),
      (items.foldl (fun sorted entry => insertByKey entry.1 entry.2 sorted) sorted).Perm
        (items ++ sorted) := by
    induction items with
    | nil => exact fun sorted => List.Perm.refl sorted
    | cons first rest ih =>
        intro sorted
        have here := (insertByKey_perm first.1 first.2 sorted).append_left rest
        exact ((ih _).trans here).trans List.perm_middle
  have all := inserted []
  rwa [List.append_nil] at all

theorem orderByKey_sorted (items : List (List Char × α)) :
    (orderByKey items).Pairwise NotLater := by
  have inserted : ∀ sorted : List (List Char × α), sorted.Pairwise NotLater →
      (items.foldl (fun sorted entry => insertByKey entry.1 entry.2 sorted) sorted).Pairwise
        NotLater := by
    induction items with
    | nil => exact fun _ inOrder => inOrder
    | cons first rest ih =>
        exact fun sorted inOrder => ih _ (insertByKey_sorted first.1 first.2 inOrder)
  exact inserted [] List.Pairwise.nil

theorem orderByKey_of_perm (perm : items.Perm others) (distinct : (items.map Prod.fst).Nodup) :
    orderByKey items = orderByKey others := by
  have same := ((orderByKey_perm items).trans perm).trans (orderByKey_perm others).symm
  refine same.eq_of_pairwise ?_ (orderByKey_sorted items) (orderByKey_sorted others)
  intro first second inFirst inSecond notLater notEarlier
  have firstMember := (orderByKey_perm items).subset inFirst
  have secondMember := perm.symm.subset ((orderByKey_perm others).subset inSecond)
  exact List.inj_on_of_nodup_map distinct firstMember secondMember (le_antisymm notLater notEarlier)

end StatusLine.Encoding

namespace StatusLine.Datum

open Encoding List

/-! Mappings of distinct texts. -/

def AreNames (keys : List Datum) : Prop :=
  keys.Nodup ∧ ∀ key ∈ keys, ∃ name, key = text name

theorem AreNames.of_cons {key : Datum} {rest : List Datum} (names : AreNames (key :: rest)) :
    ∃ name, key = text name ∧ text name ∉ rest ∧ AreNames rest := by
  obtain ⟨distinct, texts⟩ := names
  obtain ⟨once, later⟩ := List.nodup_cons.mp distinct
  obtain ⟨⟨name, rfl⟩, others⟩ := List.forall_mem_cons.mp texts
  exact ⟨name, rfl, once, later, others⟩

theorem same_text_of_ne {name other : String} (different : text name ≠ text other) :
    same (text name) (text other) = false := by
  rw [same, beq_eq_false_iff_ne]
  exact fun equal => different (congrArg text equal)

theorem bind_of_new {name : String} {value : Datum} {bound : List (Datum × Datum)}
    (names : AreNames (bound.map Prod.fst)) (new : text name ∉ bound.map Prod.fst) :
    bind (text name) value bound = bound ++ [(text name, value)] := by
  induction bound with
  | nil => rfl
  | cons entry rest ih =>
      obtain ⟨other, isText, -, later⟩ := names.of_cons
      obtain ⟨here, there⟩ := not_or.mp (List.mem_cons.not.mp new)
      rw [isText] at here
      rw [bind, isText, same_text_of_ne (Ne.symm here), ih later there, ← isText]
      rfl

theorem ofEntries_of_names {entries : List (Datum × Datum)}
    (names : AreNames (entries.map Prod.fst)) : ofEntries entries = mapping entries := by
  have bound : ∀ bound : List (Datum × Datum), AreNames ((bound ++ entries).map Prod.fst) →
      entries.foldl (fun bound entry => bind entry.1 entry.2 bound) bound = bound ++ entries := by
    clear names
    induction entries with
    | nil => simp
    | cons entry rest ih =>
        intro bound names
        obtain ⟨key, value⟩ := entry
        have apart := List.nodup_append.mp (List.map_append ▸ names.1)
        have earlier : AreNames (bound.map Prod.fst) :=
          ⟨apart.1, fun other member => names.2 other (by simp [member])⟩
        obtain ⟨name, rfl⟩ := names.2 key (by simp)
        have new : text name ∉ bound.map Prod.fst := fun member =>
          apart.2.2 _ member _ List.mem_cons_self rfl
        have others := ih (bound ++ [(text name, value)]) (by simpa using names)
        simpa [bind_of_new earlier new] using others
  rw [ofEntries, bound [] names]
  rfl

theorem keys_bind_of_mem {name : String} {value : Datum} {bound : List (Datum × Datum)}
    (names : AreNames (bound.map Prod.fst)) (there : text name ∈ bound.map Prod.fst) :
    (bind (text name) value bound).map Prod.fst = bound.map Prod.fst := by
  induction bound with
  | nil => cases there
  | cons entry rest ih =>
      obtain ⟨other, isText, -, later⟩ := names.of_cons
      by_cases here : text other = text name
      · have equal : same (text name) (text name) = true := by rw [same, beq_self_eq_true]
        rw [bind, isText, here, equal]
        simp [isText, here]
      · rw [bind, isText, same_text_of_ne here]
        have inRest : text name ∈ rest.map Prod.fst := by
          rcases List.mem_cons.mp there with first | inside
          · exact absurd (isText.symm.trans first.symm) here
          · exact inside
        simp [ih later inRest, isText]

theorem names_bind {name : String} {value : Datum} {bound : List (Datum × Datum)}
    (names : AreNames (bound.map Prod.fst)) :
    AreNames ((bind (text name) value bound).map Prod.fst) := by
  by_cases there : text name ∈ bound.map Prod.fst
  · rw [keys_bind_of_mem names there]
    exact names
  · rw [bind_of_new names there, List.map_append]
    refine ⟨List.nodup_append.mpr ⟨names.1, by simp, ?_⟩, ?_⟩
    · rintro key member _ last rfl
      obtain rfl := List.mem_singleton.mp last
      exact there member
    · intro key member
      rcases List.mem_append.mp member with before | last
      · exact names.2 key before
      · exact ⟨name, List.mem_singleton.mp last⟩

theorem values_bind {holds : Datum → Prop} {key value : Datum} {bound : List (Datum × Datum)}
    (each : ∀ entry ∈ bound, holds entry.2) (new : holds value) :
    ∀ entry ∈ bind key value bound, holds entry.2 := by
  induction bound with
  | nil => simpa [bind] using new
  | cons entry rest ih =>
      obtain ⟨here, there⟩ := List.forall_mem_cons.mp each
      simp only [bind]
      split
      · exact List.forall_mem_cons.mpr ⟨new, there⟩
      · exact List.forall_mem_cons.mpr ⟨here, ih there⟩

/-! Steps of the canonical form. -/

theorem canonicalItems_eq_ok_iff {items plain : List Datum} :
    canonicalItems items = .ok plain ↔
      Forall₂ (fun item other => canonical item = .ok other) items plain := by
  induction items generalizing plain with
  | nil => simp [canonicalItems, eq_comm]
  | cons item rest ih =>
      rw [forall₂_cons_left_iff]
      cases here : canonical item with
      | error failure => simp [canonicalItems, here]
      | ok first =>
          simp only [canonicalItems, here]
          constructor
          · intro done
            obtain ⟨others, there, rfl⟩ := map_eq_ok done
            exact ⟨first, others, rfl, ih.mp there, rfl⟩
          · rintro ⟨_, others, ⟨⟩, each, rfl⟩
            rw [ih.mpr each]
            rfl

theorem items_of_withEncodings {items : List Datum} {keyed : List (List Char × Datum)}
    (done : withEncodings items = .ok keyed) : keyed.map Prod.snd = items := by
  induction items generalizing keyed with
  | nil =>
      cases done
      rfl
  | cons item rest ih =>
      simp only [withEncodings] at done
      split at done
      · cases done
      · obtain ⟨others, made, rfl⟩ := map_eq_ok done
        simp [ih made]

theorem perm_of_orderedByEncoding {items sorted : List Datum}
    (done : orderedByEncoding items = .ok sorted) : sorted.Perm items := by
  obtain ⟨keyed, made, rfl⟩ := map_eq_ok done
  have perm := (orderByKey_perm keyed).map Prod.snd
  rwa [items_of_withEncodings made] at perm

/-! Settled data. -/

def IsSettled (value : Datum) : Prop :=
  canonical value = .ok value

theorem isSettled_list {items : List Datum} (each : ∀ item ∈ items, IsSettled item) :
    IsSettled (list items) := by
  have done : canonicalItems items = .ok items :=
    canonicalItems_eq_ok_iff.mpr (forall₂_same.mpr each)
  simp [IsSettled, canonical, done, Except.map]

theorem isSettled_mapping {entries : List (Datum × Datum)}
    (names : AreNames (entries.map Prod.fst)) (each : ∀ entry ∈ entries, IsSettled entry.2) :
    IsSettled (mapping entries) := by
  have done : canonicalEntries entries = .ok entries := by
    induction entries with
    | nil => rfl
    | cons entry rest ih =>
        obtain ⟨name, isText, -, later⟩ := names.of_cons
        obtain ⟨here, there⟩ := List.forall_mem_cons.mp each
        obtain ⟨key, value⟩ := entry
        obtain rfl : key = text name := isText
        simp [canonicalEntries, show canonical value = .ok value from here, ih later there,
          plainText, Except.map]
  simp [IsSettled, canonical, done, ofEntries_of_names names, Except.map]

theorem isSettled_ofEntries {entries : List (Datum × Datum)}
    (each : ∀ entry ∈ entries, (∃ name, entry.1 = text name) ∧ IsSettled entry.2) :
    IsSettled (ofEntries entries) := by
  have bound : ∀ bound : List (Datum × Datum), AreNames (bound.map Prod.fst) →
      (∀ entry ∈ bound, IsSettled entry.2) → IsSettled
        (mapping (entries.foldl (fun bound entry => bind entry.1 entry.2 bound) bound)) := by
    induction entries with
    | nil => exact fun bound names settled => isSettled_mapping names settled
    | cons entry rest ih =>
        intro bound names settled
        obtain ⟨⟨⟨name, isText⟩, here⟩, there⟩ := List.forall_mem_cons.mp each
        obtain ⟨key, value⟩ := entry
        obtain rfl : key = text name := isText
        exact ih there _ (names_bind names) (values_bind settled here)
  exact bound [] ⟨List.nodup_nil, by simp⟩ (by simp)

mutual

theorem isSettled_of_canonical : ∀ value plain : Datum, canonical value = .ok plain →
    IsSettled plain
  | list items, plain, done | tuple items, plain, done => by
      rw [canonical] at done
      obtain ⟨plains, made, rfl⟩ := map_eq_ok done
      exact isSettled_list (areSettled_of_canonicalItems items plains made)
  | set items, plain, done | frozenSet items, plain, done => by
      simp only [canonical] at done
      split at done
      · cases done
      · rename_i made
        obtain ⟨sorted, ordered, rfl⟩ := map_eq_ok done
        refine isSettled_list fun item member => ?_
        have inside := (perm_of_orderedByEncoding ordered).subset member
        exact areSettled_of_canonicalItems items _ made item inside
  | mapping entries, plain, done => by
      rw [canonical] at done
      obtain ⟨plains, made, rfl⟩ := map_eq_ok done
      exact isSettled_ofEntries (areSettled_of_canonicalEntries entries plains made)
  | record _ fields, plain, done => by
      rw [canonical] at done
      obtain ⟨plains, made, rfl⟩ := map_eq_ok done
      exact isSettled_ofEntries (areSettled_of_canonicalFields fields plains made)
  | member value, plain, done => by
      rw [canonical] at done
      exact isSettled_of_canonical value plain done
  | null, _, done | bool _, _, done | int _, _, done | float _, _, done | text _, _, done
  | bytes _, _, done | path _, _, done | kind _, _, done | thing _ _ _, _, done => by
      simp only [canonical, Except.ok.injEq] at done
      subst done
      rfl

theorem areSettled_of_canonicalItems : ∀ items plains : List Datum,
    canonicalItems items = .ok plains → ∀ plain ∈ plains, IsSettled plain
  | [], _, done => by
      cases done
      simp
  | item :: rest, plains, done => by
      simp only [canonicalItems] at done
      split at done
      · cases done
      · rename_i here
        obtain ⟨others, made, rfl⟩ := map_eq_ok done
        exact List.forall_mem_cons.mpr ⟨isSettled_of_canonical item _ here,
          areSettled_of_canonicalItems rest others made⟩

theorem areSettled_of_canonicalEntries : ∀ entries plains : List (Datum × Datum),
    canonicalEntries entries = .ok plains →
      ∀ entry ∈ plains, (∃ name, entry.1 = text name) ∧ IsSettled entry.2
  | [], _, done => by
      cases done
      simp
  | (_, value) :: rest, plains, done => by
      simp only [canonicalEntries] at done
      split at done
      · cases done
      · rename_i here
        obtain ⟨others, made, rfl⟩ := map_eq_ok done
        exact List.forall_mem_cons.mpr ⟨⟨⟨_, rfl⟩, isSettled_of_canonical value _ here⟩,
          areSettled_of_canonicalEntries rest others made⟩

theorem areSettled_of_canonicalFields : ∀ (fields : List (String × Datum))
    (plains : List (Datum × Datum)), canonicalFields fields = .ok plains →
      ∀ entry ∈ plains, (∃ name, entry.1 = text name) ∧ IsSettled entry.2
  | [], _, done => by
      cases done
      simp
  | (_, value) :: rest, plains, done => by
      simp only [canonicalFields] at done
      split at done
      · cases done
      · rename_i here
        obtain ⟨others, made, rfl⟩ := map_eq_ok done
        exact List.forall_mem_cons.mpr ⟨⟨⟨_, rfl⟩, isSettled_of_canonical value _ here⟩,
          areSettled_of_canonicalFields rest others made⟩

end

end StatusLine.Datum

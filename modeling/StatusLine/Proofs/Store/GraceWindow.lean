import Mathlib.Order.Compare
import StatusLine.Proofs.Store.FileText
import StatusLine.Proofs.Store.Policy

/-!
How long a file serves. A fresh entry is served without a look at the grace, so the grace is a limit
only as long as the time to live in force keeps to it; a time to live given for one lookup need not.
-/

namespace StatusLine

/-! The order of doubles. -/

namespace Doubles

open Float.Model

def rank : UnpackedFloat → Option (Int × Int × Int)
  | .notANumber => none
  | .infinity .negative => some (-2, 0, 0)
  | .finite .negative mantissa exponent _ => some (-1, -exponent, -mantissa)
  | .zero _ => some (0, 0, 0)
  | .finite .positive mantissa exponent _ => some (1, exponent, mantissa)
  | .infinity .positive => some (2, 0, 0)

def AtMost (a b : Int × Int × Int) : Prop :=
  a.1 < b.1 ∨ a.1 = b.1 ∧ (a.2.1 < b.2.1 ∨ a.2.1 = b.2.1 ∧ a.2.2 ≤ b.2.2)

theorem AtMost.trans {a b c : Int × Int × Int} (first : AtMost a b) (second : AtMost b c) :
    AtMost a c := by
  unfold AtMost at *
  omega

theorem isLE_then (e k : Int) (m n : Nat) :
    ((compare e k).then (compare m n)).isLE = true ↔ e < k ∨ e = k ∧ m ≤ n := by
  rw [Ordering.isLE_then_iff_or, Int.compare_eq_lt, Std.compare_eq_iff_eq, Nat.isLE_compare]

theorem isGE_then (e k : Int) (m n : Nat) :
    ((compare e k).then (compare m n)).isGE = true ↔ k < e ∨ e = k ∧ n ≤ m := by
  rw [Ordering.isGE_iff_eq_gt_or_eq_eq, Ordering.then_eq_gt, Ordering.then_eq_eq,
    Int.compare_eq_gt, Nat.compare_eq_gt, Std.compare_eq_iff_eq, Std.compare_eq_iff_eq]
  omega

theorem le_iff_rank (a b : UnpackedFloat) :
    a.le b = true ↔ ∃ x y, rank a = some x ∧ rank b = some y ∧ AtMost x y := by
  rcases a with ⟨_ | _⟩ | _ | _ | ⟨_ | _, m, e, _⟩ <;>
    rcases b with ⟨_ | _⟩ | _ | _ | ⟨_ | _, n, k, _⟩ <;>
    dsimp only [UnpackedFloat.le, UnpackedFloat.compare, rank] <;>
    simp [AtMost, isLE_then, isGE_then]
  all_goals rfl

theorem le_trans {x y z : Float} (first : x ≤ y) (second : y ≤ z) : x ≤ z := by
  have unpacked (a b : Float) : a ≤ b ↔ a.toModel.unpack.le b.toModel.unpack = true := by
    show (a.le b = true) ↔ _
    simp only [Float.le, decide_eq_true_eq]
    rfl
  rw [unpacked, le_iff_rank] at *
  obtain ⟨a, b, here, there, least⟩ := first
  obtain ⟨b', c, again, last, most⟩ := second
  obtain rfl : b = b' := Option.some.inj (there.symm.trans again)
  exact ⟨a, c, here, last, least.trans most⟩

end Doubles

namespace Cache

variable {α : Type}

def secondsOf : Seconds → Float
  | .whole time => Float.ofInt time
  | .real time => time

theorem isWithin_iff (age : Float) (time : Seconds) :
    isWithin age time = true ↔ age ≤ secondsOf time := by
  cases time <;> simp [isWithin, secondsOf]

/-- A lookup gives a value that neither memory held nor its refresh brought. -/
def Lookup.ServesFile (cache : Cache) (lookup : Lookup) (store : Store α) (kept : Kept α) : Prop :=
  store.remembered lookup.key = none ∧ (lookup.run cache store).result = .ok (some kept) ∧
    (calls (lookup.run cache store).notes = 0 ∨ lookup.LacksValue)

/-- The file tier has a value for a lookup: it is fresh, or no new one can be had and its grace
lasts. -/
def Lookup.Offered (cache : Cache) (lookup : Lookup) (store : Store α) (kept : Kept α) : Prop :=
  ∃ file, cache.readEntry lookup.key (some (lookup.ttlInForce cache)) store = .ok (some file) ∧
    kept = file.value ∧
    (isWithin (store.age file) (lookup.ttlInForce cache) = true ∨
      lookup.LacksValue ∧
        isWithin (lookup.clock store - file.createdAt) (lookup.graceInForce cache) = true)

/-- What a lookup serves from the file tier, and when. -/
structure GraceWindow (cache : Cache) (lookup : Lookup) (store : Store α) : Prop where
  serves : ∀ kept, lookup.ServesFile cache store kept ↔
    store.remembered lookup.key = none ∧ lookup.Offered cache store kept
  /-- The grace is a limit if the time to live in force keeps to it: what is served is within the
  grace at the time when it is served. -/
  limit : secondsOf (lookup.ttlInForce cache) ≤ secondsOf (lookup.graceInForce cache) →
    ∀ kept, lookup.ServesFile cache store kept → ∃ file time,
      cache.readEntry lookup.key (some (lookup.ttlInForce cache)) store = .ok (some file) ∧
      kept = file.value ∧ (time = store.now ∨ lookup.LacksValue ∧ time = lookup.clock store) ∧
      isWithin (time - file.createdAt) (lookup.graceInForce cache) = true

theorem servesFile_iff (cache : Cache) (lookup : Lookup) (store : Store α) (kept : Kept α) :
    lookup.ServesFile cache store kept ↔
      store.remembered lookup.key = none ∧ lookup.Offered cache store kept := by
  constructor
  · rintro ⟨forgotten, served, asked⟩
    refine ⟨forgotten, ?_⟩
    rcases lookup_cases cache lookup store with
      ⟨entry, held⟩ | ⟨-, ⟨failure, bad⟩ | ⟨entry, read, fresh⟩ | ⟨file, due⟩⟩
    · rw [forgotten] at held
      cases held
    · rw [run_of_unreadable forgotten bad] at served
      cases served
    · rw [run_of_fresh forgotten read fresh] at served
      exact ⟨entry, read, (Option.some.inj (Except.ok.inj served)).symm, .inl fresh⟩
    · have lacks : lookup.LacksValue := by
        refine asked.elim (fun unasked => .inl ?_) id
        rw [calls_of_due due] at unasked
        cases asks : lookup.refresh with
        | none => rfl
        | some outcome => simp [asks] at unasked
      rw [(run_of_lacksValue due lacks).1] at served
      obtain ⟨entry, rfl, rfl, within⟩ := serveStale_result served
      exact ⟨entry, due.read, rfl, .inr ⟨lacks, within⟩⟩
  · rintro ⟨forgotten, file, read, rfl, serves⟩
    refine ⟨forgotten, ?_⟩
    cases fresh : isWithin (store.age file) (lookup.ttlInForce cache) with
    | true =>
        rw [run_of_fresh forgotten read fresh]
        exact ⟨rfl, .inl (by simp [calls])⟩
    | false =>
        obtain ⟨lacks, within⟩ := serves.resolve_left (by simp [fresh])
        have due : lookup.Due cache store (some file) := by
          refine ⟨forgotten, read, fun entry same => ?_⟩
          cases same
          exact fresh
        rw [(run_of_lacksValue due lacks).1]
        exact ⟨serveStale_of_within within, .inr lacks⟩

theorem grace_window (cache : Cache) (lookup : Lookup) (store : Store α) :
    GraceWindow cache lookup store where
  serves := servesFile_iff cache lookup store
  limit := by
    intro ordered kept served
    obtain ⟨-, file, read, same, fresh | ⟨lacks, within⟩⟩ :=
      (servesFile_iff cache lookup store kept).mp served
    · rw [isWithin_iff] at fresh
      refine ⟨file, store.now, read, same, .inl rfl, ?_⟩
      rw [isWithin_iff]
      exact Doubles.le_trans fresh ordered
    · exact ⟨file, lookup.clock store, read, same, .inr ⟨lacks, rfl⟩, within⟩

/-! A time to live beyond the grace. -/

def agedCache : Cache :=
  ⟨.ofString "cache", .whole 30, .whole 300⟩

def agedStore : Store Unit :=
  ⟨[], ⟨[(["cache".toList], .directory),
    (["cache".toList, "usage-abc".toList], .file (Fingerprint.utf8 ['v']) 0.0 false)], [], []⟩,
    500.0⟩

def agedLookup : Lookup :=
  ⟨"usage-abc", none, some (.whole 1000), none⟩

/-- A time to live given for one lookup makes a file serve that the grace has given up. -/
theorem not_limited_by_grace :
    ¬ ∀ (cache : Cache) (lookup : Lookup) (store : Store Unit) (file : Entry Unit)
        (kept : Kept Unit),
      cache.readEntry lookup.key (some (lookup.ttlInForce cache)) store = .ok (some file) →
        isWithin (store.age file) (lookup.graceInForce cache) = false →
        isWithin (lookup.clock store - file.createdAt) (lookup.graceInForce cache) = false →
        ¬ lookup.ServesFile cache store kept := by
  intro limited
  have there : agedStore.disk.stat (agedCache.path agedLookup.key) =
      .ok (.file (Fingerprint.utf8 ['v']) 0.0 false) := rfl
  have read : agedCache.readEntry agedLookup.key (some (agedLookup.ttlInForce agedCache))
      agedStore = .ok (some (agedCache.entry "usage-abc" (.text ['v']) 0.0 (some (.whole 1000)))) := by
    simp only [readEntry, there, textOfFile_utf8]
    rfl
  have served : agedLookup.ServesFile agedCache agedStore (.text ['v']) :=
    (servesFile_iff _ _ _ _).mpr ⟨rfl, _, read, rfl, .inl (by decide)⟩
  exact limited agedCache agedLookup agedStore _ _ read (by decide) (by decide) served

end Cache

end StatusLine

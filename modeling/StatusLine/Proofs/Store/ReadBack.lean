import StatusLine.Proofs.Store.FileText
import StatusLine.Proofs.Store.Policy
import StatusLine.Proofs.Store.Readiness

/-!
What one cache sets, another cache on the same directory reads from the file while that is fresh. The
bytes of the text are written as they are and read with line ends unified, so a text is read back
just if it has no carriage return.
-/

namespace StatusLine.Cache

section Reading

variable {α β : Type} {writer reader : Cache} {key : String} {value : List Char}

theorem refusal_eq_none {store : Store α} (takes : store.disk.Takes writer.directory key)
    (value : List Char) (now : Float) : writer.refusal store key value now = none :=
  takes.fault_save (Fingerprint.utf8 value) now

theorem readEntry_of_set {ttl : Option Seconds} {store : Store α} {later : Store β}
    (shared : reader.directory = writer.directory)
    (taken : writer.refusal store key value store.now = none)
    (left : later.disk = (writer.set key value ttl store).state.disk) (other : Option Seconds) :
    reader.readEntry key other later =
      .ok (some (reader.entry key (.text (Text.unifyLineEnds value)) store.now other)) := by
  obtain ⟨executable, found⟩ := store.disk.stat_save writer.directory key _ store.now taken
  have there : later.disk.stat (reader.path key) =
      .ok (.file (Fingerprint.utf8 value) store.now executable) := by
    rw [left, state_set, path, shared]
    exact found
  simp [readEntry, there, textOfFile_utf8, Except.map]

theorem result_of_set {ttl : Option Seconds} {store : Store α} {later : Store β} {lookup : Lookup}
    (shared : reader.directory = writer.directory)
    (taken : writer.refusal store lookup.key value store.now = none)
    (left : later.disk = (writer.set lookup.key value ttl store).state.disk)
    (forgotten : later.remembered lookup.key = none)
    (young : isWithin (later.now - store.now) (lookup.ttlInForce reader) = true) :
    (lookup.run reader later).result = .ok (some (.text (Text.unifyLineEnds value))) := by
  have read := readEntry_of_set shared taken left (some (lookup.ttlInForce reader))
  rw [run_of_fresh forgotten read young]
  rfl

end Reading

/-- A text that is set in a cache is kept in a file wherever the disk takes one, and other caches on
the directory find it there, but for its carriage returns. -/
theorem read_back {α β : Type} (writer reader : Cache) (key : String) (value : List Char)
    (ttl : Option Seconds) (store : Store α) (shared : reader.directory = writer.directory) :
    (store.disk.Takes writer.directory key →
        writer.refusal store key value store.now = none) ∧
      (writer.refusal store key value store.now = none →
        ∀ (later : Store β) (lookup : Lookup),
          later.disk = (writer.set key value ttl store).state.disk →
          later.remembered key = none → lookup.key = key →
          isWithin (later.now - store.now) (lookup.ttlInForce reader) = true →
            (lookup.run reader later).result =
                .ok (some (.text (Text.unifyLineEnds value))) ∧
              ((lookup.run reader later).result = .ok (some (.text value)) ↔ '\r' ∉ value)) := by
  refine ⟨fun takes => refusal_eq_none takes value store.now, ?_⟩
  rintro taken later lookup left forgotten rfl young
  have found := result_of_set shared taken left forgotten young
  refine ⟨found, ?_⟩
  rw [found, ← Text.unifyLineEnds_eq_self_iff]
  simp only [Except.ok.injEq, Option.some.injEq, Kept.text.injEq]

/-! A cache in a directory that is still to be made. -/

def newCache : Cache :=
  ⟨.ofString "cache", .whole 30, .whole 300⟩

def newStore : Store Unit :=
  ⟨[], .empty, 0.0⟩

def newLookup : Lookup :=
  ⟨"usage-abc", none, none, none⟩

/-- What another cache on the directory works on, half a minute after a text has been set. -/
def leftStore (value : List Char) : Store Unit :=
  ⟨[], (newCache.set "usage-abc" value none newStore).state.disk, 30.0⟩

theorem disk_leftStore (value : List Char) :
    (leftStore value).disk = (newCache.set newLookup.key value none newStore).state.disk := by
  simp only [leftStore, newLookup]

theorem young_leftStore (value : List Char) :
    isWithin ((leftStore value).now - newStore.now) (newLookup.ttlInForce newCache) = true := by
  have young : isWithin (30.0 - 0.0) (.whole 30) = true := by decide
  exact young

theorem takes_newStore : newStore.disk.Takes newCache.directory "usage-abc" where
  makes := rfl
  willing := rfl
  isName := ⟨by decide, by decide, by decide⟩
  noZero := by decide
  short := by decide
  few := by decide
  noDirectory := by
    have missing : (newStore.disk.makeDirectories newCache.directory).disk.stat
        (newCache.directory ++ .ofString "usage-abc") = .error .notFound := rfl
    rw [missing]
    simp

theorem read_back_from_new_directory :
    (newLookup.run newCache (leftStore ['v'])).result = .ok (some (.text ['v'])) := by
  obtain ⟨saves, reads⟩ :=
    @read_back Unit Unit newCache newCache newLookup.key ['v'] none newStore rfl
  have saved := saves takes_newStore
  exact (reads saved (leftStore ['v']) newLookup (disk_leftStore ['v']) rfl rfl
    (young_leftStore ['v'])).2.mpr (by decide)

/-- A text with a carriage return is not read as it was set. -/
theorem return_not_read_back :
    (newLookup.run newCache (leftStore ['a', '\r', 'b'])).result ≠
      .ok (some (.text ['a', '\r', 'b'])) := by
  have saved := refusal_eq_none takes_newStore ['a', '\r', 'b'] newStore.now
  rw [result_of_set rfl saved (disk_leftStore _) rfl (young_leftStore _)]
  simp [Text.unifyLineEnds]

end StatusLine.Cache

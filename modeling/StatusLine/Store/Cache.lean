import StatusLine.Action
import StatusLine.Datum.Arithmetic
import StatusLine.Fingerprint.Key
import StatusLine.Store.Disk

/-!
A cache of two tiers. The memory tier holds what was used before, and what it holds is always a hit.
The file tier has one file per key, and the age of an entry is the age of its file: an entry that is
not older than the time to live is fresh, an older one is stale and serves only where nothing new
can be had, and beyond the grace it is as good as gone. No failure of the disk makes storing fail.
-/

namespace StatusLine

inductive Kept (α : Type)
  | text (value : List Char)
  | object (value : α)
  deriving Repr

abbrev Seconds := Datum.Quantity

structure Entry (α : Type) where
  key : String
  value : Kept α
  /-- Seconds since the epoch. -/
  createdAt : Float
  ttl : Seconds
  domain : String
  deriving Repr

structure Store (α : Type) where
  memory : List (String × Entry α)
  disk : Disk
  /-- Seconds since the epoch. -/
  now : Float

namespace Store

def remembered {α : Type} (store : Store α) (key : String) : Option (Entry α) :=
  (store.memory.find? fun item => item.1 == key).map Prod.snd

def forget {α : Type} (store : Store α) (key : String) : Store α :=
  { store with memory := store.memory.filter fun item => item.1 != key }

def remember {α : Type} (store : Store α) (entry : Entry α) : Store α :=
  { store with memory := (entry.key, entry) :: (store.forget entry.key).memory }

def keys {α : Type} (store : Store α) : List String :=
  Names.ordered (store.memory.map Prod.fst)

def age {α : Type} (store : Store α) (entry : Entry α) : Float :=
  store.now - entry.createdAt

theorem remembered_remember {α : Type} (store : Store α) (entry : Entry α) :
    (store.remember entry).remembered entry.key = some entry := by
  simp [remembered, remember]

theorem remembered_forget {α : Type} (store : Store α) (key : String) :
    (store.forget key).remembered key = none := by
  simp [remembered, forget, List.find?_eq_none]

theorem remembered_remember_of_ne {α : Type} (store : Store α) (entry : Entry α) (key : String)
    (different : key ≠ entry.key) :
    (store.remember entry).remembered key = store.remembered key := by
  have apart : (entry.key == key) = false := by simpa using fun same => different same.symm
  simp only [remembered, remember, forget, List.find?_cons, apart, List.find?_filter]
  congr 2
  funext item
  by_cases found : item.1 = key <;> simp [found, different]

end Store

structure Cache where
  directory : PathName
  ttl : Seconds
  grace : Seconds
  deriving Repr

abbrev Refresh (α : Type) : Type :=
  Action (Store α) (List Char)

namespace Cache

/-- The cache in a directory. Nothing can be stale before it is old. -/
def make (directory : PathName) (ttl grace : Seconds) : Except Failure Cache :=
  if ttl.isAbove grace then
    .error (.outOfRange ("grace (" ++ grace.datum.string ++ ") must be >= ttl (" ++
      ttl.datum.string ++ ")"))
  else .ok ⟨directory, ttl, grace⟩

def path (cache : Cache) (key : String) : PathName :=
  cache.directory ++ .ofString key

def entry {α : Type} (cache : Cache) (key : String) (value : Kept α) (createdAt : Float)
    (ttl : Option Seconds) : Entry α :=
  ⟨key, value, createdAt, ttl.getD cache.ttl, Fingerprint.domainOf key⟩

/-- The text in the bytes of a file; line ends of all kinds become one. -/
def textOfFile (content : List UInt8) : Except Failure (List Char) :=
  match String.fromUTF8? ⟨content.toArray⟩ with
  | some text => .ok (Text.unifyLineEnds text.toList)
  | none => .error (.other "UnicodeDecodeError" "")

/-- The entry of the file tier, whatever its age. A file that the disk does not give is none. -/
def readEntry {α : Type} (cache : Cache) (key : String) (ttl : Option Seconds) (store : Store α) :
    Except Failure (Option (Entry α)) :=
  match store.disk.stat (cache.path key) with
  | .error .invalidName => .error DiskFault.invalidName.failure
  | .error _ => .ok none
  | .ok .directory => .ok none
  | .ok (.file content modified _) =>
      (textOfFile content).map fun text => some (cache.entry key (.text text) modified ttl)

def isWithin (age : Float) : Seconds → Bool
  | .whole time => age ≤ Float.ofInt time
  | .real time => age ≤ time

/-- Stores a text in both tiers. A disk that does not take the file does not matter. -/
def set {α : Type} (cache : Cache) (key : String) (value : List Char)
    (ttl : Option Seconds) : Action (Store α) (Entry α) := fun store =>
  let entry := cache.entry key (.text value) store.now ttl
  let saved := store.disk.save cache.directory key (Fingerprint.utf8 value) store.now
  let state := { store.remember entry with disk := saved.disk }
  match saved.fault with
  | some .invalidName => ⟨.error DiskFault.invalidName.failure, state, []⟩
  | _ => ⟨.ok entry, state, []⟩

def unwritable (value : Datum) : Failure :=
  .wrongKind ("write() argument must be str, not " ++
    (if value.isNull then "None" else value.kindName))

/-- Stores any value. One that is no text gets no further than the memory tier, and where the disk
would have taken a file, that is a failure. -/
def setData (cache : Cache) (key : String) (value : Datum) (ttl : Option Seconds) :
    Action (Store Datum) (Entry Datum) :=
  match value with
  | .text text => cache.set key text.toList ttl
  | value => fun store =>
      let entry := cache.entry key (.object value) store.now ttl
      let kept := store.remember entry
      match (store.disk.save cache.directory key [] store.now).fault with
      | some .invalidName => ⟨.error DiskFault.invalidName.failure, kept, []⟩
      | some _ => ⟨.ok entry, kept, []⟩
      | none =>
          let opened := store.disk.makeDirectories cache.directory
          ⟨.error (unwritable value), { kept with disk := opened.disk }, []⟩

def serveStale {α : Type} (file : Option (Entry α)) (grace : Seconds) :
    Action (Store α) (Option (Kept α)) := fun store =>
  match file with
  | none => ⟨.ok none, store, []⟩
  | some entry =>
      let age := store.age entry
      if isWithin age grace then
        ⟨.ok (some entry.value), store,
          ["Serving stale " ++ entry.key ++ " (age " ++ String.ofList (Decimal.fixed 0 age) ++
            "s)"]⟩
      else ⟨.ok none, store, []⟩

/-- Refreshes an entry. Where no text can be had, a stale entry serves; any other failure stays. -/
def refreshed {α : Type} (cache : Cache) (key : String) (file : Option (Entry α))
    (refresh : Refresh α) (ttl grace : Seconds) :
    Action (Store α) (Option (Kept α)) := fun store =>
  let run := refresh store
  match run.result with
  | .ok value =>
      let stored := cache.set key value (some ttl) run.state
      ⟨stored.result.map fun _ => some (.text value), stored.state, run.notes ++ stored.notes⟩
  | .error (.refresh source reason) =>
      let failure := Failure.refresh source reason
      let served := serveStale file grace run.state
      ⟨served.result, served.state,
        run.notes ++ ("Refresh failed for " ++ key ++ ": " ++ failure.message) :: served.notes⟩
  | .error failure => ⟨.error failure, run.state, run.notes⟩

/-- Looks a key up. The time to live and the grace of the cache hold unless others are given. -/
def get {α : Type} (cache : Cache) (key : String) (refresh : Option (Refresh α))
    (ttl grace : Option Seconds) : Action (Store α) (Option (Kept α)) := fun store =>
  let ttl := ttl.getD cache.ttl
  let grace := grace.getD cache.grace
  match store.remembered key with
  | some entry => ⟨.ok (some entry.value), store, ["Memory hit for " ++ key]⟩
  | none =>
      match cache.readEntry key (some ttl) store with
      | .error failure => ⟨.error failure, store, []⟩
      | .ok file =>
          match file.filter fun entry => isWithin (store.age entry) ttl with
          | some entry => ⟨.ok (some entry.value), store.remember entry, ["File hit for " ++ key]⟩
          | none =>
              match refresh with
              | some refresh => cache.refreshed key file refresh ttl grace store
              | none => serveStale file grace store

/-- Keeps an object in the memory tier; it is made only if it is not there. -/
def memoize {α : Type} (cache : Cache) (key : String) (make : Action (Store α) α) :
    Action (Store α) (Kept α) := fun store =>
  match store.remembered key with
  | some entry => ⟨.ok entry.value, store, []⟩
  | none =>
      let run := make store
      match run.result with
      | .error failure => ⟨.error failure, run.state, run.notes⟩
      | .ok value =>
          let entry := cache.entry key (.object value) run.state.now none
          ⟨.ok entry.value, run.state.remember entry, run.notes⟩

def invalidate {α : Type} (cache : Cache) (key : String) : Action (Store α) Unit := fun store =>
  let forgotten := store.forget key
  match store.disk.unlink (cache.path key) with
  | .ok disk => ⟨.ok (), { forgotten with disk := disk }, []⟩
  | .error .notFound => ⟨.ok (), forgotten, []⟩
  | .error fault => ⟨.error fault.failure, forgotten, []⟩

def contains {α : Type} (cache : Cache) (key : String) (store : Store α) : Except Failure Bool :=
  if (store.remembered key).isSome then .ok true
  else
    match store.disk.stat (cache.path key) with
    | .ok _ => .ok true
    | .error .notFound | .error .notADirectory | .error .invalidName => .ok false
    | .error fault => .error fault.failure

end Cache

end StatusLine

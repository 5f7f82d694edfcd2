import StatusLine.Compiler.Generation
import StatusLine.Proofs.Compiler.KeptScripts
import StatusLine.Proofs.Store.Policy

/-!
All tiers agree. A text from the shelf, from memory or from a file is the one that compiling gives
anew, and every step of a compiler keeps it so.
-/

namespace StatusLine

/-! The shelf. -/

namespace Shelf

theorem eq_of_beq_common {common config : Configuration}
    (known : common ∈ commonConfigurations.map Prod.snd) (same : (common == config) = true) :
    common = config := by
  have noMonitoring : common.monitoring? = none := by
    simp only [commonConfigurations, List.map_cons, List.map_nil, List.mem_cons,
      List.not_mem_nil, or_false] at known
    rcases known with rfl | rfl | rfl | rfl <;> rfl
  obtain ⟨features, theme, colors, emojis, usage, logging, monitoring⟩ := common
  obtain ⟨features', theme', colors', emojis', usage', logging', monitoring'⟩ := config
  obtain rfl : monitoring = none := noMonitoring
  have parts : (features == features' && theme == theme' && colors == colors' &&
    emojis == emojis' && usage == usage' && logging == logging' &&
      (none : Option Monitoring) == monitoring') = true := same
  cases monitoring' with
  | some monitoring => simp at parts
  | none =>
      simp only [Bool.and_eq_true, beq_iff_eq] at parts
      obtain ⟨⟨⟨⟨⟨⟨rfl, rfl⟩, rfl⟩, rfl⟩, rfl⟩, rfl⟩, -⟩ := parts
      rfl

theorem eq_of_common {name : String} {first second : Configuration}
    (here : (name, first) ∈ commonConfigurations) (there : (name, second) ∈ commonConfigurations) :
    first = second := by
  simp only [commonConfigurations, List.mem_cons, List.not_mem_nil, or_false, Prod.mk.injEq]
    at here there
  rcases here with ⟨rfl, rfl⟩ | ⟨rfl, rfl⟩ | ⟨rfl, rfl⟩ | ⟨rfl, rfl⟩ <;>
    rcases there with ⟨same, rfl⟩ | ⟨same, rfl⟩ | ⟨same, rfl⟩ | ⟨same, rfl⟩ <;> first
    | rfl
    | exact absurd same (by decide)

theorem mem_of_mem_bind {name : String} {text : List Char} {texts : List (String × List Char)}
    {item : String × List Char} (member : item ∈ bind name text texts) :
    item = (name, text) ∨ item ∈ texts := by
  induction texts with
  | nil => exact .inl (List.mem_singleton.mp member)
  | cons first rest ih =>
      simp only [bind] at member
      split at member
      · rcases List.mem_cons.mp member with here | later
        · exact .inl here
        · exact .inr (List.mem_cons_of_mem first later)
      · rcases List.mem_cons.mp member with rfl | later
        · exact .inr List.mem_cons_self
        · rcases ih later with here | before
          · exact .inl here
          · exact .inr (List.mem_cons_of_mem first before)

end Shelf

namespace Compiler

open StatusLine.Action StatusLine.Shelf

structure ShelfAgrees (compiler : Compiler) (shelf : Shelf) : Prop where
  table : shelf.table = commonConfigurations
  texts : ∀ item ∈ shelf.texts, ∃ config, (item.1, config) ∈ commonConfigurations ∧
    compiler.textAnew config = .ok item.2

section Shelf

variable {compiler : Compiler} {shelf : Shelf} {config : Configuration} {name : String}
  {text : List Char}

theorem ShelfAgrees.standard : compiler.ShelfAgrees Shelf.standard :=
  ⟨rfl, fun _ member => absurd member List.not_mem_nil⟩

theorem ShelfAgrees.put (agrees : compiler.ShelfAgrees shelf)
    (common : (name, config) ∈ commonConfigurations) (made : compiler.textAnew config = .ok text) :
    compiler.ShelfAgrees (shelf.put name text) := by
  refine ⟨agrees.table, ?_⟩
  intro item member
  rcases mem_of_mem_bind member with rfl | before
  · exact ⟨config, common, made⟩
  · exact agrees.texts item before

theorem ShelfAgrees.common_of_match? (agrees : compiler.ShelfAgrees shelf)
    (found : shelf.match? config = some name) : (name, config) ∈ commonConfigurations := by
  obtain ⟨⟨_, common⟩, place, rfl⟩ := Option.map_eq_some_iff.mp found
  have member := List.mem_of_find?_eq_some place
  rw [agrees.table] at member
  have same := List.find?_some place
  rw [← eq_of_beq_common (List.mem_map_of_mem member) same]
  exact member

theorem ShelfAgrees.common_of_placeOf (agrees : compiler.ShelfAgrees shelf)
    {own : String} (common : (own, config) ∈ commonConfigurations)
    (found : shelf.placeOf own config = some name) : (name, config) ∈ commonConfigurations := by
  obtain ⟨⟨_, other⟩, place, rfl⟩ := Option.map_eq_some_iff.mp found
  have member := List.mem_of_find?_eq_some place
  rw [agrees.table] at member
  have same := List.find?_some place
  simp only [Bool.or_eq_true, beq_iff_eq] at same
  rcases same with rfl | equal
  · exact common
  · rw [← eq_of_beq_common (List.mem_map_of_mem member) equal]
    exact member

theorem ShelfAgrees.text_of_text? (agrees : compiler.ShelfAgrees shelf)
    (common : (name, config) ∈ commonConfigurations) (found : shelf.text? name = some text) :
    compiler.textAnew config = .ok text := by
  obtain ⟨⟨_, _⟩, place, rfl⟩ := Option.map_eq_some_iff.mp found
  have same := List.find?_some place
  simp only [beq_iff_eq] at same
  subst same
  obtain ⟨other, known, made⟩ := agrees.texts _ (List.mem_of_find?_eq_some place)
  rw [eq_of_common common known]
  exact made

end Shelf

/-! Both tiers of the cache. -/

def IsAnew (compiler : Compiler) (config : Configuration) (kept : Option (Kept Fragment)) : Prop :=
  ∀ text, kept = some (.text text) → compiler.textAnew config = .ok text

theorem isAnew_text {compiler : Compiler} {config : Configuration} {text : List Char}
    (anew : compiler.textAnew config = .ok text) : compiler.IsAnew config (some (.text text)) := by
  intro other same
  cases same
  exact anew

structure StoreAgrees (compiler : Compiler) (isCompiled : Configuration → Prop)
    (store : Store Fragment) : Prop where
  memory : compiler.Recalls isCompiled store
  files : compiler.FilesAgree isCompiled store.disk

section Steps

variable {compiler : Compiler} {context : Context} {cache : Option Cache} {optimizes : Bool}
  (made : make context cache optimizes = .ok compiler)
  (free : '\r' ∉ compiler.context.settings.cacheDirectory.chars)
  {isCompiled : Configuration → Prop} (apart : compiler.KeysApart isCompiled)
  {config : Configuration} (compiled : isCompiled config)

section Store

variable {key : String} (keyed : compiler.scriptKey config = .ok key)

include apart compiled

theorem agrees_compile :
    Keeps (compiler.StoreAgrees isCompiled) (· = compiler.compiledAnew config)
      (compiler.compile config) := by
  intro store agrees
  obtain ⟨⟨recalls, onDisk, _⟩, result⟩ :=
    recalls_compile apart compiled store ⟨agrees.memory, rfl, rfl⟩
  exact ⟨⟨recalls, by rw [onDisk]; exact agrees.files⟩, result⟩

theorem agrees_refresh :
    Keeps (compiler.StoreAgrees isCompiled) (· = compiler.textAnew config)
      (compiler.refresh config) := by
  refine (agrees_compile apart compiled).bind ?_ ?_
  · intro failure result
    rw [textAnew, ← result]
    rfl
  · intro script result
    refine keeps_pure ?_
    rw [textAnew, ← result]
    rfl

include keyed

theorem agrees_set {text : List Char} (anew : compiler.textAnew config = .ok text)
    (ttl : Option Seconds) :
    Keeps (compiler.StoreAgrees isCompiled) (fun _ => True) (compiler.cache.set key text ttl) := by
  intro store agrees
  have memory : compiler.Recalls isCompiled
      (store.remember (compiler.cache.entry key (.text text) store.now ttl)) :=
    agrees.memory.rememberScript apart compiled keyed anew rfl
  have files := agrees.files.save apart compiled keyed anew store.now
  refine ⟨?_, trivial⟩
  unfold Cache.set
  simp only
  split <;> exact ⟨memory.congr rfl, files⟩

theorem agrees_refreshed {file : Option (Entry Fragment)}
    (fromFile : ∀ entry, file = some entry → ∃ text, entry.value = .text text ∧
      compiler.textAnew config = .ok text) (ttl grace : Seconds) :
    Keeps (compiler.StoreAgrees isCompiled) (OnValue (compiler.IsAnew config))
      (compiler.cache.refreshed key file (compiler.refresh config) ttl grace) := by
  intro store agrees
  have refreshed := agrees_refresh apart compiled store agrees
  unfold Cache.refreshed
  generalize compiler.refresh config store = run at refreshed ⊢
  obtain ⟨result, state, notes⟩ := run
  obtain ⟨after, same⟩ := refreshed
  cases result with
  | ok text =>
      have anew : compiler.textAnew config = .ok text := same.symm
      refine ⟨(agrees_set apart compiled keyed anew (some ttl) state after).1, ?_⟩
      intro kept present
      obtain ⟨_, _, rfl⟩ := map_eq_ok present
      exact isAnew_text anew
  | error failure =>
      cases failure with
      | refresh source reason =>
          refine ⟨?_, ?_⟩
          · show compiler.StoreAgrees isCompiled (Cache.serveStale file grace state).state
            rw [Cache.serveStale_state]
            exact after
          · intro kept present text words
            subst words
            obtain ⟨entry, stale, value, _⟩ := Cache.serveStale_result present
            obtain ⟨others, text, anew⟩ := fromFile entry stale
            cases value.trans text
            exact anew
      | _ => exact ⟨after, OnValue.error _⟩

include made free

theorem agrees_get :
    Keeps (compiler.StoreAgrees isCompiled) (OnValue (compiler.IsAnew config))
      (compiler.cache.get key (some (compiler.refresh config)) none none) := by
  intro store agrees
  unfold Cache.get
  cases held : store.remembered key with
  | some entry =>
      obtain ⟨text, value, anew⟩ := agrees.memory.script config compiled key entry keyed held
      exact ⟨agrees, OnValue.ok (value ▸ isAnew_text anew)⟩
  | none =>
      simp only
      cases read : compiler.cache.readEntry key (some (Option.getD none compiler.cache.ttl))
          store with
      | error failure => exact ⟨agrees, OnValue.error failure⟩
      | ok file =>
          have fromFile : ∀ entry, file = some entry → entry.key = key ∧
              ∃ text, entry.value = .text text ∧ compiler.textAnew config = .ok text := by
            rintro entry rfl
            exact agrees.files.readEntry made free compiled keyed read
          simp only
          cases fresh : file.filter fun entry =>
              Cache.isWithin (store.age entry) (Option.getD none compiler.cache.ttl) with
          | some entry =>
              have there : file = some entry := (Option.filter_eq_some_iff.mp fresh).1
              obtain ⟨own, text, value, anew⟩ := fromFile entry there
              have memory := agrees.memory.rememberScript apart compiled (own ▸ keyed) anew value
              exact ⟨⟨memory, agrees.files⟩, OnValue.ok (value ▸ isAnew_text anew)⟩
          | none =>
              exact agrees_refreshed apart compiled keyed
                (fun entry there => (fromFile entry there).2) _ _ store agrees

end Store

/-! Generating. -/

structure BenchAgrees (compiler : Compiler) (isCompiled : Configuration → Prop)
    (bench : Workbench) : Prop where
  store : compiler.StoreAgrees isCompiled bench.store
  shelf : compiler.ShelfAgrees bench.shelf

theorem agrees_onStore {α : Type} {wanted : Except Failure α → Prop}
    {action : Action (Store Fragment) α}
    (keeps : Keeps (compiler.StoreAgrees isCompiled) wanted action) :
    Keeps (compiler.BenchAgrees isCompiled) wanted (Workbench.onStore action) := by
  refine Keeps.onPart fun bench agrees => ?_
  obtain ⟨store, met⟩ := keeps bench.store agrees.store
  exact ⟨⟨store, agrees.shelf⟩, met⟩

theorem agrees_scriptKey :
    Keeps (compiler.BenchAgrees isCompiled) (OnValue fun key => compiler.scriptKey config = .ok key)
      (ofExcept (compiler.scriptKey config)) :=
  keeps_ofExcept fun _ made => made

theorem exists_of_shelfText {store : Store Fragment} {file : Option (Entry Fragment)}
    {text : List Char} (young : compiler.shelfText store file = some text) :
    ∃ entry, file = some entry ∧ entry.value = .text text := by
  unfold shelfText at young
  split at young
  · rename_i entry
    refine ⟨entry, rfl, ?_⟩
    split at young
    · split at young
      · rename_i value
        cases young
        exact value
      · cases young
    · cases young
  · cases young

theorem agrees_rememberAt {place : Option String} {text : List Char}
    (common : ∀ name, place = some name → (name, config) ∈ commonConfigurations)
    (anew : compiler.textAnew config = .ok text) :
    Keeps (compiler.BenchAgrees isCompiled) (OnValue fun _ => True)
      (rememberAt place text) := by
  intro bench agrees
  unfold rememberAt Shelf.remember
  cases place with
  | none => exact ⟨agrees, OnValue.ok trivial⟩
  | some name => exact ⟨⟨agrees.store, agrees.shelf.put (common name rfl) anew⟩, OnValue.ok trivial⟩

theorem agrees_remember {text : List Char} (anew : compiler.textAnew config = .ok text) :
    Keeps (compiler.BenchAgrees isCompiled) (OnValue fun _ => True) (remember config text) := by
  refine keeps_bindState fun bench agrees => ?_
  exact agrees_rememberAt (fun _ found => agrees.shelf.common_of_match? found) anew bench agrees

include made free compiled

theorem agrees_lookup :
    Keeps (compiler.BenchAgrees isCompiled)
      (OnValue fun found => ∀ text, found = some text → compiler.textAnew config = .ok text)
      (compiler.lookup config) := by
  refine keeps_bindState fun bench agrees => ?_
  have nothing : ∀ bench, compiler.BenchAgrees isCompiled bench →
      compiler.BenchAgrees isCompiled bench ∧
        OnValue (fun found => ∀ text, found = some text → compiler.textAnew config = .ok text)
          (.ok none) :=
    fun _ agrees => ⟨agrees, OnValue.ok fun _ same => by cases same⟩
  cases place : bench.shelf.match? config with
  | none => exact nothing bench agrees
  | some name =>
      have common := agrees.shelf.common_of_match? place
      simp only
      cases ready : bench.shelf.text? name with
      | some text =>
          have anew := agrees.shelf.text_of_text? common ready
          exact ⟨agrees, OnValue.ok fun _ same => by cases same; exact anew⟩
      | none =>
          refine (agrees_scriptKey.bindValue fun key keyed => ?_) bench agrees
          have read : Keeps (compiler.BenchAgrees isCompiled)
              (OnValue fun file => ∀ entry, file = some entry → ∃ text,
                entry.value = .text text ∧ compiler.textAnew config = .ok text)
              (ofExcept (compiler.cache.readEntry key none bench.store)) := by
            refine keeps_ofExcept ?_
            rintro _ found entry rfl
            exact (agrees.store.files.readEntry made free compiled keyed found).2
          refine read.bindValue fun file fromFile => ?_
          cases young : compiler.shelfText bench.store file with
          | none => exact fun bench agrees => nothing bench agrees
          | some text =>
              obtain ⟨entry, there, value⟩ := exists_of_shelfText young
              obtain ⟨words, held, anew⟩ := fromFile entry there
              cases value.symm.trans held
              have placed : ∀ other, some name = some other →
                  (other, config) ∈ commonConfigurations := fun _ same => by
                cases same
                exact common
              refine (agrees_rememberAt placed anew).bindValue fun _ _ => ?_
              exact keeps_pure (OnValue.ok fun _ same => by cases same; exact anew)

include apart

theorem agrees_generate :
    Keeps (compiler.BenchAgrees isCompiled)
      (OnValue fun found => ∀ text, found = some text → compiler.textAnew config = .ok text)
      (compiler.generate config) := by
  refine (agrees_lookup made free compiled).bindValue fun ready known => ?_
  cases ready with
  | some text =>
      have noted : Keeps (compiler.BenchAgrees isCompiled) (OnValue fun _ => True)
          (note "Template cache hit") := fun _ agrees => ⟨agrees, OnValue.ok trivial⟩
      refine noted.bindValue fun _ _ => ?_
      exact keeps_pure (OnValue.ok known)
  | none =>
      refine agrees_scriptKey.bindValue fun key keyed => ?_
      refine (agrees_onStore (agrees_get made free apart compiled keyed)).bindValue ?_
      intro kept anew
      have nothing : Keeps (compiler.BenchAgrees isCompiled)
          (OnValue fun found => ∀ text, found = some text → compiler.textAnew config = .ok text)
          (pure none) := keeps_pure (OnValue.ok fun _ same => by cases same)
      match kept with
      | none => exact nothing
      | some (.object fragment) => exact nothing
      | some (.text text) =>
          refine (agrees_remember (anew text rfl)).bindValue fun _ _ => ?_
          exact keeps_pure (OnValue.ok fun _ same => by cases same; exact anew text rfl)

end Steps

/-! Precomputing. -/

section Precompute

variable {compiler : Compiler} {isCompiled : Configuration → Prop}
  (apart : compiler.KeysApart isCompiled)

include apart

theorem agrees_storeAt {config : Configuration} (compiled : isCompiled config)
    {place : Option String} {text : List Char}
    (common : ∀ name, place = some name → (name, config) ∈ commonConfigurations)
    (anew : compiler.textAnew config = .ok text) :
    Keeps (compiler.BenchAgrees isCompiled) (OnValue fun _ => True)
      (compiler.storeAt place config text) := by
  refine (agrees_rememberAt common anew).bindValue ?_
  intro kept _
  cases kept with
  | false => exact keeps_pure (OnValue.ok trivial)
  | true =>
      refine agrees_scriptKey.bindValue fun key keyed => ?_
      have set := agrees_set apart compiled keyed anew
        (some (.whole compiler.context.settings.scriptTtl))
      refine ((agrees_onStore set).mono fun _ _ _ _ => trivial).bindValue ?_
      exact fun _ _ => keeps_pure (OnValue.ok trivial)

theorem agrees_precomputeAll {places : List (String × Configuration)}
    (common : ∀ place ∈ places, place ∈ commonConfigurations ∧ isCompiled place.2) :
    Keeps (compiler.BenchAgrees isCompiled) (OnValue fun _ => True)
      (compiler.precomputeAll places) := by
  induction places with
  | nil => exact keeps_pure (OnValue.ok trivial)
  | cons place rest ih =>
      obtain ⟨known, compiled⟩ := common place List.mem_cons_self
      have script : Keeps (compiler.BenchAgrees isCompiled)
          (OnValue fun script => compiler.textAnew place.2 = .ok script.text)
          (Workbench.onStore (compiler.compile place.2)) := by
        refine (agrees_onStore (agrees_compile apart compiled)).mono ?_
        rintro _ result script present
        rw [textAnew, ← result, present]
        rfl
      refine script.bindValue fun script anew => ?_
      refine keeps_bindState fun bench agrees => ?_
      have placed : ∀ name, bench.shelf.placeOf place.1 place.2 = some name →
          (name, place.2) ∈ commonConfigurations :=
        fun _ found => agrees.shelf.common_of_placeOf known found
      refine ((agrees_storeAt apart compiled placed anew).bindValue fun _ _ => ?_) bench agrees
      have noted : ∀ line, Keeps (compiler.BenchAgrees isCompiled) (OnValue fun _ => True)
          (note line) := fun _ _ agrees => ⟨agrees, OnValue.ok trivial⟩
      refine (noted _).bindValue fun _ _ => ?_
      exact ih fun other member => common other (List.mem_cons_of_mem place member)

theorem agrees_precompute (common : ∀ place ∈ commonConfigurations, isCompiled place.2) :
    Keeps (compiler.BenchAgrees isCompiled)
      (OnValue fun texts => ∀ item ∈ texts, ∃ config, (item.1, config) ∈ commonConfigurations ∧
        compiler.textAnew config = .ok item.2) compiler.precompute := by
  refine keeps_bindState fun bench agrees => ?_
  have places : ∀ place ∈ bench.shelf.table, place ∈ commonConfigurations ∧ isCompiled place.2 := by
    rw [agrees.shelf.table]
    exact fun place member => ⟨member, common place member⟩
  refine ((agrees_precomputeAll apart places).bindValue fun _ _ => ?_) bench agrees
  refine keeps_bindState fun bench agrees => ?_
  exact ⟨agrees, OnValue.ok agrees.shelf.texts⟩

end Precompute

end Compiler

end StatusLine

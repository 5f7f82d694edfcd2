import StatusLine.Proofs.Compiler.Agreement

/-!
Runs of compilers that share a cache directory. Each has a memory tier and a shelf, which it may
share with others; the disk and the time are the same for all. In whatever order they are asked, and
however much time goes by, the texts that they give out are those of a compiler with nothing in
memory.
-/

namespace StatusLine.Compiler

open StatusLine.Action StatusLine.Shelf

/-- All that compilers in one cache directory work on. -/
structure Site where
  tiers : Nat → List (String × Entry Fragment)
  shelves : Nat → Shelf
  disk : Disk
  now : Float

/-- A compiler is known by the places of its memory tier and of its shelf. -/
structure Seat where
  tier : Nat
  shelf : Nat

namespace Site

def bench (site : Site) (seat : Seat) : Workbench :=
  ⟨⟨site.tiers seat.tier, site.disk, site.now⟩, site.shelves seat.shelf⟩

def leave (site : Site) (seat : Seat) (bench : Workbench) : Site where
  tiers := fun tier => if tier = seat.tier then bench.store.memory else site.tiers tier
  shelves := fun shelf => if shelf = seat.shelf then bench.shelf else site.shelves shelf
  disk := bench.store.disk
  now := bench.store.now

/-- Nothing is in memory, on the shelves or in the cache directory. -/
structure IsNew (compiler : Compiler) (site : Site) : Prop where
  tiers : ∀ tier, site.tiers tier = []
  shelves : ∀ shelf, site.shelves shelf = Shelf.standard
  directory : ∀ name, site.disk.at? (site.disk.placeOf compiler.cache.directory ++ [name]) = none

end Site

inductive Request
  | compile (config : Configuration)
  | generate (config : Configuration)
  | precompute

/-- The configurations that a request has compiled. -/
def Request.configurations : Request → List Configuration
  | compile config => [config]
  | generate config => [config]
  | precompute => commonConfigurations.map Prod.snd

inductive Reply
  | script (config : Configuration) (result : Except Failure CompiledScript)
  | text (config : Configuration) (result : Except Failure (Option (List Char)))
  | texts (result : Except Failure (List (String × List Char)))

def serve (compiler : Compiler) (request : Request) (bench : Workbench) : Reply × Workbench :=
  match request with
  | .compile config =>
      let run := Workbench.onStore (compiler.compile config) bench
      (.script config run.result, run.state)
  | .generate config =>
      let run := compiler.generate config bench
      (.text config run.result, run.state)
  | .precompute =>
      let run := compiler.precompute bench
      (.texts run.result, run.state)

inductive Event
  | call (seat : Seat) (request : Request)
  | clock (now : Float)

def Event.configurations : Event → List Configuration
  | call _ request => request.configurations
  | clock _ => []

/-- What compilers reply, one event after the other. -/
def replies (compiler : Compiler) : Site → List Event → List Reply
  | _, [] => []
  | site, .clock now :: rest => compiler.replies { site with now := now } rest
  | site, .call seat request :: rest =>
      let served := compiler.serve request (site.bench seat)
      served.1 :: compiler.replies (site.leave seat served.2) rest

def GivesAnew (compiler : Compiler) (config : Configuration) (result : Except Failure (List Char)) :
    Prop :=
  ∀ store, store.memory = [] → (compiler.compile config store).result.map CompiledScript.text =
    result

/-- The texts of a reply are those that compiling gives anew. -/
def Reply.Agrees (compiler : Compiler) : Reply → Prop
  | script config result => compiler.GivesAnew config (result.map CompiledScript.text)
  | text config result => ∀ text, result = .ok (some text) → compiler.GivesAnew config (.ok text)
  | texts result => ∀ texts, result = .ok texts → ∀ item ∈ texts, ∃ config,
      (item.1, config) ∈ commonConfigurations ∧ compiler.GivesAnew config (.ok item.2)

section Runs

variable {compiler : Compiler} {isCompiled : Configuration → Prop}

theorem KeysApart.mono {others : Configuration → Prop} (apart : compiler.KeysApart isCompiled)
    (within : ∀ config, others config → isCompiled config) : compiler.KeysApart others where
  scripts a b first second := apart.scripts a b (within a first) (within b second)
  fragments a b first second := apart.fragments a b (within a first) (within b second)

theorem givesAnew_textAnew (apart : compiler.KeysApart isCompiled) {config : Configuration}
    (compiled : isCompiled config) : compiler.GivesAnew config (compiler.textAnew config) := by
  intro store fresh
  have alone : compiler.KeysApart (· = config) := by
    refine apart.mono ?_
    rintro _ rfl
    exact compiled
  rw [compile_of_forgotten alone fresh, textAnew]

structure SiteAgrees (compiler : Compiler) (isCompiled : Configuration → Prop) (site : Site) :
    Prop where
  tiers : ∀ tier, compiler.Recalls isCompiled ⟨site.tiers tier, site.disk, site.now⟩
  shelves : ∀ shelf, compiler.ShelfAgrees (site.shelves shelf)
  files : compiler.FilesAgree isCompiled site.disk

theorem SiteAgrees.bench {site : Site} (agrees : compiler.SiteAgrees isCompiled site)
    (seat : Seat) : compiler.BenchAgrees isCompiled (site.bench seat) :=
  ⟨⟨agrees.tiers seat.tier, agrees.files⟩, agrees.shelves seat.shelf⟩

theorem SiteAgrees.leave {site : Site} (agrees : compiler.SiteAgrees isCompiled site)
    {seat : Seat} {bench : Workbench} (left : compiler.BenchAgrees isCompiled bench) :
    compiler.SiteAgrees isCompiled (site.leave seat bench) := by
  refine ⟨fun tier => ?_, fun shelf => ?_, left.store.files⟩
  · by_cases own : tier = seat.tier
    · exact left.store.memory.congr (if_pos own)
    · exact (agrees.tiers tier).congr (if_neg own)
  · show compiler.ShelfAgrees (if shelf = seat.shelf then bench.shelf else site.shelves shelf)
    split
    · exact left.shelf
    · exact agrees.shelves shelf

theorem SiteAgrees.of_isNew {site : Site} (new : site.IsNew compiler) :
    compiler.SiteAgrees isCompiled site := by
  refine ⟨fun tier => .of_forgotten (new.tiers tier), fun shelf => ?_, ?_⟩
  · rw [new.shelves shelf]
    exact .standard
  · intro config _ key keyed content modified executable found
    rw [Cache.path, site.disk.placeOf_isFileName _ (isFileName_of_key keyed),
      new.directory] at found
    cases found

variable {context : Context} {cache : Option Cache} {optimizes : Bool}
  (made : make context cache optimizes = .ok compiler)
  (free : '\r' ∉ compiler.context.settings.cacheDirectory.chars)

include made free

theorem agrees_serve (apart : compiler.KeysApart isCompiled) {request : Request}
    (compiled : ∀ config ∈ request.configurations, isCompiled config) {bench : Workbench}
    (agrees : compiler.BenchAgrees isCompiled bench) :
    (compiler.serve request bench).1.Agrees compiler ∧
      compiler.BenchAgrees isCompiled (compiler.serve request bench).2 := by
  cases request with
  | compile config =>
      have known := compiled config List.mem_cons_self
      obtain ⟨left, result⟩ := agrees_onStore (agrees_compile apart known) bench agrees
      refine ⟨?_, left⟩
      show compiler.GivesAnew config (Except.map CompiledScript.text _)
      rw [result]
      exact givesAnew_textAnew apart known
  | generate config =>
      have known := compiled config List.mem_cons_self
      obtain ⟨left, texts⟩ := agrees_generate made free apart known bench agrees
      refine ⟨fun text found => ?_, left⟩
      rw [← texts _ found text rfl]
      exact givesAnew_textAnew apart known
  | precompute =>
      have known : ∀ place ∈ commonConfigurations, isCompiled place.2 :=
        fun place member => compiled place.2 (List.mem_map_of_mem member)
      obtain ⟨left, texts⟩ := agrees_precompute apart known bench agrees
      refine ⟨fun given found item member => ?_, left⟩
      obtain ⟨config, common, anew⟩ := texts given found item member
      refine ⟨config, common, ?_⟩
      rw [← anew]
      exact givesAnew_textAnew apart (known (item.1, config) common)

theorem agrees_replies (apart : compiler.KeysApart isCompiled) {events : List Event}
    (compiled : ∀ event ∈ events, ∀ config ∈ event.configurations, isCompiled config)
    {site : Site} (agrees : compiler.SiteAgrees isCompiled site) :
    ∀ reply ∈ compiler.replies site events, reply.Agrees compiler := by
  induction events generalizing site with
  | nil =>
      intro reply member
      cases member
  | cons event rest ih =>
      have later : ∀ other ∈ rest, ∀ config ∈ other.configurations, isCompiled config :=
        fun other member => compiled other (List.mem_cons_of_mem event member)
      cases event with
      | clock now =>
          have moved : compiler.SiteAgrees isCompiled { site with now := now } :=
            ⟨fun tier => (agrees.tiers tier).congr rfl, agrees.shelves, agrees.files⟩
          exact ih later moved
      | call seat request =>
          have known := compiled (.call seat request) List.mem_cons_self
          obtain ⟨here, left⟩ := agrees_serve made free apart known (agrees.bench seat)
          intro reply member
          rcases List.mem_cons.mp member with rfl | behind
          · exact here
          · exact ih later (agrees.leave left) reply behind

/-- Whatever compilers of a new site are asked, their texts are those that compiling gives anew. -/
theorem replies_agree {site : Site} (new : site.IsNew compiler) {events : List Event}
    (apart : compiler.KeysApart (· ∈ events.flatMap Event.configurations)) :
    ∀ reply ∈ compiler.replies site events, reply.Agrees compiler := by
  refine agrees_replies made free apart ?_ (.of_isNew new)
  intro event member config inside
  exact List.mem_flatMap.mpr ⟨event, member, inside⟩

end Runs

/-! Two compilers, and two configurations that share their scripts. -/

def homeContext : Context :=
  ⟨Settings.standard (.ofString "/home/slc"), some "/home/slc".toList⟩

def homeCompiler : Compiler :=
  ⟨homeContext, ⟨homeContext.settings.cacheDirectory, .whole 86400, .whole 604800⟩, true,
    fun _ style options => options.encode homeContext style, Shortening.optimize .all⟩

def directoryOnly : Configuration :=
  { Configuration.standard with features := ["directory"] }

def withUnknownFeature : Configuration :=
  { directoryOnly with features := ["directory", "weather"] }

def newSite : Site :=
  ⟨fun _ => [], fun _ => .standard, .empty, 0⟩

/-- The second compiler finds a file that is too old, and makes it anew. -/
def twoAtWork : List Event :=
  [.call ⟨0, 0⟩ (.generate directoryOnly), .call ⟨0, 0⟩ (.compile withUnknownFeature),
    .clock 100000, .call ⟨1, 1⟩ (.generate withUnknownFeature)]

theorem replies_agree_two_at_work :
    newSite.IsNew homeCompiler ∧
      ∀ reply ∈ homeCompiler.replies newSite twoAtWork, reply.Agrees homeCompiler := by
  have made : make homeContext none true = .ok homeCompiler := rfl
  have free : '\r' ∉ homeCompiler.context.settings.cacheDirectory.chars := by decide +kernel
  have new : newSite.IsNew homeCompiler :=
    ⟨fun _ => rfl, fun _ => rfl, fun _ => by simp [newSite, Disk.at?, Disk.empty]⟩
  have known : ∀ config ∈ twoAtWork.flatMap Event.configurations,
      config = directoryOnly ∨ config = withUnknownFeature := by
    simp [twoAtWork, Event.configurations, Request.configurations]
  have wanted : ∀ config ∈ twoAtWork.flatMap Event.configurations,
      homeCompiler.wanted config = [(.directory, .directory)] := by
    intro config member
    rcases known config member with rfl | rfl <;> rfl
  have fields : ∀ config ∈ twoAtWork.flatMap Event.configurations,
      homeCompiler.scriptFields config = homeCompiler.scriptFields directoryOnly := by
    intro config member
    rcases known config member with rfl | rfl <;> rfl
  have styles : ∀ config ∈ twoAtWork.flatMap Event.configurations,
      Style.ofConfiguration config = .ofConfiguration directoryOnly := by
    intro config member
    rcases known config member with rfl | rfl <;> rfl
  refine ⟨new, replies_agree made free new ⟨?_, ?_⟩⟩
  · intro a b first second key _ _
    exact (fields a first).trans (fields b second).symm
  · intro a b first second here inHere there inThere key _ _
    rw [wanted a first] at inHere
    rw [wanted b second] at inThere
    rw [List.mem_singleton.mp inHere, List.mem_singleton.mp inThere, styles a first,
      styles b second]

end StatusLine.Compiler

import StatusLine.Proofs.Compiler.HeaderComment
import StatusLine.Proofs.Compiler.KeptFragments
import StatusLine.Proofs.Script.FragmentOrder
import StatusLine.Proofs.Script.Lookups

/-!
What settings have to fulfil. A compiler cannot be made if scripts may be stale for less time than
they are fresh. The times of lookups are not looked at: they stand in scripts as settings have them,
but for the metrics, whose time to be stale is raised to the rate at which they are collected.
-/

namespace StatusLine

/-- The times of a call are in order if those of the settings are, and for metrics in any case. -/
structure LookupCall.IsTimely (settings : Settings) (call : LookupCall) : Prop where
  file : call.file ∈ ["git_cache_file", "sys_cache_file", "usage_cache_file"]
  git : call.file = "git_cache_file" → settings.gitTtl ≤ settings.gitGrace → call.ttl ≤ call.grace
  metrics : call.file = "sys_cache_file" → call.ttl ≤ call.grace
  usage : call.file = "usage_cache_file" → settings.lookupTtl ≤ settings.lookupGrace →
    call.ttl ≤ call.grace

theorem LookupCall.IsOf.isTimely {settings : Settings} {call : LookupCall}
    (known : IsOf settings call) : call.IsTimely settings where
  file := known.file
  git := by
    intro named inOrder
    cases known with
    | git => exact inOrder
    | metrics | usage => simp at named
  metrics := by
    intro named
    cases known with
    | metrics rate => exact Int.le_max_right _ _
    | git | usage => simp at named
  usage := by
    intro named inOrder
    cases known with
    | usage => exact inOrder
    | git | metrics => simp at named

namespace Compiler

open LookupCall Script

/-! Making a compiler. -/

/-- What is wrong with a time to be stale that is less than the time to be fresh. -/
def graceNote (ttl grace : Int) : String :=
  "grace (" ++ (Datum.int grace).string ++ ") must be >= ttl (" ++ (Datum.int ttl).string ++ ")"

theorem cacheOf_eq (settings : Settings) : cacheOf settings =
    if settings.scriptGrace < settings.scriptTtl then
      .error (.outOfRange (graceNote settings.scriptTtl settings.scriptGrace))
    else
      .ok ⟨settings.cacheDirectory, .whole settings.scriptTtl, .whole settings.scriptGrace⟩ := by
  have above : Datum.Quantity.isAbove (.whole settings.scriptTtl) (.whole settings.scriptGrace) =
      decide (settings.scriptGrace < settings.scriptTtl) := rfl
  rw [cacheOf, Cache.make, above]
  simp only [decide_eq_true_eq]
  rfl

theorem make_hasty {context : Context} {optimizes : Bool}
    (hasty : context.settings.scriptGrace < context.settings.scriptTtl) :
    make context none optimizes =
      .error (.outOfRange (graceNote context.settings.scriptTtl context.settings.scriptGrace)) := by
  simp only [make, cacheOf_eq, if_pos hasty]
  rfl

theorem exists_make {context : Context} (optimizes : Bool)
    (patient : context.settings.scriptTtl ≤ context.settings.scriptGrace) :
    ∃ compiler, make context none optimizes = .ok compiler ∧ compiler.context = context := by
  simp only [make, cacheOf_eq, if_neg (Int.not_lt.mpr patient)]
  exact ⟨_, rfl, rfl⟩

/-! The calls of a script. -/

/-- A compiler can be made just if scripts may be stale for as long as they are fresh. Every lookup
in a raw script is one of three, with the times that the settings give it. -/
theorem settings_usable (context : Context) (optimizes : Bool) :
    (context.settings.scriptGrace < context.settings.scriptTtl →
      make context none optimizes =
        .error (.outOfRange (graceNote context.settings.scriptTtl context.settings.scriptGrace))) ∧
    (context.settings.scriptTtl ≤ context.settings.scriptGrace →
      ∃ compiler, make context none optimizes = .ok compiler ∧
        ∀ (start : Store Fragment) (configs : List Configuration) (config : Configuration)
          (script : CompiledScript), start.memory = [] →
          (compiler.compile config (afterCompiling start (configs.map fun other =>
            (compiler, other)))).result = .ok script →
          ∀ before after, script.raw = before ++ callStart ++ after →
            ∃ call : LookupCall, call.text <+: after ∧ call.IsTimely context.settings) := by
  refine ⟨make_hasty, fun patient => ?_⟩
  obtain ⟨compiler, made, same⟩ := exists_make optimizes patient
  refine ⟨compiler, made, fun start configs config script fresh compiled before after call => ?_⟩
  classical
  have accepts := acceptsTidy_calls (IsText context.settings)
  have encodes (config : Configuration) : compiler.Encodes
      (TidyFragment (CallReading.reader (IsText context.settings))) config := by
    intro pair member fragment encoded
    have wanted := configure_of_mem_wanted member
    rw [(encode_of_make made).1, same] at encoded
    rw [same] at wanted
    exact tidy_encode accepts closesLookups_known wanted encoded
  have encodesEach : ∀ pair ∈ configs.map fun other => (compiler, other),
      pair.1.Encodes (TidyFragment (CallReading.reader (IsText context.settings))) pair.2 := by
    intro pair member
    obtain ⟨other, -, rfl⟩ := List.mem_map.mp member
    exact encodes other
  obtain ⟨fragments, -, tidy, assembled, -⟩ :=
    madeOf_afterCompiling encodesEach fresh (encodes config) compiled
  have reads := read_assemble accepts (by decide) (.none _) tidy assembled
  obtain ⟨text, here, timed, known, rfl⟩ := CallReading.known_of_call reads call
  exact ⟨timed, here, known.isTimely⟩

/-! A script with a call. -/

theorem mem_parts_of_query {context : Context} {config : Configuration} {fragments : List Fragment}
    {style : Style} {made : List (List Char)}
    (assembled : parts context config fragments style = .ok made) {fragment : Fragment}
    (member : fragment ∈ fragments) : fragment.query ∈ made := by
  have sorted : fragment ∈ ordered fragments := (ordered_perm fragments).symm.subset member
  have query := List.mem_map_of_mem (f := Fragment.query) sorted
  obtain ⟨directory, -, done⟩ := bind_eq_ok assembled
  obtain ⟨heading, -, done⟩ := bind_eq_ok done
  obtain ⟨log, -, done⟩ := bind_eq_ok done
  obtain ⟨limiter, -, done⟩ := bind_eq_ok done
  obtain ⟨palette, -, done⟩ := bind_eq_ok done
  obtain ⟨routines, -, done⟩ := bind_eq_ok done
  obtain ⟨input, -, done⟩ := bind_eq_ok done
  obtain ⟨noted, -, done⟩ := bind_eq_ok done
  obtain rfl := Except.ok.inj done
  simp only [List.mem_append]
  exact .inl (.inl (.inl (.inr query)))

/-- The branch is shown, and nothing else. -/
def branchConfiguration : Configuration :=
  { emptyConfiguration with features := ["git"] }

/-- Settings like the standard ones, where scripts may be stale for less time than they are fresh. -/
def hastySettings : Settings :=
  { Settings.standard (.ofString "/home/slc") with scriptTtl := 10, scriptGrace := 5 }

theorem settings_usable_for_branch :
    make ⟨hastySettings, none⟩ none false = .error (.outOfRange (graceNote 10 5)) ∧
    make (contextIn "/srv/slc") none false = .ok (compilerIn "/srv/slc") ∧
    ∃ script before after, ((compilerIn "/srv/slc").compile branchConfiguration
        emptyStore).result = .ok script ∧
      script.raw = before ++ callStart ++ after ∧
      ∃ call : LookupCall, call.text <+: after ∧ call.IsTimely (contextIn "/srv/slc").settings := by
  refine ⟨(settings_usable ⟨hastySettings, none⟩ false).1 (by decide), rfl, ?_⟩
  obtain ⟨compiler, made, usable⟩ := (settings_usable (contextIn "/srv/slc") false).2 (by decide)
  obtain rfl : compilerIn "/srv/slc" = compiler := Except.ok.inj made
  have done : ((compilerIn "/srv/slc").compile branchConfiguration emptyStore).result.isOk =
      true := by decide +kernel
  cases compiled : ((compilerIn "/srv/slc").compile branchConfiguration emptyStore).result with
  | error failure => rw [compiled] at done; cases done
  | ok script =>
      have wanted : (compilerIn "/srv/slc").wanted branchConfiguration =
          [(.git, .git ⟨.int 5, .int 60, .int 3⟩)] := rfl
      have encodes : (compilerIn "/srv/slc").Encodes
          (fun fragment => ∃ lead, StartsWith fragment.query (lead ++ callStart))
          branchConfiguration := by
        intro pair member fragment encoded
        rw [wanted, List.mem_singleton] at member
        subst member
        obtain ⟨file, -, encoded⟩ := bind_eq_ok encoded
        obtain ⟨query, asked, encoded⟩ := bind_eq_ok encoded
        obtain ⟨shown, -, encoded⟩ := bind_eq_ok encoded
        obtain rfl := Except.ok.inj encoded
        exact Git.startsWith_call asked
      obtain ⟨fragments, counted, starts, assembled, -⟩ :=
        (keeps_compile encodes _ (allKept_of_forgotten rfl)).2 script compiled
      obtain ⟨fragment, rfl⟩ := List.length_eq_one_iff.mp (counted.trans (by rw [wanted]; rfl))
      obtain ⟨parts, parted, joined⟩ := map_eq_ok assembled
      obtain ⟨lead, start⟩ := starts fragment List.mem_cons_self
      obtain ⟨before, after, found⟩ :=
        infix_join (mem_parts_of_query parted List.mem_cons_self) start
      have call : script.raw = (before ++ lead) ++ callStart ++ after := by
        rw [← joined, ← found]
        simp
      exact ⟨script, before ++ lead, after, rfl, call,
        usable emptyStore [] branchConfiguration script rfl compiled _ _ call⟩

/-- Settings that are accepted, and that no compiler can be made with. -/
theorem hasty_settings_refused :
    Settings.resolve (.standard (.ofString "/home/slc")) []
      [(.text "script_ttl", .int 10), (.text "script_grace", .int 5)] = .ok hastySettings ∧
    make ⟨hastySettings, some "/home/slc".toList⟩ none true =
      .error (.outOfRange "grace (5) must be >= ttl (10)") := by
  have note : graceNote 10 5 = "grace (5) must be >= ttl (10)" := by decide +kernel
  refine ⟨by decide +kernel, ?_⟩
  rw [make_hasty (by decide), ← note]
  rfl

end Compiler

end StatusLine

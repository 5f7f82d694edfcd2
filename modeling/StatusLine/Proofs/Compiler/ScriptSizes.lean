import StatusLine.Proofs.Compiler.CachePaths
import StatusLine.Proofs.Compiler.KeptFragments
import StatusLine.Proofs.Script.InputParts
import StatusLine.Proofs.Shortening.Lengthening

/-!
How large the scripts are that a compiler makes. A shortened script may be larger than the raw one,
as two rules spend bytes to save time, and it is so by no more than these rules spend.
-/

namespace StatusLine.Compiler

open Shortening Script

/-- Shortening adds to a script no more than some bytes for each test that asks for a command and
for each time that the clock is read. -/
theorem sizes_of_compile {compiler : Compiler}
    (made : ∃ context cache optimizes, make context cache optimizes = .ok compiler)
    {config : Configuration} {store : Store Fragment} {script : CompiledScript}
    (compiled : (compiler.compile config store).result = .ok script) :
    script.savings.optimizedSize ≤ script.savings.rawSize +
        7 * Text.count commandTest script.raw + 12 * Text.count whichTest script.raw +
          17 * Text.count clockCommand script.raw ∧
      Audit.Savings.size script.text ≤ max script.savings.rawSize script.savings.optimizedSize := by
  obtain ⟨context, cache, optimizes, built⟩ := made
  obtain ⟨-, -, -, finished⟩ := assembled_of_compile compiled
  have optimized := optimized_of_finished built script.raw
  rw [← finished] at optimized
  constructor
  · have within := size_optimize_le .all script.raw
    change Audit.Savings.size script.optimized ≤ Audit.Savings.size script.raw + _ + _ + _
    rw [optimized]
    split
    · exact within
    · omega
  · rw [CompiledScript.text]
    split
    · exact Nat.le_max_right _ _
    · exact Nat.le_max_left _ _

/-! A script that grows. -/

def bareCompiler : Compiler :=
  shorteningIn "/srv/slc"

theorem make_bareCompiler :
    make (contextIn "/srv/slc") (some bareCompiler.cache) true = .ok bareCompiler := by
  rw [bareCompiler]
  rfl

theorem lengths_of_assemble {raw : List Char}
    (assembled : assemble (contextIn "/srv/slc") bareConfiguration []
      (.ofConfiguration bareConfiguration) = .ok raw) :
    (raw.length = 909 ∧ Audit.surplus raw = 0 ∧ ∀ names ∈ shortNames, ¬ names.1.toList <:+: raw) ∧
      (optimize ⟨false, true, true⟩ raw).text.length = 923 := by
  have named : (contextIn "/srv/slc").cacheDirectory = .ok "/srv/slc".toList := by decide +kernel
  have headed : header.render (headerValues "/srv/slc".toList bareConfiguration
      (contextIn "/srv/slc").settings) = .ok _ := rfl
  have limited : rateLimiter.render (directoryValues "/srv/slc".toList ++
      [("min_interval", .int (contextIn "/srv/slc").settings.minInterval)]) = .ok _ := rfl
  have uncolored : Palette.render (.ofConfiguration bareConfiguration) = .ok [] := rfl
  unfold assemble parts at assembled
  rw [named] at assembled
  simp only [bind, Except.bind, headed, limited, uncolored] at assembled
  obtain rfl := Except.ok.inj assembled
  simp only [toList_join, contentTracking, epilogue, List.map_cons, List.map_nil]
  repeat rw [String.toList_ofList]
  decide +kernel

theorem exists_bareScript :
    ∃ script, (bareCompiler.compile bareConfiguration emptyStore).result = .ok script ∧
      script.savings = ⟨909, 923⟩ := by
  have done : (bareCompiler.compile bareConfiguration emptyStore).result.isOk = true := by
    decide +kernel
  have bare : bareCompiler.wanted bareConfiguration = [] := by decide +kernel
  cases compiled : (bareCompiler.compile bareConfiguration emptyStore).result with
  | error failure => rw [compiled] at done; cases done
  | ok script =>
      obtain ⟨fragments, counted, assembled, finished⟩ := assembled_of_compile compiled
      obtain rfl : fragments = [] := List.eq_nil_of_length_eq_zero (by rw [counted, bare]; rfl)
      obtain ⟨⟨length, plain, absent⟩, shortened⟩ := lengths_of_assemble assembled
      rw [← optimize_of_absent fun names => absent names.1 names.2] at shortened
      have optimized : script.optimized = (optimize .all script.raw).text :=
        (congrArg CompiledScript.optimized finished).trans
          (optimized_of_finished make_bareCompiler script.raw)
      have less := Audit.surplus_optimize_le .all script.raw
      refine ⟨script, rfl, ?_⟩
      rw [CompiledScript.savings, Audit.Savings.ofTexts_eq, optimized, length, shortened, plain]
      rw [plain] at less
      rw [Nat.le_zero.mp less]

/-- The rate limiter of the bare script reads the clock, and reading it faster takes more bytes. -/
theorem bareScript_grows :
    ∃ script, (bareCompiler.compile bareConfiguration emptyStore).result = .ok script ∧
      script.savings.rawSize = 909 ∧ script.savings.optimizedSize = 923 := by
  obtain ⟨script, compiled, savings⟩ := exists_bareScript
  exact ⟨script, compiled, by rw [savings], by rw [savings]⟩

theorem sizes_of_compile_bare :
    ∃ script, (bareCompiler.compile bareConfiguration emptyStore).result = .ok script ∧
      script.savings.optimizedSize ≤ script.savings.rawSize +
        7 * Text.count commandTest script.raw + 12 * Text.count whichTest script.raw +
          17 * Text.count clockCommand script.raw ∧
      Audit.Savings.size script.text ≤ max script.savings.rawSize script.savings.optimizedSize := by
  obtain ⟨script, compiled, -⟩ := exists_bareScript
  exact ⟨script, compiled, sizes_of_compile ⟨_, _, _, make_bareCompiler⟩ compiled⟩

end StatusLine.Compiler

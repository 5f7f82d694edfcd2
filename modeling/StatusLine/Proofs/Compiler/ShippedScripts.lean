import StatusLine.Proofs.Compiler.KeptFragments
import StatusLine.Proofs.Script.Soundness

/-!
Compiled scripts pass their own audit. Whatever a configuration wants, the shortened script is
shipped and never the raw one, as long as the name of the cache directory has no line break. The
fragments in memory come from earlier compilations; they are as tidy as new ones.
-/

namespace StatusLine.Compiler

open Script

/-- A compiler as it is made, whose cache directory has a name without line breaks. -/
structure IsPlain (compiler : Compiler) : Prop where
  made : ∃ context cache optimizes, make context cache optimizes = .ok compiler
  plain : '\n' ∉ compiler.context.settings.cacheDirectory.chars

structure ClosesAll (fragment : Fragment) : Prop where
  quotes : TidyFragment Audit.QuoteReading.reader fragment
  left : TidyFragment Audit.LeftReading.reader fragment
  right : TidyFragment Audit.RightReading.reader fragment

theorem closesAll_encode {context : Context}
    (plain : '\n' ∉ context.settings.cacheDirectory.chars) {config : Configuration}
    {encoder : Encoder} {options : EncoderOptions}
    (wanted : encoder.configure context.settings config = some options) {style : Style}
    {fragment : Fragment} (encoded : options.encode context style = .ok fragment) :
    ClosesAll fragment :=
  ⟨tidy_encode acceptsLookups_quotes.tidy
      (acceptsLookups_quotes.closesLookups (by decide) (.of_not_mem plain)) wanted encoded,
    tidy_encode acceptsLookups_left.tidy
      (acceptsLookups_left.closesLookups (by decide) (.of_not_mem plain)) wanted encoded,
    tidy_encode acceptsLookups_right.tidy
      (acceptsLookups_right.closesLookups (by decide) (.of_not_mem plain)) wanted encoded⟩

theorem IsPlain.encodes {compiler : Compiler} (isPlain : compiler.IsPlain)
    (config : Configuration) : compiler.Encodes ClosesAll config := by
  obtain ⟨context, cache, optimizes, made⟩ := isPlain.made
  intro pair member fragment encoded
  rw [(encode_of_make made).1] at encoded
  exact closesAll_encode isPlain.plain (configure_of_mem_wanted member) encoded

theorem IsPlain.sound {compiler : Compiler} (isPlain : compiler.IsPlain) {config : Configuration}
    {script : CompiledScript} (made : compiler.MadeOf ClosesAll config script) :
    Audit.IsSound script.raw := by
  obtain ⟨fragments, -, closes, assembled, -⟩ := made
  exact isSound_assemble isPlain.plain (fun fragment member => (closes fragment member).quotes)
    (fun fragment member => (closes fragment member).left)
    (fun fragment member => (closes fragment member).right) assembled

theorem MadeOf.finished_eq {compiler : Compiler} {holds : Fragment → Prop} {config : Configuration}
    {script : CompiledScript} (made : compiler.MadeOf holds config script) :
    script = compiler.finished script.raw :=
  made.choose_spec.2.2.2

/-- A script compiled with shortening on passes its audit, and the shortened text is shipped. -/
theorem compile_ships_shortened {calls : List (Compiler × Configuration)}
    (plainCalls : ∀ call ∈ calls, call.1.IsPlain) {start : Store Fragment}
    (fresh : start.memory = []) {compiler : Compiler} (plain : compiler.IsPlain)
    (shortens : compiler.optimizes = true) {config : Configuration} {script : CompiledScript}
    (compiled : (compiler.compile config (afterCompiling start calls)).result = .ok script) :
    script.report.isValid = true ∧ script.text = script.optimized := by
  have made := madeOf_afterCompiling (fun call member => (plainCalls call member).encodes call.2)
    fresh (plain.encodes config) compiled
  have sound := plain.sound made
  have finished := made.finished_eq
  obtain ⟨context, cache, optimizes, built⟩ := plain.made
  have valid : script.report.isValid = true := by
    rw [finished, Compiler.finished, if_pos shortens]
    simp only [(encode_of_make built).2.1]
    exact sound.isValid .all
  exact ⟨valid, by rw [CompiledScript.text, if_pos valid]⟩

def oddContext : Context :=
  ⟨{ Settings.standard (.ofString "/home/slc") with
      cacheDirectory := .ofString "/tmp/a \"$b\" [[ c ]] 'd" }, some "/home/slc".toList⟩

def oddCompiler : Compiler :=
  ⟨oddContext, ⟨oddContext.settings.cacheDirectory, .whole 86400, .whole 604800⟩, true,
    fun _ style options => options.encode oddContext style, Shortening.optimize .all⟩

def oddConfiguration : Configuration :=
  { Configuration.standard with features := ["directory"] }

def oddStart : Store Fragment :=
  afterCompiling ⟨[], .empty, 0⟩ [(oddCompiler, { oddConfiguration with features := [] })]

theorem compile_ships_shortened_in_odd_directory :
    ∃ script, (oddCompiler.compile oddConfiguration oddStart).result = .ok script ∧
      script.report.isValid = true ∧ script.text = script.optimized := by
  have plain : oddCompiler.IsPlain :=
    ⟨⟨oddContext, some oddCompiler.cache, true, rfl⟩, by decide⟩
  have done : (oddCompiler.compile oddConfiguration oddStart).result.isOk = true := by
    decide +kernel
  cases compiled : (oddCompiler.compile oddConfiguration oddStart).result with
  | error failure => rw [compiled] at done; cases done
  | ok script =>
      have plainCalls : ∀ call ∈ [(oddCompiler, { oddConfiguration with features := [] })],
          call.1.IsPlain := by
        intro call member
        exact List.mem_singleton.mp member ▸ plain
      exact ⟨script, rfl, compile_ships_shortened plainCalls rfl plain rfl compiled⟩

end StatusLine.Compiler

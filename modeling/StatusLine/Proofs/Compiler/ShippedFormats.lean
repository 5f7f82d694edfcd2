import StatusLine.Proofs.Compiler.CachePaths
import StatusLine.Proofs.Compiler.KeptFragments
import StatusLine.Proofs.Script.DirectoryNote
import StatusLine.Proofs.Script.InputParts
import StatusLine.Proofs.Script.Soundness

/-!
What compiled scripts print. The format strings of a shortened script are those of the raw one,
rewritten one by one, and only the one that notes the working directory in the log ever changes, as
long as the name of the cache directory has no single quote.
-/

namespace StatusLine.Compiler

open Script Shortening

/-- A compiler as it is made, whose cache directory has a name without single quotes. -/
structure IsUnquoted (compiler : Compiler) : Prop where
  made : ∃ context cache optimizes, make context cache optimizes = .ok compiler
  plain : '\'' ∉ compiler.context.settings.cacheDirectory.chars

theorem IsUnquoted.encodes {compiler : Compiler} (unquoted : compiler.IsUnquoted)
    (config : Configuration) : compiler.Encodes (TidyFragment FormatReading.reader) config := by
  obtain ⟨context, cache, optimizes, made⟩ := unquoted.made
  intro pair member fragment encoded
  rw [(encode_of_make made).1] at encoded
  exact tidy_encode acceptsLookups_formats.tidy
    (acceptsLookups_formats.closesLookups (by decide) (.of_not_mem unquoted.plain))
    (configure_of_mem_wanted member) encoded

theorem IsUnquoted.fine {calls : List (Compiler × Configuration)}
    (unquotedCalls : ∀ call ∈ calls, call.1.IsUnquoted) {start : Store Fragment}
    (fresh : start.memory = []) {compiler : Compiler} (unquoted : compiler.IsUnquoted)
    {config : Configuration} {script : CompiledScript}
    (compiled : (compiler.compile config (afterCompiling start calls)).result = .ok script) :
    ∀ format ∈ formats script.raw, IsFine format := by
  obtain ⟨fragments, -, tidy, assembled, -⟩ := madeOf_afterCompiling
    (fun call member => (unquotedCalls call member).encodes call.2) fresh
    (unquoted.encodes config) compiled
  refine isFine_of_mem_formats ?_
  have back := read_assemble acceptsLookups_formats.tidy (by decide) (.of_not_mem unquoted.plain)
    tidy assembled
  intro lost
  cases back.symm.trans lost

/-- What shortening leaves of a format string. -/
def ShippedAs (raw shipped : List Char) : Prop :=
  shipped = raw ∨ raw = directoryNote ∧ shipped = renamedNote

theorem shippedAs_of_rewritten {raws shipped : List (List Char)}
    (chains : List.Forall₂ Rewritten raws shipped) (fine : ∀ format ∈ raws, IsFine format) :
    List.Forall₂ ShippedAs raws shipped := by
  induction chains with
  | nil => exact .nil
  | cons chain chains ih =>
      obtain ⟨here, behind⟩ := List.forall_mem_cons.mp fine
      exact .cons (rewritten_fine here chain) (ih behind)

/-! A script with the note. -/

/-- The working directory is shown, and noted in the log. -/
def notingConfiguration : Configuration :=
  { bareConfiguration with features := ["directory"], logging := true }

def notingCompiler : Compiler :=
  shorteningIn "/srv/slc"

theorem make_notingCompiler :
    make (contextIn "/srv/slc") (some notingCompiler.cache) true = .ok notingCompiler := by
  rw [notingCompiler]
  rfl

theorem isUnquoted_notingCompiler : notingCompiler.IsUnquoted :=
  ⟨⟨_, _, _, make_notingCompiler⟩, by decide⟩

def directoryFragment : Fragment :=
  ⟨"directory", [], Directory.query.toList, Names.join "\n" [
    "if [ -n \"$current_dir\" ]; then",
    "  segment_sep",
    "  printf 'dir: %s' \"$current_dir\"",
    "  content_displayed=1",
    "fi"] |>.toList, [Directory.inputField], []⟩

theorem encode_directory :
    Directory.encode (.ofConfiguration notingConfiguration) = .ok directoryFragment := by
  have rendered : (Directory.segment (.ofConfiguration notingConfiguration)).render
      (.ofConfiguration notingConfiguration) = .ok _ := rfl
  rw [Directory.encode, rendered]
  refine congrArg (fun display => Except.ok (Fragment.mk "directory" [] Directory.query.toList
    display [Directory.inputField] [])) ?_
  rw [toList_join]
  simp only [List.map_cons, List.map_nil]
  repeat rw [String.toList_ofList]
  decide

set_option maxRecDepth 10000 in
theorem note_of_assemble {raw : List Char}
    (assembled : assemble (contextIn "/srv/slc") notingConfiguration [directoryFragment]
      (.ofConfiguration notingConfiguration) = .ok raw) :
    directoryNote ∈ formats raw ∧ occursBehind directoryNames.2 none raw = false := by
  have named : (contextIn "/srv/slc").cacheDirectory = .ok "/srv/slc".toList := by
    decide +kernel
  have headed : header.render (headerValues "/srv/slc".toList notingConfiguration
      (contextIn "/srv/slc").settings) = .ok _ := rfl
  have logged : logging.render (directoryValues "/srv/slc".toList) = .ok _ := rfl
  have limited : rateLimiter.render (directoryValues "/srv/slc".toList ++
      [("min_interval", .int (contextIn "/srv/slc").settings.minInterval)]) = .ok _ := rfl
  have uncolored : Palette.render (.ofConfiguration notingConfiguration) = .ok [] := rfl
  have sorted : ordered [directoryFragment] = [directoryFragment] := rfl
  have merged : InputField.merge [Directory.inputField] = [Directory.inputField] := rfl
  have logs : notingConfiguration.logging = true := rfl
  have routines : routinesPart [directoryFragment] = .ok [] := rfl
  have fields : directoryFragment.inputFields = [Directory.inputField] := rfl
  unfold assemble parts at assembled
  rw [sorted, named] at assembled
  simp only [headed, logged, limited, uncolored, routines, fields, merged, logs,
    render_extraction, render_logOutput, partIf, List.flatMap_singleton, List.isEmpty_cons,
    Bool.not_false, Bool.and_self, if_true, bind, Except.bind, Except.map] at assembled
  have made := Except.ok.inj assembled
  clear assembled headed logged limited
  unfold directoryFragment InputField.object extractionStart extractionEnd defaultLine noteLine
    Directory.inputField Directory.query contentTracking epilogue at made
  simp only [toList_join, List.map_cons, List.map_nil] at made
  repeat rw [String.toList_ofList] at made
  rw [← made]
  decide +kernel

theorem note_of_compile {store : Store Fragment}
    (kept : AllKept (· = directoryFragment) store) {script : CompiledScript}
    (compiled : (notingCompiler.compile notingConfiguration store).result = .ok script) :
    directoryNote ∈ formats script.raw ∧
      occursBehind directoryNames.2 none script.raw = false := by
  have wanted : notingCompiler.wanted notingConfiguration = [(.directory, .directory)] := rfl
  have encodes : notingCompiler.Encodes (· = directoryFragment) notingConfiguration := by
    intro pair member fragment encoded
    rw [wanted, List.mem_singleton] at member
    subst member
    exact Except.ok.inj (encoded.symm.trans encode_directory)
  obtain ⟨fragments, counted, each, assembled, -⟩ :=
    (keeps_compile encodes store kept).2 script compiled
  rw [wanted] at counted
  obtain rfl := List.eq_replicate_iff.mpr ⟨counted, each⟩
  exact note_of_assemble assembled

/-- Shortening keeps the format strings in number and order. In a script whose cache directory has
no quote in its name it changes nothing but the note on the working directory. -/
theorem formats_shipped {calls : List (Compiler × Configuration)} {start : Store Fragment}
    (fresh : start.memory = []) {compiler : Compiler}
    (made : ∃ context cache optimizes, make context cache optimizes = .ok compiler)
    {config : Configuration} {script : CompiledScript}
    (compiled : (compiler.compile config (afterCompiling start calls)).result = .ok script) :
    List.Forall₂ Rewritten (formats script.raw) (formats script.optimized) ∧
      ((∀ call ∈ calls, call.1.IsUnquoted) → compiler.IsUnquoted →
        List.Forall₂ ShippedAs (formats script.raw) (formats script.optimized) ∧
        (compiler.optimizes = true → occursBehind directoryNames.2 none script.raw = false →
          formats script.optimized = (formats script.raw).map noted)) := by
  obtain ⟨context, cache, optimizes, built⟩ := made
  obtain ⟨-, -, -, finished⟩ := assembled_of_compile compiled
  have optimized := optimized_of_finished built script.raw
  rw [← finished] at optimized
  have chains : List.Forall₂ Rewritten (formats script.raw) (formats script.optimized) := by
    rw [optimized]
    split
    · exact formats_optimize .all script.raw
    · exact List.forall₂_refl _
  refine ⟨chains, fun unquotedCalls unquoted => ?_⟩
  have fine := unquoted.fine unquotedCalls fresh compiled
  refine ⟨shippedAs_of_rewritten chains fine, fun shortens unused => ?_⟩
  rw [optimized, if_pos shortens]
  exact formats_optimize_noted rfl fine unused

theorem formats_shipped_after_bare :
    ∃ script, (notingCompiler.compile notingConfiguration
      (afterCompiling emptyStore [(notingCompiler, bareConfiguration)])).result = .ok script ∧
      List.Forall₂ ShippedAs (formats script.raw) (formats script.optimized) ∧
      formats script.optimized = (formats script.raw).map noted := by
  let calls := [(notingCompiler, bareConfiguration)]
  have unquotedCalls : ∀ call ∈ calls, call.1.IsUnquoted := by
    intro call member
    exact List.mem_singleton.mp member ▸ isUnquoted_notingCompiler
  have bare : notingCompiler.wanted bareConfiguration = [] := rfl
  have kept : AllKept (· = directoryFragment) (afterCompiling emptyStore calls) := by
    refine allKept_afterCompiling (fun call member => ?_) (allKept_of_forgotten rfl)
    obtain rfl := List.mem_singleton.mp member
    intro pair wanted
    rw [bare] at wanted
    exact absurd wanted List.not_mem_nil
  have done : (notingCompiler.compile notingConfiguration
      (afterCompiling emptyStore calls)).result.isOk = true := by decide +kernel
  cases compiled : (notingCompiler.compile notingConfiguration
      (afterCompiling emptyStore calls)).result with
  | error failure => rw [compiled] at done; cases done
  | ok script =>
      obtain ⟨-, unused⟩ := note_of_compile kept compiled
      obtain ⟨-, exactly⟩ := formats_shipped rfl ⟨_, _, _, make_notingCompiler⟩ compiled
      obtain ⟨each, whole⟩ := exactly unquotedCalls isUnquoted_notingCompiler
      exact ⟨script, rfl, each, whole rfl unused⟩

/-- The note names the variable otherwise once the script has been shortened. -/
theorem directory_note_renamed :
    ∃ script, (notingCompiler.compile notingConfiguration emptyStore).result = .ok script ∧
      directoryNote ∈ formats script.raw ∧ directoryNote ∉ formats script.optimized := by
  have done : (notingCompiler.compile notingConfiguration emptyStore).result.isOk = true := by
    decide +kernel
  cases compiled : (notingCompiler.compile notingConfiguration emptyStore).result with
  | error failure => rw [compiled] at done; cases done
  | ok script =>
      obtain ⟨there, unused⟩ := note_of_compile (allKept_of_forgotten rfl) compiled
      obtain ⟨-, -, -, finished⟩ := assembled_of_compile compiled
      have optimized : script.optimized = (optimize .all script.raw).text :=
        (congrArg CompiledScript.optimized finished).trans
          (optimized_of_finished make_notingCompiler script.raw)
      have noCalls : ∀ call ∈ ([] : List (Compiler × Configuration)), call.1.IsUnquoted := by
        simp
      have fine := isUnquoted_notingCompiler.fine noCalls rfl compiled
      refine ⟨script, rfl, there, fun remains => ?_⟩
      rw [optimized, formats_optimize_noted rfl fine unused] at remains
      obtain ⟨format, -, same⟩ := List.mem_map.mp remains
      unfold noted at same
      split at same
      · exact absurd same (by decide)
      · rename_i other
        exact other same

end StatusLine.Compiler

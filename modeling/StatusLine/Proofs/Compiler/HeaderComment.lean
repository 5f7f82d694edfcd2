import StatusLine.Proofs.Compiler.KeptFragments
import StatusLine.Proofs.Script.Soundness

/-!
The comment at the start of a script. It names the cache directory, and the only way out of the
comment is a line end in that name: what stands behind it, up to a blank line, is code unless it is
a comment by itself.
-/

namespace StatusLine

open Script Text

/-- Whether every line before the first blank one is a comment. -/
def AreComments (lines : List (List Char)) : Prop :=
  ∀ line ∈ lines.takeWhile fun line => !isBlankLine line, line.head? = some '#'

instance (lines : List (List Char)) : Decidable (AreComments lines) :=
  inferInstanceAs (Decidable (∀ line ∈ lines.takeWhile fun line => !isBlankLine line,
    line.head? = some '#'))

namespace AreComments

theorem nil : AreComments [] := by
  intro line member
  cases member

theorem cons_iff (line : List Char) (rest : List (List Char)) :
    AreComments (line :: rest) ↔
      isBlankLine line = true ∨ line.head? = some '#' ∧ AreComments rest := by
  unfold AreComments
  cases blank : isBlankLine line <;> simp [blank]

theorem isBlankLine_of_comment {line : List Char} (comment : line.head? = some '#') :
    isBlankLine line = false := by
  cases line with
  | nil => cases comment
  | cons c rest =>
      obtain rfl := Option.some.inj comment
      have hash : isBlank '#' = false := by decide
      simp [isBlankLine, hash]

theorem cons_comment_iff {line : List Char} (comment : line.head? = some '#')
    (rest : List (List Char)) : AreComments (line :: rest) ↔ AreComments rest := by
  simp [cons_iff, comment, isBlankLine_of_comment comment]

theorem append_comment_iff {line : List Char} (comment : line.head? = some '#')
    (lines rest : List (List Char)) :
    AreComments (lines ++ line :: [] :: rest) ↔ AreComments lines := by
  induction lines with
  | nil =>
      have empty : isBlankLine [] = true := rfl
      simp [cons_comment_iff comment, cons_iff, empty, nil]
  | cons first more ih => simp only [List.cons_append, cons_iff, ih]

theorem append_last_iff {first second : List Char} (same : first.head? = second.head?)
    (solid : isBlankLine first = false) (solid' : isBlankLine second = false)
    (lines : List (List Char)) :
    AreComments (lines ++ [first]) ↔ AreComments (lines ++ [second]) := by
  induction lines with
  | nil => simp [cons_iff, solid, solid', same]
  | cons line more ih => simp only [List.cons_append, cons_iff, ih]

end AreComments

/-! The lines of the header. -/

section Header

variable {directory : List Char} {config : Configuration} {settings : Settings}

theorem newline_not_mem_of_bare {text : List Char} (bare : text.all isBare = true) :
    '\n' ∉ text :=
  fun member => absurd (List.all_eq_true.mp bare '\n' member) (by decide)

theorem newline_not_mem_captionEnd (settings : Settings) : '\n' ∉ captionEnd settings := by
  have ttl := newline_not_mem_of_bare (bare_ofInt settings.lookupTtl)
  have grace := newline_not_mem_of_bare (bare_ofInt settings.lookupGrace)
  unfold captionEnd
  simp only [List.mem_append, ttl, grace, or_false]
  decide

theorem newline_not_mem_themeLine (config : Configuration) : '\n' ∉ themeLine config := by
  have theme := newline_not_mem_of_bare (bare_theme config.theme)
  have colors := newline_not_mem_of_bare (bare_switchText config.colors)
  have features := newline_not_mem_of_bare (bare_featuresText config)
  unfold themeLine
  simp only [List.mem_append, theme, colors, features, or_false]
  decide

theorem isBlankLine_append {text : List Char} (solid : isBlankLine text = false)
    (lead : List Char) : isBlankLine (lead ++ text) = false := by
  rw [isBlankLine] at solid ⊢
  rw [List.all_append, solid, Bool.and_false]

theorem areComments_directory_iff {first second : List Char}
    (same : ∃ c, first.head? = some c ∧ second.head? = some c)
    (solid : isBlankLine first = false) (solid' : isBlankLine second = false)
    (single : '\n' ∉ first) (single' : '\n' ∉ second) :
    AreComments (splitLines (directory ++ first)).tail ↔
      AreComments (splitLines (directory ++ second)).tail := by
  obtain ⟨before, last, shape⟩ := exists_splitLines_append directory
  obtain ⟨c, starts, starts'⟩ := same
  rw [shape first single, shape second single']
  cases before with
  | nil => rfl
  | cons line more =>
      have heads : (last ++ first).head? = (last ++ second).head? := by
        rw [List.head?_append, List.head?_append, starts, starts']
      exact AreComments.append_last_iff heads (isBlankLine_append solid last)
        (isBlankLine_append solid' last) more

theorem splitLines_header {text : List Char}
    (header : joinLines (heading directory config settings) ++ ['\n', '\n'] <+: text) :
    ∃ first rest, splitLines text =
      shebang.toList :: generatorLine :: themeLine config :: (captionStart ++ first) ::
        ((splitLines (directory ++ captionEnd settings)).tail ++ debugLine :: [] :: rest) := by
  obtain ⟨rest, rfl⟩ := header
  have single : '\n' ∉ captionStart := by decide
  obtain ⟨tail, first, start⟩ := tail_splitLines_append single (directory ++ captionEnd settings)
  obtain ⟨line, others, lines⟩ := List.exists_cons_of_ne_nil
    (splitLines_ne_nil (captionStart ++ (directory ++ captionEnd settings)))
  rw [lines] at tail start
  obtain rfl := Option.some.inj start
  have shebangLine : splitLines shebang.toList = [shebang.toList] :=
    splitLines_of_not_mem (by decide)
  have generator : splitLines generatorLine = [generatorLine] := splitLines_of_not_mem (by decide)
  have theme := splitLines_of_not_mem (newline_not_mem_themeLine config)
  have debug : splitLines debugLine = [debugLine] := splitLines_of_not_mem (by decide)
  refine ⟨first, splitLines rest, ?_⟩
  have shape : joinLines (heading directory config settings) ++ ['\n', '\n'] ++ rest =
      shebang.toList ++ '\n' :: (generatorLine ++ '\n' :: (themeLine config ++
        '\n' :: (captionStart ++ (directory ++ captionEnd settings) ++
        '\n' :: (debugLine ++ '\n' :: ([] ++ '\n' :: rest))))) := by
    unfold heading
    simp only [joinLines, joinWith, List.append_assoc, List.cons_append, List.nil_append]
  rw [shape]
  simp only [splitLines_append_newline, shebangLine, generator, theme, lines, debug,
    List.cons_append, List.nil_append]
  rw [← tail]
  rfl

theorem areComments_header_iff {text : List Char}
    (header : joinLines (heading directory config settings) ++ ['\n', '\n'] <+: text) :
    AreComments (splitLines text).tail ↔
      AreComments (splitLines (directory ++ captionEnd settings)).tail := by
  obtain ⟨first, rest, lines⟩ := splitLines_header header
  have generator : generatorLine.head? = some '#' := rfl
  have theme : (themeLine config).head? = some '#' := rfl
  have caption : (captionStart ++ first).head? = some '#' := rfl
  have debug : debugLine.head? = some '#' := rfl
  rw [lines, List.tail_cons, AreComments.cons_comment_iff generator,
    AreComments.cons_comment_iff theme, AreComments.cons_comment_iff caption,
    AreComments.append_comment_iff debug]

theorem newline_not_mem_cacheDirectory {context : Context}
    (free : '\n' ∉ context.settings.cacheDirectory.chars) {directory : List Char}
    (named : context.cacheDirectory = .ok directory) : '\n' ∉ directory := by
  have apart : some '\n' ≠ some '/' := by decide
  obtain ⟨lead, path, known, plain, rfl⟩ :=
    accepts_cacheDirectory apart (.of_not_mem free) named
  rw [List.mem_append, escapeInQuotes, List.mem_flatMap]
  rintro (inLead | ⟨c, member, here⟩)
  · simp only [List.mem_cons, List.not_mem_nil, or_false] at known
    rcases known with rfl | rfl | rfl <;> exact absurd inLead (by decide)
  · split at here
    · rcases List.mem_pair.mp here with backslash | same
      · cases backslash
      · exact plain _ rfl (same ▸ member)
    · exact plain _ rfl (List.mem_singleton.mp here ▸ member)

end Header

namespace Compiler

/-- What follows the first line of a script, up to the first blank one, is comments just if the
further lines of the name of the cache directory are. -/
theorem header_comments {compiler : Compiler} {config : Configuration} {store : Store Fragment}
    {script : CompiledScript} (compiled : (compiler.compile config store).result = .ok script) :
    (splitLines script.raw).head? = some shebang.toList ∧
      ∃ directory, compiler.context.cacheDirectory = .ok directory ∧
        (AreComments (splitLines script.raw).tail ↔
          AreComments (splitLines (directory ++ " (".toList)).tail) ∧
        ('\n' ∉ compiler.context.settings.cacheDirectory.chars →
          AreComments (splitLines script.raw).tail) := by
  obtain ⟨fragments, -, assembled, -⟩ := assembled_of_compile compiled
  obtain ⟨directory, named, names⟩ := namesDirectory_of_assemble assembled
  have comments : AreComments (splitLines script.raw).tail ↔
      AreComments (splitLines (directory ++ " (".toList)).tail := by
    refine (areComments_header_iff names.header).trans ?_
    exact areComments_directory_iff ⟨' ', rfl, rfl⟩ (isBlankLine_append (by decide) _) (by decide)
      (newline_not_mem_captionEnd _) (by decide)
  refine ⟨?_, directory, named, comments, ?_⟩
  · obtain ⟨first, rest, lines⟩ := splitLines_header names.header
    rw [lines, List.head?_cons]
  · intro free
    rw [comments]
    have single : '\n' ∉ directory ++ " (".toList := by
      rw [List.mem_append, not_or]
      exact ⟨newline_not_mem_cacheDirectory free named, by decide⟩
    rw [splitLines_of_not_mem single]
    exact AreComments.nil

/-- Settings that are standard but for the cache directory, in a home directory. -/
def contextIn (directory : String) : Context :=
  ⟨{ Settings.standard (.ofString "/home/slc") with cacheDirectory := .ofString directory },
    some "/home/slc".toList⟩

def compilerIn (directory : String) : Compiler :=
  ⟨contextIn directory, ⟨.ofString directory, .whole 86400, .whole 604800⟩, false,
    fun _ style options => options.encode (contextIn directory) style, Shortening.optimize .all⟩

def emptyConfiguration : Configuration :=
  { Configuration.standard with features := [] }

def emptyStore : Store Fragment :=
  ⟨[], .empty, 0⟩

theorem header_comments_in_home :
    ∃ script, ((compilerIn "~/.cache/slc").compile emptyConfiguration emptyStore).result =
      .ok script ∧ AreComments (splitLines script.raw).tail := by
  have done : ((compilerIn "~/.cache/slc").compile emptyConfiguration emptyStore).result.isOk =
      true := by decide +kernel
  cases compiled : ((compilerIn "~/.cache/slc").compile emptyConfiguration emptyStore).result with
  | error failure => rw [compiled] at done; cases done
  | ok script =>
      obtain ⟨-, _, -, -, comments⟩ := header_comments compiled
      exact ⟨script, rfl, comments (by decide)⟩

/-- A line end in the name of the cache directory leaves the comment. -/
theorem header_left :
    ∃ script, ((compilerIn "/tmp/a\nrm -rf x").compile emptyConfiguration emptyStore).result =
      .ok script ∧ ¬ AreComments (splitLines script.raw).tail := by
  have left : (match ((compilerIn "/tmp/a\nrm -rf x").compile emptyConfiguration
      emptyStore).result with
      | .ok script => decide (AreComments (splitLines script.raw).tail)
      | .error _ => true) = false := by decide +kernel
  cases compiled :
      ((compilerIn "/tmp/a\nrm -rf x").compile emptyConfiguration emptyStore).result with
  | error failure => rw [compiled] at left; cases left
  | ok script =>
      rw [compiled] at left
      exact ⟨script, rfl, of_decide_eq_false left⟩

end Compiler

end StatusLine

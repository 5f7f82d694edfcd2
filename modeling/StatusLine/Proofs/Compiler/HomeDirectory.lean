import StatusLine.Proofs.Compiler.HeaderComment
import StatusLine.Proofs.Fingerprint.Keyable

/-!
The home directory reaches a script through the name of the cache directory, which is written
relative to it. The key of a script does not know the home directory, so that processes with
different homes share a key, but not always a script.
-/

namespace StatusLine

open Script Text

structure RendersAlike (a b : Context) : Prop where
  settings : a.settings = b.settings
  directory : a.cacheDirectory = b.cacheDirectory

namespace RendersAlike

variable {a b : Context}

theorem commandFile (alike : RendersAlike a b) (domain : String) (command : List String) :
    a.commandFile domain command = b.commandFile domain command := by
  simp only [Context.commandFile, Context.cacheFile, alike.directory]

theorem encode (alike : RendersAlike a b) (style : Style) (options : EncoderOptions) :
    options.encode a style = options.encode b style := by
  cases options with
  | directory => rfl
  | git options => simp only [EncoderOptions.encode, Git.encode, alike.commandFile]
  | model options => rfl
  | metrics options =>
      simp only [EncoderOptions.encode, Metrics.encode, Metrics.lookupValues, Context.cacheFile,
        alike.directory, alike.settings]
  | usage options => simp only [EncoderOptions.encode, Usage.encode, alike.commandFile]

theorem assemble (alike : RendersAlike a b) (config : Configuration) (fragments : List Fragment)
    (style : Style) : assemble a config fragments style = assemble b config fragments style := by
  simp only [Script.assemble, parts, alike.directory, alike.settings]

end RendersAlike

theorem Context.cacheDirectory_of_outside {context : Context} {base : PathName}
    (home : PathName.homeDirectory? context.home = some base)
    (rooted : context.settings.cacheDirectory.root ≠ .relative)
    (outside : context.settings.cacheDirectory.below? base = none) :
    context.cacheDirectory = .ok (escapeInQuotes context.settings.cacheDirectory.chars) := by
  have plain : context.settings.cacheDirectory.expandHome? context.home =
      some context.settings.cacheDirectory := by
    unfold PathName.expandHome?
    split
    · next relative _ => exact absurd relative rooted
    · rfl
  simp [cacheDirectory, PathName.quotedText, home, plain, PathName.shellText, outside]

theorem Script.NamesDirectory.unique {config : Configuration} {settings : Settings}
    {first second text : List Char} (names : NamesDirectory config settings first text)
    (others : NamesDirectory config settings second text) (single : '\n' ∉ first)
    (single' : '\n' ∉ second) : first = second := by
  obtain ⟨rest, shape⟩ := names.header
  obtain ⟨more, shape'⟩ := others.header
  have same := shape.trans shape'.symm
  simp only [heading, joinLines, joinWith, List.append_assoc, List.cons_append, List.nil_append,
    List.append_cancel_left_eq, List.cons.injEq, true_and] at same
  have line : ∀ directory rest : List Char, '\n' ∉ directory →
      (splitLines (directory ++ (captionEnd settings ++ '\n' :: rest))).head? =
        some (directory ++ captionEnd settings) := by
    intro directory rest single
    have whole : '\n' ∉ directory ++ captionEnd settings := by
      rw [List.mem_append, not_or]
      exact ⟨single, newline_not_mem_captionEnd settings⟩
    rw [← List.append_assoc, splitLines_append_newline, splitLines_of_not_mem whole]
    rfl
  have lines := congrArg (fun text => (splitLines text).head?) same
  simp only [line _ _ single, line _ _ single'] at lines
  exact List.append_cancel_right (Option.some.inj lines)

namespace Compiler

theorem eq_of_makes {settings : Settings} {first second : Option (List Char)}
    {cache : Option Cache} {optimizes : Bool} {here there : Compiler}
    (made : make ⟨settings, first⟩ cache optimizes = .ok here)
    (madeThere : make ⟨settings, second⟩ cache optimizes = .ok there) :
    here.context = ⟨settings, first⟩ ∧ there =
      { here with
        context := ⟨settings, second⟩
        encode := fun _ style options => options.encode ⟨settings, second⟩ style } := by
  unfold make at made madeThere
  cases cache with
  | some given =>
      obtain rfl := Except.ok.inj made
      obtain rfl := Except.ok.inj madeThere
      exact ⟨rfl, rfl⟩
  | none =>
      obtain ⟨chosen, picked, done⟩ := bind_eq_ok made
      obtain ⟨other, pickedThere, doneThere⟩ := bind_eq_ok madeThere
      obtain rfl := Except.ok.inj (picked.symm.trans pickedThere)
      obtain rfl := Except.ok.inj done
      obtain rfl := Except.ok.inj doneThere
      exact ⟨rfl, rfl⟩

section Context

variable {compiler : Compiler} {other : Context}

theorem fragmentsFor_of_rendersAlike (alike : RendersAlike compiler.context other) (style : Style)
    (pairs : List (Encoder × EncoderOptions)) :
    fragmentsFor { compiler with context := other } style pairs =
      compiler.fragmentsFor style pairs := by
  induction pairs with
  | nil => rfl
  | cons pair rest ih =>
      simp only [fragmentsFor, ih, fragment, fragmentKey, fragmentFields, alike.settings]

theorem compile_of_rendersAlike (alike : RendersAlike compiler.context other)
    (config : Configuration) :
    compile { compiler with context := other } config = compiler.compile config := by
  have wanted : wanted { compiler with context := other } config = compiler.wanted config := by
    simp only [Compiler.wanted, alike.settings]
  simp only [compile, rawScript, wanted, fragmentsFor_of_rendersAlike alike, alike.assemble]
  rfl

end Context

/-- The key of a script is the same in all homes. The script is the same where the name of the cache
directory is written alike, as outside of both homes, and only there if it has no line end. -/
theorem home_shows_in_directory_only {settings : Settings} {first second : Option (List Char)}
    {cache : Option Cache} {optimizes : Bool} {here there : Compiler}
    (made : make ⟨settings, first⟩ cache optimizes = .ok here)
    (madeThere : make ⟨settings, second⟩ cache optimizes = .ok there) (config : Configuration) :
    here.scriptKey config = there.scriptKey config ∧
      (here.context.cacheDirectory = there.context.cacheDirectory →
        here.compile config = there.compile config) ∧
      (∀ base other, PathName.homeDirectory? first = some base →
        PathName.homeDirectory? second = some other →
        settings.cacheDirectory.root ≠ .relative → settings.cacheDirectory.below? base = none →
        settings.cacheDirectory.below? other = none →
          here.compile config = there.compile config) ∧
      ('\n' ∉ settings.cacheDirectory.chars → ∀ store elsewhere script others,
        (here.compile config store).result = .ok script →
        (there.compile config elsewhere).result = .ok others → script.raw = others.raw →
          here.context.cacheDirectory = there.context.cacheDirectory) := by
  obtain ⟨context, shape⟩ := eq_of_makes made madeThere
  have away : there.context = ⟨settings, second⟩ := by rw [shape]
  have sameScript : here.context.cacheDirectory = there.context.cacheDirectory →
      here.compile config = there.compile config := by
    intro directory
    have alike : RendersAlike here.context ⟨settings, second⟩ :=
      ⟨by rw [context], by rw [directory, away]⟩
    have encode : here.encode = fun _ style options => options.encode ⟨settings, second⟩ style := by
      rw [(encode_of_make made).1]
      funext _ style options
      exact alike.encode style options
    rw [shape, ← encode, compile_of_rendersAlike alike]
  refine ⟨?_, sameScript, ?_, ?_⟩
  · simp only [scriptKey, scriptFields, Compiler.wanted, shape, context]
  · intro base other home homeThere rooted outside outsideThere
    refine sameScript ?_
    rw [context, away, Context.cacheDirectory_of_outside home rooted outside,
      Context.cacheDirectory_of_outside homeThere rooted outsideThere]
  · intro single store elsewhere script others compiled compiledThere same
    obtain ⟨_, -, assembled, -⟩ := assembled_of_compile compiled
    obtain ⟨_, -, assembledThere, -⟩ := assembled_of_compile compiledThere
    obtain ⟨directory, named, names⟩ := namesDirectory_of_assemble assembled
    obtain ⟨elsewhere, namedThere, namesThere⟩ := namesDirectory_of_assemble assembledThere
    rw [context] at named names
    rw [away] at namedThere namesThere
    rw [← same] at namesThere
    have unique := names.unique namesThere (newline_not_mem_cacheDirectory single named)
      (newline_not_mem_cacheDirectory single namedThere)
    rw [context, away, named, namedThere, unique]

/-- A compiler that does not shorten, in the given home directory. -/
def compilerAt (directory home : String) : Compiler :=
  let context : Context := ⟨(contextIn directory).settings, some home.toList⟩
  ⟨context, ⟨.ofString directory, .whole 86400, .whole 604800⟩, false,
    fun _ style options => options.encode context style, Shortening.optimize .all⟩

theorem make_compilerAt_srv (home : String) :
    make ⟨(contextIn "/srv/slc").settings, some home.toList⟩ none false =
      .ok (compilerAt "/srv/slc" home) :=
  rfl

theorem same_script_in_shared_directory :
    (compilerAt "/srv/slc" "/home/slc").compile emptyConfiguration =
      (compilerAt "/srv/slc" "/root").compile emptyConfiguration :=
  (home_shows_in_directory_only (make_compilerAt_srv _) (make_compilerAt_srv _) _).2.2.1
    (.ofString "/home/slc") (.ofString "/root") (by decide) (by decide) (by decide) (by decide)
    (by decide)

/-- Below one of the homes, the directory is written relative to it, and the key is the same. -/
theorem another_script_in_another_home :
    (∃ key,
      (compilerAt "/home/slc/.cache" "/home/slc").scriptKey emptyConfiguration = .ok key ∧
        (compilerAt "/home/slc/.cache" "/root").scriptKey emptyConfiguration = .ok key) ∧
      ∃ script others,
        ((compilerAt "/home/slc/.cache" "/home/slc").compile emptyConfiguration
          emptyStore).result = .ok script ∧
        ((compilerAt "/home/slc/.cache" "/root").compile emptyConfiguration
          emptyStore).result = .ok others ∧ script.text ≠ others.text := by
  constructor
  · obtain ⟨key, made⟩ :=
      (compilerAt "/home/slc/.cache" "/home/slc").exists_scriptKey emptyConfiguration
    exact ⟨key, made, made⟩
  · have differ : ((compilerAt "/home/slc/.cache" "/home/slc").compile emptyConfiguration
        emptyStore).result.toOption.any (fun script =>
          ((compilerAt "/home/slc/.cache" "/root").compile emptyConfiguration
            emptyStore).result.toOption.any fun others =>
              decide (script.text ≠ others.text)) = true := by
      decide +kernel
    obtain ⟨script, compiled, within⟩ := (Option.any_eq_true _ _).mp differ
    obtain ⟨others, compiledThere, apart⟩ := (Option.any_eq_true _ _).mp within
    exact ⟨script, others, eq_ok_of_toOption compiled, eq_ok_of_toOption compiledThere,
      of_decide_eq_true apart⟩

end Compiler

end StatusLine

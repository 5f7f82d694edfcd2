import StatusLine.Proofs.Compiler.Anew
import StatusLine.Proofs.Script.Soundness
import StatusLine.Proofs.Shortening.Chain
import StatusLine.Proofs.Store.FileText
import StatusLine.Proofs.Store.Readiness
import StatusLine.Proofs.Store.Saving

/-!
Scripts in files. A script has no carriage return, so it is read back as it was written, and every
key has a file of its own.
-/

namespace StatusLine

open Script

/-! Scripts have no carriage returns. -/

namespace Compiler

section Standard

variable {compiler : Compiler} {context : Context} {cache : Option Cache} {optimizes : Bool}
  (made : make context cache optimizes = .ok compiler)
  (free : '\r' ∉ compiler.context.settings.cacheDirectory.chars)

include made free

theorem tidy_fragmentsAnew {config : Configuration} {style : Style}
    {pairs : List (Encoder × EncoderOptions)}
    (wanted : ∀ pair ∈ pairs, pair.1.configure compiler.context.settings config = some pair.2)
    {fragments : List Fragment} (encoded : compiler.fragmentsAnew style pairs = .ok fragments) :
    ∀ fragment ∈ fragments, TidyFragment returnReader fragment := by
  induction pairs generalizing fragments with
  | nil =>
      obtain rfl := Except.ok.inj encoded
      intro fragment member
      cases member
  | cons pair rest ih =>
      obtain ⟨first, here, later⟩ := bind_eq_ok encoded
      obtain ⟨others, there, done⟩ := bind_eq_ok later
      obtain rfl := Except.ok.inj done
      obtain ⟨_, _, fresh⟩ := bind_eq_ok here
      rw [(encode_of_make made).1] at fresh
      intro fragment member
      rcases List.mem_cons.mp member with rfl | behind
      · exact tidy_encode acceptsLookups_return.tidy
          (acceptsLookups_return.closesLookups (by decide) (.of_not_mem free))
          (wanted pair List.mem_cons_self) fresh
      · exact ih (fun other inside => wanted other (List.mem_cons_of_mem pair inside)) there
          fragment behind

theorem return_not_mem_rawAnew {config : Configuration} {raw : List Char}
    (assembled : compiler.rawAnew config = .ok raw) : '\r' ∉ raw := by
  obtain ⟨fragments, encoded, joined⟩ := bind_eq_ok assembled
  have tidy := tidy_fragmentsAnew made free (fun _ => configure_of_mem_wanted) encoded
  have still := read_assemble acceptsLookups_return.tidy (by decide) (.of_not_mem free) tidy joined
  rw [read_return] at still
  simpa [returnReader] using still

theorem return_not_mem_textAnew {config : Configuration} {text : List Char}
    (done : compiler.textAnew config = .ok text) : '\r' ∉ text := by
  obtain ⟨script, finishes, rfl⟩ := map_eq_ok done
  obtain ⟨raw, assembled, rfl⟩ := map_eq_ok finishes
  have clean : '\r' ∉ raw := by
    cases whole : compiler.rawAnew config with
    | error failure => rw [whole] at assembled; cases assembled
    | ok text =>
        rw [whole] at assembled
        obtain rfl := Except.ok.inj assembled
        exact return_not_mem_rawAnew made free whole
  unfold finished CompiledScript.text
  rw [(encode_of_make made).2.1]
  split
  · split
    · exact Shortening.return_not_mem_optimize .all clean
    · exact clean
  · split <;> exact clean

end Standard

end Compiler

/-! The file of a key. -/

theorem isFileName_of_key {domain key : String} {fields : Datum}
    (made : Fingerprint.key domain fields = .ok key) : IsFileName key := by
  have bare := bare_key made
  have noSlash : '/' ∉ key.toList := by
    intro member
    exact absurd (List.all_eq_true.mp bare '/' member) (by decide)
  unfold Fingerprint.key at made
  split at made
  · rename_i known
    obtain ⟨hex, -, rfl⟩ := map_eq_ok made
    simp only [Fingerprint.domains, List.contains_iff_mem, List.mem_cons, List.not_mem_nil,
      or_false] at known
    rcases known with rfl | rfl | rfl | rfl | rfl
    all_goals exact ⟨noSlash, by simp, by simp⟩
  · cases made

/-! The file tier. -/

namespace Compiler

def FilesAgree (compiler : Compiler) (isCompiled : Configuration → Prop) (disk : Disk) : Prop :=
  ∀ config, isCompiled config → ∀ key, compiler.scriptKey config = .ok key →
    ∀ content modified executable,
      disk.at? (disk.placeOf (compiler.cache.path key)) =
        some (.file content modified executable) →
      ∃ text, compiler.textAnew config = .ok text ∧ content = Fingerprint.utf8 text

section Files

variable {compiler : Compiler} {isCompiled : Configuration → Prop} {config : Configuration}
  {key : String} {text : List Char}

theorem FilesAgree.save (apart : compiler.KeysApart isCompiled) {disk : Disk}
    (agree : compiler.FilesAgree isCompiled disk) (compiled : isCompiled config)
    (keyed : compiler.scriptKey config = .ok key) (made : compiler.textAnew config = .ok text)
    (now : Float) :
    compiler.FilesAgree isCompiled
      (disk.save compiler.cache.directory key (Fingerprint.utf8 text) now).disk := by
  intro other asked otherKey keyedOther content modified executable found
  rw [Disk.placeOf_congr (disk.working_save _ _ _ _)] at found
  rcases disk.file_of_save _ _ _ _ _ _ _ _ found with ⟨place, rfl⟩ | before
  · have names := place
    rw [Cache.path, disk.placeOf_isFileName _ (isFileName_of_key keyedOther),
      disk.placeOf_isFileName _ (isFileName_of_key keyed)] at names
    have same : otherKey = key := by
      have chars := List.singleton_inj.mp (List.append_cancel_left names)
      exact String.toList_inj.mp chars
    subst same
    have fields := apart.scripts config other compiled asked _ keyed keyedOther
    exact ⟨text, by rw [← textAnew_congr fields]; exact made, rfl⟩
  · exact agree other asked otherKey keyedOther content modified executable before

theorem FilesAgree.readEntry {context : Context} {cache : Option Cache} {optimizes : Bool}
    (made : make context cache optimizes = .ok compiler)
    (free : '\r' ∉ compiler.context.settings.cacheDirectory.chars) {store : Store Fragment}
    (agree : compiler.FilesAgree isCompiled store.disk) (compiled : isCompiled config)
    (keyed : compiler.scriptKey config = .ok key) {ttl : Option Seconds}
    {entry : Entry Fragment}
    (read : compiler.cache.readEntry key ttl store = .ok (some entry)) :
    entry.key = key ∧ ∃ text, entry.value = .text text ∧ compiler.textAnew config = .ok text := by
  unfold Cache.readEntry at read
  split at read
  · cases read
  · cases read
  · cases read
  · rename_i content modified executable found
    obtain ⟨held, decoded, kept⟩ := map_eq_ok read
    obtain rfl := Option.some.inj kept
    have there := Disk.at?_of_stat _ _ _ found
    obtain ⟨text, compiles, rfl⟩ :=
      agree config compiled key keyed content modified executable there
    rw [Cache.textOfFile_utf8_of_free (return_not_mem_textAnew made free compiles)] at decoded
    obtain rfl := Except.ok.inj decoded
    exact ⟨rfl, text, rfl, compiles⟩

end Files

end Compiler

end StatusLine

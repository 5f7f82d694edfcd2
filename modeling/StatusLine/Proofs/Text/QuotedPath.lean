import StatusLine.Feature.Context
import StatusLine.Proofs.Text.Substring

/-!
Path names between double quotes. A path name below the home directory is written relative to the
home variable and any other one as it is, both escaped; so a shell that reads what is written comes
to the path name again, wherever the home directory is. Only below a root a slash is doubled.
-/

namespace StatusLine

namespace Text

/-- What a shell makes of the inside of a double-quoted string in which no variable but the home one
is active. -/
def expandInQuotes? (home : List Char) : List Char → Option (List Char)
  | '$' :: '\x7b' :: 'H' :: 'O' :: 'M' :: 'E' :: '\x7d' :: rest =>
      (expandInQuotes? home rest).map (home ++ ·)
  | '\\' :: c :: rest =>
      if isActiveInQuotes c then (expandInQuotes? home rest).map (c :: ·)
      else (expandInQuotes? home (c :: rest)).map ('\\' :: ·)
  | c :: rest =>
      if isActiveInQuotes c then none else (expandInQuotes? home rest).map (c :: ·)
  | [] => some []

/-- The text with one slash for every run of slashes. -/
def collapseSlashes : List Char → List Char
  | [] => []
  | c :: rest =>
      if c = '/' ∧ rest.head? = some '/' then collapseSlashes rest else c :: collapseSlashes rest

theorem collapseSlashes_doubled (rest : List Char) :
    collapseSlashes ('/' :: '/' :: rest) = collapseSlashes ('/' :: rest) := by
  rw [collapseSlashes, if_pos ⟨rfl, rfl⟩]

theorem expandInQuotes?_plain (home : List Char) {c : Char} (plain : isActiveInQuotes c = false)
    (rest : List Char) :
    expandInQuotes? home (c :: rest) = (expandInQuotes? home rest).map (c :: ·) := by
  conv_lhs => unfold expandInQuotes?
  split
  · next same => cases (List.cons.inj same).1 ▸ plain
  · next same => cases (List.cons.inj same).1 ▸ plain
  · next same =>
    obtain ⟨rfl, rfl⟩ := List.cons.inj same
    rw [plain]
    rfl
  · next same => cases same

theorem expandInQuotes?_escaped (home : List Char) {c : Char} (active : isActiveInQuotes c = true)
    (rest : List Char) :
    expandInQuotes? home ('\\' :: c :: rest) = (expandInQuotes? home rest).map (c :: ·) := by
  rw [expandInQuotes?, if_pos active]

theorem expandInQuotes?_escapeInQuotes (home text rest : List Char) :
    expandInQuotes? home (escapeInQuotes text ++ rest) =
      (expandInQuotes? home rest).map (text ++ ·) := by
  induction text with
  | nil => simp [escapeInQuotes]
  | cons c more ih =>
      simp only [escapeInQuotes, List.flatMap_cons, List.append_assoc] at ih ⊢
      cases active : isActiveInQuotes c with
      | true =>
          simp only [if_true, List.cons_append, List.nil_append]
          rw [expandInQuotes?_escaped home active, ih, Option.map_map]
          rfl
      | false =>
          simp only [Bool.false_eq_true, if_false, List.cons_append, List.nil_append]
          rw [expandInQuotes?_plain home active, ih, Option.map_map]
          rfl

theorem expandInQuotes?_escaped_only (home text : List Char) :
    expandInQuotes? home (escapeInQuotes text) = some text := by
  have whole := expandInQuotes?_escapeInQuotes home text []
  rwa [List.append_nil, expandInQuotes?, Option.map_some, List.append_nil] at whole

end Text

namespace PathName

open Text

theorem eq_of_below? {path base : PathName} {rest : List (List Char)}
    (below : path.below? base = some rest) : path = ⟨base.root, base.parts ++ rest⟩ := by
  unfold below? at below
  split at below
  · next same => rw [← same, ← eq_append_of_after? below]
  · cases below

theorem chars_of_absolute {path : PathName} (absolute : path.root ≠ .relative) :
    path.chars = path.root.text ++ joinWith ['/'] path.parts := by
  unfold chars
  split
  · next relative _ => exact absurd relative absolute
  · rfl

/-- A path name below a directory is that of the directory, a slash and the rest, save that a root
has its slash already. -/
theorem chars_below {base : PathName} (absolute : base.root ≠ .relative) {rest : List (List Char)}
    (nonempty : rest ≠ []) :
    let joined := base.chars ++ '/' :: joinWith ['/'] rest
    let whole := (⟨base.root, base.parts ++ rest⟩ : PathName).chars
    collapseSlashes joined = collapseSlashes whole ∧ (base.parts ≠ [] → joined = whole) := by
  intro joined whole
  have shape : whole = base.root.text ++ joinWith ['/'] (base.parts ++ rest) :=
    chars_of_absolute absolute
  have start : joined = base.root.text ++ joinWith ['/'] base.parts ++ '/' :: joinWith ['/'] rest :=
    congrArg (· ++ _) (chars_of_absolute absolute)
  by_cases isRoot : base.parts = []
  · refine ⟨?_, fun present => absurd isRoot present⟩
    rw [shape, start, isRoot]
    cases root : base.root with
    | relative => exact absurd root absolute
    | absolute => exact collapseSlashes_doubled _
    | doubled => exact collapseSlashes_doubled _
  · have same : joined = whole := by
      rw [shape, start, joinWith_append ['/'] isRoot nonempty]
      simp
    exact ⟨congrArg collapseSlashes same, fun _ => same⟩

theorem expand_shellText {base : PathName} (absolute : base.root ≠ .relative) (path : PathName) :
    ∃ read, expandInQuotes? base.chars (shellText base path) = some read ∧
      collapseSlashes read = collapseSlashes path.chars ∧
      (base.parts ≠ [] → read = path.chars) := by
  unfold shellText
  split
  · exact ⟨path.chars, expandInQuotes?_escaped_only _ _, rfl, fun _ => rfl⟩
  · next below =>
    have same : path = base := by simpa using eq_of_below? below
    refine ⟨base.chars, ?_, same ▸ rfl, fun _ => same ▸ rfl⟩
    change (some []).map (base.chars ++ ·) = _
    simp
  · next rest present below =>
    obtain ⟨collapsed, same⟩ := chars_below absolute present
    rw [← eq_of_below? below] at collapsed same
    refine ⟨base.chars ++ '/' :: joinWith ['/'] rest, ?_, collapsed, same⟩
    have slash : expandInQuotes? base.chars ('/' :: escapeInQuotes (joinWith ['/'] rest)) =
        Option.some ('/' :: joinWith ['/'] rest) := by
      rw [expandInQuotes?_plain _ (by decide), expandInQuotes?_escaped_only]
      rfl
    exact congrArg (Option.map (base.chars ++ ·)) slash

/-- A shell reads a path name that does not start with a tilde back from how it is written, up to
repeated slashes if the home directory is a root. -/
theorem quotedText_read_back {home : Option (List Char)} {given : Option PathName}
    {base path : PathName} (known : (given.orElse fun _ => homeDirectory? home) = some base)
    (absolute : base.root ≠ .relative) (noTilde : path.chars.head? ≠ some '~') :
    ∃ written read, path.quotedText home given = .ok written ∧
      expandInQuotes? base.chars written = some read ∧
      collapseSlashes read = collapseSlashes path.chars ∧
      (base.parts ≠ [] → read = path.chars) := by
  have stays : path.expandHome? home = some path := by
    unfold expandHome?
    split
    · next user rest root parts =>
      exact absurd (by simp [chars, root, parts, joinWith_cons_flatMap, PathRoot.text]) noTilde
    · rfl
  obtain ⟨read, same⟩ := expand_shellText absolute path
  refine ⟨shellText base path, read, ?_, same⟩
  unfold quotedText
  rw [known, stays]

theorem quotedText_read_back_from_home :
    let base := ofString "/home/slc"
    let path := ofString "/home/slc/a $x"
    (base.root ≠ .relative ∧ path.chars.head? ≠ some '~') ∧
      ∃ written read, path.quotedText none (some base) = .ok written ∧
        expandInQuotes? base.chars written = some read ∧
        collapseSlashes read = collapseSlashes path.chars ∧
        (base.parts ≠ [] → read = path.chars) :=
  ⟨⟨by decide, by decide⟩, quotedText_read_back rfl (by decide) (by decide)⟩

example : expandInQuotes? ['/'] (shellText (ofString "/") (ofString "/srv")) =
    some "//srv".toList := by decide

end PathName

end StatusLine

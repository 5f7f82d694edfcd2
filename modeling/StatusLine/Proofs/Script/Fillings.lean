import StatusLine.Proofs.Script.Outline
import StatusLine.Feature.Encoder

/-!
What fills the gaps: numbers, keys and labels are words, and the name of the cache directory is a
directory even where it is written relative to the home directory.
-/

namespace StatusLine.Script

/-! Numbers. -/

def isNumberPart (c : Char) : Bool :=
  Text.isAsciiDigit c || ['+', '-', '.', 'e', 'n', 'a', 'i', 'f'].contains c

theorem number_of_digit {c : Char} (digit : c.isDigit = true) : isNumberPart c = true := by
  have ascii : Text.isAsciiDigit c = true := by
    simp only [Char.isDigit, Bool.and_eq_true, decide_eq_true_eq] at digit
    simp only [Text.isAsciiDigit, Bool.and_eq_true, decide_eq_true_eq]
    exact ⟨digit.1, digit.2⟩
  simp [isNumberPart, ascii]

theorem number_ofNat (n : Nat) : (Text.ofNat n).all isNumberPart = true :=
  List.all_eq_true.mpr fun _ member =>
    number_of_digit (Nat.isDigit_of_mem_toDigits (by decide) (by decide) member)

theorem number_ofInt (n : Int) : (Text.ofInt n).all isNumberPart = true := by
  cases n with
  | ofNat n => exact number_ofNat n
  | negSucc n =>
      rw [Text.ofInt, List.all_cons, number_ofNat, Bool.and_true]
      decide

theorem number_normalDigits (d : Decimal.Digits) :
    (Decimal.normalDigits d).1.all isNumberPart = true := by
  refine List.all_eq_true.mpr fun c member => ?_
  have kept := (List.dropWhile_sublist _).subset (List.mem_reverse.mp member)
  exact List.all_eq_true.mp (number_ofNat d.digits) c (List.mem_reverse.mp kept)

theorem number_exponentText (layout : Decimal.Layout) (leading : Int) :
    (Decimal.exponentText layout leading).all isNumberPart = true := by
  have sign : (if leading < 0 then ['-'] else if layout.plusSign then ['+'] else []).all isNumberPart =
      true := by
    split
    · decide
    · split <;> decide
  have letter : isNumberPart 'e' = true := by decide
  have zero : isNumberPart '0' = true := by decide
  simp [Decimal.exponentText, Decimal.padLeft, sign, letter, zero, number_ofNat]

theorem number_magnitude (layout : Decimal.Layout) (d : Decimal.Digits) :
    (Decimal.magnitude layout d).all isNumberPart = true := by
  have digits := number_normalDigits d
  have dot : isNumberPart '.' = true := by decide
  have zero : isNumberPart '0' = true := by decide
  rw [Decimal.magnitude]
  generalize Decimal.normalDigits d = normal at digits ⊢
  obtain ⟨digits', leading⟩ := normal
  simp only at digits ⊢
  split
  · split
    · simp [dot, zero, digits]
    · have before : (digits'.take (leading.toNat + 1)).all isNumberPart = true :=
        List.all_eq_true.mpr fun c member =>
          List.all_eq_true.mp digits c (List.mem_of_mem_take member)
      have after : (digits'.drop (leading.toNat + 1)).all isNumberPart = true :=
        List.all_eq_true.mpr fun c member =>
          List.all_eq_true.mp digits c (List.mem_of_mem_drop member)
      split <;> simp [dot, zero, before, after]
  · split
    · rfl
    · rw [List.all_cons, Bool.and_eq_true] at digits
      split <;> simp [dot, digits, number_exponentText]

theorem number_decimal (x : Float) : (Decimal.text Decimal.plain x).all isNumberPart = true := by
  have minus : isNumberPart '-' = true := by decide
  have body (mantissa : Nat) (exponent : Int) :
      (if mantissa == 0 then "0.0".toList
        else Decimal.magnitude Decimal.plain (Decimal.shortest mantissa exponent)).all isNumberPart =
      true := by
    split
    · decide
    · exact number_magnitude _ _
  rw [Decimal.text]
  split
  · decide
  · split
    · decide
    · decide
  · rename_i negative mantissa exponent _
    simp only
    split
    · rw [List.all_cons, minus, body]
      rfl
    · exact body mantissa exponent

theorem bare_of_number {text : List Char} (number : text.all isNumberPart = true) :
    text.all isBare = true := by
  have marks : ∀ c ∈ ['+', '-', '.', 'e', 'n', 'a', 'i', 'f'], isBare c = true := by decide
  refine List.all_eq_true.mpr fun c member => ?_
  have part := List.all_eq_true.mp number c member
  rw [isNumberPart, Bool.or_eq_true] at part
  rcases part with digit | mark
  · simp [isBare, digit]
  · exact marks c (List.contains_iff_mem.mp mark)

theorem bare_ofInt (n : Int) : (Text.ofInt n).all isBare = true :=
  bare_of_number (number_ofInt n)

theorem bare_decimal (x : Float) : (Decimal.text Decimal.plain x).all isBare = true :=
  bare_of_number (number_decimal x)

/-! Keys. -/

theorem word_hexDigits (width n : Nat) : (Text.hexDigits width n).all isWordPart = true := by
  induction width generalizing n with
  | zero => rfl
  | succ width ih =>
      have digits : ∀ digit : Fin 16, isWordPart (Text.hexDigit digit) = true := by decide
      have last := digits ⟨n % 16, Nat.mod_lt n (by decide)⟩
      rw [Text.hexDigits, List.all_append, ih, List.all_cons, last]
      rfl

theorem word_key {domain key : String} {fields : Datum}
    (named : Fingerprint.key domain fields = .ok key) : key.toList.all isWordPart = true := by
  simp only [Fingerprint.key] at named
  split at named
  · rename_i known
    have word : domain.toList.all isWordPart = true := by
      simp only [Fingerprint.domains, List.contains_iff_mem, List.mem_cons, List.not_mem_nil,
        or_false] at known
      rcases known with rfl | rfl | rfl | rfl | rfl <;> decide
    cases digest : Fingerprint.digest fields with
    | error failure => simp [digest, Except.map] at named
    | ok hex =>
        have digits : hex.toList.all isWordPart = true := by
          cases encoded : fields.canonicalText with
          | error failure => simp [Fingerprint.digest, encoded, Except.map] at digest
          | ok text =>
              simp only [Fingerprint.digest, encoded, Except.map, Except.ok.injEq] at digest
              subst digest
              rw [String.toList_ofList, Sha256.digest, List.all_flatMap]
              exact List.all_eq_true.mpr fun word _ => word_hexDigits 8 word.toNat
        simp only [digest, Except.map, Except.ok.injEq] at named
        subst named
        simp only [String.toList_append, List.all_append, word, digits]
        decide
  · simp at named

theorem bare_key {domain key : String} {fields : Datum}
    (named : Fingerprint.key domain fields = .ok key) : key.toList.all isBare = true := by
  have word : Filling.word.Accepts none key.toList := word_key named
  exact word.asBare

/-! Directories. -/

theorem mem_joinWith {separator : List Char} {parts : List (List Char)} {c : Char}
    (member : c ∈ Text.joinWith separator parts) : c ∈ separator ∨ ∃ part ∈ parts, c ∈ part := by
  cases parts with
  | nil => simp [Text.joinWith] at member
  | cons part rest =>
      rw [Text.joinWith_cons_flatMap, List.mem_append, List.mem_flatMap] at member
      rcases member with here | ⟨other, inside, later⟩
      · exact .inr ⟨part, List.mem_cons_self, here⟩
      · rcases List.mem_append.mp later with between | there
        · exact .inl between
        · exact .inr ⟨other, List.mem_cons_of_mem part inside, there⟩

theorem mem_joinWith_of_mem {separator : List Char} {parts : List (List Char)} {part : List Char}
    (inside : part ∈ parts) {c : Char} (member : c ∈ part) :
    c ∈ Text.joinWith separator parts := by
  cases parts with
  | nil => simp at inside
  | cons first rest =>
      rw [Text.joinWith_cons_flatMap, List.mem_append, List.mem_flatMap]
      rcases List.mem_cons.mp inside with rfl | later
      · exact .inl member
      · exact .inr ⟨part, later, List.mem_append_right _ member⟩

theorem mem_chars_of_mem {path : PathName} {part : List Char} (inside : part ∈ path.parts)
    {c : Char} (member : c ∈ part) : c ∈ path.chars := by
  simp only [PathName.chars]
  split
  · rename_i none
    simp [none] at inside
  · exact List.mem_append_right _ (mem_joinWith_of_mem inside member)

theorem accepts_shellText {barred : Option Char} (slash : barred ≠ some '/') {base path : PathName}
    (free : ∀ rest, path.below? base = some rest → ∀ part ∈ rest, Free barred part)
    (whole : path.below? base = none → Free barred path.chars) :
    Filling.directory.Accepts barred (PathName.shellText base path) := by
  simp only [PathName.shellText]
  split
  · rename_i outside
    exact ⟨[], path.chars, by simp, whole outside, rfl⟩
  · exact ⟨_, [], .tail _ (.head _), .nil barred, by simp [Text.escapeInQuotes]⟩
  · rename_i rest _ below
    refine ⟨_, _, .tail _ (.tail _ (.head _)), fun bad barring member => ?_, rfl⟩
    rcases mem_joinWith member with same | ⟨part, inside, here⟩
    · exact slash (List.mem_singleton.mp same ▸ barring)
    · exact free rest below part inside bad barring here

theorem expandHome?_cases {home : Option (List Char)} {path base expanded : PathName}
    (known : PathName.homeDirectory? home = some base)
    (expansion : path.expandHome? home = some expanded) :
    expanded = path ∨ ∃ part rest, path.parts = part :: rest ∧ expanded.below? base = some rest := by
  simp only [PathName.expandHome?] at expansion
  split at expansion
  · rename_i user rest _ parts
    split at expansion
    · rw [known, Option.map_some, Option.some.injEq] at expansion
      subst expansion
      exact .inr ⟨_, rest, parts, by simp [PathName.below?, Text.after?_append]⟩
    · simp at expansion
  · exact .inl (Option.some.inj expansion).symm

theorem accepts_cacheDirectory {barred : Option Char} (slash : barred ≠ some '/') {context : Context}
    (free : Free barred context.settings.cacheDirectory.chars) {directory : List Char}
    (named : context.cacheDirectory = .ok directory) :
    Filling.directory.Accepts barred directory := by
  simp only [Context.cacheDirectory, PathName.quotedText, Option.orElse_none] at named
  have parts : ∀ part ∈ context.settings.cacheDirectory.parts, Free barred part :=
    fun part inside bad barring member => free bad barring (mem_chars_of_mem inside member)
  split at named
  · rename_i base expanded known expansion
    obtain rfl := Except.ok.inj named
    rcases expandHome?_cases known expansion with rfl | ⟨part, rest, shape, below⟩
    · refine accepts_shellText slash (fun rest below part inside => ?_) fun _ => free
      simp only [PathName.below?] at below
      split at below
      · refine parts part ?_
        rw [Text.eq_append_of_after? below]
        exact List.mem_append_right _ inside
      · simp at below
    · refine accepts_shellText slash (fun others found part inside => ?_) fun outside => ?_
      · obtain rfl : rest = others := Option.some.inj (below.symm.trans found)
        exact parts part (by simp [shape, inside])
      · simp [below] at outside
  · simp at named

theorem fits_cacheFile {barred : Option Char} (slash : barred ≠ some '/') {context : Context}
    (free : Free barred context.settings.cacheDirectory.chars) {domain : String} {fields : Datum}
    {file : List Char} (named : context.cacheFile domain fields = .ok file) :
    Fits barred [.directory, .bare] file := by
  simp only [Context.cacheFile] at named
  split at named
  · simp at named
  · rename_i directory known
    cases keyed : Fingerprint.key domain fields with
    | error failure => simp [keyed, Except.map] at named
    | ok key =>
        simp only [keyed, Except.map, Except.ok.injEq] at named
        exact ⟨directory, key.toList, accepts_cacheDirectory slash free known, bare_key keyed,
          named.symm⟩

end StatusLine.Script

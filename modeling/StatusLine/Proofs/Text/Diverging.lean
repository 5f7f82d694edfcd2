import StatusLine.Feature.Context
import StatusLine.Proofs.Text.Substring

/-!
Texts that diverge: behind a common start both go on, in the same line, and not alike. They still do
when they are put between other texts, trimmed, indented or joined, so that whatever is assembled
from them differs too.
-/

namespace StatusLine.Text

/-! Texts that are not blank. -/

theorem exists_trimNewlines (lead : List Char) {c : Char} (rest : List Char) (inLine : c ≠ '\n') :
    ∃ tail, trimWhere (· == '\n') (lead ++ c :: rest) =
      lead.dropWhile (· == '\n') ++ c :: tail := by
  have inside : (c == '\n') = false := by simpa using inLine
  have dropped : (lead ++ c :: rest).dropWhile (· == '\n') =
      lead.dropWhile (· == '\n') ++ c :: rest := by
    rw [List.dropWhile_append]
    split
    · rename_i empty
      simp [List.isEmpty_iff.mp empty, inside]
    · rfl
  rw [trimWhere, dropped]
  exact @trimEndWhere_keeps (· == '\n') c inside _ rest

theorem solid_append {lead : List Char} (solid : isBlankLine lead = false) (rest : List Char) :
    isBlankLine (lead ++ rest) = false := by
  rw [isBlankLine] at solid ⊢
  rw [List.all_append, solid, Bool.false_and]

theorem solid_prepend {rest : List Char} (solid : isBlankLine rest = false) (lead : List Char) :
    isBlankLine (lead ++ rest) = false := by
  rw [isBlankLine] at solid ⊢
  rw [List.all_append, solid, Bool.and_false]

theorem solid_trimNewlines {text : List Char} (solid : isBlankLine text = false) :
    isBlankLine (trimWhere (· == '\n') text) = false := by
  obtain ⟨c, member, visible⟩ := List.all_eq_false.mp solid
  obtain ⟨lead, rest, rfl⟩ := List.append_of_mem member
  have inLine : c ≠ '\n' := by
    rintro rfl
    exact visible (by decide)
  obtain ⟨tail, shape⟩ := exists_trimNewlines lead rest inLine
  rw [shape]
  exact solid_prepend (List.all_eq_false.mpr ⟨c, List.mem_cons_self, visible⟩) _

theorem solid_joinWith {texts : List (List Char)} {text : List Char} (member : text ∈ texts)
    (solid : isBlankLine text = false) (separator : List Char) :
    isBlankLine (joinWith separator texts) = false := by
  have inside : text <:+: joinWith separator texts := infix_joinWith member
  obtain ⟨before, behind, whole⟩ := inside
  rw [← whole, List.append_assoc]
  exact solid_prepend (solid_append solid behind) before

theorem solid_joinLines {texts : List (List Char)} {text : List Char} (member : text ∈ texts)
    (solid : isBlankLine text = false) : isBlankLine (joinLines texts) = false :=
  solid_joinWith member solid ['\n']

theorem solid_guarded (condition : String) (body : List Char) :
    isBlankLine (guarded condition body) = false := by
  have start : isBlankLine "if ".toList = false := by decide
  exact solid_joinLines List.mem_cons_self (solid_append (solid_append start _) _)

def Diverge (first second : List Char) : Prop :=
  ∃ lead c d rest behind, c ≠ d ∧ c ≠ '\n' ∧ d ≠ '\n' ∧ first = lead ++ c :: rest ∧
    second = lead ++ d :: behind

def goApart : List Char → List Char → Bool
  | c :: rest, d :: behind => if c = d then goApart rest behind else c != '\n' && d != '\n'
  | _, _ => false

def indentBehind (blanks text : List Char) : List Char :=
  match splitLines text with
  | [] => []
  | line :: rest =>
      joinLines (line :: rest.map fun line => if line.isEmpty then line else blanks ++ line)

section Indentation

variable (blanks : List Char)

theorem indent_newline (rest : List Char) :
    indent blanks ('\n' :: rest) = '\n' :: indent blanks rest := by
  obtain ⟨line, others, shape⟩ := List.exists_cons_of_ne_nil (splitLines_ne_nil rest)
  simp [indent, splitLines, shape, joinLines_cons]

theorem indentBehind_newline (rest : List Char) :
    indentBehind blanks ('\n' :: rest) = '\n' :: indent blanks rest := by
  obtain ⟨line, others, shape⟩ := List.exists_cons_of_ne_nil (splitLines_ne_nil rest)
  simp [indent, indentBehind, splitLines, shape, joinLines_cons]

variable {c : Char} (inLine : c ≠ '\n')

include inLine

theorem indent_cons (rest : List Char) :
    indent blanks (c :: rest) = blanks ++ c :: indentBehind blanks rest := by
  obtain ⟨line, others, shape⟩ := List.exists_cons_of_ne_nil (splitLines_ne_nil rest)
  simp [indent, indentBehind, splitLines, inLine, shape, joinLines_cons]

theorem indentBehind_cons (rest : List Char) :
    indentBehind blanks (c :: rest) = c :: indentBehind blanks rest := by
  obtain ⟨line, others, shape⟩ := List.exists_cons_of_ne_nil (splitLines_ne_nil rest)
  simp [indentBehind, splitLines, inLine, shape, joinLines_cons]

end Indentation

namespace Diverge

variable {first second : List Char}

theorem of_ne {c d : Char} (different : c ≠ d) (inLine : c ≠ '\n') (inLineThere : d ≠ '\n')
    (rest behind : List Char) : Diverge (c :: rest) (d :: behind) :=
  ⟨[], c, d, rest, behind, different, inLine, inLineThere, rfl, rfl⟩

theorem symm (diverge : Diverge first second) : Diverge second first := by
  obtain ⟨lead, c, d, rest, behind, different, here, there, rfl, rfl⟩ := diverge
  exact ⟨lead, d, c, behind, rest, different.symm, there, here, rfl, rfl⟩

theorem ne (diverge : Diverge first second) : first ≠ second := by
  obtain ⟨lead, c, d, rest, behind, different, -, -, rfl, rfl⟩ := diverge
  intro same
  exact different (List.cons.inj (List.append_cancel_left same)).1

theorem append (diverge : Diverge first second) (more others : List Char) :
    Diverge (first ++ more) (second ++ others) := by
  obtain ⟨lead, c, d, rest, behind, different, here, there, rfl, rfl⟩ := diverge
  exact ⟨lead, c, d, rest ++ more, behind ++ others, different, here, there, by simp, by simp⟩

theorem prepend (diverge : Diverge first second) (start : List Char) :
    Diverge (start ++ first) (start ++ second) := by
  obtain ⟨lead, c, d, rest, behind, different, here, there, rfl, rfl⟩ := diverge
  exact ⟨start ++ lead, c, d, rest, behind, different, here, there, by simp, by simp⟩

theorem cons (diverge : Diverge first second) (c : Char) : Diverge (c :: first) (c :: second) :=
  diverge.prepend [c]

theorem joinWith (diverge : Diverge first second) (separator : List Char)
    (rest behind : List (List Char)) :
    Diverge (joinWith separator (first :: rest)) (joinWith separator (second :: behind)) := by
  rw [joinWith_cons_flatMap, joinWith_cons_flatMap]
  exact diverge.append _ _

theorem joinWith_behind (diverge : Diverge first second) (separator : List Char)
    (common rest behind : List (List Char)) :
    Diverge (Text.joinWith separator (common ++ first :: rest))
      (Text.joinWith separator (common ++ second :: behind)) := by
  induction common with
  | nil => exact diverge.joinWith separator rest behind
  | cons piece more ih =>
      cases more with
      | nil =>
          simp only [List.cons_append, List.nil_append, joinWith_cons_cons] at ih ⊢
          exact ih.prepend _
      | cons next others =>
          simp only [List.cons_append, joinWith_cons_cons] at ih ⊢
          exact ih.prepend _

theorem of_goApart (apart : goApart first second = true) : Diverge first second := by
  fun_induction goApart first second with
  | case1 rest c behind ih => exact (ih apart).cons c
  | case2 c rest d behind different =>
      simp only [Bool.and_eq_true, bne_iff_ne, ne_eq] at apart
      exact of_ne different apart.1 apart.2 rest behind
  | case3 => cases apart

theorem joinWith_common {texts others : List (List Char)} {separator : List Char}
    (diverge : Diverge (Text.joinWith separator texts) (Text.joinWith separator others))
    (common : List (List Char)) :
    Diverge (Text.joinWith separator (common ++ texts))
      (Text.joinWith separator (common ++ others)) := by
  have nothing : Text.joinWith separator [] = [] := rfl
  have present : texts ≠ [] := by
    rintro rfl
    obtain ⟨lead, c, d, rest, behind, -, -, -, empty, -⟩ := diverge
    simp [nothing] at empty
  have presentThere : others ≠ [] := by
    rintro rfl
    obtain ⟨lead, c, d, rest, behind, -, -, -, -, empty⟩ := diverge
    simp [nothing] at empty
  induction common with
  | nil => exact diverge
  | cons piece more ih =>
      obtain ⟨first, rest, shape⟩ := List.exists_cons_of_ne_nil
        (List.append_ne_nil_of_right_ne_nil more present)
      obtain ⟨next, behind, shapeThere⟩ := List.exists_cons_of_ne_nil
        (List.append_ne_nil_of_right_ne_nil more presentThere)
      rw [List.cons_append, List.cons_append, shape, shapeThere, joinWith_cons_cons,
        joinWith_cons_cons, ← shape, ← shapeThere]
      exact ih.prepend _

theorem of_runs {accepts : Char → Bool} (newline : accepts '\n' = false) {stop : Char}
    (stops : accepts stop = false) (inLine : stop ≠ '\n') {run other : List Char}
    (here : ∀ c ∈ run, accepts c = true) (there : ∀ c ∈ other, accepts c = true)
    (different : run ≠ other) (rest behind : List Char) :
    Diverge (run ++ stop :: rest) (other ++ stop :: behind) := by
  have visible : ∀ c, accepts c = true → c ≠ '\n' ∧ c ≠ stop := by
    intro c accepted
    constructor <;> rintro rfl <;> simp [accepted] at newline stops
  induction run generalizing other with
  | nil =>
      cases other with
      | nil => exact absurd rfl different
      | cons d more =>
          obtain ⟨inLineThere, apart⟩ := visible d (there d List.mem_cons_self)
          exact of_ne apart.symm inLine inLineThere _ _
  | cons c rest ih =>
      obtain ⟨inLineHere, apart⟩ := visible c (here c List.mem_cons_self)
      cases other with
      | nil => exact of_ne apart inLineHere inLine _ _
      | cons d more =>
          by_cases same : c = d
          · subst same
            refine (ih (fun e member => here e (List.mem_cons_of_mem c member))
              (fun e member => there e (List.mem_cons_of_mem c member)) ?_).cons c
            exact fun equal => different (congrArg (c :: ·) equal)
          · exact of_ne same inLineHere (visible d (there d List.mem_cons_self)).1 _ _

theorem trimNewlines (diverge : Diverge first second) :
    Diverge (trimWhere (· == '\n') first) (trimWhere (· == '\n') second) := by
  obtain ⟨lead, c, d, rest, behind, different, here, there, rfl, rfl⟩ := diverge
  obtain ⟨tail, shape⟩ := exists_trimNewlines lead rest here
  obtain ⟨other, shapeThere⟩ := exists_trimNewlines lead behind there
  exact ⟨_, c, d, tail, other, different, here, there, shape, shapeThere⟩

theorem indent (diverge : Diverge first second) (blanks : List Char) :
    Diverge (indent blanks first) (Text.indent blanks second) := by
  obtain ⟨lead, c, d, rest, behind, different, here, there, rfl, rfl⟩ := diverge
  -- Within a line the induction goes on with what is indented behind its start.
  have both : Diverge (Text.indent blanks (lead ++ c :: rest)) (Text.indent blanks (lead ++ d :: behind)) ∧
      Diverge (indentBehind blanks (lead ++ c :: rest)) (indentBehind blanks (lead ++ d :: behind)) := by
    induction lead with
    | nil =>
        simp only [List.nil_append, indent_cons blanks here, indent_cons blanks there,
          indentBehind_cons blanks here, indentBehind_cons blanks there]
        exact ⟨(of_ne different here there _ _).prepend blanks, of_ne different here there _ _⟩
    | cons e more ih =>
        by_cases newline : e = '\n'
        · subst newline
          simp only [List.cons_append, indent_newline, indentBehind_newline]
          exact ⟨ih.1.cons _, ih.1.cons _⟩
        · simp only [List.cons_append, indent_cons blanks newline, indentBehind_cons blanks newline]
          exact ⟨(ih.2.cons e).prepend blanks, ih.2.cons e⟩
  exact both.1

theorem guarded (diverge : Diverge first second) (condition : String) :
    Diverge (guarded condition first) (StatusLine.guarded condition second) :=
  (diverge.indent [' ', ' ']).joinWith_behind ['\n'] [_] [_] [_]

theorem chosen (diverge : Diverge first second) (condition : String) (no other : List Char) :
    Diverge (chosen condition first no) (StatusLine.chosen condition second other) :=
  (diverge.indent [' ', ' ']).joinWith_behind ['\n'] [_] _ _

end Diverge

/-! Texts that tell. -/

def Tells (shown : Prop) (first second : List Char) : Prop :=
  (shown → first = second) ∧ (¬ shown → Diverge first second)

namespace Tells

variable {shown behind : Prop} {first second more others : List Char}

theorem refl (text : List Char) : Tells True text text :=
  ⟨fun _ => rfl, fun never => absurd trivial never⟩

theorem congr (tells : Tells shown first second) (same : behind ↔ shown) :
    Tells behind first second := by
  rwa [propext same]

theorem eq_iff (tells : Tells shown first second) : first = second ↔ shown := by
  refine ⟨fun same => ?_, tells.1⟩
  by_contra hidden
  exact (tells.2 hidden).ne same

theorem map {change : List Char → List Char} (tells : Tells shown first second)
    (keeps : Diverge first second → Diverge (change first) (change second)) :
    Tells shown (change first) (change second) :=
  ⟨fun holds => congrArg change (tells.1 holds), fun hidden => keeps (tells.2 hidden)⟩

theorem prepend (tells : Tells shown first second) (start : List Char) :
    Tells shown (start ++ first) (start ++ second) :=
  tells.map fun diverge => diverge.prepend start

theorem append_same (tells : Tells shown first second) (text : List Char) :
    Tells shown (first ++ text) (second ++ text) :=
  ⟨fun holds => by rw [tells.1 holds], fun hidden => (tells.2 hidden).append text text⟩

theorem cons (tells : Tells shown first second) (c : Char) :
    Tells shown (c :: first) (c :: second) :=
  tells.map fun diverge => diverge.cons c

theorem trimNewlines (tells : Tells shown first second) :
    Tells shown (trimWhere (· == '\n') first) (trimWhere (· == '\n') second) :=
  tells.map Diverge.trimNewlines

theorem guarded (tells : Tells shown first second) (condition : String) :
    Tells shown (guarded condition first) (StatusLine.guarded condition second) :=
  tells.map fun diverge => diverge.guarded condition

theorem chosen (tells : Tells shown first second) (tellsBehind : Tells behind more others)
    (condition : String) : Tells (shown ∧ behind) (chosen condition first more)
      (StatusLine.chosen condition second others) := by
  refine ⟨fun holds => by rw [tells.1 holds.1, tellsBehind.1 holds.2], fun hidden => ?_⟩
  by_cases here : shown
  · rw [tells.1 here]
    have diverge := tellsBehind.2 fun there => hidden ⟨here, there⟩
    exact (diverge.indent [' ', ' ']).joinWith_behind ['\n'] [_, _, _] [_] [_]
  · exact (tells.2 here).chosen condition more others

theorem run {accepts : Char → Bool} (newline : accepts '\n' = false) {stop : Char}
    (stops : accepts stop = false) (inLine : stop ≠ '\n')
    (here : ∀ c ∈ first, accepts c = true) (there : ∀ c ∈ second, accepts c = true)
    (tellsBehind : Tells behind more others) :
    Tells (first = second ∧ behind) (first ++ stop :: more) (second ++ stop :: others) := by
  refine ⟨fun holds => by rw [holds.1, tellsBehind.1 holds.2], fun hidden => ?_⟩
  by_cases same : first = second
  · subst same
    exact ((tellsBehind.2 fun holds => hidden ⟨rfl, holds⟩).cons stop).prepend first
  · exact .of_runs newline stops inLine here there same more others

end Tells

/-! Lists of texts. -/

/-- Both lists go on with texts that diverge behind a common start. Neither text is blank, so that
they are kept where blank ones are left out. -/
def DivergeFirst (texts others : List (List Char)) : Prop :=
  ∃ common first second rest behind, Diverge first second ∧ isBlankLine first = false ∧
    isBlankLine second = false ∧ texts = common ++ first :: rest ∧ others = common ++ second :: behind

def TellsEach (shown : Prop) (texts others : List (List Char)) : Prop :=
  (shown → texts = others) ∧ (¬ shown → DivergeFirst texts others)

abbrev Shows (shown : Prop) (first second : List Char) : Prop :=
  TellsEach shown [first] [second]

namespace DivergeFirst

variable {texts others : List (List Char)}

theorem symm (diverge : DivergeFirst texts others) : DivergeFirst others texts := by
  obtain ⟨common, first, second, rest, left, apart, solid, solidThere, rfl, rfl⟩ := diverge
  exact ⟨common, second, first, left, rest, apart.symm, solidThere, solid, rfl, rfl⟩

theorem append (diverge : DivergeFirst texts others) (more behind : List (List Char)) :
    DivergeFirst (texts ++ more) (others ++ behind) := by
  obtain ⟨common, first, second, rest, left, apart, solid, solidThere, rfl, rfl⟩ := diverge
  exact ⟨common, first, second, rest ++ more, left ++ behind, apart, solid, solidThere, by simp,
    by simp⟩

theorem prepend (diverge : DivergeFirst texts others) (start : List (List Char)) :
    DivergeFirst (start ++ texts) (start ++ others) := by
  obtain ⟨common, first, second, rest, left, apart, solid, solidThere, rfl, rfl⟩ := diverge
  exact ⟨start ++ common, first, second, rest, left, apart, solid, solidThere, by simp, by simp⟩

theorem joinWith_filter (diverge : DivergeFirst texts others) (keeps : List Char → Bool)
    (solid : ∀ text, isBlankLine text = false → keeps text = true)
    (change : List Char → List Char)
    (still : ∀ first second, Diverge first second → Diverge (change first) (change second))
    (separator : List Char) :
    Diverge (joinWith separator ((texts.filter keeps).map change))
      (joinWith separator ((others.filter keeps).map change)) := by
  obtain ⟨common, first, second, rest, left, apart, here, there, rfl, rfl⟩ := diverge
  simp only [List.filter_append, List.filter_cons, solid first here, solid second there, if_true,
    List.map_append, List.map_cons]
  exact (still first second apart).joinWith_behind separator _ _ _

end DivergeFirst

namespace TellsEach

variable {shown behind : Prop} {texts others more left : List (List Char)}

theorem refl (texts : List (List Char)) : TellsEach True texts texts :=
  ⟨fun _ => rfl, fun never => absurd trivial never⟩

theorem congr (tells : TellsEach shown texts others) (same : behind ↔ shown) :
    TellsEach behind texts others := by
  rwa [propext same]

theorem single {first second : List Char} (tells : Tells shown first second)
    (solid : isBlankLine first = false) (solidThere : isBlankLine second = false) :
    TellsEach shown [first] [second] :=
  ⟨fun holds => by rw [tells.1 holds],
    fun hidden => ⟨[], first, second, [], [], tells.2 hidden, solid, solidThere, rfl, rfl⟩⟩

theorem append (tells : TellsEach shown texts others) (tellsBehind : TellsEach behind more left) :
    TellsEach (shown ∧ behind) (texts ++ more) (others ++ left) := by
  refine ⟨fun holds => by rw [tells.1 holds.1, tellsBehind.1 holds.2], fun hidden => ?_⟩
  by_cases here : shown
  · rw [tells.1 here]
    exact (tellsBehind.2 fun there => hidden ⟨here, there⟩).prepend _
  · exact (tells.2 here).append _ _

theorem prepend (tells : TellsEach shown texts others) (start : List (List Char)) :
    TellsEach shown (start ++ texts) (start ++ others) :=
  ⟨fun holds => by rw [tells.1 holds], fun hidden => (tells.2 hidden).prepend start⟩

theorem cons (tells : TellsEach shown texts others) (text : List Char) :
    TellsEach shown (text :: texts) (text :: others) :=
  tells.prepend [text]

theorem joinWith_filter (tells : TellsEach shown texts others) (keeps : List Char → Bool)
    (solid : ∀ text, isBlankLine text = false → keeps text = true)
    (change : List Char → List Char)
    (still : ∀ first second, Diverge first second → Diverge (change first) (change second))
    (separator : List Char) :
    Tells shown (joinWith separator ((texts.filter keeps).map change))
      (joinWith separator ((others.filter keeps).map change)) :=
  ⟨fun holds => by rw [tells.1 holds],
    fun hidden => (tells.2 hidden).joinWith_filter keeps solid change still separator⟩

theorem joinedLines (tells : TellsEach shown texts others) :
    TellsEach shown [Text.joinLines texts] [Text.joinLines others] := by
  refine ⟨fun holds => by rw [tells.1 holds], fun hidden => ?_⟩
  obtain ⟨common, first, second, rest, left, apart, solid, solidThere, rfl, rfl⟩ := tells.2 hidden
  exact ⟨[], _, _, [], [], apart.joinWith_behind ['\n'] common rest left,
    solid_joinLines (by simp) solid, solid_joinLines (by simp) solidThere, rfl, rfl⟩

end TellsEach

end StatusLine.Text

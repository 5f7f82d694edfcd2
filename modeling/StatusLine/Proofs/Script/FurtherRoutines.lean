import StatusLine.Proofs.Script.ShownParts

/-!
A script with a further fragment for usage. It defines all the routines of the script without that
fragment and perhaps more, and behind them the two go on with parts that start differently. Each
fragment has the name of its encoder, and what it adds to the setup and to the lookups starts with a
heading of its own.
-/

namespace StatusLine.Script

open Text

/-! Filtering by two tests. -/

/-- What passes a test and what passes a stricter one are the same as far as the first element that
only the former has. -/
theorem filter_cases {α : Type} {apart : α → α → Prop} {items : List α} {passes strict : α → Bool}
    (distinct : items.Pairwise apart) (stricter : ∀ item, strict item = true → passes item = true) :
    items.filter passes = items.filter strict ∨
      ∃ common first rest behind, items.filter passes = common ++ first :: rest ∧
        items.filter strict = common ++ behind ∧ ∀ other ∈ behind, apart first other := by
  induction items with
  | nil => exact .inl rfl
  | cons item rest ih =>
      obtain ⟨here, later⟩ := List.pairwise_cons.mp distinct
      cases kept : strict item with
      | true =>
          rw [List.filter_cons_of_pos (stricter item kept), List.filter_cons_of_pos kept]
          rcases ih later with same | ⟨common, first, more, behind, longer, shorter, each⟩
          · exact .inl (by rw [same])
          · exact .inr ⟨item :: common, first, more, behind, by rw [longer, List.cons_append],
              by rw [shorter, List.cons_append], each⟩
      | false =>
          have dropped : ¬ strict item = true := by simp [kept]
          rw [List.filter_cons_of_neg dropped]
          cases passed : passes item with
          | false =>
              rw [List.filter_cons_of_neg (by simp [passed])]
              exact ih later
          | true =>
              rw [List.filter_cons_of_pos passed]
              exact .inr ⟨[], item, _, _, rfl, rfl, fun other member =>
                here other (List.mem_of_mem_filter member)⟩

/-! Parts that are kept. -/

/-- The parts that are not blank, trimmed. -/
def kept (parts : List (List Char)) : List (List Char) :=
  (parts.filter fun part => !isBlankLine part).map (trimWhere (· == '\n'))

theorem kept_append (parts others : List (List Char)) :
    kept (parts ++ others) = kept parts ++ kept others := by
  simp only [kept, List.filter_append, List.map_append]

theorem kept_cons {part : List Char} (solid : isBlankLine part = false)
    (parts : List (List Char)) : kept (part :: parts) = trimWhere (· == '\n') part :: kept parts := by
  simp only [kept, List.filter_cons, solid, Bool.not_false, if_true, List.map_cons]

theorem join_eq (parts : List (List Char)) :
    join parts = joinWith ['\n', '\n'] (kept parts) ++ ['\n'] :=
  rfl

/-- Of parts that are blank or start with one of some texts, the first that is kept differs from
whatever none of them starts like. -/
theorem exists_kept {starts : List String} {parts : List (List Char)}
    (each : ∀ part ∈ parts, isBlankLine part = true ∨ ∃ start ∈ starts, start.toList <+: part)
    (some : ∃ part ∈ parts, isBlankLine part = false) :
    ∃ first rest, kept parts = first :: rest ∧ ∀ lead text : List Char, lead <+: text →
      (∀ start ∈ starts, goApart lead start.toList = true) →
        Diverge (trimWhere (· == '\n') text) first := by
  obtain ⟨part, member, visible⟩ := some
  have inside : part ∈ parts.filter fun part => !isBlankLine part :=
    List.mem_filter.mpr ⟨member, by simp [visible]⟩
  obtain ⟨first, rest, shape⟩ := List.exists_cons_of_ne_nil (List.ne_nil_of_mem inside)
  have firstKept := List.mem_filter.mp (shape ▸ List.mem_cons_self : first ∈ parts.filter _)
  refine ⟨trimWhere (· == '\n') first, rest.map _, by rw [kept, shape, List.map_cons], ?_⟩
  rcases each first firstKept.1 with blank | ⟨start, known, leads⟩
  · simp [blank] at firstKept
  · rintro lead _ ⟨more, rfl⟩ apart
    obtain ⟨behind, rfl⟩ := leads
    exact ((Diverge.of_goApart (apart start known)).append more behind).trimNewlines

theorem trimNewlines_of_ends {text : List Char} {c : Char} (starts : text.head? ≠ some '\n')
    (ends : [c] <:+ text) (inLine : c ≠ '\n') : trimWhere (· == '\n') text = text := by
  have front : text.dropWhile (· == '\n') = text := by
    cases text with
    | nil => rfl
    | cons d rest =>
        have other : d ≠ '\n' := fun same => starts (congrArg some same)
        exact List.dropWhile_cons_of_neg (by simpa using other)
  obtain ⟨lead, rfl⟩ := ends
  simp [trimWhere, trimEndWhere, front, inLine]

/-! Routines. -/

theorem suffix_join (separator : String) {rows : List String} {last : String}
    (ends : rows.getLast? = some last) : last.toList <:+ (Names.join separator rows).toList := by
  fun_induction Names.join separator rows with
  | case1 => cases ends
  | case2 row =>
      obtain rfl := Option.some.inj ends
      exact List.suffix_refl _
  | case3 row rest more ih =>
      rw [String.toList_append]
      refine (ih ?_).trans (List.suffix_append _ _)
      cases rest with
      | nil => exact absurd rfl more
      | cons next others => rwa [List.getLast?_cons_cons] at ends

structure IsDefinition (routine : Routine) : Prop where
  start : routine.name.toList ++ "()".toList <+: routine.body.toList
  closing : ['\x7d'] <:+ routine.body.toList
  trimmed : trimWhere (· == '\n') routine.body.toList = routine.body.toList

theorem isDefinition_join {name first : String} {rows dependencies : List String}
    (named : name.toList ++ "()".toList <+: first.toList)
    (inLine : first.toList.head?.all (· == '\n') = false)
    (ends : (first :: rows).getLast? = some "\x7d") :
    IsDefinition ⟨name, Names.join "\n" (first :: rows), dependencies⟩ := by
  obtain ⟨more, body⟩ := exists_toList_join "\n" first rows
  have closing := suffix_join "\n" ends
  refine ⟨body ▸ named.trans (List.prefix_append _ _), closing, ?_⟩
  refine trimNewlines_of_ends ?_ closing (by decide)
  show (Names.join "\n" (first :: rows)).toList.head? ≠ some '\n'
  rw [body]
  cases shape : first.toList with
  | nil => simp [shape] at inLine
  | cons c rest => simpa [shape] using inLine

theorem isDefinition_of_mem : ∀ routine ∈ Routine.all, IsDefinition routine := by
  intro routine member
  simp only [Routine.all, List.mem_cons, List.not_mem_nil, or_false] at member
  rcases member with rfl | rfl | rfl | rfl | rfl | rfl | rfl <;>
    exact isDefinition_join (by decide) (by decide) rfl

theorem routines_diverge : Routine.all.Pairwise fun routine other =>
    Diverge routine.body.toList other.body.toList := by
  have names : Routine.all.Pairwise fun routine other => goApart
      (routine.name.toList ++ "()".toList) (other.name.toList ++ "()".toList) = true := by decide
  refine names.imp_of_mem fun member memberThere apart => ?_
  obtain ⟨more, body⟩ := (isDefinition_of_mem _ member).start
  obtain ⟨others, bodyThere⟩ := (isDefinition_of_mem _ memberThere).start
  rw [← body, ← bodyThere]
  exact (Diverge.of_goApart apart).append _ _

def routinesHeading : List Char :=
  "# ---- helpers ----\n".toList

def headed : List (List Char) → List (List Char)
  | [] => []
  | first :: rest => (routinesHeading ++ first) :: rest

theorem suffix_joinWith (separator : List Char) {ending first : List Char}
    {rest : List (List Char)} (each : ∀ text ∈ first :: rest, ending <:+ text) :
    ending <:+ joinWith separator (first :: rest) := by
  induction rest generalizing first with
  | nil => exact each first List.mem_cons_self
  | cons next others ih =>
      rw [joinWith_cons_cons]
      exact (ih fun text member => each text (List.mem_cons_of_mem first member)).trans
        (List.suffix_append _ _)

theorem resolve_eq {names : List String} {routines : List Routine}
    (resolved : Routine.resolve names = .ok routines) : routines = Routine.all.filter fun routine =>
      (names.flatMap (Routine.reached Routine.all.length)).contains routine.name := by
  unfold Routine.resolve at resolved
  split at resolved
  · cases resolved
  · exact (Except.ok.inj resolved).symm

theorem kept_routines {first : Routine} {rest : List Routine}
    (known : ∀ routine ∈ first :: rest, routine ∈ Routine.all) (others : List (List Char)) :
    kept ((routinesHeading ++ joinWith ['\n', '\n']
        ((first :: rest).map fun routine => routine.body.toList)) :: others) =
      (routinesHeading ++ joinWith ['\n', '\n']
        ((first :: rest).map fun routine => routine.body.toList)) :: kept others := by
  have each : ∀ text ∈ (first :: rest).map fun routine => routine.body.toList, ['\x7d'] <:+ text := by
    intro text member
    obtain ⟨routine, inside, rfl⟩ := List.mem_map.mp member
    exact (isDefinition_of_mem routine (known routine inside)).closing
  have closing := (suffix_joinWith ['\n', '\n'] each).trans (List.suffix_append routinesHeading _)
  have start : routinesHeading.head? = some '#' := rfl
  rw [kept_cons (solid_append (by decide) _)]
  exact congrArg (· :: _) (trimNewlines_of_ends (by simp [start]) closing (by decide))

theorem joinWith_routinesPart {fragments : List Fragment} {parts : List (List Char)}
    (made : routinesPart fragments = .ok parts) : ∃ routines,
      Routine.resolve (fragments.flatMap Fragment.routines) = .ok routines ∧
      ∀ others, joinWith ['\n', '\n'] (kept (parts ++ others)) =
        joinWith ['\n', '\n'] (headed (routines.map fun routine => routine.body.toList) ++
          kept others) := by
  obtain ⟨routines, resolved, rfl⟩ := map_eq_ok made
  refine ⟨routines, resolved, fun others => ?_⟩
  have known : ∀ routine ∈ routines, routine ∈ Routine.all := by
    rw [resolve_eq resolved]
    exact fun routine member => List.mem_of_mem_filter member
  cases routines with
  | nil => rfl
  | cons first rest =>
      refine (congrArg (joinWith ['\n', '\n']) (kept_routines known others)).trans ?_
      simp only [List.map_cons, headed, List.cons_append, joinWith_cons_flatMap,
        List.flatMap_append, List.append_assoc]

theorem diverge_headed {common rest behind : List (List Char)} {text first : List Char}
    (apart : ∀ other ∈ behind, Diverge text other) (ended : Diverge text first)
    (headingApart : Diverge routinesHeading first) (parts others : List (List Char)) :
    Diverge (joinWith ['\n', '\n'] (headed (common ++ text :: rest) ++ parts))
      (joinWith ['\n', '\n'] (headed (common ++ behind) ++ first :: others)) := by
  cases common with
  | nil =>
      cases behind with
      | nil =>
          have start := headingApart.append text []
          rw [List.append_nil] at start
          exact start.joinWith _ _ _
      | cons next more => exact ((apart next List.mem_cons_self).prepend _).joinWith _ _ _
  | cons start common =>
      have shape : ∀ later parts : List (List Char), headed (start :: common ++ later) ++ parts =
          ((routinesHeading ++ start) :: common) ++ (later ++ parts) := by
        simp [headed]
      rw [shape, shape]
      cases behind with
      | nil => exact ended.joinWith_behind _ _ _ _
      | cons next more => exact (apart next List.mem_cons_self).joinWith_behind _ _ _ _

/-! Scripts with and without usage. -/

def otherStarts : List String :=
  ["# ---- system metrics", "# ---- input extraction", "# directory", "# git", "# system metrics",
    "# ---- render statusline", "# ---- log extracted data", "if ["]

def StartsKnown (part : List Char) : Prop :=
  isBlankLine part = true ∨ ∃ start ∈ otherStarts, start.toList <+: part

def usageStart : List Char :=
  "# ---- ccusage".toList

theorem startsKnown_displayPart (fragments : List Fragment) :
    ∀ part ∈ displayPart fragments, StartsKnown part := by
  intro part member
  simp only [displayPart] at member
  split at member
  · cases member
  · rw [List.mem_singleton.mp member]
    exact .inr ⟨"# ---- render statusline", by decide, .trans ⟨" ----\n".toList, rfl⟩
      (List.prefix_append _ _)⟩

theorem startsKnown_partsBehind {input noted : List (List Char)} {fragments : List Fragment}
    (known : ∀ fragment ∈ fragments, StartsKnown fragment.query)
    (takes : ∀ part ∈ input, "# ---- input extraction".toList <+: part)
    (notes : ∀ part ∈ noted, "# ---- log extracted data".toList <+: part) :
    ∀ part ∈ partsBehind input noted fragments, StartsKnown part := by
  intro part member
  simp only [partsBehind, List.mem_append, List.mem_map, List.mem_singleton] at member
  rcases member with taken | ⟨fragment, inside, rfl⟩ | shown | noted | rfl
  · exact .inr ⟨_, by decide, takes part taken⟩
  · exact known fragment inside
  · exact startsKnown_displayPart fragments part shown
  · exact .inr ⟨_, by decide, notes part noted⟩
  · exact .inr ⟨"if [", by decide, by decide⟩

section Usage

variable {base others : List Fragment} {usage : Fragment} {input noted notedThere : List (List Char)}
  (known : ∀ fragment ∈ others, StartsKnown fragment.setup ∧ StartsKnown fragment.query)
  (setups : base.map Fragment.setup = others.map Fragment.setup)
  (calls : base.flatMap Fragment.routines = others.flatMap Fragment.routines)
  (start : usageStart <+: usage.setup)
  (takes : ∀ part ∈ input, "# ---- input extraction".toList <+: part)
  (notes : ∀ part ∈ notedThere, "# ---- log extracted data".toList <+: part)

include known setups calls start takes notes

theorem diverge_usage {routines routinesThere : List (List Char)}
    (resolved : routinesPart (base ++ [usage]) = .ok routines)
    (resolvedThere : routinesPart others = .ok routinesThere) :
    Diverge (joinWith ['\n', '\n'] (kept (partsFrom routines input noted (base ++ [usage]))))
      (joinWith ['\n', '\n'] (kept (partsFrom routinesThere input notedThere others))) := by
  have behindKnown := startsKnown_partsBehind (fun fragment member => (known fragment member).2)
    takes notes
  have visible : ∃ part ∈ partsBehind input notedThere others, isBlankLine part = false :=
    ⟨epilogue.toList, by simp [partsBehind], by decide⟩
  have setupsKnown : ∀ part ∈ others.map Fragment.setup ++ partsBehind input notedThere others,
      StartsKnown part := by
    intro part member
    rcases List.mem_append.mp member with inSetups | behind
    · obtain ⟨fragment, inside, rfl⟩ := List.mem_map.mp inSetups
      exact (known fragment inside).1
    · exact behindKnown part behind
  obtain ⟨all, resolvedAll, shape⟩ := joinWith_routinesPart resolved
  obtain ⟨fewer, resolvedFewer, shapeThere⟩ := joinWith_routinesPart resolvedThere
  have stricter : ∀ routine : Routine,
      ((others.flatMap Fragment.routines).flatMap (Routine.reached Routine.all.length)).contains
        routine.name = true →
      (((base ++ [usage]).flatMap Fragment.routines).flatMap
        (Routine.reached Routine.all.length)).contains routine.name = true := by
    intro routine needed
    rw [List.contains_iff_mem] at needed ⊢
    rw [List.flatMap_append, List.flatMap_append, calls]
    exact List.mem_append_left _ needed
  rw [partsFrom, partsFrom, shape, shapeThere, resolve_eq resolvedAll, resolve_eq resolvedFewer]
  rcases filter_cases routines_diverge stricter with same | ⟨common, further, rest, behind, longer,
    shorter, each⟩
  · obtain ⟨first, more, keptThere, apart⟩ := exists_kept behindKnown visible
    have solid : isBlankLine usage.setup = false := by
      obtain ⟨rest, shape⟩ := start
      exact shape ▸ solid_append (by decide) rest
    rw [same, List.map_append, List.append_assoc, setups, List.map_singleton,
      List.singleton_append, kept_append, kept_cons solid, kept_append, keptThere]
    exact (((apart usageStart usage.setup start (by decide)).joinWith _ _ _).joinWith_common
      _).joinWith_common _
  · have visibleThere : ∃ part ∈ others.map Fragment.setup ++ partsBehind input notedThere others,
        isBlankLine part = false := by
      obtain ⟨part, member, solid⟩ := visible
      exact ⟨part, List.mem_append_right _ member, solid⟩
    obtain ⟨first, more, keptThere, apart⟩ := exists_kept setupsKnown visibleThere
    have furtherKnown : further ∈ Routine.all :=
      List.mem_of_mem_filter (longer ▸ List.mem_append_right common List.mem_cons_self)
    have definition := isDefinition_of_mem further furtherKnown
    have namesApart : ∀ routine ∈ Routine.all, ∀ start ∈ otherStarts,
        goApart (routine.name.toList ++ "()".toList) start.toList = true := by decide
    have ended := apart _ _ definition.start (namesApart further furtherKnown)
    rw [definition.trimmed] at ended
    have headingApart : Diverge routinesHeading first := by
      have words := apart _ "# ---- helpers ----".toList (List.prefix_refl _) (by decide)
      have whole := words.append ['\n'] []
      rwa [List.append_nil] at whole
    have bodies : ∀ text ∈ behind.map fun routine => routine.body.toList,
        Diverge further.body.toList text := by
      intro text member
      obtain ⟨routine, inside, rfl⟩ := List.mem_map.mp member
      exact each routine inside
    rw [longer, shorter, keptThere, @List.map_append _ _ _ common, @List.map_append _ _ _ common,
      List.map_cons]
    exact diverge_headed bodies ended headingApart _ _

end Usage

theorem assemble_ne_of_usage {a b : Configuration} {style other : Style}
    {base others : List Fragment} {usage : Fragment} {query display : Prop}
    (header : SameHeader a b) (colors : style.colors = other.colors)
    (theme : style.theme = other.theme) (inOrder : (base ++ [usage]).Pairwise NotAfter)
    (inOrderThere : others.Pairwise NotAfter) (tells : FragmentsTell query display base others)
    (known : ∀ fragment ∈ others, StartsKnown fragment.setup ∧ StartsKnown fragment.query)
    (start : usageStart <+: usage.setup) (noInputs : usage.inputFields = []) (context : Context) :
    BothGive Diverge
      (assemble context a (base ++ [usage]) style) (assemble context b others other) := by
  have fields : (base ++ [usage]).flatMap Fragment.inputFields =
      others.flatMap Fragment.inputFields := by
    simp [noInputs, tells.inputFields]
  refine (partsTell header colors theme inOrder inOrderThere fields context).map ?_
  rintro parts partsThere ⟨before, beforeThere, routines, routinesThere, input, noted, notedThere,
    logs, resolved, resolvedThere, takes, notes, -, rfl, rfl⟩
  by_cases same : a.logging = b.logging
  · have behind : Diverge (joinWith _ (kept (partsFrom routines input noted (base ++ [usage])))) _ :=
      diverge_usage known tells.setups tells.routines start takes notes resolved resolvedThere
    rw [join_eq, join_eq, logs.1 same, kept_append, kept_append]
    exact (behind.joinWith_common _).append _ _
  · have lists := (logs.2 same).append (partsFrom routines input noted (base ++ [usage]))
      (partsFrom routinesThere input notedThere others)
    have never : TellsEach False _ _ := ⟨nofun, fun _ => lists⟩
    exact (tells_join never).2 id

end StatusLine.Script

/-! The fragments of encoders. -/

namespace StatusLine

open Script Text

theorem prefix_of_lines {template : Template} {values : Scope} {text : List Char} {first : String}
    {rows : List String} {rest : List Piece} (pieces : template.pieces = .lines (first :: rows) :: rest)
    (rendered : template.render values = .ok text) : first.toList <+: text := by
  have all := renderAll_of_render rendered
  rw [pieces, Piece.renderAll] at all
  obtain ⟨more, words⟩ := exists_toList_join "\n" first rows
  have start : Piece.render template.failed values (.lines (first :: rows)) =
      .ok (first.toList ++ more) := congrArg Except.ok words
  rw [start] at all
  obtain ⟨behind, -, rfl⟩ := map_eq_ok all
  exact (List.prefix_append _ _).trans (List.prefix_append _ _)

structure EncodedBy (encoder : Encoder) (fragment : Fragment) : Prop where
  name : fragment.name = encoder.name
  starts : encoder ≠ .usage → StartsKnown fragment.setup ∧ StartsKnown fragment.query
  usage : encoder = .usage → usageStart <+: fragment.setup ∧ fragment.inputFields = []

theorem startsKnown_nil : StartsKnown [] :=
  .inl rfl

theorem Encoder.encodedBy {settings : Settings} {config : Configuration} {context : Context}
    {style : Style} {fragment : Fragment} {options : EncoderOptions} (encoder : Encoder)
    (configured : encoder.configure settings config = some options)
    (made : options.encode context style = .ok fragment) : EncodedBy encoder fragment := by
  cases encoder with
  | directory =>
      obtain ⟨-, chosen⟩ := Option.ite_none_right_eq_some.mp configured
      obtain rfl := Option.some.inj chosen
      obtain ⟨shown, -, rfl⟩ := map_eq_ok made
      have start : "# directory".toList <+: Directory.query.toList := by decide
      exact ⟨rfl, fun _ => ⟨startsKnown_nil, .inr ⟨_, by decide, start⟩⟩, nofun⟩
  | git =>
      obtain ⟨options, -, rfl⟩ := Option.map_eq_some_iff.mp configured
      obtain ⟨cacheFile, -, made⟩ := bind_eq_ok made
      obtain ⟨query, rendered, made⟩ := bind_eq_ok made
      obtain ⟨shown, -, made⟩ := bind_eq_ok made
      obtain rfl := Except.ok.inj made
      have start : "# git".toList <+: query := prefix_of_lines rfl rendered
      exact ⟨rfl, fun _ => ⟨startsKnown_nil, .inr ⟨"# git", by decide, start⟩⟩, nofun⟩
  | model =>
      obtain ⟨options, -, rfl⟩ := Option.map_eq_some_iff.mp configured
      obtain ⟨name, -, made⟩ := bind_eq_ok made
      cases shows : options.showVersion.isTruthy
      all_goals
        simp only [shows, Bool.false_eq_true, if_true, if_false] at made
        obtain ⟨version, -, made⟩ := bind_eq_ok made
        obtain rfl := Except.ok.inj made
        exact ⟨rfl, fun _ => ⟨startsKnown_nil, startsKnown_nil⟩, nofun⟩
  | metrics =>
      obtain ⟨options, -, rfl⟩ := Option.map_eq_some_iff.mp configured
      obtain ⟨setup, -, made⟩ := bind_eq_ok made
      obtain ⟨cacheFile, -, made⟩ := bind_eq_ok made
      obtain ⟨values, -, made⟩ := bind_eq_ok made
      obtain ⟨query, rendered, made⟩ := bind_eq_ok made
      obtain ⟨cpu, -, made⟩ := bind_eq_ok made
      obtain ⟨memory, -, made⟩ := bind_eq_ok made
      obtain ⟨load, -, made⟩ := bind_eq_ok made
      obtain rfl := Except.ok.inj made
      have start : "# system metrics".toList <+: query := prefix_of_lines rfl rendered
      have heading : "# ---- system metrics".toList <+: "# ---- system metrics ----\n".toList :=
        ⟨" ----\n".toList, rfl⟩
      exact ⟨rfl, fun _ => ⟨.inr ⟨_, by decide, heading.trans (List.prefix_append _ _)⟩,
        .inr ⟨_, by decide, start⟩⟩, nofun⟩
  | usage =>
      obtain ⟨options, -, rfl⟩ := Option.map_eq_some_iff.mp configured
      obtain ⟨setup, rendered, made⟩ := bind_eq_ok made
      obtain ⟨cacheFile, -, made⟩ := bind_eq_ok made
      obtain ⟨query, -, made⟩ := bind_eq_ok made
      have start : "# ---- ccusage ----".toList <+: setup := prefix_of_lines rfl rendered
      have heading : usageStart <+: "# ---- ccusage ----".toList := by decide
      cases shows : options.showSession.isTruthy
      all_goals
        simp only [shows, Bool.false_eq_true, if_true, if_false] at made
        obtain ⟨timing, -, made⟩ := bind_eq_ok made
        obtain ⟨displays, -, made⟩ := bind_eq_ok made
        obtain rfl := Except.ok.inj made
        exact ⟨rfl, fun other => absurd rfl other, fun _ => ⟨heading.trans start, rfl⟩⟩

end StatusLine

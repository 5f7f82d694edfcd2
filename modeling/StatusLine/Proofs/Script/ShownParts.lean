import StatusLine.Proofs.Script.FixedParts
import StatusLine.Proofs.Script.FragmentOrder
import StatusLine.Proofs.Script.ShownFragments

/-!
What a script tells of the fragments that it is made of. Scripts of the same encoders show all that
their fragments tell, and a script with a further fragment for usage differs from one without it.
-/

namespace StatusLine.Script

open Text

/-! Fragments that come in order. -/

theorem insertByRank_eq_append {fragment : Fragment} {sorted : List Fragment}
    (behind : ∀ other ∈ sorted, NotAfter other fragment) :
    insertByRank fragment sorted = sorted ++ [fragment] := by
  induction sorted with
  | nil => rfl
  | cons first rest ih =>
      obtain ⟨here, later⟩ := List.forall_mem_cons.mp behind
      rw [insertByRank, if_neg (Nat.not_lt.mpr here), ih later, List.cons_append]

theorem ordered_eq_self {fragments : List Fragment} (inOrder : fragments.Pairwise NotAfter) :
    ordered fragments = fragments := by
  have whole : ∀ later sorted : List Fragment, (sorted ++ later).Pairwise NotAfter →
      later.foldl (fun sorted fragment => insertByRank fragment sorted) sorted = sorted ++ later := by
    intro later
    induction later with
    | nil => simp
    | cons fragment rest ih =>
        intro sorted inOrder
        obtain ⟨-, -, between⟩ := List.pairwise_append.mp inOrder
        have inserted := insertByRank_eq_append fun other member =>
          between other member fragment List.mem_cons_self
        rw [List.foldl_cons, inserted, ih, List.append_assoc, List.singleton_append]
        rwa [List.append_assoc, List.singleton_append]
  exact whole fragments [] inOrder

/-! Lists of fragments. -/

structure FragmentsTell (query display : Prop) (first second : List Fragment) : Prop where
  setups : first.map Fragment.setup = second.map Fragment.setup
  queries : TellsEach query (first.map Fragment.query) (second.map Fragment.query)
  displays : TellsEach display (first.map Fragment.display) (second.map Fragment.display)
  inputFields : first.flatMap Fragment.inputFields = second.flatMap Fragment.inputFields
  routines : first.flatMap Fragment.routines = second.flatMap Fragment.routines

theorem FragmentsTell.nil : FragmentsTell True True [] [] :=
  ⟨rfl, .refl _, .refl _, rfl, rfl⟩

theorem FragmentsTell.cons {query display later shown : Prop} {first second : Fragment}
    {rest others : List Fragment} (here : FragmentTells query display first second)
    (behind : FragmentsTell later shown rest others) :
    FragmentsTell (query ∧ later) (display ∧ shown) (first :: rest) (second :: others) where
  setups := by rw [List.map_cons, List.map_cons, here.setup, behind.setups]
  queries := here.query.append behind.queries
  displays := here.display.append behind.displays
  inputFields := by rw [List.flatMap_cons, List.flatMap_cons, here.inputFields, behind.inputFields]
  routines := by rw [List.flatMap_cons, List.flatMap_cons, here.routines, behind.routines]

theorem tells_displayPart {display : Prop} {first second : List Fragment}
    (displays : TellsEach display (first.map Fragment.display) (second.map Fragment.display)) :
    TellsEach display (displayPart first) (displayPart second) := by
  refine ⟨fun holds => by simp only [displayPart, displays.1 holds], fun hidden => ?_⟩
  obtain ⟨common, here, there, rest, behind, apart, solid, solidThere, shape, shapeThere⟩ :=
    displays.2 hidden
  have kept : ∀ {text later}, isBlankLine text = false →
      ((common ++ text :: later).filter fun text => !isBlankLine text) =
        (common.filter fun text => !isBlankLine text) ++
          text :: later.filter fun text => !isBlankLine text := by
    intro text later visible
    rw [List.filter_append, List.filter_cons, visible]
    rfl
  have present : ∀ text (later : List (List Char)),
      ((common.filter fun text => !isBlankLine text) ++ text :: later).isEmpty = false := by
    intro text later
    rw [List.isEmpty_eq_false_iff]
    exact List.append_ne_nil_of_right_ne_nil _ (List.cons_ne_nil _ _)
  have heading : ∀ text, isBlankLine ("# ---- render statusline ----\n".toList ++ text) = false :=
    fun text => solid_append (by decide) text
  unfold displayPart
  rw [shape, shapeThere, kept solid, kept solidThere]
  simp only [present, Bool.false_eq_true, if_false]
  exact ⟨[], _, _, [], [], (apart.joinWith_behind ['\n'] _ _ _).prepend _, heading _, heading _, rfl,
    rfl⟩

/-! Parts. -/

theorem Palette.render_congr {style other : Style} (colors : style.colors = other.colors)
    (theme : style.theme = other.theme) : Palette.render style = Palette.render other := by
  simp only [Palette.render, colors, theme]

structure SameHeader (a b : Configuration) : Prop where
  theme : a.theme = b.theme
  colors : a.colors = b.colors
  features : orderedFeatures a.has = orderedFeatures b.has

theorem SameHeader.headerValues {a b : Configuration} (same : SameHeader a b)
    (directory : List Char) (settings : Settings) :
    headerValues directory a settings = Script.headerValues directory b settings := by
  simp only [Script.headerValues, featuresText, same.theme, same.colors, same.features]

theorem tells_log {a b : Configuration} {directory limiter : List Char} {interval : Datum}
    (limited : rateLimiter.render (directoryValues directory ++ [("min_interval", interval)]) =
      .ok limiter) :
    BothGive (fun here there => TellsEach (a.logging = b.logging) (here ++ [limiter])
        (there ++ [limiter]))
      (partIf a.logging (logging.render (directoryValues directory)))
      (partIf b.logging (logging.render (directoryValues directory))) := by
  have apart : goApart "# ---- logging ----".toList "# ---- rate limiter ----".toList = true := by
    decide
  have limits := startsWith_rateLimiter limited
  have logged : ∀ {log}, partIf true (logging.render (directoryValues directory)) = .ok log →
      DivergeFirst (log ++ [limiter]) [limiter] := by
    intro log made
    rw [partIf, if_pos rfl] at made
    obtain ⟨text, rendered, rfl⟩ := map_eq_ok made
    have logs := startsWith_logging rendered
    refine ⟨[], text, limiter, [limiter], [], ?_, logs.solid, limits.solid, rfl, rfl⟩
    obtain ⟨_, _, -, rfl⟩ := logs.goesOn
    obtain ⟨_, _, -, rfl⟩ := limits.goesOn
    simp only [List.append_assoc]
    exact (Diverge.of_goApart apart).append _ _
  intro here there made madeThere
  cases logsHere : a.logging <;> cases logsThere : b.logging <;> rw [logsHere] at made <;>
    rw [logsThere] at madeThere
  case false.true =>
    obtain rfl := Except.ok.inj made
    exact ⟨fun same => absurd same Bool.false_ne_true, fun _ => (logged madeThere).symm⟩
  case true.false =>
    obtain rfl := Except.ok.inj madeThere
    exact ⟨fun same => absurd same.symm Bool.false_ne_true, fun _ => logged made⟩
  all_goals
    obtain rfl := Except.ok.inj (made.symm.trans madeThere)
    exact (TellsEach.refl _).congr (by simp)

def partsBehind (input noted : List (List Char)) (fragments : List Fragment) : List (List Char) :=
  input ++ (fragments.map Fragment.query ++ (displayPart fragments ++ (noted ++ [epilogue.toList])))

def partsFrom (routines input noted : List (List Char)) (fragments : List Fragment) :
    List (List Char) :=
  routines ++ (fragments.map Fragment.setup ++ partsBehind input noted fragments)

/-- Two scripts as parts: what comes before the shared routines tells whether there is a log, and
the rest is made of the fragments. -/
def PartsTell (a b : Configuration) (fragments others : List Fragment)
    (parts otherParts : List (List Char)) : Prop :=
  ∃ before beforeThere routines routinesThere input noted notedThere,
    TellsEach (a.logging = b.logging) before beforeThere ∧
    routinesPart fragments = .ok routines ∧ routinesPart others = .ok routinesThere ∧
    (∀ part ∈ input, "# ---- input extraction".toList <+: part) ∧
    (∀ part ∈ notedThere, "# ---- log extracted data".toList <+: part) ∧
    (a.logging = b.logging → noted = notedThere) ∧
    parts = before ++ partsFrom routines input noted fragments ∧
    otherParts = beforeThere ++ partsFrom routinesThere input notedThere others

theorem prefix_of_partIf {wanted : Bool} {part : Except Failure (List Char)} {start text : List Char}
    {parts : List (List Char)} (rendered : part = .ok (start ++ text))
    (made : partIf wanted part = .ok parts) : ∀ other ∈ parts, start <+: other := by
  unfold partIf at made
  split at made
  · rw [rendered] at made
    obtain rfl := Except.ok.inj made
    intro other member
    exact List.mem_singleton.mp member ▸ List.prefix_append start text
  · obtain rfl := Except.ok.inj made
    exact nofun

theorem tells_join {shown : Prop} {parts others : List (List Char)}
    (tells : TellsEach shown parts others) : Tells shown (join parts) (join others) := by
  have solid : ∀ text, isBlankLine text = false → (!isBlankLine text) = true := by simp
  exact (tells.joinWith_filter _ solid _ (fun _ _ => Diverge.trimNewlines) _).append_same _

section Parts

variable {a b : Configuration} {style other : Style} {fragments others : List Fragment}
  (header : SameHeader a b) (colors : style.colors = other.colors)
  (theme : style.theme = other.theme) (inOrder : fragments.Pairwise NotAfter)
  (inOrderThere : others.Pairwise NotAfter)
  (fields : fragments.flatMap Fragment.inputFields = others.flatMap Fragment.inputFields)

include header colors theme inOrder inOrderThere fields

theorem partsTell (context : Context) :
    BothGive (PartsTell a b fragments others) (parts context a fragments style)
      (parts context b others other) := by
  unfold parts
  simp only [ordered_eq_self inOrder, ordered_eq_self inOrderThere, ← fields,
    header.headerValues, Palette.render_congr colors theme]
  refine (BothGive.same _).bind ?_
  rintro directory _ rfl
  refine (BothGive.same _).bind ?_
  rintro heading _ rfl
  refine BothGive.given.bind fun log logThere logged => ?_
  refine BothGive.given.bind fun limiter limiterThere limited => ?_
  obtain rfl := Except.ok.inj (limited.1.symm.trans limited.2)
  refine (BothGive.same _).bind ?_
  rintro palette _ rfl
  refine BothGive.given.bind fun routines routinesThere resolved => ?_
  refine BothGive.given.bind fun input inputThere taken => ?_
  obtain rfl := Except.ok.inj (taken.1.symm.trans taken.2)
  refine BothGive.given.bind fun noted notedThere notes => .ok ?_
  have logs := tells_log limited.1 log logThere logged.1 logged.2
  have before := (logs.append (.refl [contentTracking.toList, palette])).cons heading
  have sameNotes : a.logging = b.logging → noted = notedThere := by
    intro same
    rw [same] at notes
    exact Except.ok.inj (notes.1.symm.trans notes.2)
  have takes := prefix_of_partIf (render_extraction _ _) taken.1
  have notesThere := prefix_of_partIf (render_logOutput _) notes.2
  refine ⟨_, _, routines, routinesThere, input, noted, notedThere, before.congr (by simp),
    resolved.1, resolved.2, fun part member => ?_, fun part member => ?_, sameNotes, ?_, ?_⟩
  · exact .trans ⟨" ----\n".toList, rfl⟩ (takes part member)
  · exact .trans ⟨" ----\n\x7b\n".toList, rfl⟩ (notesThere part member)
  · simp only [partsFrom, partsBehind, List.append_assoc, List.cons_append, List.nil_append]
  · simp only [partsFrom, partsBehind, List.append_assoc, List.cons_append, List.nil_append]

theorem tells_assemble {query display : Prop}
    (tells : FragmentsTell query display fragments others) (context : Context) :
    BothGive (Tells (a.logging = b.logging ∧ query ∧ display))
      (assemble context a fragments style) (assemble context b others other) := by
  have called : routinesPart fragments = routinesPart others := by
    rw [routinesPart, routinesPart, tells.routines]
  refine (partsTell header colors theme inOrder inOrderThere fields context).map ?_
  rintro parts partsThere ⟨before, beforeThere, routines, routinesThere, input, noted, notedThere,
    logs, resolved, resolvedThere, -, -, sameNotes, rfl, rfl⟩
  obtain rfl := Except.ok.inj (resolved.symm.trans (called.trans resolvedThere))
  have body : ∀ noted, TellsEach (query ∧ display) (partsFrom routines input noted fragments)
      (partsFrom routines input noted others) := by
    intro noted
    have shown := tells.queries.append ((tells_displayPart tells.displays).append
      (.refl (noted ++ [epilogue.toList])))
    unfold partsFrom partsBehind
    rw [tells.setups]
    exact ((((shown.prepend input).prepend _).prepend routines)).congr (by simp)
  refine tells_join ⟨?_, fun hidden => ?_⟩
  · rintro ⟨same, known⟩
    rw [logs.1 same, sameNotes same, (body notedThere).1 known]
  · by_cases same : a.logging = b.logging
    · rw [logs.1 same, sameNotes same]
      exact ((body notedThere).2 fun known => hidden ⟨same, known⟩).prepend beforeThere
    · exact (logs.2 same).append _ _

end Parts

end StatusLine.Script

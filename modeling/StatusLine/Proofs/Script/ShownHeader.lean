import StatusLine.Proofs.Compiler.HeaderComment

/-!
What a script tells at its start. The header names the theme, the features and whether colors are
on, and behind it stands the part for logging or the one for the rate limit.
-/

namespace StatusLine

namespace Text

theorem eq_of_runs {accepts : Char → Bool} {run other rest behind : List Char}
    (here : ∀ c ∈ run, accepts c = true) (there : ∀ c ∈ other, accepts c = true)
    (stops : ∀ c ∈ rest.head?, accepts c = false) (stopsThere : ∀ c ∈ behind.head?, accepts c = false)
    (same : run ++ rest = other ++ behind) : run = other ∧ rest = behind := by
  have ends : ∀ text : List Char, (∀ c ∈ text.head?, accepts c = false) →
      text.takeWhile accepts = [] := by
    intro text stop
    cases text with
    | nil => rfl
    | cons c more => simp [stop c rfl]
  have runs := congrArg (List.takeWhile accepts) same
  rw [List.takeWhile_append_of_pos here, List.takeWhile_append_of_pos there, ends rest stops,
    ends behind stopsThere, List.append_nil, List.append_nil] at runs
  subst runs
  exact ⟨rfl, List.append_cancel_left same⟩

theorem eq_of_joinWith {mark : Char} {separator : List Char} {names others : List (List Char)}
    (free : ∀ name ∈ names, mark ∉ name) (freeThere : ∀ name ∈ others, mark ∉ name)
    (present : names ≠ []) (presentThere : others ≠ [])
    (same : joinWith (mark :: separator) names = joinWith (mark :: separator) others) :
    names = others := by
  have accepted : ∀ name : List Char, mark ∉ name → ∀ c ∈ name, (c != mark) = true := by
    intro name absent c member
    simpa using fun equal : c = mark => absent (equal ▸ member)
  have stops : ∀ rest : List (List Char), ∀ c ∈ (rest.flatMap (mark :: separator ++ ·)).head?,
      (c != mark) = false := by
    intro rest c first
    cases rest with
    | nil => cases first
    | cons name more =>
        obtain rfl := Option.some.inj first
        simp
  induction names generalizing others with
  | nil => exact absurd rfl present
  | cons name rest ih =>
      obtain ⟨other, behind, rfl⟩ := List.exists_cons_of_ne_nil presentThere
      obtain ⟨here, freeRest⟩ := List.forall_mem_cons.mp free
      obtain ⟨there, freeBehind⟩ := List.forall_mem_cons.mp freeThere
      rw [joinWith_cons_flatMap, joinWith_cons_flatMap] at same
      obtain ⟨rfl, tails⟩ := eq_of_runs (accepted name here) (accepted other there) (stops rest)
        (stops behind) same
      cases rest with
      | nil =>
          cases behind with
          | nil => rfl
          | cons next more => cases tails
      | cons first more =>
          cases behind with
          | nil => cases tails
          | cons next others =>
              have later : joinWith (mark :: separator) (first :: more) =
                  joinWith (mark :: separator) (next :: others) := by
                rw [joinWith_cons_flatMap, joinWith_cons_flatMap]
                simpa [List.append_assoc] using tails
              rw [ih freeRest freeBehind (List.cons_ne_nil _ _) (List.cons_ne_nil _ _) later]

end Text

namespace Script

open Text

/-! The line of the theme. -/

def themePart (theme : Theme) (colors : Bool) : List Char :=
  "# Theme: ".toList ++ theme.name.toList ++ " | Colors: ".toList ++ (switchText colors).toList ++
    " | Features: ".toList

theorem eq_of_themePart : ∀ theme ∈ themes, ∀ other ∈ themes, ∀ colors others : Bool,
    themePart theme colors <+: themePart other others → theme = other ∧ colors = others := by
  decide

theorem mem_themes (theme : Theme) : theme ∈ themes := by
  cases theme <;> decide

theorem eq_of_themePart_append {theme other : Theme} {colors others : Bool}
    {rest behind : List Char}
    (same : themePart theme colors ++ rest = themePart other others ++ behind) :
    (theme = other ∧ colors = others) ∧ rest = behind := by
  have parts : theme = other ∧ colors = others := by
    rcases List.append_eq_append_iff.mp same with ⟨more, longer, -⟩ | ⟨more, longer, -⟩
    · exact eq_of_themePart theme (mem_themes theme) other (mem_themes other) colors others
        ⟨more, longer.symm⟩
    · obtain ⟨themes, switches⟩ := eq_of_themePart other (mem_themes other) theme
        (mem_themes theme) others colors ⟨more, longer.symm⟩
      exact ⟨themes.symm, switches.symm⟩
  obtain ⟨rfl, rfl⟩ := parts
  exact ⟨⟨rfl, rfl⟩, List.append_cancel_left same⟩

theorem themeLine_eq (config : Configuration) :
    themeLine config = themePart config.theme config.colors ++ (featuresText config).toList :=
  rfl

def namedFeatures (config : Configuration) : List String :=
  match orderedFeatures config.has with
  | [] => ["none"]
  | features => features

theorem featuresText_eq (config : Configuration) : (featuresText config).toList =
    joinWith (',' :: [' ']) ((namedFeatures config).map String.toList) := by
  have separator : ", ".toList = ',' :: [' '] := rfl
  rw [← separator, ← toList_join, featuresText, namedFeatures]
  cases orderedFeatures config.has <;> rfl

theorem mem_namedFeatures {config : Configuration} {name : String}
    (member : name ∈ namedFeatures config) : name ∈ "none" :: knownFeatures := by
  unfold namedFeatures at member
  split at member
  · rw [List.mem_singleton] at member
    exact member ▸ List.mem_cons_self
  · exact List.mem_cons_of_mem _ (List.mem_of_mem_filter member)

theorem namedFeatures_ne_nil (config : Configuration) : namedFeatures config ≠ [] := by
  unfold namedFeatures
  split
  · exact List.cons_ne_nil _ _
  · assumption

theorem orderedFeatures_of_namedFeatures {a b : Configuration}
    (same : namedFeatures a = namedFeatures b) : orderedFeatures a.has = orderedFeatures b.has := by
  have unknown : ∀ config : Configuration, orderedFeatures config.has ≠ ["none"] := by
    intro config listed
    have member : "none" ∈ orderedFeatures config.has := listed ▸ List.mem_cons_self
    exact absurd (List.mem_of_mem_filter member) (by decide)
  have unknownA := unknown a
  have unknownB := unknown b
  unfold namedFeatures at same
  cases shownA : orderedFeatures a.has with
  | nil =>
      cases shownB : orderedFeatures b.has with
      | nil => rfl
      | cons first rest =>
          rw [shownA, shownB] at same
          exact absurd (shownB.trans same.symm) unknownB
  | cons first rest =>
      rw [shownA] at same
      cases shownB : orderedFeatures b.has with
      | nil =>
          rw [shownB] at same
          exact absurd (shownA.trans same) unknownA
      | cons next others =>
          rw [shownB] at same
          exact same

theorem shown_of_themeLine {a b : Configuration} (same : themeLine a = themeLine b) :
    a.theme = b.theme ∧ a.colors = b.colors ∧ orderedFeatures a.has = orderedFeatures b.has := by
  rw [themeLine_eq, themeLine_eq, featuresText_eq, featuresText_eq] at same
  obtain ⟨⟨theme, colors⟩, features⟩ := eq_of_themePart_append same
  have free : ∀ name ∈ "none" :: knownFeatures, ',' ∉ name.toList := by decide
  have freeOf : ∀ config : Configuration, ∀ name ∈ (namedFeatures config).map String.toList,
      ',' ∉ name := by
    intro config name member
    obtain ⟨word, named, rfl⟩ := List.mem_map.mp member
    exact free word (mem_namedFeatures named)
  have present : ∀ config : Configuration, (namedFeatures config).map String.toList ≠ [] :=
    fun config nothing => namedFeatures_ne_nil config (List.map_eq_nil_iff.mp nothing)
  have texts := eq_of_joinWith (freeOf a) (freeOf b) (present a) (present b) features
  have names := (List.map_inj_right fun _ _ => String.toList_inj.mp).mp texts
  exact ⟨theme, colors, orderedFeatures_of_namedFeatures names⟩

end Script

end StatusLine

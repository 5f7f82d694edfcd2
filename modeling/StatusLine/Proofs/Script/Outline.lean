import Mathlib.Data.List.Basic
import StatusLine.Proofs.Script.CallReading
import StatusLine.Template.Rendering

/-!
Reading templates instead of texts. The outline of a template has its texts as characters and leaves
its gaps open. A tracer follows a reader through an outline: where the template branches it goes both
ways, and for a gap it knows where every text of a kind can lead. If it ends well, the reader ends
well behind every text that the template gives.
-/

namespace StatusLine.Script

inductive Filling
  /-- Numbers and words. -/
  | bare
  /-- Text for the inside of single quotes. -/
  | quoted
  /-- An expression between single quotes, which may hold double quotes but no brackets, and no
  calls. -/
  | expression
  /-- Variables between double quotes. -/
  | arguments
  /-- A word, a variable that stands for one, or an empty word between quotes. -/
  | command
  /-- The name of a directory, for the inside of double quotes. -/
  | directory
  /-- A single word. -/
  | word
  /-- The name of a variable that is taken from the input. -/
  | input
  deriving DecidableEq

def isBare (c : Char) : Bool :=
  Text.isAsciiLetter c || Text.isAsciiDigit c || ['_', '-', '+', '.', ',', ';', ':', ' '].contains c

def isWordPart (c : Char) : Bool :=
  isBare c && c != ' '

def isQuoted (c : Char) : Bool :=
  !(['\'', '"', '\\', '\n', '\r', '_', '?', '+'].contains c)

def isExpression (c : Char) : Bool :=
  !(['\'', '[', ']', '\\', '\n', '\r'].contains c)

def isArgument (c : Char) : Bool :=
  Text.isAsciiLetter c || Text.isAsciiDigit c || ['_', '\x7b', '\x7d', '%', '.', '*'].contains c

def argument (name : List Char) : List Char :=
  ['"', '$'] ++ name ++ ['"']

def inputNames : List String :=
  ["current_directory_path", "model_name", "model_version"]

def Free (barred : Option Char) (text : List Char) : Prop :=
  ∀ c ∈ barred, c ∉ text

theorem Free.of_not_mem {c : Char} {text : List Char} (absent : c ∉ text) : Free c text :=
  fun _ same => Option.some.inj same ▸ absent

theorem Free.none (text : List Char) : Free none text :=
  nofun

theorem Free.nil (barred : Option Char) : Free barred [] :=
  fun _ _ => List.not_mem_nil

/-- The texts of a kind. What a directory is called holds everything but a barred character. -/
def Filling.Accepts (barred : Option Char) : Filling → List Char → Prop
  | bare, text => text.all isBare = true
  | quoted, text => text.all isQuoted = true
  | expression, text => text.all isExpression = true ∧ CallFree text
  | arguments, text => ∃ names, names ≠ [] ∧ (names.all fun name => name.all isArgument) = true ∧
      text = Text.joinWith [' '] (names.map argument)
  | command, text =>
      (∃ name, name.all isBare = true ∧ (text = name ∨ text = '$' :: name)) ∨ text = ['\'', '\'']
  | directory, text => ∃ lead path,
      lead ∈ [[], ['$', '\x7b', 'H', 'O', 'M', 'E', '\x7d'],
        ['$', '\x7b', 'H', 'O', 'M', 'E', '\x7d', '/']] ∧
      Free barred path ∧ text = lead ++ Text.escapeInQuotes path
  | word, text => text.all isWordPart = true
  | input, text => text ∈ inputNames.map String.toList

def Filling.asBare : Filling → Filling
  | word | input => bare
  | filling => filling

theorem Filling.Accepts.asBare {barred : Option Char} {filling : Filling} {text : List Char}
    (accepted : filling.Accepts barred text) : filling.asBare.Accepts barred text := by
  cases filling with
  | word =>
      have accepted : text.all isWordPart = true := accepted
      have bare : text.all isBare = true := by
        simp only [List.all_eq_true, isWordPart, Bool.and_eq_true] at accepted ⊢
        exact fun c member => (accepted c member).1
      exact bare
  | input =>
      have bare : ∀ name ∈ inputNames.map String.toList, name.all isBare = true := by decide
      exact bare text accepted
  | bare | quoted | expression | arguments | command | directory => exact accepted

def Fits (barred : Option Char) : List Filling → List Char → Prop
  | [], _ => False
  | [filling], text => filling.Accepts barred text
  | filling :: rest, text => ∃ first others,
      filling.Accepts barred first ∧ Fits barred rest others ∧ text = first ++ '/' :: others

inductive Outline
  | done
  | text (words : List Char) (rest : Outline)
  | gap (value : Expression) (rest : Outline)
  | branch (yes no rest : Outline)
  | loop (targets : Targets) (source : Expression) (body rest : Outline)

inductive Rows : List String → List Char → Prop
  | nil : Rows [] []
  | last (words : List Char) : Rows [String.ofList words] words
  | row {next : String} {rest : List String} {others : List Char} (words : List Char)
      (later : Rows (next :: rest) others) :
      Rows (String.ofList words :: next :: rest) (words ++ '\n' :: others)

inductive Outlines : List Piece → Outline → Prop
  | nil : Outlines [] .done
  | lines {rows : List String} {words : List Char} {rest : List Piece} {outline : Outline}
      (here : Rows rows words) (later : Outlines rest outline) :
      Outlines (.lines rows :: rest) (.text words outline)
  | text {words : List Char} {rest : List Piece} {outline : Outline}
      (later : Outlines rest outline) :
      Outlines (.text (String.ofList words) :: rest) (.text words outline)
  | gap {value : Expression} {rest : List Piece} {outline : Outline}
      (later : Outlines rest outline) : Outlines (.output value :: rest) (.gap value outline)
  | branch {test : Expression} {yes no rest : List Piece} {first second outline : Outline}
      (positive : Outlines yes first) (negative : Outlines no second)
      (later : Outlines rest outline) :
      Outlines (.branch test yes no :: rest) (.branch first second outline)
  | loop {targets : Targets} {source : Expression} {body rest : List Piece}
      {inner outline : Outline} (turn : Outlines body inner) (later : Outlines rest outline) :
      Outlines (.loop targets source body :: rest) (.loop targets source inner outline)

theorem Rows.toList_join {rows : List String} {words : List Char} (here : Rows rows words) :
    (Names.join "\n" rows).toList = words := by
  induction here with
  | nil => rfl
  | last words => exact String.toList_ofList
  | row words later ih => simp [Names.join, ih]

def Outline.loops : Outline → List (Targets × Expression)
  | done => []
  | text _ rest | gap _ rest => rest.loops
  | branch yes no rest => yes.loops ++ no.loops ++ rest.loops
  | loop targets source body rest => (targets, source) :: body.loops ++ rest.loops

/-! Tracers. -/

section States

variable {State : Type} [DecidableEq State]

/-- The states once each. -/
def distinct (states : List State) : List State :=
  states.foldr List.insert []

theorem mem_distinct {state : State} {states : List State} (member : state ∈ states) :
    state ∈ distinct states := by
  induction states with
  | nil => exact member
  | cons first rest ih =>
      rw [distinct, List.foldr_cons, List.mem_insert_iff]
      rcases List.mem_cons.mp member with rfl | later
      · exact .inl rfl
      · exact .inr (ih later)

/-- The states that any of some states leads to, unless one of them leads astray. -/
def gather (next : State → Option (List State)) : List State → Option (List State)
  | [] => some []
  | state :: rest =>
      match next state, gather next rest with
      | some here, some others => some (distinct (here ++ others))
      | _, _ => none

theorem mem_gather {next : State → Option (List State)} {states ends : List State}
    (gathered : gather next states = some ends) {state : State} (member : state ∈ states) :
    ∃ here, next state = some here ∧ ∀ last ∈ here, last ∈ ends := by
  induction states generalizing ends with
  | nil => simp at member
  | cons first rest ih =>
      simp only [gather] at gathered
      split at gathered
      · rename_i here others first' rest'
        obtain rfl := Option.some.inj gathered
        rcases List.mem_cons.mp member with rfl | later
        · exact ⟨here, first', fun last inside => mem_distinct (List.mem_append_left _ inside)⟩
        · obtain ⟨found, same, inside⟩ := ih rest' later
          exact ⟨found, same, fun last there =>
            mem_distinct (List.mem_append_right _ (inside last there))⟩
      · simp at gathered

end States

structure Tracer (barred : Option Char) (State : Type) extends LineReader State where
  fill : Filling → State → Option (List State)
  fill_sound : ∀ {filling : Filling} {state : State} {ends : List State} {text : List Char},
    fill filling state = some ends → filling.Accepts barred text →
      toLineReader.read state text ∈ ends

abbrev Fills := List (Expression × List Filling)

/-- Whether two expressions are the same; constants do not count. -/
def sameExpression : Expression → Expression → Bool
  | .named name, .named other => name == other
  | .field subject name, .field other last => sameExpression subject other && name == last
  | .filtered subject filter, .filtered other last => sameExpression subject other && filter == last
  | _, _ => false

theorem eq_of_sameExpression {value other : Expression} (same : sameExpression value other = true) :
    value = other := by
  fun_induction sameExpression value other <;> simp_all

def fillingsOf (fills : Fills) (value : Expression) : Option (List Filling) :=
  (fills.find? fun entry => sameExpression entry.1 value).map Prod.snd

def Provides (barred : Option Char) (fills : Fills) (scope : Scope) : Prop :=
  ∀ entry ∈ fills, ∀ found, entry.1.value scope = .ok found → Fits barred entry.2 found.plainText

theorem Provides.fits {barred : Option Char} {fills : Fills} {scope : Scope}
    (provides : Provides barred fills scope) {value : Expression} {fillings : List Filling}
    (filled : fillingsOf fills value = some fillings) {found : Datum}
    (here : value.value scope = .ok found) : Fits barred fillings found.plainText := by
  obtain ⟨⟨other, kinds⟩, first, rfl⟩ := Option.map_eq_some_iff.mp filled
  have same : sameExpression other value = true := by simpa using List.find?_some first
  obtain rfl := eq_of_sameExpression same
  exact provides _ (List.mem_of_find?_eq_some first) found here

namespace Tracer

variable {barred : Option Char} {State : Type} [DecidableEq State] (tracer : Tracer barred State)

def trace : List Filling → List State → Option (List State)
  | [], _ => none
  | [filling], states => gather (tracer.fill filling) states
  | filling :: next :: rest, states =>
      match gather (tracer.fill filling) states with
      | some ends => trace (next :: rest) (ends.map fun state => tracer.step state '/')
      | none => none

theorem trace_sound {fillings : List Filling} {states ends : List State} {text : List Char}
    (traced : tracer.trace fillings states = some ends) (fits : Fits barred fillings text)
    {state : State} (member : state ∈ states) : tracer.read state text ∈ ends := by
  induction fillings generalizing states text state with
  | nil => exact fits.elim
  | cons filling rest ih =>
      cases rest with
      | nil =>
          obtain ⟨here, filled, inside⟩ := mem_gather traced member
          exact inside _ (tracer.fill_sound filled fits)
      | cons next more =>
          obtain ⟨first, others, accepted, fit, rfl⟩ := fits
          simp only [trace] at traced
          split at traced
          · rename_i middle gathered
            obtain ⟨here, filled, inside⟩ := mem_gather gathered member
            have reached := inside _ (tracer.fill_sound filled accepted)
            rw [LineReader.read_append, LineReader.read_cons]
            exact ih traced fit (List.mem_map_of_mem reached)
          · simp at traced

/-- Where the texts of an outline lead. The turns of a loop must lead back. -/
def flow (fills : Fills) : Outline → List State → Option (List State)
  | .done, states => some states
  | .text words rest, states => flow fills rest (distinct (states.map fun state =>
      tracer.read state words))
  | .gap value rest, states =>
      match fillingsOf fills value with
      | some fillings =>
          match tracer.trace fillings states with
          | some ends => flow fills rest ends
          | none => none
      | none => none
  | .branch yes no rest, states =>
      match flow fills yes states, flow fills no states with
      | some first, some second => flow fills rest (distinct (first ++ second))
      | _, _ => none
  | .loop _ _ body rest, states =>
      match flow fills body states with
      | some ends => if ends.all states.contains then flow fills rest states else none
      | none => none

end Tracer

/-! Rendering follows the outline. -/

theorem mem_of_mem_turns {total index : Nat} {before : Option Datum} {items : List Datum}
    {item turn : Datum} (member : (item, turn) ∈ turns total index before items) :
    item ∈ items := by
  induction items generalizing index before with
  | nil => simp [turns] at member
  | cons first rest ih =>
      simp only [turns, List.mem_cons, Prod.mk.injEq] at member
      rcases member with ⟨rfl, -⟩ | later
      · exact List.mem_cons_self
      · exact List.mem_cons_of_mem _ (ih later)

theorem renderAll_cons {failed : String → Failure} {scope : Scope} {piece : Piece}
    {rest : List Piece} {text : List Char}
    (rendered : Piece.renderAll failed scope (piece :: rest) = .ok text) :
    ∃ first others, Piece.render failed scope piece = .ok first ∧
      Piece.renderAll failed scope rest = .ok others ∧ text = first ++ others := by
  simp only [Piece.renderAll] at rendered
  split at rendered
  · simp at rendered
  · rename_i first here
    cases later : Piece.renderAll failed scope rest with
    | error failure => simp [later, Except.map] at rendered
    | ok others =>
        simp only [later, Except.map, Except.ok.injEq] at rendered
        exact ⟨first, others, here, rfl, rendered.symm⟩

def TurnsServe (serves : Scope → Prop) (targets : Targets) (source : Expression) : Prop :=
  ∀ scope, serves scope → ∀ found items, source.value scope = .ok found → walked found = .ok items →
    ∀ item ∈ items, ∀ turn bound, targets.bind item = .ok bound →
      serves (bound ++ (loopName, turn) :: scope)

namespace Tracer

variable {barred : Option Char} {State : Type} (tracer : Tracer barred State)

theorem read_concatenated {states : List State} {results : List (Except Failure (List Char))}
    {text : List Char} (whole : concatenated results = .ok text)
    (each : ∀ part, .ok part ∈ results → ∀ state ∈ states, tracer.read state part ∈ states)
    {state : State} (member : state ∈ states) : tracer.read state text ∈ states := by
  induction results generalizing text state with
  | nil =>
      obtain rfl := Except.ok.inj whole
      exact member
  | cons result rest ih =>
      cases result with
      | error failure => simp [concatenated] at whole
      | ok part =>
          simp only [concatenated] at whole
          cases later : concatenated rest with
          | error failure => simp [later, Except.map] at whole
          | ok others =>
              simp only [later, Except.map, Except.ok.injEq] at whole
              subst whole
              rw [LineReader.read_append]
              exact ih later (fun other inside => each other (List.mem_cons_of_mem _ inside))
                (each part List.mem_cons_self state member)

theorem read_loop {states : List State} {serves : Scope → Prop} {failed : String → Failure}
    {targets : Targets} {source : Expression} {body : List Piece}
    (turns : TurnsServe serves targets source)
    (each : ∀ inner, serves inner → ∀ part, Piece.renderAll failed inner body = .ok part →
      ∀ state ∈ states, tracer.read state part ∈ states)
    {scope : Scope} (here : serves scope) {text : List Char}
    (rendered : Piece.render failed scope (.loop targets source body) = .ok text)
    {state : State} (member : state ∈ states) : tracer.read state text ∈ states := by
  simp only [Piece.render] at rendered
  split at rendered
  · simp at rendered
  · rename_i found value
    split at rendered
    · simp at rendered
    · rename_i items walk
      refine tracer.read_concatenated rendered (fun part inside => ?_) member
      obtain ⟨⟨item, turn⟩, taken, result⟩ := List.mem_map.mp inside
      simp only at result
      split at result
      · simp at result
      · rename_i bound binding
        have served := turns scope here found items value walk item (mem_of_mem_turns taken) turn
          bound binding
        exact each _ served part result

theorem flow_sound [DecidableEq State] {fills : Fills} {serves : Scope → Prop}
    (provides : ∀ scope, serves scope → Provides barred fills scope) {failed : String → Failure}
    {pieces : List Piece} {outline : Outline} (outlines : Outlines pieces outline)
    (loops : ∀ entry ∈ outline.loops, TurnsServe serves entry.1 entry.2) {scope : Scope}
    (here : serves scope) {text : List Char}
    (rendered : Piece.renderAll failed scope pieces = .ok text) {states ends : List State}
    (flows : tracer.flow fills outline states = some ends) {state : State}
    (member : state ∈ states) : tracer.read state text ∈ ends := by
  induction outlines generalizing scope text states ends state with
  | nil =>
      obtain rfl := Except.ok.inj rendered
      obtain rfl := Option.some.inj flows
      exact member
  | lines rows later ih =>
      obtain ⟨first, others, shown, rest, rfl⟩ := renderAll_cons rendered
      have words := rows.toList_join
      simp only [Piece.lines, Piece.render, words, Except.ok.injEq] at shown
      subst shown
      rw [LineReader.read_append]
      exact ih loops here rest flows (mem_distinct (List.mem_map_of_mem member))
  | text later ih =>
      obtain ⟨first, others, shown, rest, rfl⟩ := renderAll_cons rendered
      simp only [Piece.render, String.toList_ofList, Except.ok.injEq] at shown
      subst shown
      rw [LineReader.read_append]
      exact ih loops here rest flows (mem_distinct (List.mem_map_of_mem member))
  | gap later ih =>
      obtain ⟨first, others, shown, rest, rfl⟩ := renderAll_cons rendered
      simp only [Piece.render] at shown
      split at shown
      · simp at shown
      · rename_i found value
        obtain rfl := Except.ok.inj shown
        simp only [flow] at flows
        split at flows
        · rename_i fillings filled
          split at flows
          · rename_i middle traced
            have reached := tracer.trace_sound traced ((provides scope here).fits filled value) member
            rw [LineReader.read_append]
            exact ih loops here rest flows reached
          · simp at flows
        · simp at flows
  | branch positive negative later firstIh secondIh ih =>
      obtain ⟨first, others, shown, rest, rfl⟩ := renderAll_cons rendered
      simp only [Outline.loops, List.mem_append] at loops
      simp only [flow] at flows
      split at flows
      · rename_i yesEnds noEnds yesFlows noFlows
        have reached : tracer.read state first ∈ distinct (yesEnds ++ noEnds) := by
          simp only [Piece.render] at shown
          split at shown
          · simp at shown
          · split at shown
            · exact mem_distinct (List.mem_append_left _ (firstIh
                (fun entry inside => loops entry (.inl (.inl inside))) here shown yesFlows member))
            · exact mem_distinct (List.mem_append_right _ (secondIh
                (fun entry inside => loops entry (.inl (.inr inside))) here shown noFlows member))
        rw [LineReader.read_append]
        exact ih (fun entry inside => loops entry (.inr inside)) here rest flows reached
      · simp at flows
  | @loop targets source body more inner outline turn later turnIh ih =>
      obtain ⟨first, others, shown, rest, rfl⟩ := renderAll_cons rendered
      simp only [Outline.loops, List.mem_append, List.mem_cons] at loops
      simp only [flow] at flows
      split at flows
      · rename_i turnEnds turnFlows
        split at flows
        · rename_i back
          have reached : tracer.read state first ∈ states := by
            refine tracer.read_loop (loops (targets, source) (.inl (.inl rfl)))
              (fun scope served part result last lastMember => ?_) here shown member
            have ends := turnIh (fun entry inside => loops entry (.inl (.inr inside))) served
              result turnFlows lastMember
            exact List.contains_iff_mem.mp (List.all_eq_true.mp back _ ends)
          rw [LineReader.read_append]
          exact ih (fun entry inside => loops entry (.inr inside)) here rest flows reached
        · simp at flows
      · simp at flows

def accepts [DecidableEq State] (fills : Fills) (outline : Outline) : Bool :=
  match tracer.flow fills outline [tracer.start] with
  | some ends => ends.all fun state => tracer.step state '\n' = tracer.start
  | none => false

theorem closes_of_accepts [DecidableEq State] {fills : Fills} {serves : Scope → Prop}
    (provides : ∀ scope, serves scope → Provides barred fills scope) {failed : String → Failure}
    {pieces : List Piece} {outline : Outline} (outlines : Outlines pieces outline)
    (loops : ∀ entry ∈ outline.loops, TurnsServe serves entry.1 entry.2)
    (accepted : tracer.accepts fills outline = true) {scope : Scope} (here : serves scope)
    {text : List Char} (rendered : Piece.renderAll failed scope pieces = .ok text) :
    tracer.Closes text := by
  simp only [accepts] at accepted
  split at accepted
  · rename_i ends flows
    have reached := tracer.flow_sound provides outlines loops here rendered flows
      (List.mem_singleton.mpr rfl)
    have closed := List.all_eq_true.mp accepted _ reached
    rw [decide_eq_true_eq] at closed
    exact closed
  · exact Bool.noConfusion accepted

end Tracer

theorem renderAll_of_render {template : Template} {values : Scope} {text : List Char}
    (rendered : template.render values = .ok text) :
    Piece.renderAll template.failed values template.pieces = .ok text := by
  simp only [Template.render] at rendered
  split at rendered
  · simp at rendered
  · split at rendered
    · simp at rendered
    · split at rendered
      · exact rendered
      · simp at rendered

end StatusLine.Script

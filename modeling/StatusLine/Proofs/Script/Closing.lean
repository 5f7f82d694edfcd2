import StatusLine.Proofs.Script.Fillings
import StatusLine.Proofs.Script.Tracers
import StatusLine.Script.Templates

/-!
From tidy templates to texts that close. Every template is tidy: whatever fills its gaps, it brings
no carriage return into the script, and closes under every reader of the audit if the values fit the
gaps. So do the texts between templates: conditions, headings, the shared routines.
-/

namespace StatusLine.Script

def Checked (check : Fills → Outline → Bool) (fills : Fills) (loops : List (Targets × Expression))
    (pieces : List Piece) : Prop :=
  ∃ outline, Outlines pieces outline ∧ outline.loops = loops ∧ check fills outline = true

abbrev TidyPieces := Checked isTidy

abbrev TidyLookup := Checked isTidyLookup

structure TemplatesTidy : Prop where
  /-- The header behind its first line. -/
  header : TidyPieces [(.named "version", [.bare]), (.named "theme", [.bare]), (.named "colors",
      [.bare]), (.named "features", [.bare]), (.named "cache_dir", [.directory]), (.named "ttl",
      [.bare]), (.named "grace", [.bare])] [] (.text shebang :: header.pieces.tail)
  logging : TidyPieces [(.named "cache_dir", [.directory])] [] logging.pieces
  rateLimiter : TidyPieces [(.named "cache_dir", [.directory]), (.named "min_interval", [.bare])]
      [] rateLimiter.pieces
  extraction : TidyPieces [(.field (.named "field") "name", [.input]), (.filtered (.field (.named
      "field") "default") .shellWord, [.command]), (.named "jq_object", [.expression])] [(.one
      "field", .named "fields")] extraction.pieces
  logOutput : TidyPieces [(.field (.named "field") "name", [.input])] [(.one "field", .named
      "fields")] logOutput.pieces
  segment : TidyPieces [(.named "label", [.quoted]), (.named "fmt", [.quoted]), (.named "clr",
      [.command]), (.named "args", [.arguments])] [] Segment.template.pieces
  palette : TidyPieces [(.named "theme", [.bare]), (.named "name", [.bare]), (.named "code",
      [.word])] [(.parts ["name", "code"], .named "colors")] Palette.template.pieces
  git : TidyLookup [(.named "timeout", [.bare]), (.named "cache_file", [.directory, .bare]),
      (.named "ttl", [.bare]), (.named "grace", [.bare]), (.named "command", [.bare])] []
      Git.template.pieces
  collector : TidyPieces [] [] Metrics.collector.pieces
  metricsLookup : TidyLookup [(.named "cache_file", [.directory, .bare]), (.named "ttl", [.bare]),
      (.named "grace", [.bare])] [] Metrics.lookup.pieces
  level : TidyPieces [(.named "var", [.bare]), (.named "value", [.word]), (.named "threshold",
      [.bare]), (.named "warning", [.bare])] [] Metrics.level.pieces
  blocks : TidyPieces [(.named "timeout", [.bare]), (.named "command", [.bare]), (.named "args",
      [.bare])] [] Usage.blocks.pieces
  usageLookup : TidyLookup [(.named "name", [.bare]), (.named "cache_file", [.directory, .bare]),
      (.named "ttl", [.bare]), (.named "grace", [.bare]), (.named "jq_object", [.expression])]
      [(.one "name", .named "variables")] Usage.lookup.pieces
  session : TidyPieces [] [] Usage.session.pieces

theorem templatesTidy : TemplatesTidy where
  header := ⟨_, by repeat constructor, rfl, by decide +kernel⟩
  logging := ⟨_, by repeat constructor, rfl, by decide +kernel⟩
  rateLimiter := ⟨_, by repeat constructor, rfl, by decide +kernel⟩
  extraction := ⟨_, by repeat constructor, rfl, by decide +kernel⟩
  logOutput := ⟨_, by repeat constructor, rfl, by decide +kernel⟩
  segment := ⟨_, by repeat constructor, rfl, by decide +kernel⟩
  palette := ⟨_, by repeat constructor, rfl, by decide +kernel⟩
  git := ⟨_, by repeat constructor, rfl, by decide +kernel⟩
  collector := ⟨_, by repeat constructor, rfl, by decide +kernel⟩
  metricsLookup := ⟨_, by repeat constructor, rfl, by decide +kernel⟩
  level := ⟨_, by repeat constructor, rfl, by decide +kernel⟩
  blocks := ⟨_, by repeat constructor, rfl, by decide +kernel⟩
  usageLookup := ⟨_, by repeat constructor, rfl, by decide +kernel⟩
  session := ⟨_, by repeat constructor, rfl, by decide +kernel⟩

end StatusLine.Script

namespace StatusLine.Script

/-! Values that fit. -/

theorem Provides.nil {barred : Option Char} {scope : Scope} : Provides barred [] scope :=
  fun _ member => absurd member List.not_mem_nil

theorem Provides.cons {barred : Option Char} {fills : Fills} {scope : Scope} {expression : Expression}
    {kinds : List Filling} {value : Datum} (here : expression.value scope = .ok value)
    (fits : Fits barred kinds value.plainText) (rest : Provides barred fills scope) :
    Provides barred ((expression, kinds) :: fills) scope := by
  intro entry member found valued
  rcases List.mem_cons.mp member with rfl | later
  · obtain rfl := Except.ok.inj (here.symm.trans valued)
    exact fits
  · exact rest entry later found valued

inductive Served (base : Scope) (binds : Scope → Prop) : Scope → Prop
  | base : Served base binds base
  | turn {bound inner : Scope} {state : Datum} (binding : binds bound)
      (outer : Served base binds inner) :
      Served base binds (bound ++ (loopName, state) :: inner)

theorem Served.find? {base scope : Scope} {binds : Scope → Prop} (served : Served base binds scope)
    {name : String} (other : name ≠ loopName)
    (free : ∀ bound, binds bound → Scope.find? bound name = .none) :
    scope.find? name = base.find? name := by
  induction served with
  | base => rfl
  | @turn bound inner state binding outer ih =>
      have unbound := free bound binding
      simp only [Scope.find?, Option.map_eq_none_iff] at unbound ih ⊢
      have apart : (loopName == name) = false := by simpa using Ne.symm other
      rw [List.find?_append, unbound, Option.none_or, List.find?_cons, apart]
      exact ih

theorem value_named {scope : Scope} {name : String} {value : Datum}
    (found : scope.find? name = some value) : (Expression.named name).value scope = .ok value := by
  simp [Expression.value, found]

theorem walked_list (items : List Datum) : walked (.list items) = .ok items := by
  have self : Scope.find? provided selfName =
      some (.thing ⟨"jinja2.runtime", "TemplateReference"⟩ "<TemplateReference None>" []) := rfl
  have other : ¬ (some (Datum.list items) == Scope.find? provided selfName) = true := by
    rw [self]
    show ¬ Datum.same _ _ = true
    rw [Datum.same.eq_def]
    simp only [Bool.not_eq_true]
    rfl
  rw [walked, if_neg other]
  rfl

section Readers

variable {State : Type} {barred : Option Char} {reader : LineReader State}

/-! Templates. -/

theorem ClosesAll.pieces {check : Fills → Outline → Bool} (closes : ClosesAll barred reader check)
    {fills : Fills} {pieces : List Piece} (checked : Checked check fills [] pieces) {scope : Scope}
    (provides : Provides barred fills scope) {failed : String → Failure} {text : List Char}
    (rendered : Piece.renderAll failed scope pieces = .ok text) : reader.Closes text := by
  obtain ⟨outline, outlines, loops, accepted⟩ := checked
  have here : ∀ inner, inner = scope → Provides barred fills inner := by
    rintro inner rfl
    exact provides
  refine closes here outlines ?_ accepted rfl rendered
  intro entry member
  rw [loops] at member
  exact absurd member List.not_mem_nil

theorem ClosesAll.loop {check : Fills → Outline → Bool} (closes : ClosesAll barred reader check)
    {fills : Fills} {targets : Targets} {source : Expression} {pieces : List Piece}
    (checked : Checked check fills [(targets, source)] pieces) {base : Scope}
    {binds : Scope → Prop}
    (provides : ∀ scope, Served base binds scope → Provides barred fills scope)
    (bound : ∀ scope, Served base binds scope → ∀ found items, source.value scope = .ok found →
      walked found = .ok items → ∀ item ∈ items, ∀ inner, targets.bind item = .ok inner →
        binds inner)
    {failed : String → Failure} {text : List Char}
    (rendered : Piece.renderAll failed base pieces = .ok text) : reader.Closes text := by
  obtain ⟨outline, outlines, loops, accepted⟩ := checked
  refine closes provides outlines ?_ accepted Served.base rendered
  intro entry member
  rw [loops, List.mem_singleton] at member
  subst member
  intro scope served found items value walks item inside turn inner binding
  exact .turn (bound scope served found items value walks item inside inner binding) served

theorem AcceptsTidy.closes_pieces (accepts : AcceptsTidy barred reader) {fills : Fills}
    {pieces : List Piece} (tidy : TidyPieces fills [] pieces) {scope : Scope}
    (provides : Provides barred fills scope) {failed : String → Failure} {text : List Char}
    (rendered : Piece.renderAll failed scope pieces = .ok text) : reader.Closes text :=
  ClosesAll.pieces accepts.closes tidy provides rendered

theorem AcceptsTidy.closes_template (accepts : AcceptsTidy barred reader) {fills : Fills}
    {template : Template} (tidy : TidyPieces fills [] template.pieces) {scope : Scope}
    (provides : Provides barred fills scope) {text : List Char}
    (rendered : template.render scope = .ok text) : reader.Closes text :=
  accepts.closes_pieces tidy provides (renderAll_of_render rendered)

theorem AcceptsLookups.closes_template (accepts : AcceptsLookups barred reader) {fills : Fills}
    {template : Template} (tidy : TidyLookup fills [] template.pieces) {scope : Scope}
    (provides : Provides barred fills scope) {text : List Char}
    (rendered : template.render scope = .ok text) : reader.Closes text :=
  ClosesAll.pieces accepts.closes tidy provides (renderAll_of_render rendered)

/-! Fixed texts. -/

def TidyTexts (texts : List String) : Prop :=
  TidyPieces [] [] (texts.map .text)

theorem renderAll_texts (failed : String → Failure) (texts : List String) :
    Piece.renderAll failed [] (texts.map .text) = .ok (texts.flatMap String.toList) := by
  induction texts with
  | nil => rfl
  | cons text rest ih => simp [Piece.renderAll, Piece.render, ih, Except.map]

theorem AcceptsTidy.closes_texts (accepts : AcceptsTidy barred reader) {texts : List String}
    (tidy : TidyTexts texts) : reader.Closes (texts.flatMap String.toList) :=
  accepts.closes_pieces tidy .nil (renderAll_texts (fun _ => .homeUnknown) texts)

theorem AcceptsTidy.closes_text (accepts : AcceptsTidy barred reader) {text : String}
    (tidy : TidyTexts [text]) : reader.Closes text.toList := by
  simpa using accepts.closes_texts tidy

def TidyCondition (texts : List String) : Prop :=
  TidyTexts ("if " :: texts ++ ["; then"])

theorem AcceptsTidy.closes_heading (accepts : AcceptsTidy barred reader) {texts : List String}
    (tidy : TidyCondition texts) {condition : String}
    (shape : condition.toList = texts.flatMap String.toList) :
    reader.Closes ("if ".toList ++ condition.toList ++ "; then".toList) := by
  have closes := accepts.closes_texts tidy
  rw [shape]
  simpa [List.flatMap_append, List.append_assoc] using closes

structure TextsTidy : Prop where
  otherwise : TidyTexts ["else"]
  ending : TidyTexts ["fi"]
  inner : TidyTexts ["  fi"]
  routines : ∀ routine ∈ Routine.all, TidyTexts [routine.body]
  tracking : TidyTexts [contentTracking]
  epilogue : TidyTexts [epilogue]
  bootstrap : TidyTexts [Palette.bootstrap]
  trend : TidyTexts [Metrics.trend]
  directory : TidyTexts [Directory.query]
  share : TidyTexts
    ["cache_share=$((cache_read_tokens * 100 / (input_tokens + cache_read_tokens)))"]
  headings : ∀ heading ∈ ["# ---- helpers ----", "# ---- render statusline ----",
    "# ---- system metrics ----"], TidyTexts [heading]
  lines : ∀ line ∈ ["if [ -n \"$model_name\" ]; then", "  if [ -n \"$model_version\" ]; then"],
    TidyTexts [line]
  conditions : ∀ condition ∈ ["[ -n \"$current_dir\" ]", "[ -n \"$git_branch_name\" ]",
      "[ -n \"$cpu_percent\" ] && [ \"$cpu_percent\" != \"0\" ]",
      "[ \"$\x7bmem_total_gb:-0\x7d\" -gt 0 ] 2>/dev/null",
      "[ -n \"$load_1min\" ] && [ \"$load_1min\" != \"0\" ]", "[ -n \"$session_text\" ]"],
    TidyCondition [condition]
  decimals : ∀ name ∈ ["cost_usd", "cost_per_hour", "tokens_per_minute", "projected_cost",
    "projected_minutes"], TidyCondition ["[[ $", name, " =~ ^[0-9.]+$ ]]"]
  whole : TidyCondition ["[[ $", "total_tokens", " =~ ^[0-9]+$ ]]"]
  both : TidyCondition ["[[ $", "input_tokens", " =~ ^[0-9]+$ ]]", " && ", "[[ $",
    "cache_read_tokens", " =~ ^[0-9]+$ ]]",
    " && [ $((input_tokens + cache_read_tokens)) -gt 0 ]"]
  /-- The condition of the alert, up to its limit. -/
  alert : TidyPieces [(.named "limit", [.bare])] [] [.text "if ", .text "[[ $",
    .text "cost_per_hour", .text " =~ ^[0-9.]+$ ]]", .text " && num_above \"$cost_per_hour\" ",
    .output (.named "limit"), .text "; then"]

end Readers

theorem textsTidy : TextsTidy where
  otherwise := ⟨_, by repeat constructor, rfl, by decide +kernel⟩
  ending := ⟨_, by repeat constructor, rfl, by decide +kernel⟩
  inner := ⟨_, by repeat constructor, rfl, by decide +kernel⟩
  routines := by
    intro routine member
    simp only [Routine.all, List.mem_cons, List.not_mem_nil, or_false] at member
    rcases member with rfl | rfl | rfl | rfl | rfl | rfl | rfl
    all_goals exact ⟨_, by repeat constructor, rfl, by decide +kernel⟩
  tracking := ⟨_, by repeat constructor, rfl, by decide +kernel⟩
  epilogue := ⟨_, by repeat constructor, rfl, by decide +kernel⟩
  bootstrap := ⟨_, by repeat constructor, rfl, by decide +kernel⟩
  trend := ⟨_, by repeat constructor, rfl, by decide +kernel⟩
  directory := ⟨_, by repeat constructor, rfl, by decide +kernel⟩
  share := ⟨_, by repeat constructor, rfl, by decide +kernel⟩
  headings := by
    intro heading member
    simp only [List.mem_cons, List.not_mem_nil, or_false] at member
    rcases member with rfl | rfl | rfl
    all_goals exact ⟨_, by repeat constructor, rfl, by decide +kernel⟩
  lines := by
    intro heading member
    simp only [List.mem_cons, List.not_mem_nil, or_false] at member
    rcases member with rfl | rfl
    all_goals exact ⟨_, by repeat constructor, rfl, by decide +kernel⟩
  conditions := by
    intro heading member
    simp only [List.mem_cons, List.not_mem_nil, or_false] at member
    rcases member with rfl | rfl | rfl | rfl | rfl | rfl
    all_goals exact ⟨_, by repeat constructor, rfl, by decide +kernel⟩
  decimals := by
    intro name member
    simp only [List.mem_cons, List.not_mem_nil, or_false] at member
    rcases member with rfl | rfl | rfl | rfl | rfl
    all_goals exact ⟨_, by repeat constructor, rfl, by decide +kernel⟩
  whole := ⟨_, by repeat constructor, rfl, by decide +kernel⟩
  both := ⟨_, by repeat constructor, rfl, by decide +kernel⟩
  alert := ⟨_, by repeat constructor, rfl, by decide +kernel⟩

end StatusLine.Script

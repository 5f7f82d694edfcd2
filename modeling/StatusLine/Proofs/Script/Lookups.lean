import StatusLine.Proofs.Script.ShownFragments
import StatusLine.Proofs.Script.Soundness

/-!
The lookups of a script and the times they are called with. Each of the three is called in the query
of its fragment, and nothing else in a script starts like a call.
-/

namespace StatusLine

/-- A call of the routine that looks something up: the variable with the name of its file, for how
long what is found is fresh, and for how long it may be served stale. -/
structure LookupCall where
  file : String
  ttl : Int
  grace : Int

namespace LookupCall

/-- How a call goes on behind the quote of its first argument. -/
def text (call : LookupCall) : List Char :=
  '$' :: call.file.toList ++ ['"', ' '] ++ (Text.ofInt call.ttl ++ ' ' ::
    (Text.ofInt call.grace ++ [' ']))

/-- The calls that settings lead to. Metrics are collected at the rate of a configuration, and may
be served stale for no less than that. -/
inductive IsOf (settings : Settings) : LookupCall → Prop
  | git : IsOf settings ⟨"git_cache_file", settings.gitTtl, settings.gitGrace⟩
  | metrics (rate : Int) : IsOf settings ⟨"sys_cache_file", rate, max settings.lookupGrace rate⟩
  | usage : IsOf settings ⟨"usage_cache_file", settings.lookupTtl, settings.lookupGrace⟩

theorem IsOf.file {settings : Settings} {call : LookupCall} (known : IsOf settings call) :
    call.file ∈ ["git_cache_file", "sys_cache_file", "usage_cache_file"] := by
  cases known <;> simp

def IsText (settings : Settings) (text : List Char) : Prop :=
  ∃ call, IsOf settings call ∧ call.text = text

end LookupCall

open LookupCall Script CallReading

/-! Texts around calls. -/

namespace Script

theorem callFree_number {value : Datum} (number : IsNumber value) : CallFree value.plainText :=
  callFree_of_accepts (by decide) (number.fits : Filling.Accepts none .bare value.plainText)

theorem callFree_call {settings : Settings} {call : LookupCall} (known : IsOf settings call) :
    CallFree call.text := by
  have numbers : ∀ n : Int, CallFree (Text.ofInt n) := fun n => callFree_number (.int n)
  have blank : CallFree [' '] := by decide
  have named : ∀ file ∈ ["git_cache_file", "sys_cache_file", "usage_cache_file"],
      CallFree ('$' :: file.toList ++ ['"', ' ']) := by decide
  exact (named _ known.file).append ((numbers _).append (blank.append ((numbers _).append blank)))

theorem newline_not_mem_call {settings : Settings} {call : LookupCall}
    (known : IsOf settings call) : '\n' ∉ call.text := by
  have numbers : ∀ n : Int, '\n' ∉ Text.ofInt n := fun n member =>
    absurd (List.all_eq_true.mp (number_ofInt n) _ member) (by decide)
  have named : ∀ file ∈ ["git_cache_file", "sys_cache_file", "usage_cache_file"],
      '\n' ∉ '$' :: file.toList ++ ['"', ' '] := by decide
  simp only [text, List.mem_append, List.mem_cons, List.not_mem_nil, or_false]
  rintro (before | ttl | blank | grace | blank)
  · exact named _ known.file (by simpa using before)
  · exact numbers _ ttl
  · cases blank
  · exact numbers _ grace
  · cases blank

theorem callFree_words {words : List Char} (free : CallFree words) :
    CallFree (String.ofList words).toList := by
  rwa [String.toList_ofList]

theorem callFree_rows {rows : List String} {words : List Char} (here : Rows rows words)
    (free : CallFree words) : CallFree (Names.join "\n" rows).toList := by
  rwa [here.toList_join]

theorem passes_call {settings : Settings} [DecidablePred (IsText settings)] {call : LookupCall}
    (known : IsOf settings call) {front after : List Char} {start : String}
    (shape : start.toList = front ++ (callStart ++ ('$' :: call.file.toList ++ ['"', ' '])))
    (first : CallFree front) (later : CallFree after) :
    Passes (IsText settings) (start.toList ++ (Text.ofInt call.ttl ++ ' ' ::
      (Text.ofInt call.grace ++ ' ' :: after))) := by
  have whole : Passes (IsText settings) (callStart ++ call.text) :=
    .call ⟨call, known, rfl⟩ (callFree_call known) (newline_not_mem_call known) (by simp [text])
  have split : start.toList ++ (Text.ofInt call.ttl ++ ' ' ::
      (Text.ofInt call.grace ++ ' ' :: after)) = front ++ ((callStart ++ call.text) ++ after) := by
    simp [shape, text]
  rw [split]
  exact (Passes.of_free first).append (whole.append (.of_free later))

/-! Files. -/

variable {context : Context} {domain : String} {fields : Datum} {file : List Char}

theorem callFree_file (filed : context.cacheFile domain fields = .ok file) :
    CallFree file ∧ CallFree (file ++ ['"']) := by
  simp only [Context.cacheFile] at filed
  split at filed
  · cases filed
  · rename_i directory located
    obtain ⟨key, keyed, rfl⟩ := map_eq_ok filed
    have lead : CallFree directory :=
      callFree_directory (accepts_cacheDirectory (by decide) (.none _) located)
    have word := read_unquotingStates (by decide) (by decide) (word_key keyed)
      (by decide : some 0 ∈ unquotingStates)
    obtain ⟨m, below, reads⟩ := List.mem_map.mp word
    have lands : ∀ n, callWatcher.read (some n) ('/' :: key.toList) = some m := by
      intro n
      have slash : callWatcher.step (some n) '/' = some 0 := by simp [follow]
      rw [LineReader.read_cons, slash, reads]
    have behind : CallFree ('/' :: key.toList) := fun n _ => by rw [lands]; rfl
    have quoted : CallFree ('/' :: key.toList ++ ['"']) := by
      intro n _
      have all : ∀ m < 3, (callWatcher.read (some m) ['"']).isSome = true := by decide
      rw [LineReader.read_append, lands]
      exact all m (List.mem_range.mp below)
    exact ⟨lead.append behind, by simpa using lead.append quoted⟩

end Script

/-! The queries. -/

namespace Git

def queryStart : String :=
  Names.join "\n" [
    "# git",
    "git_branch_name=\"\"",
    "is_git_repository=0",
    "if [ \"$(command -v git)\" ] && run_bounded "]

def fileStart : String :=
  Names.join "\n" [
    " git rev-parse --git-dir >/dev/null 2>&1; then",
    "  is_git_repository=1",
    "fi",
    "if [ \"$is_git_repository\" -eq 1 ]; then",
    "  git_cache_file=\""]

def callLine : String :=
  Names.join "\n" [
    "_$\x7bPWD//\\//_\x7d\"",
    "  git_branch_name=$(cache_lookup \"$git_cache_file\" "]

def callFront : String :=
  "_$\x7bPWD//\\//_\x7d\"\n  git_branch_name=$("

theorem callLine_eq : callLine.toList =
    callFront.toList ++ (callStart ++ ('$' :: "git_cache_file".toList ++ ['"', ' '])) := by
  decide +kernel

theorem render_template (file : List Char) (options : Options) :
    template.render (values file options) = .ok (queryStart.toList ++ (options.timeout.plainText ++
      (fileStart.toList ++ ((String.ofList file).toList ++ (callLine.toList ++
        (options.ttl.plainText ++ ' ' :: (options.grace.plainText ++ ' ' ::
          ("run_bounded ".toList ++ (options.timeout.plainText ++ (" ".toList ++
            ((Names.join " " command).toList ++ (")\nfi".toList ++ [])))))))))))) :=
  rfl

theorem startsWith_call {file text : List Char} {options : Options}
    (asked : template.render (values file options) = .ok text) :
    ∃ lead, StartsWith text (lead ++ callStart) := by
  obtain rfl := Except.ok.inj ((render_template file options).symm.trans asked)
  have comment : queryStart.toList.head? = some '#' := rfl
  refine ⟨queryStart.toList ++ (options.timeout.plainText ++ (fileStart.toList ++
    ((String.ofList file).toList ++ callFront.toList))), ?_, ?_⟩
  · rw [List.append_assoc, List.head?_append, comment]
    rfl
  · rw [callLine_eq]
    simp only [List.append_assoc, List.cons_append]
    exact ⟨'$', _, by decide, rfl⟩

end Git

section Queries

variable {context : Context} [DecidablePred (IsText context.settings)] {text : List Char}

theorem passes_git {config : Configuration} {options : Git.Options} {file : List Char}
    (configured : Git.Options.ofConfiguration? context.settings config = some options)
    (filed : context.commandFile "git" Git.command = .ok file)
    (asked : Git.template.render (Git.values file options) = .ok text) :
    Passes (IsText context.settings) text := by
  obtain ⟨-, chosen⟩ := Option.ite_none_right_eq_some.mp configured
  obtain rfl := Option.some.inj chosen
  obtain rfl := Except.ok.inj ((Git.render_template file _).symm.trans asked)
  have timeout := callFree_number (.int context.settings.lookupTimeout)
  rw [String.toList_ofList]
  refine (Passes.of_free (callFree_rows (by repeat constructor) (by decide +kernel))).append
    ((Passes.of_free timeout).append ((Passes.of_free (callFree_rows (by repeat constructor) (by decide +kernel))).append
      ((Passes.of_free (callFree_file filed).1).append ?_)))
  refine passes_call .git Git.callLine_eq (callFree_words (by decide +kernel)) ?_
  exact CallFree.append (callFree_words (by decide +kernel)) (timeout.append (.append (by decide)
    (.append (by decide +kernel) (.append (callFree_words (by decide +kernel)) .nil))))

theorem passes_file {domain : String} {fields : Datum} {file rest : List Char}
    (filed : context.cacheFile domain fields = .ok file)
    (later : Passes (IsText context.settings) rest) :
    Passes (IsText context.settings) (file ++ '"' :: rest) := by
  have whole := (Passes.of_free (callFree_file filed).2).append later
  rwa [List.append_assoc] at whole

theorem larger_eq_max (n m : Int) : Datum.larger (.int n) (.int m) = .ok (.int (max n m)) := by
  have chosen : Datum.larger (.int n) (.int m) = .ok (if decide (n < m) then .int m else .int n) :=
    rfl
  rw [chosen]
  by_cases less : n < m
  · have larger : max n m = m := by omega
    simp [less, larger]
  · have larger : max n m = n := by omega
    simp [less, larger]

theorem passes_metrics {config : Configuration} {options : Metrics.Options} {fields : Datum}
    {file : List Char} {values : Scope}
    (configured : Metrics.Options.ofConfiguration? config = some options)
    (filed : context.cacheFile "system" fields = .ok file)
    (valued : Metrics.lookupValues context file options = .ok values)
    (asked : Metrics.lookup.render values = .ok text) :
    Passes (IsText context.settings) text := by
  obtain ⟨-, chosen⟩ := Option.ite_none_right_eq_some.mp configured
  obtain rfl := Option.some.inj chosen
  obtain ⟨grace, larger, rfl⟩ := map_eq_ok valued
  obtain rfl := Except.ok.inj ((larger_eq_max _ _).symm.trans larger)
  obtain rfl := Except.ok.inj ((Metrics.render_lookup file _ _).symm.trans asked)
  have shape : "\nsystem_metrics=$(cache_lookup \"$sys_cache_file\" ".toList =
      "\nsystem_metrics=$(".toList ++ (callStart ++ ('$' :: "sys_cache_file".toList ++
        ['"', ' '])) := by decide +kernel
  have behind : ∃ rest, Metrics.lookupEnd.toList = ' ' :: rest ∧ CallFree rest :=
    ⟨_, Rows.toList_join (by repeat constructor), by decide +kernel⟩
  obtain ⟨rest, blank, free⟩ := behind
  have opening : "\"\nsystem_metrics=$(cache_lookup \"$sys_cache_file\" ".toList =
      '"' :: "\nsystem_metrics=$(cache_lookup \"$sys_cache_file\" ".toList := toList_cons _ _
  have spoken : (String.ofList file).toList = file := String.toList_ofList
  rw [spoken, List.append_nil, blank, opening, List.cons_append]
  refine (Passes.of_free (callFree_rows (by repeat constructor) (by decide +kernel))).append
    (passes_file filed ?_)
  exact passes_call (.metrics _) shape (callFree_words (by decide +kernel)) free

def usageBehind : String :=
  Names.join "\n" [
    " usage_blocks)",
    "  if [ -n \"$blocks_output\" ]; then",
    "    eval \"$(printf '%s' \"$blocks_output\" | jq -r '[.blocks[]? | select(.isActive == true)][0] // empty | "]

def usageEnd : String :=
  Names.join "\n" [
    " | to_entries | .[] | \"\\(.key)=\\(.value | @sh)\"' 2>/dev/null)\"",
    "  fi",
    "fi"]

theorem Usage.render_lookup (file : List Char) (options : Usage.Options) :
    lookup.render (lookupValues file options) = .ok ("# usage (ccusage)\n".toList ++
      ((blockFields options).flatMap (fun field => field.name.toList ++ "=\"\"\n".toList) ++
        ("if [ \"$(command -v jq)\" ]; then\n  usage_cache_file=\"".toList ++
          ((String.ofList file).toList ++
            '"' :: ("\n  blocks_output=$(cache_lookup \"$usage_cache_file\" ".toList ++
              (options.ttl.plainText ++ ' ' :: (options.grace.plainText ++ (usageBehind.toList ++
                ((blockObject (blockFields options)).toList ++ (usageEnd.toList ++ [])))))))))) := by
  have pieces : lookup.render (lookupValues file options) =
      Piece.renderAll lookup.failed (lookupValues file options) lookup.pieces := rfl
  refine pieces.trans (renderAll_of_first rfl (renderAll_of_first
    (render_loop rfl fun field turn => ?_) rfl))
  exact renderAll_of_first rfl (renderAll_of_last rfl)

theorem passes_usage {config : Configuration} {options : Usage.Options} {file : List Char}
    (configured : Usage.Options.ofConfiguration? context.settings config = some options)
    (filed : context.commandFile "usage" Usage.command = .ok file)
    (asked : Usage.lookup.render (Usage.lookupValues file options) = .ok text) :
    Passes (IsText context.settings) text := by
  have times : options.ttl = .int context.settings.lookupTtl ∧
      options.grace = .int context.settings.lookupGrace := by
    obtain ⟨-, chosen⟩ := Option.ite_none_right_eq_some.mp configured
    obtain rfl := Option.some.inj chosen
    exact ⟨rfl, rfl⟩
  have cleared : CallFree ((Usage.blockFields options).flatMap fun field =>
      field.name.toList ++ "=\"\"\n".toList) := by
    refine CallFree.flatMap fun field member => CallFree.append ?_ (by decide +kernel)
    have bare : Filling.Accepts none .bare field.name.toList :=
      (tidy_blockField field (known_of_mem_blockFields member)).1
    exact callFree_of_accepts (by decide) bare
  have shape : "\n  blocks_output=$(cache_lookup \"$usage_cache_file\" ".toList =
      "\n  blocks_output=$(".toList ++ (callStart ++ ('$' :: "usage_cache_file".toList ++
        ['"', ' '])) := by decide +kernel
  have behind : ∃ rest, usageBehind.toList = ' ' :: rest ∧ CallFree rest :=
    ⟨_, Rows.toList_join (by repeat constructor), by decide +kernel⟩
  obtain ⟨rest, blank, free⟩ := behind
  obtain rfl := Except.ok.inj ((Usage.render_lookup file options).symm.trans asked)
  have spoken : (String.ofList file).toList = file := String.toList_ofList
  rw [spoken, times.1, times.2, blank]
  refine (Passes.of_free (callFree_words (by decide +kernel))).append
    ((Passes.of_free cleared).append ((Passes.of_free (callFree_words (by decide +kernel))).append
      (passes_file filed ?_)))
  refine passes_call .usage shape (callFree_words (by decide +kernel)) ?_
  exact free.append ((callFree_blockObject options).append
    (.append (callFree_rows (by repeat constructor) (by decide +kernel)) .nil))

theorem closesLookups_known :
    ClosesLookups (CallReading.reader (IsText context.settings)) context where
  git := fun configured filed asked => (passes_git configured filed asked).closes
  metrics := fun configured filed valued asked =>
    (passes_metrics configured filed valued asked).closes
  usage := fun configured filed asked => (passes_usage configured filed asked).closes

end Queries

end StatusLine

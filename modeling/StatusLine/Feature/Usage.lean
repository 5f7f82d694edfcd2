import StatusLine.Feature.Context

/-!
Cost and usage of the active accounting block. A command lists the blocks, and the fields that the
wanted segments need become variables of the script.
-/

namespace StatusLine.Usage

structure Options where
  showCost : Datum
  showTokens : Datum
  showBurnRate : Datum
  showSession : Datum
  showProgressBar : Datum
  showCache : Datum
  showProjections : Datum
  showAlerts : Datum
  compact : Datum
  costWarning : Datum
  ttl : Datum
  grace : Datum
  timeout : Datum
  deriving Repr

def features : List String :=
  ["usage", "session", "tokens", "burnrate", "cache", "projections", "alerts"]

def standardWarning : Float := 15.0

namespace Options

def ofConfiguration? (settings : Settings) (config : Configuration) : Option Options :=
  let shows (feature : String) : Datum := .bool (config.has feature)
  if config.usageIntegration && features.any config.has then
    some ⟨shows "usage", .bool (config.has "tokens" || config.has "burnrate"), shows "burnrate",
      shows "session", .bool (config.has "session" && config.theme != .minimal), shows "cache",
      shows "projections", shows "alerts", .bool (config.theme == .compact),
      .float standardWarning, .int settings.lookupTtl, .int settings.lookupGrace,
      .int settings.lookupTimeout⟩
  else none

def signature : Signature :=
  ⟨⟨⟨"slc.features.usage", "UsageConfig"⟩, false⟩,
    [("show_cost", none), ("show_tokens", none), ("show_burn_rate", none), ("show_session", none),
      ("show_progress_bar", none), ("show_cache", none), ("show_projections", none),
      ("show_alerts", none), ("compact", none), ("cost_warning", none), ("ttl", none),
      ("grace", none), ("timeout", none)]⟩

def datum (options : Options) : Datum :=
  .record signature.made
    [("show_cost", options.showCost), ("show_tokens", options.showTokens),
      ("show_burn_rate", options.showBurnRate), ("show_session", options.showSession),
      ("show_progress_bar", options.showProgressBar), ("show_cache", options.showCache),
      ("show_projections", options.showProjections), ("show_alerts", options.showAlerts),
      ("compact", options.compact), ("cost_warning", options.costWarning), ("ttl", options.ttl),
      ("grace", options.grace), ("timeout", options.timeout)]

def ofDatum (fields : Datum) : Except Failure Options :=
  (signature.make fields).map fun made =>
    ⟨made.field "show_cost", made.field "show_tokens", made.field "show_burn_rate",
      made.field "show_session", made.field "show_progress_bar", made.field "show_cache",
      made.field "show_projections", made.field "show_alerts", made.field "compact",
      made.field "cost_warning", made.field "ttl", made.field "grace", made.field "timeout"⟩

end Options

def command : List String :=
  ["ccusage", "blocks", "--json"]

structure BlockField where
  name : String
  expression : String
  deriving Repr, DecidableEq

def costFields : List BlockField :=
  [⟨"cost_usd", ".costUSD"⟩, ⟨"cost_per_hour", ".burnRate.costPerHour"⟩]

def tokenFields : List BlockField :=
  [⟨"total_tokens", ".totalTokens"⟩]

def burnRateFields : List BlockField :=
  [⟨"tokens_per_minute", ".burnRate.tokensPerMinute"⟩]

def sessionFields : List BlockField :=
  [⟨"reset_time_str", "(.usageLimitResetTime // .endTime)"⟩, ⟨"start_time_str", ".startTime"⟩]

def cacheFields : List BlockField :=
  [⟨"input_tokens", ".tokenCounts.inputTokens"⟩,
    ⟨"cache_read_tokens", ".tokenCounts.cacheReadInputTokens"⟩]

def projectionFields : List BlockField :=
  [⟨"projected_cost", ".projection.totalCost"⟩,
    ⟨"projected_minutes", ".projection.remainingMinutes"⟩]

def alertFields : List BlockField :=
  [⟨"cost_per_hour", ".burnRate.costPerHour"⟩]

def addField (found : List BlockField) (field : BlockField) : List BlockField :=
  if found.any fun other => other.name == field.name then found else found ++ [field]

def blockFields (options : Options) : List BlockField :=
  let group (wants : Datum) (fields : List BlockField) := if wants.isTruthy then fields else []
  let all :=
    group options.showCost costFields ++ group options.showTokens tokenFields ++
      group options.showBurnRate burnRateFields ++ group options.showSession sessionFields ++
      group options.showCache cacheFields ++ group options.showProjections projectionFields ++
      group options.showAlerts alertFields
  all.foldl addField []

def blockObject (fields : List BlockField) : String :=
  "\x7b" ++ Names.join ", " (fields.map fun field =>
    field.name ++ ": (" ++ field.expression ++ " // \"\")") ++ "\x7d"

/-- The function that lists the blocks. -/
def blocks : Template :=
  ⟨"usage_blocks", [
    .lines [
      "# ---- ccusage ----",
      "usage_blocks() \x7b",
      "  if [ \"$(command -v ccusage)\" ]; then",
      "    run_bounded "],
    .output (.named "timeout"),
    .text " ",
    .output (.named "command"),
    .lines [
      " 2>/dev/null && return 0",
      "  fi",
      "  if [ \"$(command -v npx)\" ]; then",
      "    run_bounded "],
    .output (.named "timeout"),
    .text " npx --yes ccusage@latest ",
    .output (.named "args"),
    .lines [
      " 2>/dev/null && return 0",
      "  fi",
      "  return 1",
      "\x7d"]]⟩

def lookup : Template :=
  ⟨"usage_query", [
    .text "# usage (ccusage)\n",
    .loop (.one "name") (.named "variables") [
        .output (.named "name"),
        .text "=\"\"\n"],
    .text "if [ \"$(command -v jq)\" ]; then\n  usage_cache_file=\"",
    .output (.named "cache_file"),
    .text "\"\n  blocks_output=$(cache_lookup \"$usage_cache_file\" ",
    .output (.named "ttl"),
    .text " ",
    .output (.named "grace"),
    .lines [
      " usage_blocks)",
      "  if [ -n \"$blocks_output\" ]; then",
      "    eval \"$(printf '%s' \"$blocks_output\" | jq -r '[.blocks[]? | select(.isActive == true)][0] // empty | "],
    .output (.named "jq_object"),
    .lines [
      " | to_entries | .[] | \"\\(.key)=\\(.value | @sh)\"' 2>/dev/null)\"",
      "  fi",
      "fi"]]⟩

/-- Works out how much of the session has passed. -/
def session : Template :=
  ⟨"usage_session", [
    .lines [
      "session_percentage=0",
      "session_text=\"\"",
      "session_bar=\"\"",
      "if [ -n \"$reset_time_str\" ] && [ -n \"$start_time_str\" ]; then",
      "  start_sec=$(to_epoch \"$start_time_str\")",
      "  end_sec=$(to_epoch \"$reset_time_str\")",
      "  now_sec=$(date +%s)",
      "  if [ -n \"$start_sec\" ] && [ -n \"$end_sec\" ]; then",
      "    session_total=$((end_sec - start_sec))",
      "    if [ \"$session_total\" -lt 1 ]; then session_total=1; fi",
      "    session_elapsed=$((now_sec - start_sec))",
      "    if [ \"$session_elapsed\" -lt 0 ]; then session_elapsed=0; fi",
      "    if [ \"$session_elapsed\" -gt \"$session_total\" ]; then session_elapsed=$session_total; fi",
      "    session_percentage=$((session_elapsed * 100 / session_total))",
      "    session_remaining=$((end_sec - now_sec))",
      "    if [ \"$session_remaining\" -lt 0 ]; then session_remaining=0; fi",
      ""],
    .branch (.named "compact") [
        .text "    session_text=$(fmt_time_hm \"$session_remaining\")\n"] [
        .lines [
          "    session_text=\"$(fmt_time_hm \"$session_remaining\") until reset ($\x7bsession_percentage\x7d%)\"",
          ""]],
    .branch (.named "progress_bar") [
        .text "    session_bar=$(progress_bar \"$session_percentage\" 10)\n"] [],
    .lines [
      "  fi",
      "fi",
      ""],
    .branch (.named "colors") [
        .lines [
          "session_state_clr=session_clr",
          "if [ $((100 - session_percentage)) -le 10 ]; then",
          "  session_state_clr=alert_clr",
          "elif [ $((100 - session_percentage)) -le 25 ]; then",
          "  session_state_clr=warn_clr",
          "fi",
          ""]] []]⟩

def blocksValues (options : Options) : Scope :=
  [("timeout", options.timeout), ("command", .text (Names.join " " command)),
    ("args", .text (Names.join " " command.tail))]

def lookupValues (cacheFile : List Char) (options : Options) : Scope :=
  let fields := blockFields options
  [("variables", .list (fields.map fun field => .text field.name)),
    ("cache_file", .text (String.ofList cacheFile)), ("ttl", options.ttl),
    ("grace", options.grace), ("jq_object", .text (blockObject fields))]

def sessionValues (options : Options) (style : Style) : Scope :=
  [("compact", options.compact), ("progress_bar", options.showProgressBar),
    ("colors", .bool style.colors)]

def isDecimal (name : String) : String :=
  "[[ $" ++ name ++ " =~ ^[0-9.]+$ ]]"

def isWhole (name : String) : String :=
  "[[ $" ++ name ++ " =~ ^[0-9]+$ ]]"

def sessionBlock (options : Options) (style : Style) : Except Failure (List Char) := do
  let text ← Segment.render style
    ⟨"$session_state_clr", style.label "⌛" "session:", "%s", "\"$session_text\"", true⟩
  let bar ←
    if options.showProgressBar.isTruthy then
      (Segment.render style
        ⟨"$session_state_clr", " [", "%s]", "\"$session_bar\"", false⟩).map ('\n' :: ·)
    else .ok []
  return guarded "[ -n \"$session_text\" ]" (text ++ bar)

def costBlock (style : Style) : Except Failure (List Char) := do
  let label := style.label "💵" "$"
  let withRate ← Segment.render style
    ⟨"cost_clr", label, "$%.2f ($%.2f/h)", "\"$cost_usd\" \"$cost_per_hour\"", true⟩
  let plain ← Segment.render style ⟨"cost_clr", label, "$%.2f", "\"$cost_usd\"", true⟩
  return guarded (isDecimal "cost_usd") (chosen (isDecimal "cost_per_hour") withRate plain)

def tokensBlock (options : Options) (style : Style) : Except Failure (List Char) := do
  let label := style.label "📊" "tok:"
  let plain ← Segment.render style ⟨"usage_clr", label, "%s tok", "\"$total_tokens\"", true⟩
  let body ←
    if options.showBurnRate.isTruthy then
      (Segment.render style ⟨"usage_clr", label, "%s tok (%.0f/min)",
        "\"$total_tokens\" \"$tokens_per_minute\"", true⟩).map fun withRate =>
          chosen (isDecimal "tokens_per_minute") withRate plain
    else .ok plain
  return guarded (isWhole "total_tokens") body

def cacheBlock (style : Style) : Except Failure (List Char) := do
  let shown ← Segment.render style
    ⟨"ok_clr", style.label "♻️" "cache:", "%s%%", "\"$cache_share\"", true⟩
  let share := "cache_share=$((cache_read_tokens * 100 / (input_tokens + cache_read_tokens)))"
  return guarded
    (isWhole "input_tokens" ++ " && " ++ isWhole "cache_read_tokens" ++
      " && [ $((input_tokens + cache_read_tokens)) -gt 0 ]")
    (share.toList ++ '\n' :: shown)

def projectionBlock (style : Style) : Except Failure (List Char) := do
  let label := style.label "📈" "proj:"
  let withMinutes ← Segment.render style
    ⟨"usage_clr", label, "$%.2f (%sm left)",
      "\"$projected_cost\" \"$\x7bprojected_minutes%.*\x7d\"", true⟩
  let plain ← Segment.render style ⟨"usage_clr", label, "$%.2f", "\"$projected_cost\"", true⟩
  return guarded (isDecimal "projected_cost")
    (chosen (isDecimal "projected_minutes") withMinutes plain)

def alertBlock (options : Options) (style : Style) : Except Failure (List Char) := do
  let shown ← Segment.render style
    ⟨"alert_clr", style.label "🔥" "alert:", "burn $%.2f/h", "\"$cost_per_hour\"", true⟩
  let limit := options.costWarning.string
  return guarded
    (isDecimal "cost_per_hour" ++ " && num_above \"$cost_per_hour\" " ++ limit) shown

def wanted (wants : Datum) (block : Except Failure (List Char)) :
    Except Failure (List (List Char)) :=
  if wants.isTruthy then block.map fun text => [text] else .ok []

def displays (options : Options) (style : Style) : Except Failure (List (List Char)) := do
  let session ← wanted options.showSession (sessionBlock options style)
  let cost ← wanted options.showCost (costBlock style)
  let tokens ← wanted options.showTokens (tokensBlock options style)
  let cache ← wanted options.showCache (cacheBlock style)
  let projections ← wanted options.showProjections (projectionBlock style)
  let alerts ← wanted options.showAlerts (alertBlock options style)
  return session ++ cost ++ tokens ++ cache ++ projections ++ alerts

def routines (options : Options) : List String :=
  ["run_bounded", "cache_lookup"] ++
    (if options.showSession.isTruthy then
      ["to_epoch", "fmt_time_hm"] ++ (if options.showProgressBar.isTruthy then ["progress_bar"] else [])
    else []) ++
    (if options.showAlerts.isTruthy then ["num_above"] else [])

def encode (context : Context) (options : Options) (style : Style) : Except Failure Fragment := do
  let setup ← blocks.render (blocksValues options)
  let cacheFile ← context.commandFile "usage" command
  let query ← lookup.render (lookupValues cacheFile options)
  let timing ←
    if options.showSession.isTruthy then
      (session.render (sessionValues options style)).map ('\n' :: ·)
    else .ok []
  let shown ← displays options style
  return ⟨"usage", setup, query ++ timing, Text.joinLines shown, [], routines options⟩

end StatusLine.Usage

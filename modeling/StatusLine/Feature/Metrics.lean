import StatusLine.Datum.Arithmetic
import StatusLine.Feature.Context

/-!
Load of the processor, memory and run queue. A function of the script collects the metrics as
assignments, which are kept for as long as the refresh rate says.
-/

namespace StatusLine.Metrics

structure Options where
  showCpu : Datum
  showMemory : Datum
  showLoad : Datum
  refreshRate : Datum
  cpuThreshold : Datum
  memoryThreshold : Datum
  loadThreshold : Datum
  compact : Datum
  deriving Repr

def features : List String :=
  ["cpu", "memory", "load"]

namespace Options

def ofConfiguration? (config : Configuration) : Option Options :=
  if features.any config.has then
    let monitoring := config.monitoring
    let shows (feature : String) : Datum := .bool (config.has feature)
    some ⟨shows "cpu", shows "memory", shows "load", .int monitoring.refreshRate,
      .int monitoring.cpuThreshold, .int monitoring.memoryThreshold,
      .float monitoring.loadThreshold, .bool (config.theme == .compact)⟩
  else none

def signature : Signature :=
  ⟨⟨⟨"slc.features.system", "SystemConfig"⟩, false⟩,
    [("show_cpu", none), ("show_memory", none), ("show_load", none), ("refresh_rate", none),
      ("cpu_threshold", none), ("memory_threshold", none), ("load_threshold", none),
      ("compact", none)]⟩

def datum (options : Options) : Datum :=
  .record signature.made
    [("show_cpu", options.showCpu), ("show_memory", options.showMemory),
      ("show_load", options.showLoad), ("refresh_rate", options.refreshRate),
      ("cpu_threshold", options.cpuThreshold), ("memory_threshold", options.memoryThreshold),
      ("load_threshold", options.loadThreshold), ("compact", options.compact)]

def ofDatum (fields : Datum) : Except Failure Options :=
  (signature.make fields).map fun made =>
    ⟨made.field "show_cpu", made.field "show_memory", made.field "show_load",
      made.field "refresh_rate", made.field "cpu_threshold", made.field "memory_threshold",
      made.field "load_threshold", made.field "compact"⟩

end Options

/-- The function that collects the metrics. -/
def collector : Template :=
  ⟨"collect_system_metrics", [
    .lines [
      "collect_system_metrics() \x7b",
      "  local platform cpu_percent=0 mem_used_gb=0 mem_total_gb=0 mem_percent=0",
      "  local load_1min=0 load_5min=0 load_15min=0",
      "  platform=$(uname -s 2>/dev/null)",
      "  case \"$platform\" in",
      "    Linux*)",
      ""],
    .branch (.named "show_cpu") [
        .lines [
          "      if [ -r /proc/stat ]; then",
          "        local cpu_times active total",
          "        read -r -a cpu_times < /proc/stat",
          "        if [ \"$\x7b#cpu_times[@]\x7d\" -ge 8 ]; then",
          "          active=$((cpu_times[1] + cpu_times[2] + cpu_times[3] + cpu_times[6] + cpu_times[7] + $\x7bcpu_times[8]:-0\x7d))",
          "          total=$((active + cpu_times[4] + cpu_times[5]))",
          "          if [ \"$total\" -gt 0 ]; then cpu_percent=$((active * 100 / total)); fi",
          "        fi",
          "      fi",
          ""]] [],
    .branch (.named "show_memory") [
        .lines [
          "      if [ -r /proc/meminfo ]; then",
          "        eval \"$(awk '/^MemTotal:/ \x7b t = $2 \x7d /^MemAvailable:/ \x7b a = $2 \x7d END \x7b if (t > 0) \x7b u = t - a; printf \"mem_used_gb=%d mem_total_gb=%d mem_percent=%d\", (u + 524288) / 1048576, (t + 524288) / 1048576, u * 100 / t \x7d \x7d' /proc/meminfo 2>/dev/null)\"",
          "      fi",
          ""]] [],
    .branch (.named "show_load") [
        .lines [
          "      if [ -r /proc/loadavg ]; then",
          "        read -r load_1min load_5min load_15min _ < /proc/loadavg",
          "      fi",
          ""]] [],
    .lines [
      "      ;;",
      "    Darwin*)",
      ""],
    .branch (.named "show_cpu") [
        .lines [
          "      cpu_percent=$(ps -A -o %cpu= 2>/dev/null | awk -v n=\"$(sysctl -n hw.ncpu 2>/dev/null || echo 1)\" '\x7b s += $1 \x7d END \x7b if (n < 1) n = 1; p = s / n; if (p > 100) p = 100; printf \"%d\", p \x7d')",
          ""]] [],
    .branch (.named "show_memory") [
        .lines [
          "      local mem_bytes page_size pages_used",
          "      mem_bytes=$(sysctl -n hw.memsize 2>/dev/null || echo 0)",
          "      page_size=$(sysctl -n hw.pagesize 2>/dev/null || echo 4096)",
          "      pages_used=$(vm_stat 2>/dev/null | awk '/Pages active/ \x7b a = $3 \x7d /Pages wired down/ \x7b w = $4 \x7d /occupied by compressor/ \x7b c = $5 \x7d END \x7b printf \"%d\", a + w + c \x7d')",
          "      if [ \"$\x7bmem_bytes:-0\x7d\" -gt 0 ]; then",
          "        mem_total_gb=$((mem_bytes / 1073741824))",
          "        mem_used_gb=$((pages_used * page_size / 1073741824))",
          "        mem_percent=$((pages_used * page_size * 100 / mem_bytes))",
          "      fi",
          ""]] [],
    .branch (.named "show_load") [
        .lines [
          "      local load_avg",
          "      load_avg=($(sysctl -n vm.loadavg 2>/dev/null))",
          "      if [ \"$\x7b#load_avg[@]\x7d\" -ge 4 ]; then",
          "        load_1min=$\x7bload_avg[1]\x7d",
          "        load_5min=$\x7bload_avg[2]\x7d",
          "        load_15min=$\x7bload_avg[3]\x7d",
          "      fi",
          ""]] [],
    .lines [
      "      ;;",
      "    *)",
      ""],
    .branch (.named "show_load") [
        .lines [
          "      local up",
          "      up=$(uptime 2>/dev/null)",
          "      if [[ $up =~ load[[:space:]]+averages?:[[:space:]]+([0-9.]+),?[[:space:]]+([0-9.]+),?[[:space:]]+([0-9.]+) ]]; then",
          "        load_1min=$\x7bBASH_REMATCH[1]\x7d",
          "        load_5min=$\x7bBASH_REMATCH[2]\x7d",
          "        load_15min=$\x7bBASH_REMATCH[3]\x7d",
          "      fi",
          ""]] [],
    .lines [
      "      :",
      "      ;;",
      "  esac",
      ""],
    .branch (.named "show_cpu") [
        .text "  printf 'cpu_percent=%d\\n' \"$cpu_percent\"\n"] [],
    .branch (.named "show_memory") [
        .lines [
          "  printf 'mem_used_gb=%d\\nmem_total_gb=%d\\nmem_percent=%d\\n' \"$mem_used_gb\" \"$mem_total_gb\" \"$mem_percent\"",
          ""]] [],
    .branch (.named "show_load") [
        .lines [
          "  printf 'load_1min=%s\\nload_5min=%s\\nload_15min=%s\\n' \"$load_1min\" \"$load_5min\" \"$load_15min\"",
          ""]] [],
    .text "\x7d"]⟩

def lookup : Template :=
  ⟨"system_query", [
    .lines [
      "# system metrics",
      "cpu_percent=0 mem_used_gb=0 mem_total_gb=0 mem_percent=0",
      "load_1min=0 load_5min=0 load_15min=0",
      "sys_cache_file=\""],
    .output (.named "cache_file"),
    .text "\"\nsystem_metrics=$(cache_lookup \"$sys_cache_file\" ",
    .output (.named "ttl"),
    .text " ",
    .output (.named "grace"),
    .lines [
      " collect_system_metrics)",
      "if [ -n \"$system_metrics\" ]; then eval \"$system_metrics\"; fi"]]⟩

/-- Chooses a color by comparing a value with its threshold and with a lower one. -/
def level : Template :=
  ⟨"threshold_color", [
    .output (.named "var"),
    .text "=ok_clr\nif num_above \"$",
    .output (.named "value"),
    .text "\" ",
    .output (.named "threshold"),
    .text "; then\n  ",
    .output (.named "var"),
    .text "=alert_clr\nelif num_above \"$",
    .output (.named "value"),
    .text "\" ",
    .output (.named "warning"),
    .text "; then\n  ",
    .output (.named "var"),
    .text "=warn_clr\nfi"]⟩

def trend : String :=
  Names.join "\n" [
    "load_trend=\"→\"",
    "if num_above \"$load_1min\" \"$load_5min\"; then",
    "  load_trend=\"↗\"",
    "elif num_above \"$load_5min\" \"$load_1min\"; then",
    "  load_trend=\"↘\"",
    "fi"]

def collectorValues (options : Options) : Scope :=
  [("show_cpu", options.showCpu), ("show_memory", options.showMemory),
    ("show_load", options.showLoad)]

def lookupValues (context : Context) (cacheFile : List Char) (options : Options) :
    Except Failure Scope :=
  (Datum.larger (.int context.settings.lookupGrace) options.refreshRate).map fun grace =>
    [("cache_file", .text (String.ofList cacheFile)), ("ttl", options.refreshRate), ("grace", grace)]

def levelLines (style : Style) (variableName value : String) (threshold warning : Datum) :
    Except Failure (List Char) :=
  if style.colors then
    level.render
      [("var", .text variableName), ("value", .text value), ("threshold", threshold),
        ("warning", warning)]
  else .ok []

/-- A block that runs under a condition; empty parts leave no line. -/
def block (condition : String) (parts : List (List Char)) : List Char :=
  guarded condition (Text.joinLines (parts.filter fun part => !part.isEmpty))

/-- The value from which on a percentage is doubtful: thirty less than its threshold, but not below
zero. -/
def warningOf (threshold : Datum) : Except Failure Datum := do
  Datum.larger (← threshold.lessBy 30) (.int 0)

def cpuBlock (options : Options) (style : Style) : Except Failure (List Char) := do
  let warning ← warningOf options.cpuThreshold
  let color ← levelLines style "cpu_clr" "cpu_percent" options.cpuThreshold warning
  let shown ← Segment.render style
    ⟨"$cpu_clr", style.label "💻" "cpu:", "%s%%", "\"$cpu_percent\"", true⟩
  return block "[ -n \"$cpu_percent\" ] && [ \"$cpu_percent\" != \"0\" ]" [color, shown]

def memorySegment (options : Options) (style : Style) : Segment :=
  let used := "\"$mem_used_gb\" \"$mem_total_gb\""
  let label := style.label "🧠" "ram:"
  if options.compact.isTruthy then ⟨"$mem_clr", label, "%sG/%sG", used, true⟩
  else ⟨"$mem_clr", label, "%sGB/%sGB (%s%%)", used ++ " \"$mem_percent\"", true⟩

def memoryBlock (options : Options) (style : Style) : Except Failure (List Char) := do
  let warning ← warningOf options.memoryThreshold
  let color ← levelLines style "mem_clr" "mem_percent" options.memoryThreshold warning
  let shown ← (memorySegment options style).render style
  return block "[ \"$\x7bmem_total_gb:-0\x7d\" -gt 0 ] 2>/dev/null" [color, shown]

def loadSegment (options : Options) (style : Style) : Segment :=
  let label := style.label "⚡" "load:"
  if options.compact.isTruthy then
    ⟨"$load_clr", label, "%s%s", "\"$load_1min\" \"$load_trend\"", true⟩
  else
    ⟨"$load_clr", label, "%s/%s/%s", "\"$load_1min\" \"$load_5min\" \"$load_15min\"", true⟩

def loadBlock (options : Options) (style : Style) : Except Failure (List Char) := do
  let shown ← (loadSegment options style).render style
  let warning ← options.loadThreshold.half
  let color ← levelLines style "load_clr" "load_1min" options.loadThreshold warning
  let arrow := if options.compact.isTruthy then trend.toList else []
  return block "[ -n \"$load_1min\" ] && [ \"$load_1min\" != \"0\" ]" [color, arrow, shown]

def wanted (wants : Datum) (block : Except Failure (List Char)) :
    Except Failure (List (List Char)) :=
  if wants.isTruthy then block.map fun text => [text] else .ok []

def encode (context : Context) (options : Options) (style : Style) : Except Failure Fragment := do
  let setup ← collector.render (collectorValues options)
  let cacheFile ← context.cacheFile "system"
    (Fingerprint.metricFields options.showCpu options.showMemory options.showLoad)
  let query ← lookup.render (← lookupValues context cacheFile options)
  let cpu ← wanted options.showCpu (cpuBlock options style)
  let memory ← wanted options.showMemory (memoryBlock options style)
  let load ← wanted options.showLoad (loadBlock options style)
  let compares := style.colors || (options.showLoad.isTruthy && options.compact.isTruthy)
  return ⟨"system", "# ---- system metrics ----\n".toList ++ setup, query,
    Text.joinLines (cpu ++ memory ++ load), [],
    "cache_lookup" :: (if compares then ["num_above"] else [])⟩

end StatusLine.Metrics

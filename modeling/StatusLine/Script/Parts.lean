import StatusLine.Template.Rendering

/-!
The parts of a script that do not depend on single features.
-/

namespace StatusLine.Script

def version : String := "0.1.0"

def shebang : String := "#!/usr/bin/env bash"

def header : Template :=
  ⟨"header", [
    .output (.named "shebang"),
    .text "\n# Generated by slc ",
    .output (.named "version"),
    .text "\n# Theme: ",
    .output (.named "theme"),
    .text " | Colors: ",
    .output (.named "colors"),
    .text " | Features: ",
    .output (.named "features"),
    .text "\n# Lookups cached under ",
    .output (.named "cache_dir"),
    .text " (",
    .output (.named "ttl"),
    .text "s TTL with ",
    .output (.named "grace"),
    .lines [
      "s stale fallback)",
      "# Set SLC_DEBUG=1 for cache diagnostics on stderr",
      "",
      "input=$(cat)"]]⟩

def logging : Template :=
  ⟨"logging", [
    .text "# ---- logging ----\nLOG_FILE=\"",
    .output (.named "cache_dir"),
    .lines [
      "/statusline.log\"",
      "mkdir -p \"$\x7bLOG_FILE%/*\x7d\" 2>/dev/null",
      "\x7b printf '[%s] status line triggered\\n' \"$(date '+%Y-%m-%d %H:%M:%S')\"; printf 'input: %s\\n' \"$input\"; \x7d >> \"$LOG_FILE\" 2>/dev/null"]]⟩

/-- Ends the script if it has run a short time ago. -/
def rateLimiter : Template :=
  ⟨"rate_limiter", [
    .text "# ---- rate limiter ----\nrate_limit_file=\"",
    .output (.named "cache_dir"),
    .text "/statusline_rate_limit.tmp\"\nmin_interval=",
    .output (.named "min_interval"),
    .lines [
      "",
      "if [ \"$min_interval\" -gt 0 ]; then",
      "  current_time=$(date +%s)",
      "  if [ -f \"$rate_limit_file\" ]; then",
      "    last_time=$(cat \"$rate_limit_file\")",
      "    case $last_time in",
      "      ''|*[!0-9]*) last_time=0 ;;",
      "    esac",
      "    if [ $((current_time - last_time)) -lt \"$min_interval\" ]; then",
      "      exit 0",
      "    fi",
      "  fi",
      "  mkdir -p \"$\x7brate_limit_file%/*\x7d\" 2>/dev/null",
      "  \x7b echo \"$current_time\" > \"$rate_limit_file\"; \x7d 2>/dev/null",
      "fi"]]⟩

def contentTracking : String :=
  Names.join "\n" [
    "# ---- content tracking ----",
    "content_displayed=0",
    "segment_sep() \x7b if [ \"$content_displayed\" -eq 1 ]; then printf '  '; fi; \x7d"]

/-- Takes values from the input into variables. -/
def extraction : Template :=
  ⟨"input_extraction", [
    .text "# ---- input extraction ----\n",
    .loop (.one "field") (.named "fields") [
        .output (.field (.named "field") "name"),
        .text "=",
        .output (.filtered (.field (.named "field") "default") .shellWord),
        .text "\n"],
    .lines [
      "if [ \"$(command -v jq)\" ]; then",
      "  eval \"$(printf '%s' \"$input\" | jq -r '"],
    .output (.named "jq_object"),
    .lines [
      " | to_entries | .[] | \"\\(.key)=\\(.value | tostring | @sh)\"' 2>/dev/null)\"",
      "fi"]]⟩

def logOutput : Template :=
  ⟨"log_output", [
    .lines [
      "# ---- log extracted data ----",
      "\x7b",
      ""],
    .loop (.one "field") (.named "fields") [
        .text "  printf '  ",
        .output (.field (.named "field") "name"),
        .text "=%s\\n' \"$",
        .output (.field (.named "field") "name"),
        .text "\"\n"],
    .text "\x7d >> \"$LOG_FILE\" 2>/dev/null"]⟩

def epilogue : String :=
  "if [ \"$content_displayed\" -eq 1 ]; then printf '\\n'; fi"

end StatusLine.Script

import StatusLine.Datum.Key

/-!
Shell routines that fragments share. A script defines the ones it needs once, each behind those it
calls.
-/

namespace StatusLine

structure Routine where
  name : String
  body : String
  /-- The names of the routines that it calls. -/
  dependencies : List String
  deriving Repr, DecidableEq

namespace Routine

def debugLog : Routine :=
  ⟨"debug_log", Names.join "\n" [
    "debug_log() \x7b",
    "  if [ -n \"$SLC_DEBUG\" ]; then printf 'slc: %s\\n' \"$*\" >&2; fi",
    "\x7d"],
    []⟩

def runBounded : Routine :=
  ⟨"run_bounded", Names.join "\n" [
    "run_bounded() \x7b",
    "  local secs=\"$1\"",
    "  shift",
    "  if declare -F \"$1\" >/dev/null 2>&1; then",
    "    \"$@\"",
    "  elif [ \"$(command -v timeout)\" ]; then",
    "    timeout \"$secs\" \"$@\"",
    "  else",
    "    \"$@\"",
    "  fi",
    "\x7d"],
    []⟩

/-- Prints a file that is fresh, else the output of a command, which it keeps, else the file while
it is within its grace. -/
def cacheLookup : Routine :=
  ⟨"cache_lookup", Names.join "\n" [
    "cache_lookup() \x7b",
    "  local f=\"$1\" ttl=\"$2\" grace=\"$3\" now age mtime out",
    "  shift 3",
    "  now=$(date +%s)",
    "  age=$((grace + 1))",
    "  if [ -f \"$f\" ]; then",
    "    mtime=$(stat -c %Y \"$f\" 2>/dev/null || stat -f %m \"$f\" 2>/dev/null || echo 0)",
    "    age=$((now - mtime))",
    "  fi",
    "  if [ \"$age\" -le \"$ttl\" ]; then",
    "    cat \"$f\" 2>/dev/null && return 0",
    "  fi",
    "  if out=$(\"$@\" 2>/dev/null) && [ -n \"$out\" ]; then",
    "    mkdir -p \"$\x7bf%/*\x7d\" 2>/dev/null",
    "    \x7b printf '%s\\n' \"$out\" > \"$f.$$\" && mv -f \"$f.$$\" \"$f\"; \x7d 2>/dev/null",
    "    printf '%s\\n' \"$out\"",
    "    return 0",
    "  fi",
    "  if [ \"$age\" -le \"$grace\" ]; then",
    "    debug_log \"serving stale $\x7bf##*/\x7d (age $\x7bage\x7ds)\"",
    "    cat \"$f\" 2>/dev/null && return 0",
    "  fi",
    "  return 1",
    "\x7d"],
    ["debug_log"]⟩

def numAbove : Routine :=
  ⟨"num_above", Names.join "\n" [
    "num_above() \x7b",
    "  awk -v a=\"$1\" -v b=\"$2\" 'BEGIN \x7b exit !(a + 0 > b + 0) \x7d'",
    "\x7d"],
    []⟩

/-- Prints a time stamp as seconds. -/
def toEpoch : Routine :=
  ⟨"to_epoch", Names.join "\n" [
    "to_epoch() \x7b",
    "  local ts=\"$1\" bsd_ts",
    "  date -d \"$ts\" +%s 2>/dev/null && return 0",
    "  # BSD date: Z as +0000, fractional seconds dropped",
    "  bsd_ts=\"$\x7bts/Z/+0000\x7d\"",
    "  bsd_ts=\"$\x7bbsd_ts/.*+/+\x7d\"",
    "  date -u -j -f '%Y-%m-%dT%H:%M:%S%z' \"$bsd_ts\" +%s 2>/dev/null && return 0",
    "  if [ \"$(command -v python3)\" ]; then",
    "    python3 - \"$ts\" <<'PY' 2>/dev/null && return 0",
    "import sys, datetime",
    "print(int(datetime.datetime.fromisoformat(sys.argv[1].replace(\"Z\", \"+00:00\")).timestamp()))",
    "PY",
    "  fi",
    "  return 1",
    "\x7d"],
    []⟩

def fmtTimeHm : Routine :=
  ⟨"fmt_time_hm", Names.join "\n" [
    "fmt_time_hm() \x7b",
    "  local s=\"$\x7b1:-0\x7d\"",
    "  if [ \"$s\" -lt 0 ]; then s=0; fi",
    "  printf '%dh %dm' $((s / 3600)) $(((s % 3600) / 60))",
    "\x7d"],
    []⟩

def progressBar : Routine :=
  ⟨"progress_bar", Names.join "\n" [
    "progress_bar() \x7b",
    "  local p=\"$\x7b1:-0\x7d\" width=\"$\x7b2:-10\x7d\" filled empty",
    "  if [ \"$p\" -lt 0 ]; then p=0; fi",
    "  if [ \"$p\" -gt 100 ]; then p=100; fi",
    "  filled=$((p * width / 100))",
    "  empty=$((width - filled))",
    "  printf '%*s' \"$filled\" '' | tr ' ' '='",
    "  printf '%*s' \"$empty\" '' | tr ' ' '-'",
    "\x7d"],
    []⟩

def all : List Routine :=
  [debugLog, runBounded, cacheLookup, numAbove, toEpoch, fmtTimeHm, progressBar]

def find? (name : String) : Option Routine :=
  all.find? fun routine => routine.name == name

def reached : (depth : Nat) → String → List String
  | 0, name => [name]
  | depth + 1, name =>
      name :: (((find? name).map Routine.dependencies).getD []).flatMap (reached depth)

def resolve (names : List String) : Except Failure (List Routine) :=
  match names.find? fun name => (find? name).isNone with
  | some name => .error (.generation ("unknown shell helper '" ++ name ++ "'"))
  | none =>
      let needed := names.flatMap (reached all.length)
      .ok (all.filter fun routine => needed.contains routine.name)

/-- The routines that data name. What cannot be a key is no name; an unknown name before it counts
first. -/
def resolveData (names : Datum) : Except Failure (List Routine) := do
  let items ← names.walk
  let able := items.takeWhile fun item => item.changing?.isNone
  let found ← resolve (able.map Datum.string)
  Datum.requireKeys items
  return found

end Routine

end StatusLine

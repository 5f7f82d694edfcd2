import StatusLine.Configuration.Reading
import StatusLine.Failure

/-!
Settings of the compiler: where scripts are cached, for how long entries of each kind are fresh and
how long they may be served stale. A setting comes from an explicit value, else from the
environment, else from a default.
-/

namespace StatusLine

/-- All times are in seconds. -/
structure Settings where
  cacheDirectory : PathName
  scriptTtl : Int
  scriptGrace : Int
  lookupTtl : Int
  lookupGrace : Int
  lookupTimeout : Int
  gitTtl : Int
  gitGrace : Int
  /-- The least gap between two runs of a script; zero allows any. -/
  minInterval : Int
  deriving Repr, DecidableEq

namespace Settings

def standard (home : PathName) : Settings :=
  ⟨home ++ .ofString ".claude/statusline", 86400, 604800, 30, 300, 3, 5, 60, 0⟩

def fields : List String :=
  ["cache_dir", "script_ttl", "script_grace", "lookup_ttl", "lookup_grace", "lookup_timeout",
    "git_ttl", "git_grace", "min_interval"]

def recordKind : RecordKind :=
  ⟨⟨"slc.config", "Settings"⟩, true⟩

def datum (settings : Settings) : Datum :=
  .record recordKind
    [("cache_dir", .path settings.cacheDirectory), ("script_ttl", .int settings.scriptTtl),
      ("script_grace", .int settings.scriptGrace), ("lookup_ttl", .int settings.lookupTtl),
      ("lookup_grace", .int settings.lookupGrace), ("lookup_timeout", .int settings.lookupTimeout),
      ("git_ttl", .int settings.gitTtl), ("git_grace", .int settings.gitGrace),
      ("min_interval", .int settings.minInterval)]

/-- The settings in the entries of a mapping; those of `base` stand in for the ones not there. -/
def ofEntries (base : Settings) (entries : List (Datum × Datum)) : Check Settings :=
  let int (name : String) (fallback : Int) := Check.field entries name fallback Check.int
  let start :=
    (Check.field entries "cache_dir" base.cacheDirectory Check.pathName).map Settings.mk
  let ttl := Check.apply start (int "script_ttl" base.scriptTtl)
  let grace := Check.apply ttl (int "script_grace" base.scriptGrace)
  let lookupTtl := Check.apply grace (int "lookup_ttl" base.lookupTtl)
  let lookupGrace := Check.apply lookupTtl (int "lookup_grace" base.lookupGrace)
  let timeout := Check.apply lookupGrace (int "lookup_timeout" base.lookupTimeout)
  let gitTtl := Check.apply timeout (int "git_ttl" base.gitTtl)
  let gitGrace := Check.apply gitTtl (int "git_grace" base.gitGrace)
  Check.closed fields entries (Check.apply gitGrace (int "min_interval" base.minInterval))

/-- The settings that data describe. The cache directory is taken as it stands. -/
def ofDatum (base : Settings) (value : Datum) : Check Settings :=
  match value with
  | .mapping entries => ofEntries base entries
  | _ => Check.wrong (.notAMapping "Settings")

def upper (name : String) : String :=
  String.ofList (name.toList.map fun c =>
    if 'a' ≤ c ∧ c ≤ 'z' then Char.ofNat (c.toNat - 32) else c)

def variableOf (field : String) : String :=
  "SLC_" ++ upper field

def lookupVariable (environment : List (String × String)) (name : String) : Option String :=
  (environment.find? fun entry => entry.1 == name).map Prod.snd

/-- The value given for a field: an explicit one that is not null, else a variable that is not
empty. -/
def given? (environment : List (String × String)) (overrides : List (Datum × Datum))
    (field : String) : Option Datum :=
  match Datum.lookup (.text field) overrides with
  | some .null | none =>
      match lookupVariable environment (variableOf field) with
      | some "" | none => none
      | some text => some (.text text)
  | some value => some value

def unknownNames (overrides : List (Datum × Datum)) : List String :=
  Names.ordered (overrides.filterMap fun (key, _) =>
    let name := String.ofList key.plainText
    if fields.contains name then none else some name)

/-- The settings in force. A tilde at the start of a given cache directory is expanded. -/
def resolve (base : Settings) (environment : List (String × String))
    (overrides : List (Datum × Datum)) : Except Objection Settings :=
  match unknownNames overrides with
  | [] =>
      let values := fields.filterMap fun field =>
        (given? environment overrides field).map fun value => (Datum.text field, value)
      match ofEntries base values with
      | .error issues => .error (.invalid issues)
      | .ok settings =>
          if (given? environment overrides "cache_dir").isNone then .ok settings
          else
            let home := (lookupVariable environment "HOME").map String.toList
            match settings.cacheDirectory.expandHome? home with
            | some directory => .ok { settings with cacheDirectory := directory }
            | none => .error (.failed .homeUnknown)
  | names => .error (.failed (.outOfRange ("Unknown settings: " ++ Names.join ", " names)))

end Settings

end StatusLine

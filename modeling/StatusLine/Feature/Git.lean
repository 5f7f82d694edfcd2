import StatusLine.Feature.Context

/-!
The branch of the repository in the working directory. The script keeps it for every directory.
-/

namespace StatusLine.Git

structure Options where
  ttl : Datum
  grace : Datum
  timeout : Datum
  deriving Repr

namespace Options

def ofConfiguration? (settings : Settings) (config : Configuration) : Option Options :=
  if config.has "git" then
    some ⟨.int settings.gitTtl, .int settings.gitGrace, .int settings.lookupTimeout⟩
  else none

def signature : Signature :=
  ⟨⟨⟨"slc.features.git", "GitConfig"⟩, false⟩,
    [("ttl", none), ("grace", none), ("timeout", none)]⟩

def datum (options : Options) : Datum :=
  .record signature.made
    [("ttl", options.ttl), ("grace", options.grace), ("timeout", options.timeout)]

def ofDatum (fields : Datum) : Except Failure Options :=
  (signature.make fields).map fun made =>
    ⟨made.field "ttl", made.field "grace", made.field "timeout"⟩

end Options

def command : List String :=
  ["git", "rev-parse", "--abbrev-ref", "HEAD"]

def template : Template :=
  ⟨"git_query", [
    .lines [
      "# git",
      "git_branch_name=\"\"",
      "is_git_repository=0",
      "if [ \"$(command -v git)\" ] && run_bounded "],
    .output (.named "timeout"),
    .lines [
      " git rev-parse --git-dir >/dev/null 2>&1; then",
      "  is_git_repository=1",
      "fi",
      "if [ \"$is_git_repository\" -eq 1 ]; then",
      "  git_cache_file=\""],
    .output (.named "cache_file"),
    .lines [
      "_$\x7bPWD//\\//_\x7d\"",
      "  git_branch_name=$(cache_lookup \"$git_cache_file\" "],
    .output (.named "ttl"),
    .text " ",
    .output (.named "grace"),
    .text " run_bounded ",
    .output (.named "timeout"),
    .text " ",
    .output (.named "command"),
    .text ")\nfi"]⟩

def values (cacheFile : List Char) (options : Options) : Scope :=
  [("cache_file", .text (String.ofList cacheFile)), ("ttl", options.ttl),
    ("grace", options.grace), ("timeout", options.timeout),
    ("command", .text (Names.join " " command))]

def segment (style : Style) : Segment :=
  ⟨"git_clr", style.label "🌿" "git:", "%s", "\"$git_branch_name\"", true⟩

def encode (context : Context) (options : Options) (style : Style) : Except Failure Fragment := do
  let cacheFile ← context.commandFile "git" command
  let query ← template.render (values cacheFile options)
  let shown ← (segment style).render style
  return ⟨"git", [], query, guarded "[ -n \"$git_branch_name\" ]" shown, [],
    ["run_bounded", "cache_lookup"]⟩

end StatusLine.Git

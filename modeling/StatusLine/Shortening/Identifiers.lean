import StatusLine.Shortening.Rule

/-!
Shorter names for the variables of a script. A name is replaced only where it stands on its own;
behind a dot it is part of a path into data. A text that uses the short name already is left alone,
since two variables would become one.
-/

namespace StatusLine.Shortening

def isWordOrDot (c : Char) : Bool :=
  Text.isWord c || c == '.'

def token (name : List Char) : Pattern :=
  ⟨isWordOrDot, [.literal name], Text.isWord⟩

def braced (name : List Char) : Pattern :=
  ⟨fun _ => false, [.literal (['$', '\x7b'] ++ name ++ ['\x7d'])], Text.isWord⟩

def renamed (long short : List Char) (text : List Char) : List Char :=
  let unbraced := (braced long).replace (fun _ => '$' :: short) text
  (token long).replace (fun _ => short) unbraced

def identifierRule (long short : List Char) : Rule where
  name := "ident:" ++ String.ofList long
  skip := fun text => (token short).occursIn text || !(token long).occursIn text
  edit := fun text => .ok (renamed long short text)

def shortNames : List (String × String) :=
  [("current_directory_path", "cwd"), ("git_branch_name", "git_branch"),
    ("session_percentage", "pct"), ("total_tokens", "tot_tokens"), ("tokens_per_minute", "tpm"),
    ("cost_per_hour", "cost_ph"), ("use_color_flag", "use_color"),
    ("cache_file_path", "cache_file"), ("is_git_repository", "is_git_repo"),
    ("git_cache_file", "git_cache"), ("color_prefix", "clr_pre"), ("color_suffix", "clr_suf"),
    ("home_directory", "home")]

def identifierRules : List Rule :=
  shortNames.map fun (long, short) => identifierRule long.toList short.toList

end StatusLine.Shortening

import StatusLine.Style
import StatusLine.Template.Rendering

/-!
The colors of a theme, and the part of a script that defines them.
-/

namespace StatusLine.Palette

def red := "31"
def green := "32"
def yellow := "33"
def blue := "34"
def magenta := "35"
def cyan := "36"
def brightRed := "1;31"
def brightGreen := "1;32"
def brightYellow := "1;33"
def brightBlue := "1;34"
def brightMagenta := "1;35"
def brightCyan := "1;36"
def brightWhite := "1;37"

def ofTheme : Theme → List (String × String)
  | .minimal =>
      [("dir_clr", cyan), ("git_clr", green), ("cost_clr", green), ("model_clr", magenta),
        ("ver_clr", yellow), ("usage_clr", yellow), ("session_clr", blue)]
  | .detailed =>
      [("dir_clr", brightCyan), ("git_clr", brightGreen), ("cost_clr", brightGreen),
        ("model_clr", brightMagenta), ("ver_clr", brightYellow), ("usage_clr", brightYellow),
        ("session_clr", brightBlue)]
  | .compact =>
      [("dir_clr", cyan), ("git_clr", green), ("cost_clr", green), ("model_clr", blue),
        ("ver_clr", yellow), ("usage_clr", yellow), ("session_clr", red)]

def status : List (String × String) :=
  [("ok_clr", green), ("warn_clr", yellow), ("alert_clr", brightRed), ("sys_clr", brightWhite)]

def themeOf? : Datum → Option Theme
  | .text name => Theme.ofName? name
  | _ => none

def find (theme : Datum) : Except Failure (List (String × String)) :=
  match theme.requireKey, themeOf? theme with
  | .error failure, _ => .error failure
  | .ok (), some found => .ok (ofTheme found ++ status)
  | .ok (), none => .error theme.unknownKey

def insertByName (entry : String × String) : List (String × String) → List (String × String)
  | [] => [entry]
  | first :: rest =>
      if entry.1 < first.1 then entry :: first :: rest else first :: insertByName entry rest

def ordered (colors : List (String × String)) : List (String × String) :=
  colors.foldr insertByName []

def bootstrap : String :=
  Names.join "\n" [
    "# ---- color helpers ----",
    "use_color_flag=1",
    "if [ -n \"$NO_COLOR\" ]; then use_color_flag=0; fi",
    "if [ -n \"$FORCE_COLOR\" ]; then use_color_flag=1; fi",
    "if [ \"$TERM\" = \"dumb\" ] && [ -z \"$FORCE_COLOR\" ]; then use_color_flag=0; fi",
    "C() \x7b if [ \"$use_color_flag\" -eq 1 ]; then printf '\\033[%sm' \"$1\"; fi; \x7d",
    "RST() \x7b if [ \"$use_color_flag\" -eq 1 ]; then printf '\\033[0m'; fi; \x7d"]

def template : Template :=
  ⟨"palette", [
    .text "# ---- ",
    .output (.named "theme"),
    .text " palette ----\n",
    .loop (.parts ["name", "code"]) (.named "colors") [
        .output (.named "name"),
        .text "() \x7b C '",
        .output (.named "code"),
        .text "'; \x7d\n"],
    .text "rst() \x7b RST; \x7d"]⟩

def values (theme : Datum) (colors : List (String × String)) : Scope :=
  [("theme", theme),
    ("colors", .list (colors.map fun (name, code) => .tuple [.text name, .text code]))]

def render (style : Style) : Except Failure (List Char) :=
  if style.colors then
    match find style.theme with
    | .error failure => .error failure
    | .ok colors =>
        (template.render (values style.theme (ordered colors))).map fun text =>
          bootstrap.toList ++ '\n' :: '\n' :: text
  else .ok []

end StatusLine.Palette

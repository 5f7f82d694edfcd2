import StatusLine.Style
import StatusLine.Template.Rendering

/-!
Segments: the pieces of script that print one value each.
-/

namespace StatusLine

structure Segment where
  /-- The routine that switches the color on, or a variable that holds its name. -/
  color : String
  label : String
  format : String
  arguments : String
  /-- Whether a separator goes before it, which also marks that something has been shown. -/
  standalone : Bool
  deriving Repr, DecidableEq

namespace Segment

def template : Template :=
  ⟨"segment", [
    .branch (.named "standalone") [
        .text "segment_sep\n"] [],
    .branch (.named "colors") [
        .text "printf '",
        .output (.named "label"),
        .text "%s",
        .output (.named "fmt"),
        .text "%s' \"$(",
        .output (.named "clr"),
        .text ")\" ",
        .output (.named "args"),
        .text " \"$(rst)\"\n"] [
        .text "printf '",
        .output (.named "label"),
        .output (.named "fmt"),
        .text "' ",
        .output (.named "args"),
        .text "\n"],
    .branch (.named "standalone") [
        .text "content_displayed=1\n"] []]⟩

def values (style : Style) (segment : Segment) : Scope :=
  [("colors", .bool style.colors), ("clr", .text segment.color), ("label", .text segment.label),
    ("fmt", .text segment.format), ("args", .text segment.arguments),
    ("standalone", .bool segment.standalone)]

def render (style : Style) (segment : Segment) : Except Failure (List Char) :=
  (template.render (segment.values style)).map (Text.trimWhere (· == '\n'))

end Segment

namespace Text

def indent (lead text : List Char) : List Char :=
  joinLines ((splitLines text).map fun line => if line.isEmpty then line else lead ++ line)

def indented (text : List Char) : List Char :=
  indent [' ', ' '] text

end Text

end StatusLine

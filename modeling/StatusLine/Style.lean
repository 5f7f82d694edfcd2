import StatusLine.Configuration.Basic
import StatusLine.Datum.Record

/-!
The presentation that all features share.
-/

namespace StatusLine

structure Style where
  colors : Bool
  emojis : Bool
  /-- The name of the theme, or whatever stands in its place. -/
  theme : Datum
  deriving Repr

namespace Style

def standard : Style :=
  ⟨true, true, .text "detailed"⟩

def ofConfiguration (config : Configuration) : Style :=
  ⟨config.colors, config.colors && !config.customEmojis, .text config.theme.name⟩

def label (style : Style) (emoji word : String) : String :=
  (if style.emojis then emoji else word) ++ " "

def labelOf (style : Style) (parts : List Datum) : Except Failure String :=
  (Signature.requireArguments "StyleConfig.label" ["emoji", "text"] parts.length).map fun _ =>
    match parts.map Datum.string with
    | [emoji, word] => style.label emoji word
    | _ => ""

def signature : Signature :=
  ⟨⟨⟨"slc.features.base", "StyleConfig"⟩, false⟩,
    [("colors", some (.bool standard.colors)), ("emojis", some (.bool standard.emojis)),
      ("theme", some standard.theme)]⟩

def datum (style : Style) : Datum :=
  .record signature.made
    [("colors", .bool style.colors), ("emojis", .bool style.emojis), ("theme", style.theme)]

/-- The style that fields describe; what they leave out is as in the standard style. -/
def ofDatum (fields : Datum) : Except Failure Style :=
  (signature.make fields).map fun made =>
    ⟨(made.field "colors").isTruthy, (made.field "emojis").isTruthy, made.field "theme"⟩

end Style

end StatusLine

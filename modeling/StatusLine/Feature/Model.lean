import StatusLine.Feature.Context

/-!
The name of the model, and its version where there is room for it.
-/

namespace StatusLine.Model

structure Options where
  showVersion : Datum
  deriving Repr

namespace Options

def ofConfiguration? (config : Configuration) : Option Options :=
  if config.has "model" then some ⟨.bool (config.theme != .compact)⟩ else none

def signature : Signature :=
  ⟨⟨⟨"slc.features.model", "ModelConfig"⟩, false⟩, [("show_version", some (.bool true))]⟩

def datum (options : Options) : Datum :=
  .record signature.made [("show_version", options.showVersion)]

def ofDatum (fields : Datum) : Except Failure Options :=
  (signature.make fields).map fun made => ⟨made.field "show_version"⟩

end Options

def nameField : InputField String :=
  ⟨"model_name", ".model.display_name // \"Claude\"", "Claude"⟩

def versionField : InputField String :=
  ⟨"model_version", ".model.version // \"\"", ""⟩

def nameSegment (style : Style) : Segment :=
  ⟨"model_clr", style.label "🤖" "model:", "%s", "\"$model_name\"", true⟩

def versionSegment : Segment :=
  ⟨"ver_clr", " v", "%s", "\"$model_version\"", false⟩

def versionLines (shown : List Char) : List (List Char) :=
  ["  if [ -n \"$model_version\" ]; then".toList, Text.indent "    ".toList shown, "  fi".toList]

def encode (options : Options) (style : Style) : Except Failure Fragment := do
  let name ← (nameSegment style).render style
  let version ←
    if options.showVersion.isTruthy then (versionSegment.render style).map versionLines else .ok []
  let lines :=
    ["if [ -n \"$model_name\" ]; then".toList, Text.indented name] ++ version ++ ["fi".toList]
  let fields := if options.showVersion.isTruthy then [nameField, versionField] else [nameField]
  return ⟨"model", [], [], Text.joinLines lines, fields, []⟩

end StatusLine.Model

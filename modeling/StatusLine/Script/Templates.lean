import StatusLine.Feature.Encoder
import StatusLine.Palette
import StatusLine.Script.Parts

/-!
All the templates that scripts are made from.
-/

namespace StatusLine.Script

def templates : List Template :=
  [header, logging, rateLimiter, extraction, logOutput, Segment.template, Palette.template,
    Git.template, Metrics.collector, Metrics.lookup, Metrics.level, Usage.blocks, Usage.lookup,
    Usage.session]

def template? (name : String) : Option Template :=
  templates.find? fun template => template.name == name

end StatusLine.Script

import StatusLine.Shortening.Passes
import StatusLine.Script.Assembly
import StatusLine.Store.Cache

/-!
The compiler of configurations into scripts, and the keys of what it makes. The key of a script
covers everything that its text depends on and nothing else, so that configurations of one script
share a key.
-/

namespace StatusLine

structure Compiler where
  context : Context
  cache : Cache
  /-- Whether scripts are shortened. -/
  optimizes : Bool
  /-- How an encoder turns its options into a fragment. -/
  encode : Encoder → Style → EncoderOptions → Except Failure Fragment
  /-- How a script is shortened. -/
  shorten : List Char → Shortening.Outcome

namespace Compiler

def cacheOf (settings : Settings) : Except Failure Cache :=
  Cache.make settings.cacheDirectory (.whole settings.scriptTtl) (.whole settings.scriptGrace)

def make (context : Context) (cache : Option Cache) (optimizes : Bool) :
    Except Failure Compiler := do
  let cache ←
    match cache with
    | some cache => .ok cache
    | none => cacheOf context.settings
  return ⟨context, cache, optimizes, fun _ style options => options.encode context style,
    Shortening.optimize .all⟩

def wanted (compiler : Compiler) (config : Configuration) : List (Encoder × EncoderOptions) :=
  Encoder.all.filterMap fun encoder =>
    (encoder.configure compiler.context.settings config).map fun options => (encoder, options)

def fragmentFields (compiler : Compiler) (encoder : Encoder) (options : EncoderOptions)
    (style : Style) : Datum :=
  Fingerprint.fragmentFields (.text encoder.name) options.datum style.datum
    compiler.context.settings.datum

/-- What a script depends on. A configuration counts through what is derived from it: the known
features, the style and the options of the encoders. -/
def scriptFields (compiler : Compiler) (config : Configuration) : Datum :=
  Fingerprint.scriptFields (.list ((orderedFeatures config.has).map .text))
    (Style.ofConfiguration config).datum (.bool config.logging)
    (.object ((compiler.wanted config).map fun (encoder, options) =>
      (encoder.name, options.datum)))
    compiler.context.settings.datum (.bool compiler.optimizes) (.text Script.version)

def fragmentKey (compiler : Compiler) (encoder : Encoder) (options : EncoderOptions)
    (style : Style) : Except Failure String :=
  Fingerprint.key "fragment" (compiler.fragmentFields encoder options style)

def scriptKey (compiler : Compiler) (config : Configuration) : Except Failure String :=
  Fingerprint.key "template" (compiler.scriptFields config)

end Compiler

end StatusLine

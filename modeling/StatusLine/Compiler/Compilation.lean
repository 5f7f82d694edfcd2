import StatusLine.Audit.Report
import StatusLine.Audit.Savings
import StatusLine.Compiler.Basic

/-!
Compiling a configuration: its fragments, the script that they make together, and the shortened
script, which is shipped only if nothing speaks against it. Fragments are made once and kept in the
memory tier.
-/

namespace StatusLine

structure CompiledScript where
  raw : List Char
  optimized : List Char
  report : Audit.Report
  deriving Repr, DecidableEq

namespace CompiledScript

def text (script : CompiledScript) : List Char :=
  if script.report.isValid then script.optimized else script.raw

def savings (script : CompiledScript) : Audit.Savings :=
  .ofTexts script.raw script.optimized

end CompiledScript

namespace Compiler

def fragment (compiler : Compiler) (style : Style) (encoder : Encoder)
    (options : EncoderOptions) : Action (Store Fragment) Fragment := do
  let key ← Action.ofExcept (compiler.fragmentKey encoder options style)
  let kept ← compiler.cache.memoize key
    (Action.ofExcept (compiler.encode encoder style options))
  match kept with
  | .object fragment => pure fragment
  | .text _ => Action.fail (.wrongKind "a text is no fragment")

def fragmentsFor (compiler : Compiler) (style : Style) :
    List (Encoder × EncoderOptions) → Action (Store Fragment) (List Fragment)
  | [] => pure []
  | (encoder, options) :: rest => do
      let first ← compiler.fragment style encoder options
      let others ← compiler.fragmentsFor style rest
      return first :: others

def rawScript (compiler : Compiler) (config : Configuration) (style : Style) :
    Action (Store Fragment) (List Char) := do
  let fragments ← compiler.fragmentsFor style (compiler.wanted config)
  Action.ofExcept (Script.assemble compiler.context config fragments style)

def noteAll {σ : Type} (lines : List String) : Action σ Unit :=
  fun state => ⟨.ok (), state, lines⟩

def rejection (report : Audit.Report) : List String :=
  if report.isValid then []
  else
    ["Optimized script rejected, shipping original: " ++
      Names.join "; " ((report.bySeverity .high).map Audit.Finding.message)]

def finish (compiler : Compiler) (raw : List Char) : Action (Store Fragment) CompiledScript := do
  if compiler.optimizes then
    let outcome := compiler.shorten raw
    let report := Audit.audit raw outcome.text
    noteAll (outcome.log ++ rejection report)
    return ⟨raw, outcome.text, report⟩
  else return ⟨raw, raw, .clean⟩

/-- Compiles a configuration without regard to scripts that are ready. Whatever goes wrong on the
way is a failure of the generation. -/
def compile (compiler : Compiler) (config : Configuration) :
    Action (Store Fragment) CompiledScript := do
  let style := Style.ofConfiguration config
  let raw ← Action.mapFailure Failure.asGeneration (compiler.rawScript config style)
  compiler.finish raw

end Compiler

end StatusLine

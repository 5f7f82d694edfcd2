import StatusLine.Compiler.Compilation
import StatusLine.Shelf

/-!
Generating the script of a configuration from wherever it is ready: the shelf, the memory tier, or
the file tier; else it is compiled and kept.
-/

namespace StatusLine

structure Workbench where
  store : Store Fragment
  shelf : Shelf

namespace Workbench

def make (store : Store Fragment) (shelf : Option Shelf) : Workbench :=
  ⟨store, Shelf.orStandard shelf⟩

def onStore {α : Type} (action : Action (Store Fragment) α) : Action Workbench α :=
  Action.onPart Workbench.store (fun store bench => { bench with store := store }) action

end Workbench

namespace Compiler

def rememberAt (place : Option String) (text : List Char) : Action Workbench Bool := fun bench =>
  let (kept, shelf) := bench.shelf.remember place text
  ⟨.ok kept, { bench with shelf := shelf }, []⟩

def remember (config : Configuration) (text : List Char) : Action Workbench Bool := do
  let bench ← Action.state
  rememberAt (bench.shelf.match? config) text

def shelfText (compiler : Compiler) (store : Store Fragment) (entry : Option (Entry Fragment)) :
    Option (List Char) :=
  match entry with
  | some entry =>
      if Cache.isWithin (store.age entry) (.whole compiler.context.settings.scriptTtl) then
        match entry.value with
        | .text text => some text
        | .object _ => none
      else none
  | none => none

/-- The text on the shelf for a configuration; what the file tier has is put there first. -/
def lookup (compiler : Compiler) (config : Configuration) :
    Action Workbench (Option (List Char)) := do
  let bench ← Action.state
  match bench.shelf.match? config with
  | none => return none
  | some name =>
      match bench.shelf.text? name with
      | some text => return some text
      | none =>
          let key ← Action.ofExcept (compiler.scriptKey config)
          let entry ← Action.ofExcept (compiler.cache.readEntry key none bench.store)
          match compiler.shelfText bench.store entry with
          | none => return none
          | some text =>
              let _ ← rememberAt (some name) text
              return some text

def storeAt (compiler : Compiler) (place : Option String) (config : Configuration)
    (text : List Char) : Action Workbench Bool := do
  if ← rememberAt place text then
    let key ← Action.ofExcept (compiler.scriptKey config)
    let _ ← Workbench.onStore
      (compiler.cache.set key text (some (.whole compiler.context.settings.scriptTtl)))
    return true
  else return false

def store (compiler : Compiler) (config : Configuration) (text : List Char) :
    Action Workbench Bool := do
  let bench ← Action.state
  compiler.storeAt (bench.shelf.match? config) config text

def refresh (compiler : Compiler) (config : Configuration) :
    Action (Store Fragment) (List Char) := do
  let script ← compiler.compile config
  return script.text

/-- The script of a configuration. -/
def generate (compiler : Compiler) (config : Configuration) :
    Action Workbench (Option (List Char)) := do
  match ← compiler.lookup config with
  | some text =>
      Action.note "Template cache hit"
      return some text
  | none =>
      let key ← Action.ofExcept (compiler.scriptKey config)
      let kept ← Workbench.onStore
        (compiler.cache.get key (some (compiler.refresh config)) none none)
      match kept with
      | some (.text text) =>
          let _ ← remember config text
          return some text
      | _ => return none

def precomputeAll (compiler : Compiler) : List (String × Configuration) → Action Workbench Unit
  | [] => pure ()
  | (name, config) :: rest => do
      let script ← Workbench.onStore (compiler.compile config)
      let bench ← Action.state
      let _ ← compiler.storeAt (bench.shelf.placeOf name config) config script.text
      Action.note ("Precomputed template '" ++ name ++ "'")
      compiler.precomputeAll rest

def precompute (compiler : Compiler) : Action Workbench (List (String × List Char)) := do
  let bench ← Action.state
  compiler.precomputeAll bench.shelf.table
  let filled ← Action.state
  return filled.shelf.texts

end Compiler

end StatusLine

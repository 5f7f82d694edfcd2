import StatusLine.Proofs.Script.Closing
import StatusLine.Script.Assembly

/-!
The parts of a script that take its fields from the input and note them in the log, as texts. Both
go over the fields in their order, and write one line for each.
-/

namespace StatusLine.Script

variable {failed : String → Failure} {scope : Scope}

theorem renderAll_of_first {piece : Piece} {rest : List Piece} {first others : List Char}
    (here : Piece.render failed scope piece = .ok first)
    (behind : Piece.renderAll failed scope rest = .ok others) :
    Piece.renderAll failed scope (piece :: rest) = .ok (first ++ others) := by
  rw [Piece.renderAll, here, behind]
  rfl

theorem renderAll_of_last {piece : Piece} {text : List Char}
    (here : Piece.render failed scope piece = .ok text) :
    Piece.renderAll failed scope [piece] = .ok text := by
  rw [Piece.renderAll, here]
  simp [Piece.renderAll, Except.map]

section Loops

variable {α : Type} {datum : α → Datum} {line : α → List Char}

theorem concatenated_turns {items : List α} {rendered : Datum → Datum → Except Failure (List Char)}
    (each : ∀ item turn, rendered (datum item) turn = .ok (line item)) (total index : Nat)
    (before : Option Datum) :
    concatenated ((turns total index before (items.map datum)).map fun turn =>
      rendered turn.1 turn.2) = .ok (items.flatMap line) := by
  induction items generalizing index before with
  | nil => rfl
  | cons item rest ih =>
      simp only [List.map_cons, turns, each, concatenated, ih, Except.map, List.flatMap_cons]

theorem render_loop {items : List α} {name source : String} {body : List Piece}
    (bound : scope.find? source = some (.list (items.map datum)))
    (each : ∀ item turn, Piece.renderAll failed
      ((name, datum item) :: (loopName, turn) :: scope) body = .ok (line item)) :
    Piece.render failed scope (.loop (.one name) (.named source) body) =
      .ok (items.flatMap line) := by
  let rendered (item turn : Datum) : Except Failure (List Char) :=
    Piece.renderAll failed ((name, item) :: (loopName, turn) :: scope) body
  have lines : ∀ item turn, rendered (datum item) turn = .ok (line item) := each
  rw [Piece.render, value_named bound]
  simp only [walked_list]
  exact concatenated_turns lines _ 0 none

end Loops

def defaultLine (field : InputField String) : List Char :=
  field.name.toList ++ ("=".toList ++ (Text.shellWord field.fallback.toList ++ "\n".toList))

def extractionStart : List Char :=
  "if [ \"$(command -v jq)\" ]; then\n  eval \"$(printf '%s' \"$input\" | jq -r '".toList

def extractionEnd : List Char :=
  " | to_entries | .[] | \"\\(.key)=\\(.value | tostring | @sh)\"' 2>/dev/null)\"\nfi".toList

theorem render_extraction (fields : List (InputField String)) (object : List Char) :
    extraction.render (fieldValues fields ++ [("jq_object", .text (String.ofList object))]) =
      .ok ("# ---- input extraction ----\n".toList ++ (fields.flatMap defaultLine ++
        (extractionStart ++ (object ++ extractionEnd)))) := by
  let values := fieldValues fields ++ [("jq_object", .text (String.ofList object))]
  have pieces : extraction.render values =
      Piece.renderAll extraction.failed values extraction.pieces := rfl
  have spoken (text : List Char) : (Datum.text (String.ofList text)).plainText = text :=
    String.toList_ofList
  have taken : Piece.render extraction.failed values (.output (.named "jq_object")) =
      .ok (Datum.text (String.ofList object)).plainText := rfl
  rw [spoken] at taken
  refine pieces.trans (renderAll_of_first rfl (renderAll_of_first
    (render_loop rfl fun field turn => ?_)
    (renderAll_of_first rfl (renderAll_of_first taken (renderAll_of_last rfl)))))
  refine renderAll_of_first rfl (renderAll_of_first rfl
    (renderAll_of_first ?_ (renderAll_of_last rfl)))
  exact congrArg Except.ok (spoken _)

def noteLine (field : InputField String) : List Char :=
  "  printf '  ".toList ++ (field.name.toList ++ ("=%s\\n' \"$".toList ++
    (field.name.toList ++ "\"\n".toList)))

theorem render_logOutput (fields : List (InputField String)) :
    logOutput.render (fieldValues fields) = .ok ("# ---- log extracted data ----\n\x7b\n".toList ++
      (fields.flatMap noteLine ++ "\x7d >> \"$LOG_FILE\" 2>/dev/null".toList)) := by
  have pieces : logOutput.render (fieldValues fields) =
      Piece.renderAll logOutput.failed (fieldValues fields) logOutput.pieces := rfl
  refine pieces.trans (renderAll_of_first rfl (renderAll_of_first
    (render_loop rfl fun field turn => ?_) (renderAll_of_last rfl)))
  exact renderAll_of_first rfl (renderAll_of_first rfl (renderAll_of_first rfl
    (renderAll_of_first rfl (renderAll_of_last rfl))))

end StatusLine.Script

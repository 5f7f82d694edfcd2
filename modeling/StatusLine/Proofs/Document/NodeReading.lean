import StatusLine.Document.Node
import StatusLine.Proofs.Document.Scanning

/-!
Reading nodes goes on in the text as scanning for their tokens does. It adds one failure: that of
collections which lie too deep in one another.
-/

namespace StatusLine.Document.Node

abbrev Reads {α : Type} (reader : Reader α) : Prop :=
  ReadsOn (fun reading => reading.scan.here) reader

theorem reads_scanned {α : Type} {step : Scanning α} (scans : Scan.Scans step) :
    Reads (scanned step) :=
  ReadsOn.onPart scans fun _ _ => rfl

theorem reads_stays {change : Reading → Reading}
    (stays : ∀ reading, (change reading).scan = reading.scan) :
    Reads (modify change : Reader Unit) :=
  .modify fun reading => stays reading ▸ .refl _

theorem reads_peek? : Reads peek? :=
  reads_scanned Scan.scans_peek?

theorem reads_drop : Reads drop :=
  reads_scanned Scan.scans_drop

theorem reads_accept (token : Token) : Reads (accept token) :=
  .bind reads_peek? fun _ => .ite (.bind reads_drop fun _ => .pure _) (.pure _)

theorem reads_expect (token : Token) : Reads (expect token) :=
  .bind (reads_accept token) fun _ => .ite .refuse (.pure _)

theorem reads_isBefore (tokens : List Token) : Reads (isBefore tokens) := by
  refine .bind reads_peek? fun next => ?_
  split <;> exact .pure _

theorem reads_tagText (name : TagName) : Reads (tagText name) := by
  unfold tagText
  split
  · exact .pure _
  · refine .bind .get fun reading => ?_
    split
    · exact .pure _
    · exact .refuse

theorem reads_takeAnchor : Reads takeAnchor := by
  refine .bind reads_peek? fun next => ?_
  split
  · exact .bind reads_drop fun _ => .pure _
  · exact .pure _

theorem reads_takeTag : Reads takeTag := by
  refine .bind reads_peek? fun next => ?_
  split
  · exact .bind reads_drop fun _ => .pure _
  · exact .pure _

theorem reads_takeProperties : Reads takeProperties := by
  refine .bind reads_takeAnchor fun early => .bind reads_takeTag fun tag => ?_
  extract_lets named
  have names (anchor : Option (List Char)) : Reads (named anchor) := by
    dsimp only [named]
    split
    · exact .pure _
    · exact .bind (reads_tagText _) fun _ => .pure _
  split
  · exact .bind reads_takeAnchor names
  · exact .bind (.pure _) names

theorem reads_openAnchor (anchor : Option (List Char)) : Reads (openAnchor anchor) := by
  unfold openAnchor
  split
  · exact .pure _
  · exact .bind .get fun reading => .ite .refuse (reads_stays fun _ => by rfl)

theorem reads_bindAnchor (anchor : Option (List Char)) (node : Node) :
    Reads (bindAnchor anchor node) := by
  unfold bindAnchor
  split
  · exact .pure _
  · exact .bind (reads_stays fun _ => by rfl) fun _ => .pure _

theorem reads_resolve (name : List Char) : Reads (resolve name) := by
  refine .bind .get fun reading => ?_
  split
  · exact .pure _
  · exact .pure _
  · exact .refuse

theorem reads_anchored (anchor : Option (List Char)) (node : Node) :
    Reads (anchored anchor node) :=
  .bind (reads_openAnchor _) fun _ => reads_bindAnchor _ _

theorem reads_enter {α : Type} (room : Nat) {inside : Nat → Reader α}
    (reads : ∀ room, Reads (inside room)) : Reads (enter room inside) := by
  cases room with
  | zero => exact fun _ => .fails tooDeep rfl .depth
  | succ room => exact reads room

theorem reads_collection {α : Type} (anchor : Option (List Char)) (make : α → Node) (room : Nat)
    {inside : Nat → Reader α} (reads : ∀ room, Reads (inside room)) :
    Reads (collection anchor make room inside) :=
  .bind (reads_openAnchor _) fun _ => .bind (reads_enter room reads) fun _ => reads_bindAnchor _ _

theorem reads_emptyNode (anchor tag : Option (List Char)) : Reads (emptyNode anchor tag) :=
  .ite .refuse (reads_anchored _ _)

mutual

theorem reads_node (inBlock dashes : Bool) (room : Nat) :
    (fuel : Nat) → Reads (node inBlock dashes room fuel)
  | 0 => .refuse
  | fuel + 1 => by
      rw [node]
      refine .bind reads_peek? fun next => ?_
      split
      · exact .bind reads_drop fun _ => reads_resolve _
      refine .bind reads_takeProperties fun (anchor, tag) => .bind reads_peek? fun next => ?_
      split
      · exact .bind reads_drop fun _ => reads_anchored _ _
      · exact .bind reads_drop fun _ => reads_anchored _ _
      · exact .bind reads_drop fun _ => reads_collection _ _ _ fun room =>
          reads_flowItems true room fuel
      · exact .bind reads_drop fun _ => reads_collection _ _ _ fun room =>
          reads_flowEntries true room fuel
      · exact .ite (reads_collection _ _ _ fun room => reads_dashItems room fuel)
          (reads_emptyNode _ _)
      · exact .ite (.bind reads_drop fun _ => reads_collection _ _ _ fun room =>
          reads_blockItems room fuel) (reads_emptyNode _ _)
      · exact .ite (.bind reads_drop fun _ => reads_collection _ _ _ fun room =>
          reads_blockEntries room fuel) (reads_emptyNode _ _)
      · exact reads_emptyNode _ _
termination_by structural fuel => fuel

theorem reads_nodeUnless (tokens : List Token) (inBlock dashes : Bool) (room : Nat) :
    (fuel : Nat) → Reads (nodeUnless tokens inBlock dashes room fuel)
  | 0 => .refuse
  | fuel + 1 => by
      rw [nodeUnless]
      exact .bind (reads_isBefore _) fun _ => .ite (.pure _) (reads_node inBlock dashes room fuel)
termination_by structural fuel => fuel

theorem reads_dashItems (room : Nat) : (fuel : Nat) → Reads (dashItems room fuel)
  | 0 => .refuse
  | fuel + 1 => by
      rw [dashItems]
      exact .bind (reads_accept _) fun _ =>
        .ite (.bind (reads_nodeUnless _ _ _ room fuel) fun _ =>
          .bind (reads_dashItems room fuel) fun _ => .pure _) (.pure _)
termination_by structural fuel => fuel

theorem reads_blockItems (room : Nat) : (fuel : Nat) → Reads (blockItems room fuel)
  | 0 => .refuse
  | fuel + 1 => by
      rw [blockItems]
      exact .bind (reads_accept _) fun _ =>
        .ite (.bind (reads_nodeUnless _ _ _ room fuel) fun _ =>
          .bind (reads_blockItems room fuel) fun _ => .pure _)
            (.bind (reads_expect _) fun _ => .pure _)
termination_by structural fuel => fuel

theorem reads_blockEntries (room : Nat) : (fuel : Nat) → Reads (blockEntries room fuel)
  | 0 => .refuse
  | fuel + 1 => by
      rw [blockEntries]
      refine .bind (reads_accept _) fun _ =>
        .ite (.bind (reads_nodeUnless _ _ _ room fuel) fun key => ?_)
          (.bind (reads_expect _) fun _ => .pure _)
      extract_lets goOn
      have goesOn (value : Node) : Reads (goOn value) :=
        .bind (reads_blockEntries room fuel) fun _ => .pure _
      exact .bind (reads_accept _) fun _ =>
        .ite (.bind (reads_nodeUnless _ _ _ room fuel) goesOn) (.bind (.pure _) goesOn)
termination_by structural fuel => fuel

theorem reads_flowEntry (close : Token) (room : Nat) : (fuel : Nat) →
    Reads (flowEntry close room fuel)
  | 0 => .refuse
  | fuel + 1 => by
      rw [flowEntry]
      refine .bind (reads_nodeUnless _ _ _ room fuel) fun key => ?_
      extract_lets finished
      have finishes (value : Node) : Reads (finished value) := .pure _
      exact .bind (reads_accept _) fun _ =>
        .ite (.bind (reads_nodeUnless _ _ _ room fuel) finishes) (.bind (.pure _) finishes)
termination_by structural fuel => fuel

theorem reads_flowItems (first : Bool) (room : Nat) : (fuel : Nat) →
    Reads (flowItems first room fuel)
  | 0 => .refuse
  | fuel + 1 => by
      rw [flowItems]
      refine .bind (reads_accept _) fun _ => .ite (.pure _) ?_
      extract_lets goOn
      have goesOn (_ : Unit) : Reads (goOn ()) :=
        .bind (reads_accept _) fun _ =>
          .ite (.bind (reads_enter room fun room => reads_flowEntry _ room fuel) fun _ =>
            .bind (reads_flowItems false room fuel) fun _ => .pure _)
          (.bind (reads_accept _) fun _ => .ite (.pure _)
            (.bind (reads_node _ _ room fuel) fun _ =>
              .bind (reads_flowItems false room fuel) fun _ => .pure _))
      exact .ite (.bind (reads_expect _) goesOn) (goesOn ())
termination_by structural fuel => fuel

theorem reads_flowEntries (first : Bool) (room : Nat) : (fuel : Nat) →
    Reads (flowEntries first room fuel)
  | 0 => .refuse
  | fuel + 1 => by
      rw [flowEntries]
      refine .bind (reads_accept _) fun _ => .ite (.pure _) ?_
      extract_lets goOn
      have goesOn (_ : Unit) : Reads (goOn ()) :=
        .bind (reads_accept _) fun _ =>
          .ite (.bind (reads_flowEntry _ room fuel) fun _ =>
            .bind (reads_flowEntries false room fuel) fun _ => .pure _)
          (.bind (reads_accept _) fun _ => .ite (.pure _)
            (.bind (reads_node _ _ room fuel) fun _ =>
              .bind (reads_flowEntries false room fuel) fun _ => .pure _))
      exact .ite (.bind (reads_expect _) goesOn) (goesOn ())
termination_by structural fuel => fuel

end

theorem reads_directives (fuel : Nat) (versioned : Bool)
    (handles : List (List Char × List Char)) : Reads (directives fuel versioned handles) := by
  induction fuel generalizing versioned handles with
  | zero => exact .pure _
  | succ fuel ih =>
      refine .bind reads_peek? fun next => ?_
      split
      · exact .bind reads_drop fun _ => .ite .refuse (ih _ _)
      · exact .bind reads_drop fun _ => .ite .refuse (ih _ _)
      · exact .bind reads_drop fun _ => ih _ _
      · exact .pure _

theorem reads_finish (fuel : Nat) : Reads (finish fuel) := by
  induction fuel with
  | zero => exact .refuse
  | succ fuel ih =>
      exact .bind (reads_accept _) fun _ => .ite ih <| .bind reads_peek? fun _ =>
        .ite (.bind (reads_directives _ _ _) fun _ => .refuse) (.pure _)

theorem reads_markedRoot (room fuel : Nat) : Reads (markedRoot room fuel) :=
  .bind (reads_directives _ _ _) fun _ => .bind (reads_stays fun _ => by rfl) fun _ =>
    .bind (reads_expect _) fun _ => .bind reads_peek? fun _ =>
      .ite (.pure _) (reads_node _ _ room fuel)

theorem reads_document (room fuel : Nat) : Reads (document room fuel) := by
  refine .bind reads_peek? fun next => ?_
  split
  · exact .pure _
  extract_lets finished
  have finishes (root : Node) : Reads (finished root) :=
    .bind (reads_finish fuel) fun _ => .pure _
  exact .ite (.bind (reads_markedRoot room fuel) finishes)
    (.bind (reads_node _ _ room fuel) finishes)

theorem stems_of_ofCursor {room : Nat} {place : Cursor} {failure : Failure}
    (failed : ofCursor room place = .error (.unusable failure)) : Stems place failure :=
  (reads_document room _ _).stems (map_eq_error failed)

end StatusLine.Document.Node

import StatusLine.Document.Value
import StatusLine.Proofs.Document.NodeReading

/-!
The failures that get out where values are built: each comes from a scalar in the document whose
text is no value of its kind, and is of one of the kinds that such a scalar can cause.
-/

namespace StatusLine.Document

def LetsOut {α : Type} (may : Failure → Prop) (result : Except Fault α) : Prop :=
  ∀ failure, result = .error (.unusable failure) → may failure

namespace LetsOut

variable {α β : Type} {may : Failure → Prop} {result : Except Fault α}

theorem ok (value : α) : LetsOut may (.ok value) :=
  fun _ failed => nomatch failed

theorem malformed : LetsOut may (.error .malformed : Except Fault α) :=
  fun _ failed => nomatch failed

theorem unusable {failure : Failure} (fit : may failure) :
    LetsOut may (.error (.unusable failure) : Except Fault α) :=
  fun _ failed => Fault.unusable.inj (Except.error.inj failed) ▸ fit

theorem weaken {allows : Failure → Prop} (lets : LetsOut may result)
    (fit : ∀ failure, may failure → allows failure) : LetsOut allows result :=
  fun failure failed => fit failure (lets failure failed)

theorem map (lets : LetsOut may result) (change : α → β) : LetsOut may (result.map change) :=
  fun failure failed => lets failure (map_eq_error failed)

theorem bind (early : LetsOut may result) {next : α → Except Fault β}
    (rest : ∀ value, LetsOut may (next value)) : LetsOut may (result >>= next) := by
  cases result with
  | ok value => exact rest value
  | error fault =>
      exact fun failure failed => early failure (congrArg Except.error (Except.error.inj failed))

theorem ite {p : Prop} [Decidable p] {otherwise : Except Fault α} (yes : LetsOut may result)
    (no : LetsOut may otherwise) : LetsOut may (if p then result else otherwise) := by
  split
  · exact yes
  · exact no

theorem failed (lets : LetsOut may result) {fault : Fault} (same : result = .error fault) :
    LetsOut may (.error fault : Except Fault β) :=
  fun failure failed => lets failure (same.trans (congrArg Except.error (Except.error.inj failed)))

end LetsOut

/-! ### Scalars -/

def OfKinds (kinds : List String) (failure : Failure) : Prop :=
  failure.kind ∈ kinds

def Kind.failures : Kind → List String
  | .bool => ["KeyError"]
  | .int => ["IndexError", "ValueError"]
  | .float => ["IndexError", "OverflowError", "ValueError"]
  | .timestamp => ["AttributeError", "ValueError"]
  | _ => []

theorem letsOut_readBase (base : Nat) (text : List Char) :
    LetsOut (OfKinds ["IndexError", "ValueError"]) (readBase base text) := by
  unfold readBase
  dsimp only
  refine .ite (.unusable ?_) (.ite (.unusable ?_) (.ok _)) <;>
    simp [OfKinds, tooManyDigits, Failure.kind]

theorem letsOut_allOk {α β : Type} {may : Failure → Prop} {read : α → Except Fault β}
    (each : ∀ item, LetsOut may (read item)) (items : List α) :
    LetsOut may (allOk read items) := by
  induction items with
  | nil => exact .ok _
  | cons item rest ih =>
      unfold allOk
      split
      · next same => exact (each item).failed same
      · exact ih.map _

theorem letsOut_intOf (text : List Char) :
    LetsOut (OfKinds ["IndexError", "ValueError"]) (intOf text) := by
  have noText : LetsOut (OfKinds ["IndexError", "ValueError"]) (emptyText : Except Fault Int) :=
    .unusable (by simp [OfKinds, Failure.kind])
  unfold intOf
  split
  · exact noText
  dsimp only
  split
  · exact .ok _
  · exact (letsOut_readBase _ _).map _
  · exact (letsOut_readBase _ _).map _
  · exact (letsOut_readBase _ _).map _
  · exact noText
  · exact .ite ((letsOut_allOk (letsOut_readBase 10) _).map _) ((letsOut_readBase _ _).map _)

theorem letsOut_readPart (text : List Char) :
    LetsOut (OfKinds Kind.float.failures) (readPart text) := by
  unfold readPart
  split
  · exact .ok _
  · exact .unusable (by simp [OfKinds, Failure.kind, Kind.failures])

theorem letsOut_weigh (total : Float) (weight : Nat) (parts : List Float) :
    LetsOut (OfKinds Kind.float.failures) (weigh total weight parts) := by
  induction parts generalizing total weight with
  | nil => exact .ok _
  | cons part rest ih =>
      exact .ite (.unusable (by simp [OfKinds, Failure.kind, Kind.failures])) (ih _ _)

theorem letsOut_floatOf (text : List Char) :
    LetsOut (OfKinds Kind.float.failures) (floatOf text) := by
  unfold floatOf
  split
  · exact .unusable (by simp [OfKinds, Failure.kind, Kind.failures])
  dsimp only
  refine .ite (.ok _) (.ite (.ok _) (.ite ?_ ((letsOut_readPart _).map _)))
  split
  · next same => exact (letsOut_allOk letsOut_readPart _).failed same
  · exact (letsOut_weigh _ _ _).map _

theorem letsOut_boolOf (text : List Char) : LetsOut (OfKinds Kind.bool.failures) (boolOf text) :=
  .ite (.ok _) (.ite (.ok _) (.unusable (by simp [OfKinds, Failure.kind, Kind.failures])))

theorem letsOut_checkRange (holds : Bool) (message : String) :
    LetsOut (OfKinds Kind.timestamp.failures) (checkRange holds message) :=
  .ite (.ok _) (.unusable (by simp [OfKinds, Failure.kind, Kind.failures]))

theorem letsOut_offsetOf (moment : Moment) :
    LetsOut (OfKinds Kind.timestamp.failures) (offsetOf moment) := by
  unfold offsetOf
  split
  · exact .ok _
  · exact .ite (.ok _) (.unusable (by simp [OfKinds, Failure.kind, Kind.failures]))

theorem letsOut_checkDate (moment : Moment) :
    LetsOut (OfKinds Kind.timestamp.failures) (checkDate moment) :=
  .bind (letsOut_checkRange _ _) fun _ => .bind (letsOut_checkRange _ _) fun _ =>
    letsOut_checkRange _ _

theorem letsOut_momentOf (text : List Char) :
    LetsOut (OfKinds Kind.timestamp.failures) (momentOf text) := by
  unfold momentOf
  split
  · exact .unusable (by simp [OfKinds, Failure.kind, Kind.failures])
  split
  · exact .bind (letsOut_checkDate _) fun _ => .ok _
  · exact .bind (letsOut_offsetOf _) fun _ => .bind (letsOut_checkDate _) fun _ =>
      .bind (letsOut_checkRange _ _) fun _ => .bind (letsOut_checkRange _ _) fun _ =>
      .bind (letsOut_checkRange _ _) fun _ => .ok _

theorem letsOut_bytesOf {may : Failure → Prop} (text : List Char) : LetsOut may (bytesOf text) := by
  unfold bytesOf
  refine .ite .malformed ?_
  split
  · exact .ok _
  · exact .malformed

theorem letsOut_scalarValue (kind : Kind) (text : List Char) :
    LetsOut (OfKinds kind.failures) (scalarValue kind text) := by
  cases kind with
  | bool => exact (letsOut_boolOf text).map _
  | int => exact (letsOut_intOf text).map _
  | float => exact (letsOut_floatOf text).map _
  | timestamp => exact letsOut_momentOf text
  | binary => exact letsOut_bytesOf text
  | null | text | halved => exact .ok _
  | _ => exact .malformed

/-! ### Collections -/

def Build.LetsOut {α : Type} (may : Failure → Prop) (build : Build α) : Prop :=
  Document.LetsOut may (build.mapError Prod.snd)

namespace Build.LetsOut

variable {α β : Type} {may : Failure → Prop} {build : Build α}

theorem ok (value : α) : Build.LetsOut may (.ok value) :=
  Document.LetsOut.ok value

theorem malformed (depth : Nat) : Build.LetsOut may (.error (depth, .malformed) : Build α) :=
  Document.LetsOut.malformed

theorem failed {fault : Nat × Fault} (lets : Build.LetsOut may (.error fault : Build α)) :
    Build.LetsOut may (.error fault : Build β) :=
  fun failure failed => lets failure (congrArg Except.error (Except.error.inj failed))

theorem during {result : Except Fault α} (lets : Document.LetsOut may result) (depth : Nat) :
    Build.LetsOut may (Node.during depth result) := by
  cases result with
  | ok value => exact .ok value
  | error fault => exact lets

theorem weaken {allows : Failure → Prop} (lets : Build.LetsOut may build)
    (fit : ∀ failure, may failure → allows failure) : Build.LetsOut allows build :=
  Document.LetsOut.weaken lets fit

theorem map (lets : Build.LetsOut may build) (change : α → β) :
    Build.LetsOut may (build.map change) := by
  cases build with
  | ok value => exact .ok _
  | error fault => exact lets.failed

theorem both {other : Build β} (one : Build.LetsOut may build) (two : Build.LetsOut may other) :
    Build.LetsOut may (Document.both build other) := by
  cases build with
  | ok value =>
      cases other with
      | ok more => exact .ok _
      | error fault => exact two.failed
  | error fault =>
      cases other with
      | ok more => exact one.failed
      | error later =>
          simp only [Document.both]
          split
          · exact two.failed
          · exact one.failed

theorem append {one two : Build (List (Datum × Datum))} (early : Build.LetsOut may one)
    (late : Build.LetsOut may two) : Build.LetsOut may (Node.append one two) :=
  (both early late).map _

theorem entryOf {key value : Build Datum} (depth : Nat) (label : Build.LetsOut may key)
    (item : Build.LetsOut may value) : Build.LetsOut may (Node.entryOf depth key value) := by
  cases key with
  | error fault => exact both label item
  | ok found =>
      simp only [Node.entryOf]
      split
      · exact both (.ok _) item
      · exact .malformed _

end Build.LetsOut

namespace Node

inductive Within (inner : Node) : Node → Prop
  | here : Within inner inner
  | item {kind : Kind} {items : List Node} {item : Node} :
      item ∈ items → Within inner item → Within inner (.sequence kind items)
  | key {kind : Kind} {entries : List (Node × Node)} {key item : Node} :
      (key, item) ∈ entries → Within inner key → Within inner (.mapping kind entries)
  | entry {kind : Kind} {entries : List (Node × Node)} {key item : Node} :
      (key, item) ∈ entries → Within inner item → Within inner (.mapping kind entries)

/-- A node whose text is no value of its kind, and the failure that this causes. A mapping can have
the kind of a scalar; then one of its entries gives the text. -/
inductive Unbuildable : Node → Failure → Prop
  | scalar {kind : Kind} {text : List Char} {failure : Failure} :
      scalarValue kind text = .error (.unusable failure) →
        Unbuildable (.scalar kind text) failure
  | standIn {kind : Kind} {entries : List (Node × Node)} {text : List Char} {failure : Failure} :
      defaultText? entries = some text → scalarValue kind text = .error (.unusable failure) →
        Unbuildable (.mapping kind entries) failure
  | moment {entries : List (Node × Node)} {text : List Char} :
      defaultText? entries = some text → Unbuildable (.mapping .timestamp entries)
        (.wrongKind "expected string or bytes-like object, got 'list'")

def Causes (node : Node) (failure : Failure) : Prop :=
  ∃ inner, Within inner node ∧ Unbuildable inner failure

def OneCauses (items : List Node) (failure : Failure) : Prop :=
  ∃ item ∈ items, item.Causes failure

def EntryCauses (entries : List (Node × Node)) (failure : Failure) : Prop :=
  ∃ key item, (key, item) ∈ entries ∧ (key.Causes failure ∨ item.Causes failure)

theorem OneCauses.causes {kind : Kind} {items : List Node} {failure : Failure}
    (one : OneCauses items failure) : (sequence kind items).Causes failure := by
  obtain ⟨item, member, inner, inside, broken⟩ := one
  exact ⟨inner, .item member inside, broken⟩

theorem EntryCauses.causes {kind : Kind} {entries : List (Node × Node)} {failure : Failure}
    (one : EntryCauses entries failure) : (mapping kind entries).Causes failure := by
  obtain ⟨key, item, member, ⟨inner, inside, broken⟩ | ⟨inner, inside, broken⟩⟩ := one
  · exact ⟨inner, .key member inside, broken⟩
  · exact ⟨inner, .entry member inside, broken⟩

theorem OneCauses.head {item : Node} {rest : List Node} (failure : Failure)
    (causes : item.Causes failure) : OneCauses (item :: rest) failure :=
  ⟨item, List.mem_cons_self, causes⟩

theorem OneCauses.tail {item : Node} {rest : List Node} (failure : Failure)
    (one : OneCauses rest failure) : OneCauses (item :: rest) failure := by
  obtain ⟨other, member, causes⟩ := one
  exact ⟨other, List.mem_cons_of_mem _ member, causes⟩

theorem EntryCauses.key {key item : Node} {rest : List (Node × Node)} (failure : Failure)
    (causes : key.Causes failure) : EntryCauses ((key, item) :: rest) failure :=
  ⟨key, item, List.mem_cons_self, .inl causes⟩

theorem EntryCauses.item {key item : Node} {rest : List (Node × Node)} (failure : Failure)
    (causes : item.Causes failure) : EntryCauses ((key, item) :: rest) failure :=
  ⟨key, item, List.mem_cons_self, .inr causes⟩

theorem EntryCauses.tail {entry : Node × Node} {rest : List (Node × Node)} (failure : Failure)
    (one : EntryCauses rest failure) : EntryCauses (entry :: rest) failure := by
  obtain ⟨key, item, member, causes⟩ := one
  exact ⟨key, item, List.mem_cons_of_mem _ member, causes⟩

theorem letsOut_scalar (depth : Nat) (kind : Kind) (text : List Char) :
    Build.LetsOut (scalar kind text).Causes (during depth (scalarValue kind text)) :=
  .during (fun _ failed => ⟨_, .here, .scalar failed⟩) _

theorem letsOut_standIn (depth : Nat) (kind : Kind) (entries : List (Node × Node)) :
    Build.LetsOut (mapping kind entries).Causes
      (match kind, defaultText? entries with
        | _, none => during depth (.error .malformed)
        | .timestamp, some _ =>
            during depth (unusable (.wrongKind "expected string or bytes-like object, got 'list'"))
        | kind, some text => during depth (scalarValue kind text)) := by
  split
  · exact .during .malformed _
  · next given => exact .during (.unusable ⟨_, .here, .moment given⟩) _
  · next given => exact .during (fun _ failed => ⟨_, .here, .standIn given failed⟩) _

mutual

theorem letsOut_value (depth : Nat) :
    (node : Node) → Build.LetsOut node.Causes (value depth node)
  | scalar kind text => by
      unfold value
      split
      all_goals first
        | exact .during .malformed _
        | exact letsOut_scalar depth _ text
  | sequence kind items => by
      unfold value
      split
      · exact ((letsOut_values _ items).weaken fun _ => OneCauses.causes).map _
      · exact ((letsOut_pairValues _ items).weaken fun _ => OneCauses.causes).map _
      · exact ((letsOut_pairValues _ items).weaken fun _ => OneCauses.causes).map _
      · exact .during .malformed _
      · exact .during .malformed _
      · exact .during .malformed _
  | mapping kind entries => by
      have all : Build.LetsOut (mapping kind entries).Causes (allOf (filled (depth + 1) entries)) :=
        ((letsOut_filled (depth + 1) entries).1.append
          (letsOut_filled (depth + 1) entries).2).weaken fun _ => EntryCauses.causes
      unfold value
      split
      · exact all.map _
      · exact all.map _
      · exact .during .malformed _
      · exact .during .malformed _
      · exact .during .malformed _
      split
      · exact letsOut_standIn depth _ entries
      · exact .during .malformed _
  | enclosing => by
      unfold value
      exact .ok _

theorem letsOut_values (depth : Nat) :
    (items : List Node) → Build.LetsOut (OneCauses items) (values depth items)
  | [] => by
      unfold values
      exact .ok _
  | item :: rest => by
      unfold values
      exact (((letsOut_value depth item).weaken OneCauses.head).both
        ((letsOut_values depth rest).weaken OneCauses.tail)).map _

theorem letsOut_pairValues (depth : Nat) :
    (items : List Node) → Build.LetsOut (OneCauses items) (pairValues depth items)
  | [] => by
      unfold pairValues
      exact .ok _
  | item :: rest => by
      unfold pairValues
      exact (((letsOut_pairValue depth item).weaken OneCauses.head).both
        ((letsOut_pairValues depth rest).weaken OneCauses.tail)).map _

theorem letsOut_pairValue (depth : Nat) :
    (node : Node) → Build.LetsOut node.Causes (pairValue depth node)
  | mapping _ entries => by
      unfold pairValue
      exact (letsOut_onlyPair depth entries).weaken fun _ => EntryCauses.causes
  | scalar _ _ | sequence _ _ | enclosing => by
      unfold pairValue
      exact .during .malformed _

theorem letsOut_onlyPair (depth : Nat) :
    (entries : List (Node × Node)) → Build.LetsOut (EntryCauses entries) (onlyPair depth entries)
  | [] => by
      unfold onlyPair
      exact .during .malformed _
  | (key, item) :: rest => by
      unfold onlyPair
      split
      · exact (((letsOut_value depth key).weaken EntryCauses.key).both
          ((letsOut_value depth item).weaken EntryCauses.item)).map _
      · exact .during .malformed _

theorem letsOut_filled (depth : Nat) :
    (entries : List (Node × Node)) → Build.LetsOut (EntryCauses entries) (filled depth entries).1 ∧
      Build.LetsOut (EntryCauses entries) (filled depth entries).2
  | [] => by
      unfold filled
      exact ⟨.ok _, .ok _⟩
  | (key, item) :: rest => by
      have inherited : Build.LetsOut (EntryCauses ((key, item) :: rest)) (filled depth rest).1 :=
        (letsOut_filled depth rest).1.weaken EntryCauses.tail
      have own : Build.LetsOut (EntryCauses ((key, item) :: rest)) (filled depth rest).2 :=
        (letsOut_filled depth rest).2.weaken EntryCauses.tail
      have given : Build.LetsOut (EntryCauses ((key, item) :: rest)) (value depth item) :=
        (letsOut_value depth item).weaken EntryCauses.item
      unfold filled
      dsimp only
      split
      · exact ⟨.append ((letsOut_merged depth item).weaken EntryCauses.item) inherited, own⟩
      refine ⟨inherited, .map (.both (.entryOf depth ?_ given) own) _⟩
      split
      · split
        · exact .ok _
        · exact .during .malformed _
      split
      · exact .during .malformed _
      · exact (letsOut_value depth key).weaken EntryCauses.key

theorem letsOut_merged (depth : Nat) :
    (node : Node) → Build.LetsOut node.Causes (merged depth node)
  | mapping _ entries => by
      unfold merged
      exact ((letsOut_filled depth entries).1.append (letsOut_filled depth entries).2).weaken
        fun _ => EntryCauses.causes
  | sequence _ items => by
      unfold merged
      exact (letsOut_mergedItems depth items).weaken fun _ => OneCauses.causes
  | enclosing => by
      unfold merged
      exact .ok _
  | scalar _ _ => by
      unfold merged
      exact .malformed _

theorem letsOut_mergedItems (depth : Nat) :
    (items : List Node) → Build.LetsOut (OneCauses items) (mergedItems depth items)
  | [] => by
      unfold mergedItems
      exact .ok _
  | item :: rest => by
      unfold mergedItems
      exact ((letsOut_mergedItems depth rest).weaken OneCauses.tail).append
        ((letsOut_mergedItem depth item).weaken OneCauses.head)

theorem letsOut_mergedItem (depth : Nat) :
    (node : Node) → Build.LetsOut node.Causes (mergedItem depth node)
  | mapping _ entries => by
      unfold mergedItem
      exact ((letsOut_filled depth entries).1.append (letsOut_filled depth entries).2).weaken
        fun _ => EntryCauses.causes
  | enclosing => by
      unfold mergedItem
      exact .ok _
  | scalar _ _ | sequence _ _ => by
      unfold mergedItem
      exact .malformed _

end

end Node

/-! ### Documents -/

/-- The kinds of failures that reading a document can let out. -/
def failureKinds : List String :=
  ["AttributeError", "IndexError", "KeyError", "OverflowError", "TypeError", "ValueError"]

theorem Kind.failures_subset (kind : Kind) : kind.failures ⊆ failureKinds := by
  cases kind <;> simp [Kind.failures, failureKinds]

theorem kind_mem_of_scalarValue {kind : Kind} {text : List Char} {failure : Failure}
    (failed : scalarValue kind text = .error (.unusable failure)) :
    failure.kind ∈ failureKinds :=
  kind.failures_subset (letsOut_scalarValue kind text failure failed)

theorem Node.Causes.kind_mem {node : Node} {failure : Failure} (causes : node.Causes failure) :
    failure.kind ∈ failureKinds := by
  obtain ⟨inner, -, broken⟩ := causes
  cases broken with
  | scalar failed => exact kind_mem_of_scalarValue failed
  | standIn _ failed => exact kind_mem_of_scalarValue failed
  | moment _ => simp [Failure.kind, failureKinds]

theorem EscapesBeyond.kind_mem {text : List Char} {failure : Failure}
    (beyond : EscapesBeyond text failure) : failure.kind ∈ failureKinds := by
  obtain ⟨-, digits, -, -, refused⟩ := beyond
  have lets : LetsOut (fun failure => failure.kind ∈ failureKinds)
      (characterAt (Decimal.digitsValue 16 digits)) := by
    refine .ite (.unusable ?_) (.ite (.unusable ?_) (.ite (.ok _) (.ok _))) <;>
      simp [Failure.kind, failureKinds]
  exact lets failure refused

theorem decode?_eq_none_of_cut {bytes : List UInt8} {failure : Failure}
    (cut : (Cursor.ofFile bytes).cut = some (.unusable failure)) :
    decode? bytes = none ∧ .unusable failure = notText := by
  have uncut (text : List Char) (why : Option Fault)
      (cut : (Cursor.ofText text why).cut = some (.unusable failure)) :
      why = some (.unusable failure) := by
    unfold Cursor.ofText at cut
    dsimp only at cut
    split at cut
    · exact cut
    · cases cut
  unfold Cursor.ofFile at cut
  split at cut
  · cases uncut _ _ cut
  · next noText => exact ⟨noText, (Option.some.inj (uncut _ _ cut)).symm⟩

/-- What lets a failure out while the value of a document is read. -/
inductive GetsOut (room : Nat) (bytes : List UInt8) : Failure → Prop
  | notText : decode? bytes = none → GetsOut room bytes (.other "UnicodeDecodeError" "")
  | escape {failure : Failure} : EscapesBeyond (Cursor.ofFile bytes).rest failure →
      GetsOut room bytes failure
  | number {digits : List Char} : digits <:+: (Cursor.ofFile bytes).rest →
      digits.all Text.isAsciiDigit = true → mostDigits < digits.length →
      GetsOut room bytes (tooManyDigits digits.length)
  | depth : GetsOut room bytes tooDeep
  | scalar {root : Node} {failure : Failure} :
      Node.ofCursor room (.ofFile bytes) = .ok (some root) → root.Causes failure →
      GetsOut room bytes failure

theorem getsOut_of_load {room : Nat} {bytes : List UInt8} {failure : Failure}
    (failed : load room bytes = .error (.unusable failure)) : GetsOut room bytes failure := by
  unfold load at failed
  split at failed
  · next refused =>
    cases Node.stems_of_ofCursor (refused.trans (congrArg _ (Except.error.inj failed))) with
    | cut same =>
        obtain ⟨noText, same⟩ := decode?_eq_none_of_cut same
        exact Fault.unusable.inj same ▸ .notText noText
    | escape beyond => exact .escape beyond
    | number inside digits long => exact .number inside digits long
    | depth => exact .depth
  · cases failed
  · next root made => exact .scalar made (Node.letsOut_value 0 root _ failed)

theorem GetsOut.kind_mem {room : Nat} {bytes : List UInt8} {failure : Failure}
    (getsOut : GetsOut room bytes failure) :
    failure.kind ∈ "RecursionError" :: "UnicodeDecodeError" :: failureKinds := by
  cases getsOut with
  | notText _ => simp [Failure.kind]
  | escape beyond => simp [beyond.kind_mem]
  | number _ _ _ => simp [tooManyDigits, Failure.kind, failureKinds]
  | depth => simp [tooDeep, Failure.kind]
  | scalar _ causes => simp [causes.kind_mem]

end StatusLine.Document

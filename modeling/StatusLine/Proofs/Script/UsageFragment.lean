import StatusLine.Proofs.Script.FixedParts
import StatusLine.Proofs.Script.Fragments

/-!
The fragment of the accounting block closes as well: its variables are words, and what takes them
from the block is an expression for the inside of single quotes.
-/

namespace StatusLine.Script

open Usage (BlockField blockFields addField)

/-! The fields of the block. -/

def knownBlockFields : List BlockField :=
  Usage.costFields ++ Usage.tokenFields ++ Usage.burnRateFields ++ Usage.sessionFields ++
    Usage.cacheFields ++ Usage.projectionFields ++ Usage.alertFields

theorem mem_group {wants : Datum} {fields : List BlockField} {field : BlockField}
    (member : field ∈ if wants.isTruthy = true then fields else []) : field ∈ fields := by
  split at member
  · exact member
  · cases member

theorem known_of_mem_blockFields {options : Usage.Options} {field : BlockField}
    (member : field ∈ blockFields options) : field ∈ knownBlockFields := by
  rcases mem_of_mem_foldl (fun _ _ _ => mem_ifAbsent) member with none | all
  · cases none
  · simp only [List.mem_append] at all
    simp only [knownBlockFields, List.mem_append]
    rcases all with (((((cost | tokens) | burnRate) | session) | cache) | projections) | alerts
    · exact .inl (.inl (.inl (.inl (.inl (.inl (mem_group cost))))))
    · exact .inl (.inl (.inl (.inl (.inl (.inr (mem_group tokens))))))
    · exact .inl (.inl (.inl (.inl (.inr (mem_group burnRate)))))
    · exact .inl (.inl (.inl (.inr (mem_group session))))
    · exact .inl (.inl (.inr (mem_group cache)))
    · exact .inl (.inr (mem_group projections))
    · exact .inr (mem_group alerts)

theorem tidy_blockField : ∀ field ∈ knownBlockFields, field.name.toList.all isBare = true ∧
    (field.name ++ ": (" ++ field.expression ++ " // \"\")").toList.all isExpression = true ∧
      CallFree (field.name ++ ": (" ++ field.expression ++ " // \"\")").toList := by
  simp only [knownBlockFields, Usage.costFields, Usage.tokenFields, Usage.burnRateFields,
    Usage.sessionFields, Usage.cacheFields, Usage.projectionFields, Usage.alertFields,
    List.cons_append, List.nil_append, List.forall_mem_cons, String.toList_append]
  repeat rw [String.toList_ofList]
  decide

theorem all_join {accepts : Char → Bool} {separator : String} {texts : List String}
    (between : separator.toList.all accepts = true)
    (each : ∀ text ∈ texts, text.toList.all accepts = true) :
    (Names.join separator texts).toList.all accepts = true := by
  induction texts with
  | nil => rfl
  | cons text rest ih =>
      have here := each text List.mem_cons_self
      have later := ih fun other member => each other (List.mem_cons_of_mem text member)
      cases rest with
      | nil => simpa [Names.join] using here
      | cons next more =>
          simp only [Names.join, String.toList_append, List.all_append, here, between, later,
            Bool.and_self]

theorem isExpression_blockObject (options : Usage.Options) :
    (Usage.blockObject (blockFields options)).toList.all isExpression = true := by
  have object : (Names.join ", " ((blockFields options).map fun field =>
      field.name ++ ": (" ++ field.expression ++ " // \"\")")).toList.all isExpression = true := by
    refine all_join (by decide) fun text member => ?_
    obtain ⟨field, inside, rfl⟩ := List.mem_map.mp member
    exact (tidy_blockField field (known_of_mem_blockFields inside)).2.1
  have opened : "\x7b".toList.all isExpression = true := by decide
  have closed : "\x7d".toList.all isExpression = true := by decide
  simp only [Usage.blockObject, String.toList_append, List.all_append, opened, object, closed,
    Bool.and_self]

theorem callFree_blockObject (options : Usage.Options) :
    CallFree (Usage.blockObject (blockFields options)).toList := by
  have opened : CallFree "\x7b".toList := by decide
  have closed : CallFree "\x7d".toList := by decide
  rw [Usage.blockObject, String.toList_append, String.toList_append, toList_join]
  refine (opened.append (CallFree.joinWith (by decide) fun text member => ?_)).append closed
  obtain ⟨word, inside, rfl⟩ := List.mem_map.mp member
  obtain ⟨field, there, rfl⟩ := List.mem_map.mp inside
  exact (tidy_blockField field (known_of_mem_blockFields there)).2.2

/-! The lookup. -/

def BindsName (bound : Scope) : Prop :=
  ∃ field ∈ knownBlockFields, bound = [("name", .text field.name)]

theorem BindsName.free {bound : Scope} (binds : BindsName bound) {name : String}
    (other : name ≠ "name") : bound.find? name = none := by
  obtain ⟨field, -, rfl⟩ := binds
  have apart : ("name" == name) = false := by simpa using Ne.symm other
  simp [Scope.find?, apart]

variable {barred : Option Char} {options : Usage.Options} {file : List Char}

theorem fits_turnName {base scope : Scope} (served : Served base BindsName scope)
    (unbound : base.find? "name" = none) {found : Datum}
    (value : (Expression.named "name").value scope = .ok found) :
    Fits barred [.bare] found.plainText := by
  cases served with
  | base =>
      have nothing : (Expression.named "name").value base = .ok .null := by
        simp only [Expression.value, unbound]
        rfl
      obtain rfl := Except.ok.inj (nothing.symm.trans value)
      exact (by decide : Datum.null.plainText.all isBare = true)
  | turn binding outer =>
      obtain ⟨field, known, rfl⟩ := binding
      obtain rfl := Except.ok.inj value
      exact (tidy_blockField field known).1

theorem provides_usageLookup (fits : Fits barred [.directory, .bare] file)
    (fresh : IsNumber options.ttl) (stale : IsNumber options.grace) {scope : Scope}
    (served : Served (Usage.lookupValues file options) BindsName scope) :
    Provides barred
      [(.named "name", [.bare]), (.named "cache_file", [.directory, .bare]),
        (.named "ttl", [.bare]), (.named "grace", [.bare]), (.named "jq_object", [.expression])]
      scope := by
  have outer {name : String} {value : Datum} (other : name ≠ "name") (notLoop : name ≠ loopName)
      (found : (Usage.lookupValues file options).find? name = some value) :
      (Expression.named name).value scope = .ok value := by
    refine value_named ?_
    rw [served.find? notLoop fun bound binds => binds.free other, found]
  have rest : Provides barred
      [(.named "cache_file", [.directory, .bare]), (.named "ttl", [.bare]),
        (.named "grace", [.bare]), (.named "jq_object", [.expression])] scope :=
    .cons (outer (by decide) (by decide) rfl) (fits_text fits)
      (.cons (outer (by decide) (by decide) rfl) fresh.fits
        (.cons (outer (by decide) (by decide) rfl) stale.fits
          (.cons (outer (by decide) (by decide) rfl)
            ⟨isExpression_blockObject options, callFree_blockObject options⟩ .nil)))
  intro entry member found value
  rcases List.mem_cons.mp member with rfl | later
  · exact fits_turnName served rfl value
  · exact rest entry later found value

theorem bindsName_of_turn {scope : Scope}
    (served : Served (Usage.lookupValues file options) BindsName scope) {found : Datum}
    {items : List Datum} (value : (Expression.named "variables").value scope = .ok found)
    (walks : walked found = .ok items) {item : Datum} (inside : item ∈ items) {inner : Scope}
    (binding : (Targets.one "name").bind item = .ok inner) : BindsName inner := by
  have names : scope.find? "variables" =
      some (.list ((blockFields options).map fun field => .text field.name)) := by
    rw [served.find? (by decide) fun bound binds => binds.free (by decide)]
    rfl
  obtain rfl := Except.ok.inj ((value_named names).symm.trans value)
  obtain rfl := Except.ok.inj ((walked_list _).symm.trans walks)
  obtain ⟨field, member, rfl⟩ := List.mem_map.mp inside
  obtain rfl := Except.ok.inj binding
  exact ⟨field, known_of_mem_blockFields member, rfl⟩

theorem AcceptsLookups.closesLookups {State : Type} {reader : LineReader State}
    (accepts : AcceptsLookups barred reader) (slash : barred ≠ some '/') {context : Context}
    (free : Free barred context.settings.cacheDirectory.chars) : ClosesLookups reader context where
  git := by
    intro config options file text configured filed asked
    obtain ⟨-, chosen⟩ := Option.ite_none_right_eq_some.mp configured
    obtain rfl := Option.some.inj chosen
    refine accepts.closes_template templatesTidy.git ?_ asked
    exact .cons rfl (IsNumber.int _).fits (.cons rfl (fits_text (fits_cacheFile slash free filed))
      (.cons rfl (IsNumber.int _).fits (.cons rfl (IsNumber.int _).fits
        (.cons rfl (fits_word (by decide)) .nil))))
  metrics := by
    intro config options fields file values text configured filed valued asked
    obtain ⟨-, chosen⟩ := Option.ite_none_right_eq_some.mp configured
    obtain rfl := Option.some.inj chosen
    obtain ⟨grace, larger, rfl⟩ := map_eq_ok valued
    refine accepts.closes_template templatesTidy.metricsLookup ?_ asked
    exact .cons rfl (fits_text (fits_cacheFile slash free filed)) (.cons rfl (IsNumber.int _).fits
      (.cons rfl (IsNumber.larger (.int _) (.int _) larger).fits .nil))
  usage := by
    intro config options file text configured filed asked
    obtain ⟨-, chosen⟩ := Option.ite_none_right_eq_some.mp configured
    obtain rfl := Option.some.inj chosen
    exact ClosesAll.loop accepts.closes templatesTidy.usageLookup
      (fun scope => provides_usageLookup (fits_cacheFile slash free filed) (.int _) (.int _))
      (fun scope served found items value walks item inside inner binding =>
        bindsName_of_turn served value walks inside binding)
      (renderAll_of_render asked)

/-! The segments. -/

theorem shape_isDecimal (name : String) :
    (Usage.isDecimal name).toList = ["[[ $", name, " =~ ^[0-9.]+$ ]]"].flatMap String.toList := by
  simp [Usage.isDecimal]

theorem shape_isWhole (name : String) :
    (Usage.isWhole name).toList = ["[[ $", name, " =~ ^[0-9]+$ ]]"].flatMap String.toList := by
  simp [Usage.isWhole]

section Readers

variable {State : Type} {reader : LineReader State} (accepts : AcceptsTidy barred reader)
  {style : Style} {text : List Char}

include accepts

theorem closes_sessionBlock (made : Usage.sessionBlock options style = .ok text) :
    reader.Closes text := by
  obtain ⟨shown, drawn, done⟩ := bind_eq_ok made
  have closes := accepts.closes_segment
    (tidySegment _ ["session_text"] (label_mem style _ _) (by decide)) drawn
  have blockOf {body : List Char} (inner : reader.Closes body) :
      reader.Closes (guarded "[ -n \"$session_text\" ]" body) :=
    accepts.closes_guarded
      (textsTidy.conditions _ (.tail _ (.tail _ (.tail _ (.tail _ (.tail _ (.head _)))))))
      (by simp) inner
  split at done
  · obtain ⟨bar, barMade, done⟩ := bind_eq_ok done
    obtain rfl := Except.ok.inj done
    obtain ⟨barShown, barDrawn, rfl⟩ := map_eq_ok barMade
    refine blockOf (closes.line ?_)
    exact accepts.closes_segment
      (tidySegment [" ["] ["session_bar"] (.head _) (by decide)) barDrawn
  · obtain ⟨bar, barMade, done⟩ := bind_eq_ok done
    obtain rfl := Except.ok.inj barMade
    obtain rfl := Except.ok.inj done
    rw [List.append_nil]
    exact blockOf closes

theorem closes_costBlock (made : Usage.costBlock style = .ok text) : reader.Closes text := by
  obtain ⟨withRate, rateDrawn, done⟩ := bind_eq_ok made
  obtain ⟨plain, drawn, done⟩ := bind_eq_ok done
  obtain rfl := Except.ok.inj done
  refine accepts.closes_guarded (textsTidy.decimals _ (.head _)) (shape_isDecimal _) ?_
  refine accepts.closes_chosen (textsTidy.decimals _ (.tail _ (.head _))) (shape_isDecimal _) ?_ ?_
  · exact accepts.closes_segment (tidySegment _ ["cost_usd", "cost_per_hour"]
      (label_mem style _ _) (by decide)) rateDrawn
  · exact accepts.closes_segment
      (tidySegment _ ["cost_usd"] (label_mem style _ _) (by decide)) drawn

theorem closes_tokensBlock (made : Usage.tokensBlock options style = .ok text) :
    reader.Closes text := by
  obtain ⟨plain, drawn, done⟩ := bind_eq_ok made
  have closes := accepts.closes_segment
    (tidySegment _ ["total_tokens"] (label_mem style _ _) (by decide)) drawn
  split at done
  · obtain ⟨body, bodyMade, done⟩ := bind_eq_ok done
    obtain rfl := Except.ok.inj done
    obtain ⟨withRate, rateDrawn, rfl⟩ := map_eq_ok bodyMade
    refine accepts.closes_guarded textsTidy.whole (shape_isWhole _) ?_
    refine accepts.closes_chosen (textsTidy.decimals _ (.tail _ (.tail _ (.head _))))
      (shape_isDecimal _) ?_ closes
    exact accepts.closes_segment (tidySegment _ ["total_tokens", "tokens_per_minute"]
      (label_mem style _ _) (by decide)) rateDrawn
  · obtain ⟨body, bodyMade, done⟩ := bind_eq_ok done
    obtain rfl := Except.ok.inj bodyMade
    obtain rfl := Except.ok.inj done
    exact accepts.closes_guarded textsTidy.whole (shape_isWhole _) closes

theorem closes_cacheBlock (made : Usage.cacheBlock style = .ok text) : reader.Closes text := by
  obtain ⟨shown, drawn, done⟩ := bind_eq_ok made
  obtain rfl := Except.ok.inj done
  refine accepts.closes_guarded textsTidy.both ?_ ?_
  · simp only [String.toList_append, shape_isWhole, List.flatMap_cons, List.flatMap_nil,
      List.append_nil, List.append_assoc]
  · refine (accepts.closes_text textsTidy.share).line ?_
    exact accepts.closes_segment
      (tidySegment _ ["cache_share"] (label_mem style _ _) (by decide)) drawn

theorem closes_projectionBlock (made : Usage.projectionBlock style = .ok text) :
    reader.Closes text := by
  obtain ⟨withMinutes, minutesDrawn, done⟩ := bind_eq_ok made
  obtain ⟨plain, drawn, done⟩ := bind_eq_ok done
  obtain rfl := Except.ok.inj done
  refine accepts.closes_guarded (textsTidy.decimals _ (.tail _ (.tail _ (.tail _ (.head _)))))
    (shape_isDecimal _) ?_
  refine accepts.closes_chosen
    (textsTidy.decimals _ (.tail _ (.tail _ (.tail _ (.tail _ (.head _)))))) (shape_isDecimal _)
    ?_ ?_
  · exact accepts.closes_segment (tidySegment _ ["projected_cost", "\x7bprojected_minutes%.*\x7d"]
      (label_mem style _ _) (by decide)) minutesDrawn
  · exact accepts.closes_segment
      (tidySegment _ ["projected_cost"] (label_mem style _ _) (by decide)) drawn

theorem closes_alertHeading {limit : Datum} (number : IsNumber limit) :
    reader.Closes ("if ".toList ++ (Usage.isDecimal "cost_per_hour" ++
      " && num_above \"$cost_per_hour\" " ++ limit.string).toList ++ "; then".toList) := by
  have provides : Provides barred [(.named "limit", [.bare])] [("limit", limit)] :=
    .cons rfl number.fits .nil
  have rendered : Piece.renderAll (fun _ => .homeUnknown) [("limit", limit)]
      [.text "if ", .text "[[ $", .text "cost_per_hour", .text " =~ ^[0-9.]+$ ]]",
        .text " && num_above \"$cost_per_hour\" ", .output (.named "limit"), .text "; then"] =
      .ok ("if ".toList ++ ("[[ $".toList ++ ("cost_per_hour".toList ++
        (" =~ ^[0-9.]+$ ]]".toList ++ (" && num_above \"$cost_per_hour\" ".toList ++
          (limit.plainText ++ ("; then".toList ++ []))))))) := rfl
  have closes := accepts.closes_pieces textsTidy.alert provides rendered
  simpa only [String.toList_append, shape_isDecimal, Datum.string, String.toList_ofList,
    List.flatMap_cons, List.flatMap_nil, List.append_nil, List.append_assoc] using closes

theorem closes_alertBlock (number : IsNumber options.costWarning)
    (made : Usage.alertBlock options style = .ok text) : reader.Closes text := by
  obtain ⟨shown, drawn, done⟩ := bind_eq_ok made
  obtain rfl := Except.ok.inj done
  refine LineReader.closes_guarded (closes_alertHeading accepts number)
    (accepts.closes_text textsTidy.ending) ?_
  exact accepts.closes_segment
    (tidySegment _ ["cost_per_hour"] (label_mem style _ _) (by decide)) drawn

theorem closes_displays (number : IsNumber options.costWarning) {texts : List (List Char)}
    (made : Usage.displays options style = .ok texts) : ∀ text ∈ texts, reader.Closes text := by
  obtain ⟨session, sessionMade, done⟩ := bind_eq_ok made
  obtain ⟨cost, costMade, done⟩ := bind_eq_ok done
  obtain ⟨tokens, tokensMade, done⟩ := bind_eq_ok done
  obtain ⟨cache, cacheMade, done⟩ := bind_eq_ok done
  obtain ⟨projections, projectionsMade, done⟩ := bind_eq_ok done
  obtain ⟨alerts, alertsMade, done⟩ := bind_eq_ok done
  obtain rfl := Except.ok.inj done
  intro text member
  simp only [List.mem_append] at member
  rcases member with ((((member | member) | member) | member) | member) | member
  · exact closes_ifWanted (fun text => closes_sessionBlock accepts) sessionMade text member
  · exact closes_ifWanted (fun text => closes_costBlock accepts) costMade text member
  · exact closes_ifWanted (fun text => closes_tokensBlock accepts) tokensMade text member
  · exact closes_ifWanted (fun text => closes_cacheBlock accepts) cacheMade text member
  · exact closes_ifWanted (fun text => closes_projectionBlock accepts) projectionsMade text member
  · exact closes_ifWanted (fun text => closes_alertBlock accepts number) alertsMade text member

/-! The fragment. -/

variable {context : Context} {fragment : Fragment}

theorem closes_usageTiming {query : List Char} (closes : reader.Closes query)
    {timing : List Char}
    (timed : timing = [] ∨ ∃ session,
      Usage.session.render (Usage.sessionValues options style) = .ok session ∧
        timing = '\n' :: session) : reader.Closes (query ++ timing) := by
  rcases timed with rfl | ⟨session, rendered, rfl⟩
  · rw [List.append_nil]
    exact closes
  · exact closes.line (accepts.closes_template templatesTidy.session .nil rendered)

theorem tidy_usage (lookups : ClosesLookups reader context) {config : Configuration}
    (configured : Usage.Options.ofConfiguration? context.settings config = some options)
    (encoded : Usage.encode context options style = .ok fragment) :
    TidyFragment reader fragment := by
  obtain ⟨setup, blocks, done⟩ := bind_eq_ok encoded
  obtain ⟨file, filed, done⟩ := bind_eq_ok done
  obtain ⟨query, asked, done⟩ := bind_eq_ok done
  have numbers : IsNumber options.costWarning ∧ IsNumber options.timeout := by
    obtain ⟨-, chosen⟩ := Option.ite_none_right_eq_some.mp configured
    obtain rfl := Option.some.inj chosen
    exact ⟨.inr ⟨_, rfl⟩, .int _⟩
  obtain ⟨limit, timeout⟩ := numbers
  have setupCloses : reader.Closes setup :=
    accepts.closes_template templatesTidy.blocks
      (.cons rfl timeout.fits (.cons rfl (fits_word (by decide))
        (.cons rfl (fits_word (by decide)) .nil))) blocks
  have assembled : ∃ timing shown, (timing = [] ∨ ∃ session,
      Usage.session.render (Usage.sessionValues options style) = .ok session ∧
        timing = '\n' :: session) ∧ Usage.displays options style = .ok shown ∧
      fragment = ⟨"usage", setup, query ++ timing, Text.joinLines shown, [],
        Usage.routines options⟩ := by
    split at done
    · obtain ⟨timing, timed, done⟩ := bind_eq_ok done
      obtain ⟨session, rendered, rfl⟩ := map_eq_ok timed
      obtain ⟨shown, displayed, done⟩ := bind_eq_ok done
      exact ⟨_, shown, .inr ⟨session, rendered, rfl⟩, displayed, (Except.ok.inj done).symm⟩
    · obtain ⟨timing, timed, done⟩ := bind_eq_ok done
      obtain rfl := Except.ok.inj timed
      obtain ⟨shown, displayed, done⟩ := bind_eq_ok done
      exact ⟨_, shown, .inl rfl, displayed, (Except.ok.inj done).symm⟩
  obtain ⟨timing, shown, timed, displayed, rfl⟩ := assembled
  have queryCloses := closes_usageTiming accepts (lookups.usage configured filed asked) timed
  refine ⟨setupCloses, queryCloses, ?_, fun field member => absurd member List.not_mem_nil⟩
  exact LineReader.closes_joinLines (closes_displays accepts limit displayed)

theorem tidy_encode (lookups : ClosesLookups reader context) {config : Configuration}
    {encoder : Encoder} {wanted : EncoderOptions}
    (configured : encoder.configure context.settings config = some wanted)
    (encoded : wanted.encode context style = .ok fragment) : TidyFragment reader fragment := by
  cases encoder with
  | directory =>
      simp only [Encoder.configure] at configured
      split at configured
      · obtain rfl := Option.some.inj configured
        exact tidy_directory accepts encoded
      · cases configured
  | git =>
      obtain ⟨options, chosen, rfl⟩ := Option.map_eq_some_iff.mp configured
      exact tidy_git accepts lookups chosen encoded
  | model =>
      obtain ⟨options, chosen, rfl⟩ := Option.map_eq_some_iff.mp configured
      exact tidy_model accepts encoded
  | metrics =>
      obtain ⟨options, chosen, rfl⟩ := Option.map_eq_some_iff.mp configured
      exact tidy_metrics accepts lookups chosen encoded
  | usage =>
      obtain ⟨options, chosen, rfl⟩ := Option.map_eq_some_iff.mp configured
      exact tidy_usage accepts lookups chosen encoded

end Readers

end StatusLine.Script

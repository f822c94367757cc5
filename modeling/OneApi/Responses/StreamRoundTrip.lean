import OneApi.Responses.ToolRoundTrip

/-!
# From chat chunks to Responses events and back

A client that assembles the chunks of the second converter has the text and the reasoning of the original
stream, and its tool calls in the same order, with their ids and names trimmed.

`Relates` is the invariant between the two converters.  The second takes no text from the final response,
since it has sent some for every item that the first started, and it breaks the reasoning only after the
first has closed it.
-/

namespace OneApi.Responses

open Claude.Stream (Chunk Choice Delta ToolCallResponse)
open Chat Lib.Emit Lib.Acceptor Tokens OneApi.Lib.Go Assembly
open Lib.Run (run Respects)
open ResponsesToChatStreamState ChatToResponsesStreamState

/-- The first converter, and the second with its client, when a client of the original stream has `b`. -/
structure Relates (owner : String → Option ℤ) (b : Assembly) (s : ChatToResponsesStreamState)
    (r : ResponsesToChatStreamState × Assembly) : Prop where
  text : r.2.text = b.text
  reasoning : r.2.reasoning = b.reasoning
  hasText : s.textStarted = true → r.1.hasSentText = true
  hasReasoning : s.reasoningStarted = true → r.1.hasSentReasoning = true
  unbroken : s.reasoningDone = false → r.1.needsReasoningSummaryBreak = false
  running : r.1.finalized = false
  tools : ∃ N tracks, ToolsRelated owner b.calls s r.1 r.2.calls N tracks

variable {owner : String → Option ℤ} {b : Assembly} {s s' : ChatToResponsesStreamState}
  {r r' : ResponsesToChatStreamState × Assembly}

variable {calls : List AssembledCall} {t : ResponsesToChatStreamState} {tracks : ℤ → Track}

variable {t' : ResponsesToChatStreamState} {N : ToolKey → Option ℤ}

/-- The relation of the tools depends on these fields alone. -/
theorem ToolsRelated.of_fields {out : List AssembledCall} (h : ToolsRelated owner calls s t out N tracks)
    (htools : s'.toolsByIndex = s.toolsByIndex) (hnext : s.nextOutputIndex ≤ s'.nextOutputIndex)
    (ht : toolState t' = toolState t) : ToolsRelated owner calls s' t' out N tracks := by
  obtain ⟨hkeyOf, _⟩ := tables_of_toolState ht
  refine ⟨h.demux.congr ht, h.quiet, h.items, h.callIDs, ?_, fun i tool hlook => ?_, ?_, fun c hc => ?_⟩
  · rw [htools]
    exact h.outputs
  · rw [htools] at hlook
    obtain ⟨hbelow, hchat⟩ := h.below i tool hlook
    exact ⟨lt_of_lt_of_le hbelow hnext, hchat⟩
  · rw [htools]
    exact h.known
  · rw [htools]
    obtain ⟨tool, hlook, hcarries⟩ := h.carries c hc
    exact ⟨tool, hlook, hcarries.mono fun b hb => by rw [hkeyOf]; exact hb⟩

/-- The fields of the first converter that the relation depends on, besides the tools. -/
structure SameItems (s s' : ChatToResponsesStreamState) : Prop where
  textStarted : s'.textStarted = s.textStarted
  reasoningStarted : s'.reasoningStarted = s.reasoningStarted
  reasoningDone : s'.reasoningDone = s.reasoningDone

theorem fields_of_rest (h : t'.rest = t.rest) :
    t'.hasSentText = t.hasSentText ∧ t'.hasSentReasoning = t.hasSentReasoning ∧
      t'.needsReasoningSummaryBreak = t.needsReasoningSummaryBreak ∧ t'.finalized = t.finalized := by
  refine ⟨?_, ?_, ?_, ?_⟩
  · show t'.rest.hasSentText = t.rest.hasSentText
    rw [h]
  · show t'.rest.hasSentReasoning = t.rest.hasSentReasoning
    rw [h]
  · show t'.rest.needsReasoningSummaryBreak = t.rest.needsReasoningSummaryBreak
    rw [h]
  · show t'.rest.finalized = t.rest.finalized
    rw [h]

variable (h : Relates owner b s r)

include h in
/-- A step of the tools. -/
theorem Relates.of_tools (hs' : SameItems s s')
    (hfrom : ToolsFrom owner calls s' r r') : Relates owner { b with calls := calls } s' r' := by
  obtain ⟨htools, hrest, hchat⟩ := hfrom
  obtain ⟨htext, hreasoning, hbreak, hfinal⟩ := fields_of_rest hrest
  refine ⟨?_, ?_, fun hstarted => ?_, fun hstarted => ?_, fun hopen => ?_, hfinal.trans h.running, htools⟩
  · rw [hchat]
    exact h.text
  · rw [hchat]
    exact h.reasoning
  · exact htext.trans (h.hasText (hs'.textStarted.symm.trans hstarted))
  · exact hreasoning.trans (h.hasReasoning (hs'.reasoningStarted.symm.trans hstarted))
  · exact hbreak.trans (h.unbroken (hs'.reasoningDone.symm.trans hopen))

include h in
/-- A step of the first converter that leaves its items alone. -/
theorem Relates.of_items (hs' : SameItems s s')
    (htools : s'.toolsByIndex = s.toolsByIndex) (hnext : s'.nextOutputIndex = s.nextOutputIndex) :
    Relates owner b s' r := by
  obtain ⟨N, tracks, hrelated⟩ := h.tools
  refine ⟨h.text, h.reasoning, ?_, ?_, ?_, h.running, N, tracks, hrelated.of_fields htools hnext.ge rfl⟩
  · rw [hs'.textStarted]
    exact h.hasText
  · rw [hs'.reasoningStarted]
    exact h.hasReasoning
  · rw [hs'.reasoningDone]
    exact h.unbroken

variable {e : ResponsesStreamResponse}

/-- An event of which the second converter makes nothing. -/
theorem relay_silent (hfailed : e.type ≠ .failed) (herror : e.type ≠ .error) (h : eventChunks e = silent) :
    relay r e = some r := by
  rw [relay_eq hfailed herror, received, h]
  rfl

/-- The item of a message or of reasoning. -/
theorem relay_item {item : ResponsesOutput} (htype : e.type = .outputItemAdded ∨ e.type = .outputItemDone)
    (hitem : e.item = some item) (hnot : isResponsesToolOutputType item.type = false) : relay r e = some r := by
  have hany : ¬ (e.item.any fun item => isResponsesToolOutputType item.type) = true := by
    rw [hitem, Option.any_some, hnot]
    exact Bool.false_ne_true
  rw [relay_itemEvent htype, received, if_neg hany]
  rfl

/-! ## Deltas -/

/-- Deltas may come: nothing is closed. -/
def Open (owner : String → Option ℤ) (b : Assembly) (s : ChatToResponsesStreamState)
    (r : ResponsesToChatStreamState × Assembly) : Prop :=
  Relates owner b s r ∧ ∃ q, s.Writable q

theorem read_startText : read relay r s.startText.2 = some r := by
  rw [startText]
  split
  · rfl
  · rw [read_cons, relay_item (.inl rfl) rfl rfl]
    rfl

theorem read_startReasoning : read relay r s.startReasoning.2 = some r := by
  rw [startReasoning]
  split
  · rfl
  · rw [read_cons, relay_item (.inl rfl) rfl rfl]
    rfl

theorem appendTextDelta_state (delta : String) : (appendTextDelta delta s).1.toolsByIndex = s.toolsByIndex ∧
      s.nextOutputIndex ≤ (appendTextDelta delta s).1.nextOutputIndex ∧
      (appendTextDelta delta s).1.reasoningStarted = s.reasoningStarted ∧
      (appendTextDelta delta s).1.reasoningDone = s.reasoningDone := by
  rw [appendTextDelta, andThen, writeText, startText]
  split
  · exact ⟨rfl, le_refl _, rfl, rfl⟩
  · exact ⟨rfl, Int.le_add_one (le_refl _), rfl, rfl⟩

theorem appendReasoningDelta_state (delta : String) : (appendReasoningDelta delta s).1.toolsByIndex = s.toolsByIndex ∧
      s.nextOutputIndex ≤ (appendReasoningDelta delta s).1.nextOutputIndex ∧
      (appendReasoningDelta delta s).1.textStarted = s.textStarted ∧
      (appendReasoningDelta delta s).1.reasoningDone = s.reasoningDone := by
  rw [appendReasoningDelta, andThen, writeReasoning, startReasoning]
  split
  · exact ⟨rfl, le_refl _, rfl, rfl⟩
  · exact ⟨rfl, Int.le_add_one (le_refl _), rfl, rfl⟩

theorem appendTextDelta_open {delta : String} (hne : delta ≠ "") :
    Triple relay (Open owner b) (appendTextDelta delta) (Open owner { b with text := b.text ++ delta }) := by
  rintro s r ⟨h, hwritable⟩
  -- The events of a delta: the item, if it is the first, and the delta.
  refine ⟨((textDelta delta r.1).1, received (textDelta delta) r.1 r.2),
    read_append_of_read read_startText, ?_, (appendTextDelta_writable delta).reach hwritable⟩
  obtain ⟨htools, hnext, hreasoning, hdone⟩ := appendTextDelta_state delta
  obtain ⟨N, tracks, hrelated⟩ := h.tools
  have hstate := textDelta_state delta r.1
  rw [if_neg hne] at hstate
  rw [hstate, received_textDelta]
  refine ⟨?_, h.reasoning, fun _ => rfl, ?_, ?_, h.running, N, tracks, hrelated.of_fields htools hnext rfl⟩
  · show r.2.text ++ delta = b.text ++ delta
    rw [h.text]
  · rw [hreasoning]
    exact h.hasReasoning
  · rw [hdone]
    exact h.unbroken

theorem appendReasoningDelta_open {delta : String} (hne : delta ≠ "") :
    Triple relay (Open owner b) (appendReasoningDelta delta)
      (Open owner { b with reasoning := b.reasoning ++ delta }) := by
  rintro s r ⟨h, hwritable⟩
  refine ⟨((reasoningDelta delta r.1).1, received (reasoningDelta delta) r.1 r.2),
    read_append_of_read read_startReasoning, ?_,
    (appendReasoningDelta_writable delta).reach hwritable⟩
  obtain ⟨htools, hnext, htext, _⟩ := appendReasoningDelta_state delta
  obtain ⟨N, tracks, hrelated⟩ := h.tools
  obtain ⟨_, _, hnone⟩ := hwritable
  have hopen : s.reasoningDone = false := hnone .reasoning
  have hstate := reasoningDelta_state delta r.1
  rw [if_neg hne] at hstate
  have hdelta : summaryBreak r.1 delta = delta := by
    rw [summaryBreak, h.unbroken hopen]
    rfl
  rw [hstate, received_reasoningDelta, if_neg hne, hdelta]
  refine ⟨h.text, ?_, ?_, fun _ => rfl, fun _ => rfl, h.running, N, tracks, hrelated.of_fields htools hnext rfl⟩
  · show r.2.reasoning ++ delta = b.reasoning ++ delta
    rw [h.reasoning]
  · rw [htext]
    exact h.hasText

theorem sameItems_startTool (i : ℤ) (call : ToolCallResponse) : SameItems s (s.startTool i call).1 := by
  rw [ChatToResponsesStreamState.startTool]
  split
  · exact ⟨rfl, rfl, rfl⟩
  · exact ⟨rfl, rfl, rfl⟩

theorem sameItems_writeTool (i : ℤ) (call : ToolCallResponse) : SameItems s (s.writeTool i call).1 := by
  cases hlook : s.toolsByIndex.lookup i with
  | none =>
    have hnothing : s.writeTool i call = (s, []) := by rw [ChatToResponsesStreamState.writeTool, hlook]
    rw [hnothing]
    exact ⟨rfl, rfl, rfl⟩
  | some tool =>
    rw [writeTool_eq hlook]
    exact ⟨rfl, rfl, rfl⟩

theorem SameItems.trans {s₁ s₂ s₃ : ChatToResponsesStreamState} (h : SameItems s₁ s₂)
    (h' : SameItems s₂ s₃) : SameItems s₁ s₃ :=
  ⟨h'.textStarted.trans h.textStarted, h'.reasoningStarted.trans h.reasoningStarted,
    h'.reasoningDone.trans h.reasoningDone⟩

variable {call : ToolCallResponse}

theorem appendToolCallDelta_open (hcall : Proper owner b.calls call) :
    Triple relay (Open owner b) (appendToolCallDelta call)
      (Open owner { b with calls := addFragment b.calls call }) := by
  rintro s r ⟨h, hwritable⟩
  obtain ⟨N, tracks, hrelated⟩ := h.tools
  have hopen : ∀ i tool, s.toolsByIndex.lookup i = some tool → tool.done = false := by
    intro i tool hlook
    obtain ⟨_, _, hnone⟩ := hwritable
    have hitem := hnone (.tool i)
    rw [itemAt, hlook] at hitem
    exact hitem
  obtain ⟨r', hread, hfrom⟩ := hrelated.append hcall hopen
  refine ⟨r', hread, h.of_tools ?_ hfrom, (appendToolCallDelta_writable call).reach hwritable⟩
  exact (sameItems_startTool _ call).trans (sameItems_writeTool _ call)

theorem appendToolCalls_open (calls : List ToolCallResponse)
    (h : Respects addFragment (Proper owner) b.calls calls) :
    Triple relay (Open owner b) (forEach appendToolCallDelta calls)
      (Open owner { b with calls := calls.foldl addFragment b.calls }) := by
  induction calls generalizing b with
  | nil => exact .of_silent fun _ _ => id
  | cons call calls ih =>
    have hrest : Triple relay (Open owner { b with calls := addFragment b.calls call })
        (forEach appendToolCallDelta calls)
        (Open owner { b with calls := (call :: calls).foldl addFragment b.calls }) := ih h.2
    exact (appendToolCallDelta_open h.1).andThen hrest

theorem deltaEvents_open {delta : Delta} (h : Respects addFragment (Proper owner) b.calls delta.toolCalls) :
    Triple relay (Open owner b) (deltaEvents delta) (Open owner (b.addDelta delta)) := by
  have hreasoning : Triple relay (Open owner b)
      (unlessEmpty appendReasoningDelta delta.getReasoningContent)
      (Open owner { b with reasoning := b.reasoning ++ delta.getReasoningContent }) := by
    rw [unlessEmpty]
    split
    next hne => exact appendReasoningDelta_open hne
    next hempty =>
      rw [not_not.mp hempty, String.append_empty]
      exact .of_silent fun _ _ => id
  have htext : ∀ b : Assembly, Triple relay (Open owner b)
      (unlessEmpty appendTextDelta delta.getContentString)
      (Open owner { b with text := b.text ++ delta.getContentString }) := by
    intro b
    rw [unlessEmpty]
    split
    next hne => exact appendTextDelta_open hne
    next hempty =>
      rw [not_not.mp hempty, String.append_empty]
      exact .of_silent fun _ _ => id
  exact hreasoning.andThen ((htext _).andThen (appendToolCalls_open delta.toolCalls h))

/-! ## The end of the items -/

theorem doneText_relates (status : String) :
    Triple relay (Relates owner b) (fun s => s.doneText status) (Relates owner b) := by
  intro s r h
  show ∃ r', read relay r (s.doneText status).2 = some r' ∧ Relates owner b (s.doneText status).1 r'
  rw [doneText]
  split
  · refine ⟨r, ?_, h.of_items ⟨rfl, rfl, rfl⟩ rfl rfl⟩
    rw [read_cons, relay_silent EventType.noConfusion EventType.noConfusion rfl, Option.bind_some,
      read_cons, relay_item (.inr rfl) rfl rfl]
    rfl
  · exact ⟨r, rfl, h⟩

theorem doneReasoning_relates (status : String) :
    Triple relay (Relates owner b) (fun s => s.doneReasoning status) (Relates owner b) := by
  intro s r h
  obtain ⟨N, tracks, hrelated⟩ := h.tools
  show ∃ r', read relay r (s.doneReasoning status).2 = some r' ∧ Relates owner b (s.doneReasoning status).1 r'
  rw [doneReasoning]
  split
  next hstarted =>
    have hsent : r.1.hasSentReasoning = true := h.hasReasoning (Bool.and_eq_true_iff.mp hstarted).1
    refine ⟨({ r.1 with needsReasoningSummaryBreak := true }, r.2), ?_, h.text, h.reasoning, h.hasText,
      h.hasReasoning, fun hopen => Bool.noConfusion hopen, h.running, N, tracks,
      hrelated.of_fields rfl (le_refl _) rfl⟩
    rw [read_cons, relay_eq EventType.noConfusion EventType.noConfusion, Option.bind_some,
      read_cons, relay_item (.inr rfl) rfl rfl, Option.bind_some]
    show some ((if r.1.hasSentReasoning then { r.1 with needsReasoningSummaryBreak := true } else r.1), r.2) = _
    rw [hsent]
    rfl
  next => exact ⟨r, rfl, h⟩

theorem doneTool_relates (status : String) (i : ℤ) :
    Triple relay (Relates owner b) (fun s => s.doneTool status i) (Relates owner b) := by
  intro s r h
  obtain ⟨N, tracks, hrelated⟩ := h.tools
  obtain ⟨r', hread, hfrom⟩ := hrelated.doneTool status i
  refine ⟨r', hread, h.of_tools ?_ hfrom⟩
  cases hlook : s.toolsByIndex.lookup i with
  | none =>
    show SameItems s (s.doneTool status i).1
    rw [ChatToResponsesStreamState.doneTool, hlook]
    exact ⟨rfl, rfl, rfl⟩
  | some tool =>
    show SameItems s (s.doneTool status i).1
    rw [ChatToResponsesStreamState.doneTool, hlook]
    dsimp only
    split
    · exact ⟨rfl, rfl, rfl⟩
    · exact ⟨rfl, rfl, rfl⟩

/-- Nothing is sent when the items are closed. -/
theorem doneDeltaEvents_relates : Triple relay (Relates owner b) doneDeltaEvents (Relates owner b) := by
  intro s r h
  exact (doneText_relates s.outputStatus).andThen ((doneReasoning_relates s.outputStatus).andThen
    (.forEach (doneTool_relates s.outputStatus) s.sortedTools)) s r h

theorem finishEvents_relates (finishReason : Option String) :
    Triple relay (Relates owner b) (finishEvents finishReason) (Relates owner b) := by
  cases finishReason with
  | none => exact .of_silent fun _ _ => id
  | some reason =>
    rw [finishEvents]
    split
    · intro s r h
      refine doneDeltaEvents_relates (applyFinishReason reason s) r ?_
      rw [applyFinishReason]
      generalize responsesStatusFromChatFinishReason reason = status
      exact h.of_items ⟨rfl, rfl, rfl⟩ rfl rfl
    · exact .of_silent fun _ _ => id

/-! ## Chunks -/

/-- What is known when the choices `rest` are still to come: with them, a client of the original stream
will have `whole`. -/
structure Follows (owner : String → Option ℤ) (whole : Assembly) (rest : List Choice)
    (s : ChatToResponsesStreamState) (r : ResponsesToChatStreamState × Assembly) : Prop where
  relates : ∃ b, Relates owner b s r ∧
    rest.foldl (fun a choice => a.addDelta choice.delta) b = whole ∧
    Respects addFragment (Proper owner) b.calls (rest.flatMap fun choice => choice.delta.toolCalls)
  expects : ∃ q, Expects rest s q

theorem addDelta_silent {delta : Delta} (h : Silent delta) : b.addDelta delta = b := by
  obtain ⟨hreasoning, htext, htools⟩ := h
  rw [addDelta, hreasoning, htext, htools, String.append_empty, String.append_empty]
  rfl

theorem choiceEvents_follows {whole : Assembly} (choice : Choice) (rest : List Choice) :
    Triple relay (Follows owner whole (choice :: rest)) (choiceEvents choice) (Follows owner whole rest) := by
  rintro s r ⟨⟨b, h, hwhole, hproper⟩, hexpects⟩
  rw [List.flatMap_cons, Lib.Run.respects_append] at hproper
  have hexpects' := (choiceEvents_expects choice rest).reach hexpects
  have hdelta : ∃ r', read relay r (deltaEvents choice.delta s).2 = some r' ∧
      Relates owner (b.addDelta choice.delta) (deltaEvents choice.delta s).1 r' := by
    obtain ⟨q, hq⟩ := hexpects
    rcases hq.writable with hopen | hsilent
    · obtain ⟨r', hread, h', _⟩ := deltaEvents_open hproper.1 s r ⟨h, q, hq.mirrors, hopen⟩
      exact ⟨r', hread, h'⟩
    · rw [deltaEvents_silent (hsilent choice List.mem_cons_self),
        addDelta_silent (hsilent choice List.mem_cons_self)]
      exact ⟨r, rfl, h⟩
  obtain ⟨r', hread, h'⟩ := hdelta
  obtain ⟨r'', hread', h''⟩ := finishEvents_relates choice.finishReason _ r' h'
  exact ⟨r'', (read_append_of_read hread).trans hread', ⟨_, h'', hwhole, hproper.2⟩, hexpects'⟩

include h in
theorem applyChunk_relates (chunk : Chunk Usage) : Relates owner b (applyChunk chunk s) r := by
  refine h.of_items ⟨?_, ?_, ?_⟩ ?_ ?_ <;> simp only [applyChunk]

/-- The response of a `created` event, or a terminal one, leaves the tools alone. -/
theorem applyResponseMetadata_fields (response : Option OpenAIResponsesResponse) :
    toolState (t.applyResponseMetadata response) = toolState t ∧
      (t.applyResponseMetadata response).hasSentText = t.hasSentText ∧
      (t.applyResponseMetadata response).hasSentReasoning = t.hasSentReasoning ∧
      (t.applyResponseMetadata response).needsReasoningSummaryBreak = t.needsReasoningSummaryBreak ∧
      (t.applyResponseMetadata response).finalized = t.finalized := by
  cases response with
  | none => exact ⟨rfl, rfl, rfl, rfl, rfl⟩
  | some response => simp only [applyResponseMetadata, toolState, and_self]

include h in
theorem Relates.metadata (response : Option OpenAIResponsesResponse) :
    Relates owner b s (r.1.applyResponseMetadata response, r.2) := by
  obtain ⟨N, tracks, hrelated⟩ := h.tools
  obtain ⟨htools, htext, hreasoning, hbreak, hfinal⟩ := applyResponseMetadata_fields response
  exact ⟨h.text, h.reasoning, fun hstarted => htext.trans (h.hasText hstarted),
    fun hstarted => hreasoning.trans (h.hasReasoning hstarted),
    fun hopen => hbreak.trans (h.unbroken hopen), hfinal.trans h.running, N, tracks,
    hrelated.of_fields rfl (le_refl _) htools⟩

theorem sendCreated_relates : Triple relay (Relates owner b) sendCreated (Relates owner b) := by
  intro s r h
  rw [sendCreated]
  split
  · exact ⟨r, rfl, h⟩
  · have hmeta := h.metadata (some s.createdResponse)
    obtain ⟨N, tracks, hrelated⟩ := hmeta.tools
    refine ⟨({ r.1.applyResponseMetadata (some s.createdResponse) with sentStart := true }, r.2), ?_,
      { hmeta with tools := ⟨N, tracks, hrelated.of_fields rfl (le_refl _) rfl⟩ }⟩
    have hcreated : relay r { type := .created, response := some s.createdResponse }
        = some ((ensureStart (r.1.applyResponseMetadata (some s.createdResponse))).1,
            received ensureStart (r.1.applyResponseMetadata (some s.createdResponse)) r.2) := rfl
    rw [read_cons, hcreated, ensureStart_state, received_ensureStart]
    rfl

theorem chunks_follow {whole : Assembly} (chunks : List (Chunk Usage)) :
    Triple relay (Follows owner whole (chunks.flatMap fun chunk => chunk.choices))
      (forEach chatCompletionsStreamChunkToResponsesEvents chunks) (Follows owner whole []) := by
  refine chunks_triple (fun chunk rest s r h => ?_) choiceEvents_follows chunks
  obtain ⟨⟨b, hb, hwhole⟩, q, hq⟩ := h
  obtain ⟨r', hread, hb'⟩ := sendCreated_relates _ r (applyChunk_relates hb chunk)
  exact ⟨r', hread, ⟨b, hb', hwhole⟩, (sendCreated_expects rest).reach ⟨q, applyChunk_expects hq chunk⟩⟩

/-! ## The final response -/

variable {out : ResponsesOutput}

/-- A message or reasoning is sent from the final response only if none was sent before. -/
theorem outputChunks_of_sent (htext : out.type = .message → t.hasSentText = true)
    (hreasoning : out.type = .reasoning → t.hasSentReasoning = true)
    (hnot : isResponsesToolOutputType out.type = false) : outputChunks out t = (t, []) := by
  rw [outputChunks, if_neg, if_neg, if_neg]
  · rw [hnot]
    exact Bool.false_ne_true
  · rintro ⟨htype, hunsent⟩
    rw [hreasoning htype] at hunsent
    cases hunsent
  · rintro ⟨htype, hunsent⟩
    rw [htext htype] at hunsent
    cases hunsent

theorem outputChunks_of_tool (h : out.type = .functionCall) :
    outputChunks out = (ToolEvent.item (Action.outputEvent out)).chunks := by
  funext t
  rw [outputChunks, if_neg, if_neg, if_pos]
  · rfl
  · rw [h]
    rfl
  · rw [h]
    exact fun hboth => OutputType.noConfusion hboth.1
  · rw [h]
    exact fun hboth => OutputType.noConfusion hboth.1

variable {status : String}

include h in
/-- An item of the final response: its text was sent, and its tool is known by its item id. -/
theorem Relates.output {ref : OutputRef} (hout : s.refOutput status ref = some out)
    (hstarted : (s.indexOf ref).isSome) (hdone : (s.itemAt ref).done = true) :
    Relates owner b s ((outputChunks out r.1).1, received (outputChunks out) r.1 r.2) := by
  cases ref with
  | message =>
    cases hout
    have hsent : r.1.hasSentText = true := by
      refine h.hasText ?_
      by_contra hnot
      rw [indexOf, if_neg hnot] at hstarted
      cases hstarted
    have hnothing : outputChunks (s.messageOutput status) r.1 = (r.1, []) :=
      outputChunks_of_sent (fun _ => hsent) OutputType.noConfusion rfl
    rw [received, hnothing]
    exact h
  | reasoning =>
    cases hout
    have hsent : r.1.hasSentReasoning = true := by
      refine h.hasReasoning ?_
      by_contra hnot
      rw [indexOf, if_neg hnot] at hstarted
      cases hstarted
    have hnothing : outputChunks (s.reasoningOutput status) r.1 = (r.1, []) :=
      outputChunks_of_sent OutputType.noConfusion (fun _ => hsent) rfl
    rw [received, hnothing]
    exact h
  | tool i =>
    obtain ⟨tool, hlook, rfl⟩ := Option.map_eq_some_iff.mp hout
    obtain ⟨N, tracks, hrelated⟩ := h.tools
    obtain ⟨c, hc, rfl, hcarries⟩ := hrelated.carries_of_lookup hlook
    rw [itemAt, hlook] at hdone
    have hsame : Sets s s c.index { tool with done := tool.done } := .same hlook
    have hfrom := hrelated.item (e := Action.outputEvent (toolOutput tool status)) hc hlook hcarries rfl
      (.inr ⟨rfl, hdone⟩) hsame
    rw [outputChunks_of_tool rfl]
    exact h.of_tools ⟨rfl, rfl, rfl⟩ hfrom

include h in
theorem Relates.outputs (status : String) (order : List OutputRef)
    (hall : ∀ ref ∈ order, (s.indexOf ref).isSome ∧ (s.itemAt ref).done = true) :
    Relates owner b s ((forEach outputChunks (order.filterMap (s.refOutput status)) r.1).1,
      received (forEach outputChunks (order.filterMap (s.refOutput status))) r.1 r.2) := by
  induction order generalizing r with
  | nil => exact h
  | cons ref order ih =>
    have hrest := fun ref' hmem => hall ref' (List.mem_cons_of_mem ref hmem)
    obtain ⟨hstarted, hdone⟩ := hall ref List.mem_cons_self
    cases hout : s.refOutput status ref with
    | none =>
      rw [List.filterMap_cons_none hout]
      exact ih h hrest
    | some out =>
      rw [List.filterMap_cons_some hout, forEach, received_andThen]
      exact ih (h.output hout hstarted hdone) hrest

/-- The end of the stream sends no text. -/
theorem received_flushAll (s : ResponsesToChatStreamState) (a : Assembly) :
    received flushAllPendingTools s a = { a with calls := (received flushAllPendingTools s a).calls } := by
  have hloop : ∀ (keys : List ToolKey) (s : ResponsesToChatStreamState) (a : Assembly),
      received (forEach flushKey keys) s a = { a with calls := (received (forEach flushKey keys) s a).calls } := by
    intro keys
    induction keys with
    | nil => exact fun _ _ => rfl
    | cons key keys ih =>
      intro s a
      have hkey : received (flushKey key) s a
          = { a with calls := (received (flushKey key) s a).calls } := received_toolDelta a
      rw [forEach, received_andThen, ih, hkey]
  exact hloop (keysToFlush s) s a

/-- A call as the client has it, and as it should be. -/
def shownCall (c : AssembledCall) : String × String × String := (c.id, c.name, c.arguments)

def trimmedCall (c : AssembledCall) : String × String × String :=
  (trimSpace c.id, trimSpace c.name, c.arguments)

/-- Nothing waits, so the flush adds no tool. -/
theorem Flushes.owners_eq {owners owners' : List ℤ} {tracks' : ℤ → Track}
    (h : Flushes owners tracks owners' tracks') (hnodup : owners'.Nodup)
    (hquiet : ∀ τ, (tracks τ).waiting = "") : owners' = owners := by
  obtain ⟨new, rfl⟩ := h.extends_
  cases new with
  | nil => exact List.append_nil owners
  | cons τ new =>
    have hmem : τ ∈ owners ++ τ :: new := List.mem_append_right _ List.mem_cons_self
    have hnot : τ ∉ owners := fun hold =>
      (List.nodup_append.mp hnodup).2.2 τ hold τ List.mem_cons_self rfl
    exact absurd (hquiet τ) (h.flushed τ hmem hnot).2.1

/-- The calls that the client has at the end. -/
theorem ToolsRelated.flushed {a : Assembly} (h : ToolsRelated owner calls s t a.calls N tracks) :
    (received flushAllPendingTools t a).calls.map shownCall = calls.map trimmedCall := by
  have hsettled : ∀ τ ∈ calls.map (·.index), (tracks τ).Settled := by
    intro τ hτ
    obtain ⟨c, hc, rfl⟩ := List.mem_map.mp hτ
    obtain ⟨_, _, hcarries⟩ := h.carries c hc
    exact hcarries.delivers.settled
  obtain ⟨owners', tracks', hcontents, hflushes, _⟩ := h.demux.flushAll hsettled
  have howners := hflushes.owners_eq hcontents.nodup h.quiet
  subst howners
  refine List.ext_getElem? fun ref => ?_
  rw [List.getElem?_map, List.getElem?_map]
  cases hc : calls[ref]? with
  | none =>
    have hlength : (received flushAllPendingTools t a).calls.length = calls.length := by
      rw [hcontents.calls_length, List.length_map]
    rw [List.getElem?_eq_none (by rw [hlength]; exact List.getElem?_eq_none_iff.mp hc)]
    rfl
  | some c =>
    have hmem : c ∈ calls := List.mem_of_getElem? hc
    have hown : (calls.map (·.index))[ref]? = some c.index := by rw [List.getElem?_map, hc]; rfl
    obtain ⟨tool, c', htrack, _, hcall, _⟩ := hcontents.tool ref c.index hown
    rw [hflushes.kept c.index (.inl (List.mem_map_of_mem hmem))] at htrack
    obtain ⟨_, _, hcarries⟩ := h.carries c hmem
    obtain ⟨tool₁, c₁, htrack₁, hid, hname, _⟩ := hcarries.sent
    have hdelivers := hcarries.delivers
    rw [htrack] at htrack₁
    cases htrack₁
    rw [Track.Delivers, htrack] at hdelivers
    rw [hcall, Option.map_some, Option.map_some, shownCall, trimmedCall, hid, hname, hdelivers.2.2.2.1]

variable {response : OpenAIResponsesResponse}

theorem ensureIncompleteResponse_some
    (h : response.status = .text status) : ensureIncompleteResponse (some response) = response := by
  rw [ensureIncompleteResponse, Option.getD_some, if_neg]
  rw [h]
  exact RawMessage.noConfusion

/-- The event of a final response. -/
theorem relay_terminal (htype : e.type = .completed ∨ e.type = .incomplete) (hresponse : e.response = some response)
    (hstatus : response.status = .text status) :
    relay r e = some ((terminalEvent (some response) r.1).1, received (terminalEvent (some response)) r.1 r.2) := by
  have hchunks : eventChunks e = terminalEvent (some response) := by
    funext t
    rcases htype with h | h
    · rw [eventChunks, h, hresponse]
    · rw [eventChunks, h, hresponse, ensureIncompleteResponse_some hstatus]
  rw [relay_eq, hchunks]
  · rcases htype with h | h <;> rw [h] <;> exact EventType.noConfusion
  · rcases htype with h | h <;> rw [h] <;> exact EventType.noConfusion

/-- The client has what a client of the original stream has. -/
structure Returned (b a : Assembly) : Prop where
  text : a.text = b.text
  reasoning : a.reasoning = b.reasoning
  calls : a.calls.map shownCall = b.calls.map trimmedCall

include h in
theorem Relates.finalized (response : Option OpenAIResponsesResponse) :
    Returned b (received (finalize response) r.1 r.2) := by
  obtain ⟨N, tracks, hrelated⟩ := h.tools
  have hflag : ToolsRelated owner b.calls s { r.1 with finalized := true } r.2.calls N tracks :=
    hrelated.of_fields rfl (le_refl _) rfl
  rw [received_finalize h.running, received_flushAll]
  exact ⟨h.text, h.reasoning, hflag.flushed⟩

include h in
/-- The final response sends nothing. -/
theorem Relates.terminal (hordered : s.Ordered) (hdone : ∀ ref, (s.indexOf ref).isSome → (s.itemAt ref).done = true) :
    Returned b (received (terminalEvent (some s.finalResponse)) r.1 r.2) := by
  have hmeta := h.metadata (some s.finalResponse)
  have hall : ∀ ref ∈ s.outputOrder, (s.indexOf ref).isSome ∧ (s.itemAt ref).done = true := by
    intro ref hmem
    have hstarted : (s.indexOf ref).isSome :=
      Option.isSome_iff_ne_none.mpr fun hnone => (hordered.absent ref hnone).1 hmem
    exact ⟨hstarted, hdone ref hstarted⟩
  have hout : Relates owner b s
      ((terminalOutputChunks (some s.finalResponse)
          (r.1.applyResponseMetadata (some s.finalResponse))).1,
        received (terminalOutputChunks (some s.finalResponse))
          (r.1.applyResponseMetadata (some s.finalResponse)) r.2) :=
    hmeta.outputs s.outputStatus s.outputOrder hall
  have heq : received (terminalEvent (some s.finalResponse)) r.1 r.2
      = received (andThen (terminalOutputChunks (some s.finalResponse)) (finalize (some s.finalResponse)))
          (r.1.applyResponseMetadata (some s.finalResponse)) r.2 := rfl
  rw [heq, received_andThen]
  exact hout.finalized (some s.finalResponse)

theorem finalize_returns :
    Triple relay (fun s r => Relates owner b s r ∧ ∃ q, s.Mirrors q)
      finalizeChatCompletionsStreamToResponses fun _ r => Returned b r.2 := by
  rintro s r ⟨h, hmirrors⟩
  have hrunning : s.finalized = false := by
    obtain ⟨q, hq⟩ := hmirrors
    exact hq.ordered.running
  obtain ⟨q, hq, hdone⟩ := doneDeltaEvents_closes.reach hmirrors
  obtain ⟨r', hread, h'⟩ := doneDeltaEvents_relates s r h
  have hreturned := h'.terminal hq.ordered fun ref hstarted =>
    (hdone ref hstarted).resolve_right List.not_mem_nil
  rw [finalizeChatCompletionsStreamToResponses, hrunning]
  refine ⟨((terminalEvent (some (doneDeltaEvents s).1.finalResponse) r'.1).1, _),
    (read_append_of_read hread).trans ?_, hreturned⟩
  rw [read_cons, relay_terminal (by dsimp only; split; exact .inr rfl; exact .inl rfl) rfl rfl]
  rfl

/-! ## The whole stream -/

/-- The fragments of tool calls in a stream. -/
def fragments (chunks : List (Chunk Usage)) : List ToolCallResponse :=
  (chunks.flatMap fun chunk => chunk.choices).flatMap fun choice => choice.delta.toolCalls

/-- The first fragment of a call has an id and a name. -/
def Introduced (calls : List AssembledCall) (call : ToolCallResponse) : Prop :=
  (∀ c ∈ calls, some c.index ≠ call.index) → trimSpace call.id ≠ "" ∧ trimSpace call.name ≠ ""

instance (calls : List AssembledCall) (call : ToolCallResponse) : Decidable (Introduced calls call) :=
  inferInstanceAs (Decidable ((∀ c ∈ calls, _) → _ ∧ _))

/-- No two calls have an id in common. -/
def DistinctIDs (calls : List ToolCallResponse) : Prop :=
  ∀ call ∈ calls, ∀ call' ∈ calls, trimSpace call.id ≠ "" →
    trimSpace call.id = trimSpace call'.id → call.index = call'.index

instance (calls : List ToolCallResponse) : Decidable (DistinctIDs calls) :=
  inferInstanceAs (Decidable (∀ call ∈ calls, ∀ call' ∈ calls, _ → _ → _))

/-- The call that an id belongs to. -/
def ownerIn (calls : List ToolCallResponse) (id : String) : Option ℤ :=
  (calls.find? fun call => trimSpace call.id = id).bind fun call => call.index

theorem ownerIn_eq {calls : List ToolCallResponse} (h : DistinctIDs calls)
    (hcall : call ∈ calls) (hid : trimSpace call.id ≠ "") :
    ownerIn calls (trimSpace call.id) = call.index := by
  rw [ownerIn]
  cases hfind : calls.find? fun call' => trimSpace call'.id = trimSpace call.id with
  | none =>
    have hnone := List.find?_eq_none.mp hfind call hcall
    exact absurd (decide_eq_true rfl) hnone
  | some call' =>
    have hsome := List.find?_some hfind
    have heq : trimSpace call'.id = trimSpace call.id := of_decide_eq_true hsome
    exact (h call hcall call' (List.mem_of_find?_eq_some hfind) hid heq.symm).symm

theorem fragments_proper {calls : List ToolCallResponse} (hindex : ∀ call ∈ calls, call.index.isSome)
    (hids : DistinctIDs calls) (h : Respects addFragment Introduced [] calls) :
    Respects addFragment (Proper (ownerIn calls)) [] calls := by
  have howned : ∀ call ∈ calls, call.index.isSome = true ∧ (trimSpace call.id ≠ "" →
      ownerIn calls (trimSpace call.id) = call.index) :=
    fun call hcall => ⟨hindex call hcall, ownerIn_eq hids hcall⟩
  refine (h.and_forall howned).imp fun known call hcall => ?_
  exact ⟨hcall.2.1, hcall.2.2, hcall.1⟩

theorem ofChunks_eq (chunks : List (Chunk Usage)) :
    ofChunks chunks = (chunks.flatMap fun chunk => chunk.choices).foldl
      (fun a choice => a.addDelta choice.delta) {} := by
  have hfold : ∀ a : Assembly, chunks.foldl addChunk a
      = (chunks.flatMap fun chunk => chunk.choices).foldl (fun a choice => a.addDelta choice.delta) a := by
    induction chunks with
    | nil => exact fun _ => rfl
    | cons chunk chunks ih =>
      intro a
      rw [List.foldl_cons, List.flatMap_cons, List.foldl_append, ih]
      rfl
  exact hfold {}

/-- At the start the ids name their tools, and no output index was given out. -/
def idsOnly (owner : String → Option ℤ) : ToolKey → Option ℤ
  | .output _ => none
  | .item itemID => owner itemID
  | .call callID => owner callID

theorem start_relates (id model model' : String) (includeUsage : Bool) : Relates owner {} { id := id, model := model }
      (newResponsesToChatStreamState model' includeUsage, {}) := by
  have hnone : ∀ i, ({ id := id, model := model : ChatToResponsesStreamState }).toolsByIndex.lookup i
      = none := fun _ => rfl
  refine ⟨rfl, rfl, Bool.noConfusion, Bool.noConfusion, fun _ => rfl, rfl, idsOnly owner, fun _ => {},
    (Session.traced_start (idsOnly owner) model' includeUsage).demux, fun _ => rfl, fun _ => rfl,
    fun _ => rfl, fun k i hk => ?_, fun i tool hlook => ?_, fun i tool hlook => ?_,
    fun c hc => absurd hc List.not_mem_nil⟩
  · cases hk
  · rw [hnone] at hlook
    cases hlook
  · rw [hnone] at hlook
    cases hlook

/-- **Round trip.**  When no delta follows the finish reason, every fragment of a tool call has an index,
no two calls have an id in common and the first fragment of a call has an id and a name, a client of the
two converters has what a client of the original stream has, with the ids and names trimmed. -/
theorem chatStream_roundTrip (id model model' : String) (includeUsage : Bool) (chunks : List (Chunk Usage))
    (hfinish : NoDeltaAfterFinish (chunks.flatMap fun chunk => chunk.choices))
    (hindex : ∀ call ∈ fragments chunks, call.index.isSome) (hids : DistinctIDs (fragments chunks))
    (hfirst : Respects addFragment Introduced [] (fragments chunks)) :
    ∃ r, read relay (newResponsesToChatStreamState model' includeUsage, {})
        (chatStreamToResponses chunks { id := id, model := model }).2 = some r ∧
      Returned (ofChunks chunks) r.2 := by
  have hstart : Follows (ownerIn (fragments chunks)) (ofChunks chunks)
      (chunks.flatMap fun chunk => chunk.choices) { id := id, model := model }
      (newResponsesToChatStreamState model' includeUsage, {}) :=
    ⟨⟨{}, start_relates id model model' includeUsage, (ofChunks_eq chunks).symm,
      fragments_proper hindex hids hfirst⟩, {}, start_expects id model hfinish⟩
  have hchunks : Triple relay (Follows (ownerIn (fragments chunks)) (ofChunks chunks)
      (chunks.flatMap fun chunk => chunk.choices))
      (forEach chatCompletionsStreamChunkToResponsesEvents chunks)
      fun s r => Relates (ownerIn (fragments chunks)) (ofChunks chunks) s r ∧ ∃ q, s.Mirrors q := by
    refine (chunks_follow chunks).weaken (fun _ _ h => h) fun s r h => ?_
    obtain ⟨⟨b, hb, hwhole, _⟩, q, hq⟩ := h
    rw [← hwhole]
    exact ⟨hb, q, hq.mirrors⟩
  exact hchunks.andThen finalize_returns _ _ hstart

theorem mixedChunks_roundTrip :
    ∃ r, read relay (newResponsesToChatStreamState "m" true, {})
        (chatStreamToResponses mixedChunks { id := "r", model := "m" }).2 = some r ∧
      Returned (ofChunks mixedChunks) r.2 :=
  chatStream_roundTrip "r" "m" "m" true mixedChunks (by decide +kernel) (by decide +kernel)
    (by decide +kernel) (by decide +kernel)

/-- A call whose id has a blank at both ends. -/
def paddedChunks : List (Chunk Usage) :=
  [{ choices := [{ delta := { toolCalls := [{ index := some 0, id := " a ", name := "f" }] } }] },
   { choices := [{ delta := { toolCalls := [{ index := some 0, arguments := "x" }] }
                   finishReason := some "tool_calls" }] }]

/-- The blanks do not come back. -/
theorem paddedChunks_trimmed :
    NoDeltaAfterFinish (paddedChunks.flatMap fun chunk => chunk.choices) ∧
      (∀ call ∈ fragments paddedChunks, call.index.isSome) ∧ DistinctIDs (fragments paddedChunks) ∧
      Respects addFragment Introduced [] (fragments paddedChunks) ∧
      (ofChunks paddedChunks).calls.map shownCall = [(" a ", "f", "x")] ∧
      (read relay (newResponsesToChatStreamState "m" true, {})
        (chatStreamToResponses paddedChunks { id := "r", model := "m" }).2).map
          (fun r => r.2.calls.map shownCall) = some [("a", "f", "x")] := by
  refine ⟨by decide +kernel, by decide +kernel, by decide +kernel, by decide +kernel,
    by decide +kernel, by decide +kernel⟩

end OneApi.Responses

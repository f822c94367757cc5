import OneApi.Responses.StreamProtocol
import OneApi.Responses.ToolArguments

/-!
# The tools of a chat stream as Responses events and back

The events that the first converter makes of a chat stream are read by the second, and a client
assembles the chunks that come out.  This is about the tool calls: those of the first converter
(`StreamTool`), those that a client of the original stream has, and the tracks of the second converter.

The tools of the second converter are named by the chat index of the original stream.  An output index
names a tool from the moment it is given out; the ids name tools for the whole stream, so they have to be
distinct.
-/

namespace OneApi.Responses

open Claude.Stream (Chunk Choice Delta ToolCallResponse)
open Chat Lib.Emit Lib.Acceptor Tokens OneApi.Lib.Go Assembly Track
open ResponsesToChatStreamState ChatToResponsesStreamState StreamTool

/-- The second converter and its client, as a reader of the events.  An error ends the reading. -/
def relay (r : ResponsesToChatStreamState × Assembly) (e : ResponsesStreamResponse) :
    Option (ResponsesToChatStreamState × Assembly) :=
  match responsesStreamEventToChatChunks e r.1 with
  | .ok (t, chunks) => some (t, chunks.foldl addChunk r.2)
  | .error _ => none

variable {e : ResponsesStreamResponse}

theorem relay_eq (hfailed : e.type ≠ .failed) (herror : e.type ≠ .error) (r : ResponsesToChatStreamState × Assembly) :
    relay r e = some ((eventChunks e r.1).1, received (eventChunks e) r.1 r.2) := by
  have hok : responsesStreamEventToChatChunks e r.1 = .ok (eventChunks e r.1) := by
    rw [responsesStreamEventToChatChunks]
    split
    next h => exact absurd h hfailed
    next h => exact absurd h herror
    next => rfl
  rw [relay, hok]
  rfl

theorem relay_itemEvent (htype : e.type = .outputItemAdded ∨ e.type = .outputItemDone)
    (r : ResponsesToChatStreamState × Assembly) :
    relay r e = some
      ((if (e.item.any fun item => isResponsesToolOutputType item.type) then toolItem e else silent) r.1 |>.1,
        received (if (e.item.any fun item => isResponsesToolOutputType item.type) then toolItem e else silent)
          r.1 r.2) := by
  have hchunks : eventChunks e
      = if (e.item.any fun item => isResponsesToolOutputType item.type) then toolItem e else silent := by
    funext t
    rcases htype with h | h
    all_goals
      rw [eventChunks, h, ite_apply]
      rfl
  rw [relay_eq, hchunks]
  all_goals
    rcases htype with h | h <;> rw [h] <;> exact EventType.noConfusion

/-- The event of a tool's item. -/
theorem read_item (htype : e.type = .outputItemAdded ∨ e.type = .outputItemDone)
    (hitem : (e.item.any fun item => isResponsesToolOutputType item.type) = true)
    (t : ResponsesToChatStreamState) (a : Assembly) :
    read relay (t, a) [e]
      = some (((ToolEvent.item e).chunks t).1, received (ToolEvent.item e).chunks t a) := by
  rw [read_cons, relay_itemEvent htype, if_pos hitem]
  rfl

theorem nonBlank_trimSpace {s : String} (h : trimSpace s ≠ "") :
    nonBlank (trimSpace s) = some (trimSpace s) := by
  rw [nonBlank, trimSpace_trimSpace, if_neg h]

/-! ## The tools -/

/-- One tool: as the first converter has it, as a client of the original stream has it, and its track in
the second converter. -/
structure Carries (N : ToolKey → Option ℤ) (t : ResponsesToChatStreamState) (tool : StreamTool)
    (c : AssembledCall) (track : Track) : Prop where
  output : N (.output tool.outputIndex) = some c.index
  registered : (t.keyOf (.output tool.outputIndex)).isSome
  closed : tool.done = true → (t.keyOf (.item tool.id)).isSome
  id : nonBlank tool.id = some tool.id
  item : N (.item tool.id) = some c.index
  call : N (.call tool.id) = some c.index
  arguments : tool.arguments = c.arguments
  delivers : track.Delivers c.arguments
  sent : ∃ tool' c', track.tool = some (tool', c') ∧ c'.id = trimSpace c.id ∧
    c'.name = trimSpace c.name ∧ c'.id ≠ "" ∧ c'.name ≠ ""

/-- All tools.  `owner` is the tool that an id names. -/
structure ToolsRelated (owner : String → Option ℤ) (calls : List AssembledCall)
    (s : ChatToResponsesStreamState) (t : ResponsesToChatStreamState) (out : List AssembledCall)
    (N : ToolKey → Option ℤ) (tracks : ℤ → Track) : Prop where
  demux : Demux N t out (calls.map (·.index)) tracks
  quiet : ∀ τ, (tracks τ).waiting = ""
  items : ∀ id, N (.item id) = owner id
  callIDs : ∀ id, N (.call id) = owner id
  outputs : ∀ k i, N (.output k) = some i → ∃ tool, s.toolsByIndex.lookup i = some tool ∧ tool.outputIndex = k
  below : ∀ i tool, s.toolsByIndex.lookup i = some tool → tool.outputIndex < s.nextOutputIndex ∧ tool.chatIndex = i
  known : ∀ i tool, s.toolsByIndex.lookup i = some tool → ∃ c ∈ calls, c.index = i
  carries : ∀ c ∈ calls, ∃ tool, s.toolsByIndex.lookup c.index = some tool ∧ Carries N t tool c (tracks c.index)

variable {owner : String → Option ℤ} {calls : List AssembledCall} {s s' : ChatToResponsesStreamState}
  {t t' : ResponsesToChatStreamState} {a : Assembly} {N : ToolKey → Option ℤ} {tracks : ℤ → Track}

variable {c' : AssembledCall}

variable {c : AssembledCall} (h : ToolsRelated owner calls s t a.calls N tracks)

include h in
theorem ToolsRelated.index_inj (hc : c ∈ calls) (hc' : c' ∈ calls) (hindex : c.index = c'.index) : c = c' := by
  have hnodup := h.demux.contents.nodup
  exact List.inj_on_of_nodup_map hnodup hc hc' hindex

include h in
/-- An event of a tool moves the track of the tool, wherever the event leads to it. -/
theorem ToolsRelated.demux_event (hc : c ∈ calls) {event : ToolEvent} (hnames : Names N event c.index)
    (hknown : ∃ b ∈ carried event.event, (t.keyOf b).isSome) :
    Demux N (event.chunks t).1 (received event.chunks t a).calls (calls.map (·.index))
      (Function.update tracks c.index ((tracks c.index).step event)) := by
  have hlinked : Linked N t event c.index :=
    ⟨fun _ => hknown, fun b _ hne => absurd (h.demux.pendingAt_eq h.quiet b) hne⟩
  have hstep := h.demux.step hnames hlinked
  have howners : ownersAfter (calls.map (·.index)) c.index event = calls.map (·.index) := by
    have hmem : c.index ∈ calls.map (·.index) := List.mem_map_of_mem hc
    cases event with
    | item e | argumentsDone e => exact if_pos hmem
    | delta e => rfl
  rw [howners] at hstep
  exact hstep

variable {track : Track}

variable {tool : StreamTool}

theorem Carries.mono (h : Carries N t tool c track) (hmono : ∀ b, (t.keyOf b).isSome → (t'.keyOf b).isSome) :
    Carries N t' tool c track :=
  { h with
    registered := hmono _ h.registered
    closed := fun hdone => hmono _ (h.closed hdone) }

/-- The tool as it is after an event: what does not depend on the event. -/
structure Continues (owner : String → Option ℤ) (tool tool' : StreamTool) (c c' : AssembledCall) :
    Prop where
  outputIndex : tool'.outputIndex = tool.outputIndex
  chatIndex : tool'.chatIndex = c.index
  index : c'.index = c.index
  callID : c'.id = c.id
  callName : c'.name = c.name
  arguments : tool'.arguments = c'.arguments
  id : nonBlank tool'.id = some tool'.id
  owner : owner tool'.id = some c.index

variable {tool' : StreamTool}

/-- A tool that goes on, with the track that it has then. -/
theorem Carries.continues {track' : Track} (h : Carries N t tool c track)
    (hcont : Continues owner tool tool' c c') (hitems : ∀ id, N (.item id) = owner id)
    (hcallIDs : ∀ id, N (.call id) = owner id) (hmono : ∀ b, (t.keyOf b).isSome → (t'.keyOf b).isSome)
    (hclosed : tool'.done = true → (t'.keyOf (.item tool'.id)).isSome)
    (hdelivers : track'.Delivers c'.arguments)
    (hsent : ∃ tool₂ c₂, track'.tool = some (tool₂, c₂) ∧ c₂.id = trimSpace c.id ∧
      c₂.name = trimSpace c.name ∧ c₂.id ≠ "" ∧ c₂.name ≠ "") : Carries N t' tool' c' track' where
  output := by rw [hcont.outputIndex, hcont.index]; exact h.output
  registered := by rw [hcont.outputIndex]; exact hmono _ h.registered
  closed := hclosed
  id := hcont.id
  item := by rw [hitems, hcont.owner, hcont.index]
  call := by rw [hcallIDs, hcont.owner, hcont.index]
  arguments := hcont.arguments
  delivers := hdelivers
  sent := by rw [hcont.callID, hcont.callName]; exact hsent

variable {out : List AssembledCall}

/-- `s'` is `s` with another tool at an index that was given out. -/
structure Sets (s s' : ChatToResponsesStreamState) (i : ℤ) (tool : StreamTool) : Prop where
  lookup : ∀ j, s'.toolsByIndex.lookup j = if j = i then some tool else s.toolsByIndex.lookup j
  next : s'.nextOutputIndex = s.nextOutputIndex

include h in
/-- A tool is changed, and with it its call and its track. -/
theorem ToolsRelated.update (hlook : s.toolsByIndex.lookup c.index = some tool)
    (hcont : Continues owner tool tool' c c')
    (hdemux : Demux N t' out (calls.map (·.index)) (Function.update tracks c.index track))
    (hwaiting : track.waiting = "") (hmono : ∀ b, (t.keyOf b).isSome → (t'.keyOf b).isSome)
    (hcarries : Carries N t' tool' c' track) (hs' : Sets s s' c.index tool') :
    ToolsRelated owner (calls.map fun x => if x.index = c.index then c' else x) s' t' out N
      (Function.update tracks c.index track) := by
  have hindices : (calls.map fun x => if x.index = c.index then c' else x).map (·.index) = calls.map (·.index) := by
    rw [List.map_map]
    refine List.map_congr_left fun x _ => ?_
    show (if x.index = c.index then c' else x).index = x.index
    split
    next heq => rw [hcont.index, heq]
    next => rfl
  refine ⟨?_, fun τ => ?_, h.items, h.callIDs, fun k i hk => ?_, fun i tool₁ hi => ?_,
    fun i tool₁ hi => ?_, fun x hx => ?_⟩
  · rw [hindices]
    exact hdemux
  · by_cases hτ : τ = c.index
    · rw [hτ, Function.update_self]
      exact hwaiting
    · rw [Function.update_of_ne hτ]
      exact h.quiet τ
  · obtain ⟨tool₁, hlook₁, hout₁⟩ := h.outputs k i hk
    rw [hs'.lookup]
    by_cases hi : i = c.index
    · rw [hi, hlook] at hlook₁
      cases hlook₁
      rw [if_pos hi]
      exact ⟨tool', rfl, hcont.outputIndex.trans hout₁⟩
    · rw [if_neg hi]
      exact ⟨tool₁, hlook₁, hout₁⟩
  · rw [hs'.lookup] at hi
    rw [hs'.next]
    by_cases hic : i = c.index
    · rw [if_pos hic] at hi
      cases hi
      rw [hcont.outputIndex, hic]
      exact ⟨(h.below c.index tool hlook).1, hcont.chatIndex⟩
    · rw [if_neg hic] at hi
      exact h.below i tool₁ hi
  · have hmem : ∃ x ∈ calls, x.index = i := by
      rw [hs'.lookup] at hi
      by_cases hic : i = c.index
      · rw [hic]
        exact h.known c.index tool hlook
      · rw [if_neg hic] at hi
        exact h.known i tool₁ hi
    have hall : i ∈ (calls.map fun x => if x.index = c.index then c' else x).map (·.index) := by
      rw [hindices]
      exact List.mem_map.mpr hmem
    exact List.mem_map.mp hall
  · obtain ⟨y, hy, rfl⟩ := List.mem_map.mp hx
    by_cases heq : y.index = c.index
    · rw [if_pos heq, hcont.index, hs'.lookup, if_pos rfl, Function.update_self]
      exact ⟨tool', rfl, hcarries⟩
    · rw [if_neg heq, hs'.lookup, if_neg heq, Function.update_of_ne heq]
      obtain ⟨tool₁, hlook₁, hcar₁⟩ := h.carries y hy
      exact ⟨tool₁, hlook₁, hcar₁.mono hmono⟩

theorem sets_setTool (s : ChatToResponsesStreamState) {i : ℤ} (hchat : tool.chatIndex = i) :
    Sets s (s.setTool tool) i tool :=
  ⟨hchat ▸ lookup_insert_ite s.toolsByIndex tool.chatIndex tool, rfl⟩

/-- A later fragment of a tool keeps the id and the name of the call. -/
theorem Carries.add (h : Carries N t tool c track) (call : ToolCallResponse) :
    (c.add call).id = c.id ∧ (c.add call).name = c.name := by
  obtain ⟨_, c', _, hid, hname, hne, hne'⟩ := h.sent
  have hid' : c.id ≠ "" := by
    intro hempty
    rw [hid, hempty] at hne
    exact hne (by decide)
  have hname' : c.name ≠ "" := by
    intro hempty
    rw [hname, hempty] at hne'
    exact hne' (by decide)
  exact ⟨if_neg hid', if_neg hname'⟩

variable (hc : c ∈ calls) (hat : s.toolsByIndex.lookup c.index = some tool)
  (hcarries : Carries N t tool c (tracks c.index))

include h hc hat hcarries in
/-- An event of a tool that is known. -/
theorem ToolsRelated.event {event : ToolEvent} (hcont : Continues owner tool tool' c c')
    (hnames : Names N event c.index) (hknown : ∃ b ∈ carried event.event, (t.keyOf b).isSome)
    (hdelivers : ((tracks c.index).step event).Delivers c'.arguments)
    (hclosed : tool'.done = true → ((event.chunks t).1.keyOf (.item tool'.id)).isSome)
    (hs' : Sets s s' c.index tool') :
    ToolsRelated owner (calls.map fun x => if x.index = c.index then c' else x) s' (event.chunks t).1
      (received event.chunks t a).calls N
      (Function.update tracks c.index ((tracks c.index).step event)) := by
  have hmono : ∀ b, (t.keyOf b).isSome → ((event.chunks t).1.keyOf b).isSome :=
    fun b hb => hnames.keyOf_mono h.demux.buffers.tidy hb
  obtain ⟨tool₁, c₁, htrack, hid, hname, hne, hne'⟩ := hcarries.sent
  obtain ⟨tool₂, c₂, htrack₂, hid₂, hname₂⟩ := step_keeps htrack hne hne' event
  have hwaiting : ((tracks c.index).step event).waiting = "" := by
    have hd := hdelivers
    rw [Track.Delivers, htrack₂] at hd
    exact hd.1
  exact h.update hat hcont (h.demux_event hc hnames hknown) hwaiting hmono
    (hcarries.continues hcont h.items h.callIDs hmono hclosed hdelivers
      ⟨tool₂, c₂, htrack₂, hid₂.trans hid, hname₂.trans hname, by rw [hid₂]; exact hne,
        by rw [hname₂]; exact hne'⟩) hs'

/-- The identifiers of an event without item that has an output index and an item id. -/
theorem carried_output_item {k : ℤ} {itemID : String} (hitem : e.item = none) (hindex : e.outputIndex = some k)
    (hid : nonBlank e.itemID = some itemID) : carried e = [.output k, .item itemID] := by
  rw [carried_of_no_item hitem, hindex, hid]
  rfl

theorem carried_item {item : ResponsesOutput}
    (hitem : e.item = some item) {itemID callID : String} (hid : nonBlank item.id = some itemID)
    (hcall : nonBlank item.callId = some callID) :
    carried e = (e.outputIndex.map ToolKey.output).toList ++ [.item itemID, .call callID] := by
  rw [carried, responseStreamEventItemID, hitem, Option.bind_some, Option.bind_some, hid, hcall, List.append_assoc]
  rfl

variable {i : ℤ} (hlook : s.toolsByIndex.lookup i = some tool)

include hlook in
theorem Sets.same : Sets s s i tool := by
  refine ⟨fun j => ?_, rfl⟩
  by_cases hj : j = i
  · rw [if_pos hj, hj, hlook]
  · rw [if_neg hj]

/-- All identifiers of a tool's event name the tool. -/
theorem Names.of_carried {N : ToolKey → Option ℤ} {event : ToolEvent} {ids : List ToolKey}
    (hwf : event.WellFormed) (hcarried : carried event.event = ids) (hne : ids ≠ [])
    (hids : ∀ b ∈ ids, N b = some i) : Names N event i :=
  ⟨hwf, by rw [hcarried]; exact hne, by rw [hcarried]; exact hids⟩

theorem StreamTool.named_owner (call : ToolCallResponse)
    (hid : nonBlank tool.id = some tool.id) (howner : owner tool.id = some i)
    (hcall : trimSpace call.id ≠ "" → owner (trimSpace call.id) = some i) :
    nonBlank (tool.named call).id = some (tool.named call).id ∧ owner (tool.named call).id = some i := by
  rw [named]
  by_cases hne : trimSpace call.id ≠ ""
  · rw [if_pos hne]
    exact ⟨nonBlank_trimSpace hne, hcall hne⟩
  · rw [if_neg hne]
    exact ⟨hid, howner⟩

attribute [local irreducible] trimSpace

/-- The tool when the arguments of a fragment are appended, and the event for them. -/
def StreamTool.written (tool : StreamTool) (call : ToolCallResponse) : StreamTool :=
  { tool.named call with arguments := tool.arguments ++ call.arguments }

def StreamTool.deltaEvent (tool : StreamTool) (call : ToolCallResponse) : ResponsesStreamResponse where
  type := .functionArgsDelta
  outputIndex := some tool.outputIndex
  itemID := (tool.named call).id
  delta := call.arguments

variable {call : ToolCallResponse}

include hlook in
theorem writeTool_eq :
    s.writeTool i call = (s.setTool (tool.written call),
      if call.arguments = "" then [] else [tool.deltaEvent call]) := by
  rw [writeTool, hlook, written, ← (named_fields tool call).2.2.1]
  by_cases hargs : call.arguments = ""
  · rw [if_pos hargs, hargs, String.append_empty]
    exact if_neg (not_not.mpr rfl)
  · rw [if_neg hargs]
    exact if_pos hargs

/-- The relation on the tools, for some naming and some tracks, when the rest is as it was. -/
def ToolsFrom (owner : String → Option ℤ) (calls : List AssembledCall) (s : ChatToResponsesStreamState)
    (r₀ r : ResponsesToChatStreamState × Assembly) : Prop :=
  (∃ N tracks, ToolsRelated owner calls s r.1 r.2.calls N tracks) ∧ r.1.rest = r₀.1.rest ∧
    r.2 = { r₀.2 with calls := r.2.calls }

include h hc hat hcarries in
/-- A fragment of a tool that was started. -/
theorem ToolsRelated.writeTool (hopen : tool.done = false)
    (hcall : trimSpace call.id ≠ "" → owner (trimSpace call.id) = some c.index) :
    ∃ r, read relay (t, a) (s.writeTool c.index call).2 = some r ∧
      ToolsFrom owner (calls.map fun x => if x.index = c.index then c.add call else x)
        (s.writeTool c.index call).1 (t, a) r := by
  obtain ⟨hid, howner⟩ := named_owner call hcarries.id ((h.items _).symm.trans hcarries.item) hcall
  obtain ⟨haddID, haddName⟩ := hcarries.add call
  have hchat : tool.chatIndex = c.index := (h.below c.index tool hat).2
  obtain ⟨hwchat, hwout, -, hwdone⟩ := named_fields tool call
  have hcont : Continues owner tool (tool.written call) c (c.add call) :=
    { outputIndex := hwout, chatIndex := hwchat.trans hchat, index := rfl, callID := haddID
      callName := haddName, id := hid, owner := howner
      arguments := by
        show tool.arguments ++ call.arguments = c.arguments ++ call.arguments
        rw [hcarries.arguments] }
  have hclosed : ∀ {closed : Prop}, (tool.written call).done = true → closed := by
    intro closed hdone
    rw [written, hwdone, hopen] at hdone
    cases hdone
  have hs' : Sets s (s.setTool (tool.written call)) c.index (tool.written call) :=
    sets_setTool s (hwchat.trans hchat)
  rw [writeTool_eq hat]
  by_cases hargs : call.arguments = ""
  · have hdemux : Demux N t a.calls (calls.map (·.index)) (Function.update tracks c.index (tracks c.index)) := by
      rw [Function.update_eq_self]
      exact h.demux
    have hdelivers : (tracks c.index).Delivers (c.add call).arguments := by
      show (tracks c.index).Delivers (c.arguments ++ call.arguments)
      rw [hargs, String.append_empty]
      exact hcarries.delivers
    have hrelated := h.update hat hcont hdemux (h.quiet c.index) (fun _ hb => hb)
      (hcarries.continues hcont h.items h.callIDs (fun _ hb => hb) hclosed hdelivers hcarries.sent) hs'
    rw [if_pos hargs]
    exact ⟨(t, a), rfl, ⟨N, _, hrelated⟩, rfl, rfl⟩
  · have hcarried : carried (tool.deltaEvent call) = [.output tool.outputIndex, .item (tool.named call).id] :=
      carried_output_item (e := tool.deltaEvent call) rfl rfl hid
    have hnames : Names N (.delta (tool.deltaEvent call)) c.index := by
      refine .of_carried ⟨rfl, hargs⟩ hcarried (List.cons_ne_nil _ _) fun b hb => ?_
      rcases List.mem_pair.mp hb with rfl | rfl
      · exact hcarries.output
      · rw [h.items]
        exact howner
    have hknown : ∃ b ∈ carried (tool.deltaEvent call), (t.keyOf b).isSome := by
      rw [hcarried]
      exact ⟨.output tool.outputIndex, List.mem_cons_self, hcarries.registered⟩
    have hrelated := h.event hc hat hcarries hcont hnames hknown
      (hcarries.delivers.step hnames.wellFormed (.inl rfl)) hclosed hs'
    rw [if_neg hargs]
    exact ⟨_, rfl, ⟨N, _, hrelated⟩, hnames.frame h.demux.buffers.tidy a⟩

/-! ### The first fragment of a tool -/

theorem nonBlank_eq_some {x y : String} (h : nonBlank x = some y) : trimSpace x = y ∧ y ≠ "" := by
  rw [nonBlank] at h
  split at h
  next => cases h
  next hne =>
    cases h
    exact ⟨rfl, hne⟩

/-- The first fragment of a tool has its id and its name. -/
theorem Track.send_new {tool : ResponsesStreamTool} (hcall : trimSpace tool.callID ≠ "")
    (hsent : tool.nameSent = false) (delta : String) :
    (send tool none delta).2.id = trimSpace tool.callID ∧ (send tool none delta).2.name = tool.name := by
  refine ⟨if_neg hcall, ?_⟩
  show (if (!tool.nameSent && decide (tool.name ≠ "")) = true then tool.name else "") = tool.name
  rw [hsent]
  by_cases hname : tool.name = ""
  · rw [hname]
    rfl
  · rw [decide_eq_true hname]
    rfl

theorem Track.withItem_named (event : ResponsesStreamResponse) {item : ResponsesOutput}
    {id name : String} (hcall : nonBlank item.callId = some id) (hname : nonBlank item.name = some name)
    (waiting : String) (tool : ResponsesStreamTool) :
    (withItem event item waiting tool).callID = id ∧ (withItem event item waiting tool).name = name ∧
      (withItem event item waiting tool).nameSent = tool.nameSent := by
  rw [withItem, ResponsesStreamTool.describe, hcall, hname]
  split
  · exact ⟨rfl, rfl, rfl⟩
  · exact ⟨rfl, rfl, rfl⟩

/-- The client gets the id and the name with the item that begins a tool. -/
theorem Track.addItem_new {event : ResponsesStreamResponse} {item : ResponsesOutput} {id name : String}
    (hcall : nonBlank item.callId = some id) (hname : nonBlank item.name = some name) {t : Track} (ht : t.tool = none) :
    ∃ tool c, (t.addItem event item).tool = some (tool, c) ∧ c.id = id ∧ c.name = name := by
  obtain ⟨hid, hne⟩ := nonBlank_eq_some hcall
  have htrim : trimSpace id = id := by rw [← hid, trimSpace_trimSpace]
  obtain ⟨hcallID, htoolName, hsent⟩ := withItem_named event hcall hname t.waiting
    { key := (keyForEvent event).getD (.output 0) }
  have heq : (t.addItem event item).tool = some (send (withItem event item t.waiting
      { key := (keyForEvent event).getD (.output 0) }) none "") := by
    rw [addItem, ht]
    rfl
  generalize withItem event item t.waiting { key := (keyForEvent event).getD (.output 0) } = tool
    at hcallID htoolName hsent heq
  obtain ⟨h₁, h₂⟩ := send_new (by rw [hcallID, htrim]; exact hne) hsent ""
  exact ⟨(send tool none "").1, (send tool none "").2, heq, by rw [h₁, hcallID, htrim], by rw [h₂, htoolName]⟩

/-- The item of a tool that is started, and the event for it. -/
def StreamTool.addedItem (tool : StreamTool) : ResponsesOutput where
  type := .functionCall
  id := tool.id
  status := "in_progress"
  callId := tool.id
  name := tool.name
  arguments := .text ""

def StreamTool.addedEvent (tool : StreamTool) : ResponsesStreamResponse where
  type := .outputItemAdded
  outputIndex := some tool.outputIndex
  itemID := tool.id
  item := some tool.addedItem

theorem startTool_of_none (hlook : s.toolsByIndex.lookup i = none) :
    s.startTool i call = ((s.nextIndex (.tool i)).setTool (s.newTool i call), [(s.newTool i call).addedEvent]) := by
  have hnot : ¬ (s.toolsByIndex.lookup i).isSome = true := by
    rw [hlook]
    exact Bool.false_ne_true
  exact if_neg hnot

theorem newTool_fields (hid : trimSpace call.id ≠ "") :
    (s.newTool i call).chatIndex = i ∧ (s.newTool i call).outputIndex = s.nextOutputIndex ∧
      (s.newTool i call).id = trimSpace call.id ∧
      (s.newTool i call).name = trimSpace call.name ∧
      (s.newTool i call).arguments = "" ∧ (s.newTool i call).done = false := by
  refine ⟨?_, ?_, if_neg hid, ?_, ?_, ?_⟩ <;> simp only [newTool]

/-- The call of a first fragment before its arguments. -/
def beginCall (call : ToolCallResponse) : AssembledCall := { AssembledCall.first call with arguments := "" }

theorem beginCall_index (hindex : call.index = some i) : (beginCall call).index = i := by
  rw [beginCall, AssembledCall.first, hindex]
  rfl

/-- A naming with one more output index. -/
def nameOutput (N : ToolKey → Option ℤ) (k i : ℤ) (b : ToolKey) : Option ℤ :=
  if b = .output k then some i else N b

include h in
/-- The new output index has not been given out. -/
theorem ToolsRelated.nameOutput_of
    {b : ToolKey} {τ : ℤ} (hb : N b = some τ) : nameOutput N s.nextOutputIndex i b = some τ := by
  rw [nameOutput, if_neg]
  · exact hb
  · rintro rfl
    obtain ⟨tool', hlook', hout'⟩ := h.outputs _ τ hb
    have hlt := (h.below τ tool' hlook').1
    omega

theorem carried_addedEvent (hblank : nonBlank tool.id = some tool.id) :
    carried tool.addedEvent = [.output tool.outputIndex, .item tool.id, .call tool.id] :=
  carried_item (e := tool.addedEvent) rfl hblank hblank

/-- The item of a new tool names it. -/
theorem addedEvent_names (hblank : nonBlank tool.id = some tool.id)
    (hitem : N (.item tool.id) = some i) (hcall : N (.call tool.id) = some i)
    (hout : N (.output tool.outputIndex) = some i) : Names N (.item tool.addedEvent) i := by
  refine .of_carried rfl (carried_addedEvent hblank) (List.cons_ne_nil _ _) fun b hb => ?_
  rcases List.mem_cons.mp hb with rfl | hb
  · exact hout
  · rcases List.mem_pair.mp hb with rfl | rfl
    · exact hitem
    · exact hcall

/-- The track of a new tool when its item has come. -/
theorem Track.step_added (hnone : track.tool = none) (hwaiting : track.waiting = "")
    (hblank : nonBlank tool.id = some tool.id) (hname : nonBlank tool.name = some tool.name) :
    (track.step (.item tool.addedEvent)).Delivers "" ∧
      (track.step (.item tool.addedEvent)).waiting = "" ∧
      ∃ tool' c', (track.step (.item tool.addedEvent)).tool = some (tool', c') ∧ c'.id = tool.id ∧
        c'.name = tool.name := by
  have hbefore : track.Delivers "" := by
    rw [Track.Delivers, hnone]
    exact hwaiting
  have hwf : (ToolEvent.item tool.addedEvent).WellFormed := rfl
  have hdelivers : (track.step (.item tool.addedEvent)).Delivers "" := hbefore.step hwf (.inl rfl)
  have hcallId : nonBlank tool.addedItem.callId = some tool.id := hblank
  have hitemName : nonBlank tool.addedItem.name = some tool.name := hname
  have hsent : ∃ tool' c', (track.step (.item tool.addedEvent)).tool = some (tool', c') ∧
      c'.id = tool.id ∧ c'.name = tool.name := addItem_new hcallId hitemName hnone
  refine ⟨hdelivers, ?_, hsent⟩
  obtain ⟨tool', c', htrack, _⟩ := hsent
  rw [Track.Delivers, htrack] at hdelivers
  exact hdelivers.1

include h in
/-- A tool that the first converter does not have has no call. -/
theorem ToolsRelated.index_ne (hlook : s.toolsByIndex.lookup i = none) (hc : c ∈ calls) : c.index ≠ i := by
  rintro rfl
  obtain ⟨tool, hlook', _⟩ := h.carries c hc
  rw [hlook] at hlook'
  cases hlook'

include h hlook in
/-- A tool that the first converter has is carried. -/
theorem ToolsRelated.carries_of_lookup : ∃ c ∈ calls, c.index = i ∧ Carries N t tool c (tracks c.index) := by
  obtain ⟨c, hc, rfl⟩ := h.known i tool hlook
  obtain ⟨tool', hlook', hcarries⟩ := h.carries c hc
  rw [hlook] at hlook'
  cases hlook'
  exact ⟨c, hc, rfl, hcarries⟩

include h in
/-- One more tool, with the next output index. -/
theorem ToolsRelated.add (hindex : c.index = i) (hlook : s.toolsByIndex.lookup i = none)
    (hnot : i ∉ calls.map (·.index)) (hout : tool.outputIndex = s.nextOutputIndex) (hchat : tool.chatIndex = i)
    (hdemux : Demux (nameOutput N s.nextOutputIndex i) t' out ((calls ++ [c]).map (·.index))
      (Function.update tracks i track))
    (hwaiting : track.waiting = "") (hmono : ∀ b, (t.keyOf b).isSome → (t'.keyOf b).isSome)
    (hnew : Carries (nameOutput N s.nextOutputIndex i) t' tool c track)
    (hs' : ∀ j, s'.toolsByIndex.lookup j = if j = i then some tool else s.toolsByIndex.lookup j)
    (hnext : s'.nextOutputIndex = s.nextOutputIndex + 1) :
    ToolsRelated owner (calls ++ [c]) s' t' out (nameOutput N s.nextOutputIndex i)
      (Function.update tracks i track) := by
  refine ⟨hdemux, fun τ => ?_, fun id => ?_, fun id => ?_, fun k j hk => ?_, fun j tool₁ hj => ?_,
    fun j tool₁ hj => ?_, fun x hx => ?_⟩
  · by_cases hτ : τ = i
    · rw [hτ, Function.update_self]
      exact hwaiting
    · rw [Function.update_of_ne hτ]
      exact h.quiet τ
  · rw [nameOutput, if_neg ToolKey.noConfusion]
    exact h.items id
  · rw [nameOutput, if_neg ToolKey.noConfusion]
    exact h.callIDs id
  · rw [nameOutput] at hk
    rw [hs']
    by_cases heq : ToolKey.output k = .output s.nextOutputIndex
    · rw [if_pos heq] at hk
      cases hk
      rw [if_pos rfl]
      exact ⟨tool, rfl, hout.trans (ToolKey.output.inj heq).symm⟩
    · rw [if_neg heq] at hk
      obtain ⟨tool₁, hlook₁, hout₁⟩ := h.outputs k j hk
      have hji : j ≠ i := by
        rintro rfl
        rw [hlook] at hlook₁
        cases hlook₁
      rw [if_neg hji]
      exact ⟨tool₁, hlook₁, hout₁⟩
  · rw [hs'] at hj
    rw [hnext]
    by_cases hji : j = i
    · rw [if_pos hji] at hj
      cases hj
      rw [hout, hchat, hji]
      exact ⟨by omega, rfl⟩
    · rw [if_neg hji] at hj
      obtain ⟨hlt, hchat₁⟩ := h.below j tool₁ hj
      exact ⟨by omega, hchat₁⟩
  · rw [hs'] at hj
    by_cases hji : j = i
    · exact ⟨c, List.mem_append_right _ (List.mem_singleton.mpr rfl), hindex.trans hji.symm⟩
    · rw [if_neg hji] at hj
      obtain ⟨x, hx, hxi⟩ := h.known j tool₁ hj
      exact ⟨x, List.mem_append_left _ hx, hxi⟩
  · rcases List.mem_append.mp hx with hold | hlast
    · have hxi : x.index ≠ i := fun heq => hnot (heq ▸ List.mem_map_of_mem hold)
      rw [hs', if_neg hxi, Function.update_of_ne hxi]
      obtain ⟨tool₁, hlook₁, hcar₁⟩ := h.carries x hold
      have hren : Carries (nameOutput N s.nextOutputIndex i) t tool₁ x (tracks x.index) :=
        { hcar₁ with
          output := h.nameOutput_of hcar₁.output
          item := h.nameOutput_of hcar₁.item
          call := h.nameOutput_of hcar₁.call }
      exact ⟨tool₁, hlook₁, hren.mono hmono⟩
    · rw [List.mem_singleton.mp hlast, hindex, hs', if_pos rfl, Function.update_self]
      exact ⟨tool, rfl, hnew⟩

include h in
/-- The first fragment of a tool, up to its arguments. -/
theorem ToolsRelated.startTool (hindex : call.index = some i)
    (hlook : s.toolsByIndex.lookup i = none) (hid : trimSpace call.id ≠ "")
    (hname : trimSpace call.name ≠ "") (howner : owner (trimSpace call.id) = some i) :
    ∃ r, read relay (t, a) (s.startTool i call).2 = some r ∧
      ToolsFrom owner (calls ++ [beginCall call]) (s.startTool i call).1 (t, a) r := by
  obtain ⟨hchat, hout, htoolID, htoolName, hargs, hdone⟩ := newTool_fields (s := s) hid
  rw [startTool_of_none hlook]
  generalize s.newTool i call = tool at hchat hout htoolID htoolName hargs hdone ⊢
  have hcallIndex : (beginCall call).index = i := beginCall_index hindex
  have hnot : i ∉ calls.map (·.index) := by
    intro hmem
    obtain ⟨c, hc, hci⟩ := List.mem_map.mp hmem
    exact h.index_ne hlook hc hci
  have hblank : nonBlank tool.id = some tool.id := by
    rw [htoolID]
    exact nonBlank_trimSpace hid
  have hblankName : nonBlank tool.name = some tool.name := by
    rw [htoolName]
    exact nonBlank_trimSpace hname
  have hitem : nameOutput N s.nextOutputIndex i (.item tool.id) = some i := by
    rw [nameOutput, if_neg ToolKey.noConfusion, h.items, htoolID, howner]
  have hcall : nameOutput N s.nextOutputIndex i (.call tool.id) = some i := by
    rw [nameOutput, if_neg ToolKey.noConfusion, h.callIDs, htoolID, howner]
  have houtput : nameOutput N s.nextOutputIndex i (.output tool.outputIndex) = some i := by
    rw [hout]
    exact if_pos rfl
  have hnames := addedEvent_names hblank hitem hcall houtput
  have hdemux : Demux (nameOutput N s.nextOutputIndex i) t a.calls (calls.map (·.index)) tracks :=
    h.demux.extend (fun _ _ hb => h.nameOutput_of hb) h.quiet
  have hlinked : Linked (nameOutput N s.nextOutputIndex i) t (.item tool.addedEvent) i := by
    refine ⟨?_, fun b _ hne => absurd (h.demux.pendingAt_eq h.quiet b) hne⟩
    rintro ⟨b, hb, hsome⟩
    exact absurd (hdemux.tables.mem_of_known hb hsome) hnot
  have hstep := hdemux.step hnames hlinked
  have howners : ownersAfter (calls.map (·.index)) i (.item tool.addedEvent)
      = (calls ++ [beginCall call]).map (·.index) := by
    rw [List.map_append, List.map_singleton, hcallIndex]
    exact if_neg hnot
  rw [howners] at hstep
  obtain ⟨hdelivers, hwaiting, tool', c', htrack, hcid, hcname⟩ :=
    step_added (h.demux.contents.unknown i hnot) (h.quiet i) hblank hblankName
  have hcarried : ToolKey.output tool.outputIndex ∈ carried tool.addedEvent := by
    rw [carried_addedEvent hblank]
    exact List.mem_cons_self
  have hregistered := hnames.keyOf_item h.demux.buffers.tidy hcarried
  have hnew : Carries (nameOutput N s.nextOutputIndex i) ((ToolEvent.item tool.addedEvent).chunks t).1
      tool (beginCall call) ((tracks i).step (.item tool.addedEvent)) :=
    { output := by rw [hcallIndex]; exact houtput
      registered := hregistered
      closed := fun hclosed => by rw [hdone] at hclosed; cases hclosed
      id := hblank
      item := by rw [hcallIndex]; exact hitem
      call := by rw [hcallIndex]; exact hcall
      arguments := hargs
      delivers := hdelivers
      sent := ⟨tool', c', htrack, hcid.trans htoolID, hcname.trans htoolName,
        by rw [hcid, htoolID]; exact hid, by rw [hcname, htoolName]; exact hname⟩ }
  have hrelated := h.add hcallIndex hlook hnot hout hchat hstep hwaiting
    (fun b hb => hnames.keyOf_mono h.demux.buffers.tidy hb) hnew (sets_setTool (s.nextIndex (.tool i)) hchat).lookup rfl
  exact ⟨_, read_item (.inl rfl) rfl t a, ⟨_, _, hrelated⟩, hnames.frame h.demux.buffers.tidy a⟩

/-! ### A fragment -/

/-- A fragment has an index, its id is the one of a single tool, and when it is the first of its tool, it
has an id and a name. -/
structure Proper (owner : String → Option ℤ) (calls : List AssembledCall) (call : ToolCallResponse) :
    Prop where
  index : call.index.isSome
  owned : trimSpace call.id ≠ "" → owner (trimSpace call.id) = call.index
  introduced : (∀ c ∈ calls, some c.index ≠ call.index) →
    trimSpace call.id ≠ "" ∧ trimSpace call.name ≠ ""

theorem ToolsFrom.trans {r₀ r₁ r₂ : ResponsesToChatStreamState × Assembly} {calls' : List AssembledCall}
    (h₁ : ToolsFrom owner calls s r₀ r₁) (h₂ : ToolsFrom owner calls' s' r₁ r₂) : ToolsFrom owner calls' s' r₀ r₂ := by
  obtain ⟨_, hrest, hchat⟩ := h₁
  obtain ⟨htools, hrest', hchat'⟩ := h₂
  refine ⟨htools, hrest'.trans hrest, ?_⟩
  rw [hchat', hchat]

include h in
/-- The calls with one of them replaced by itself. -/
theorem ToolsRelated.map_replace (hc : c ∈ calls) (f : AssembledCall → AssembledCall) :
    (calls.map fun x => if x.index = c.index then f c else x)
      = calls.map fun x => if x.index = c.index then f x else x := by
  refine List.map_congr_left fun x hx => ?_
  by_cases heq : x.index = c.index
  · rw [if_pos heq, if_pos heq, h.index_inj hx hc heq]
  · rw [if_neg heq, if_neg heq]

theorem addFragment_of_any (hc : c ∈ calls) (hindex : call.index = some c.index) :
    addFragment calls call = calls.map fun x => if x.index = c.index then x.add call else x := by
  have hany : (calls.any fun x => x.index = call.index.getD 0) = true := by
    rw [List.any_eq_true, hindex]
    exact ⟨c, hc, decide_eq_true rfl⟩
  rw [addFragment, if_pos hany, hindex]
  rfl

/-- A first fragment begins a call and is written to it. -/
theorem addFragment_of_not_any (hindex : call.index = some i) (hnot : ∀ c ∈ calls, c.index ≠ i) :
    addFragment calls call
      = (calls ++ [beginCall call]).map fun x => if x.index = i then x.add call else x := by
  have hany : ¬ (calls.any fun x => x.index = call.index.getD 0) = true := by
    rw [List.any_eq_true, hindex]
    rintro ⟨c, hc, heq⟩
    exact hnot c hc (of_decide_eq_true heq)
  have hold : (calls.map fun x => if x.index = i then x.add call else x) = calls := by
    refine (List.map_congr_left fun x hx => ?_).trans (List.map_id calls)
    exact if_neg (hnot x hx)
  have hnew : (beginCall call).add call = .first call := by
    rw [AssembledCall.add, beginCall, AssembledCall.first]
    simp only [ite_self, String.empty_append]
  rw [addFragment, if_neg hany, List.map_append, hold, List.map_singleton,
    if_pos (beginCall_index hindex), hnew]

include h in
/-- **A fragment.**  The converters do with it what a client of the original stream does. -/
theorem ToolsRelated.append (hcall : Proper owner calls call)
    (hopen : ∀ i tool, s.toolsByIndex.lookup i = some tool → tool.done = false) :
    ∃ r, read relay (t, a) (appendToolCallDelta call s).2 = some r ∧
      ToolsFrom owner (addFragment calls call) (appendToolCallDelta call s).1 (t, a) r := by
  obtain ⟨i, hindex⟩ := Option.isSome_iff_exists.mp hcall.index
  have howned : trimSpace call.id ≠ "" → owner (trimSpace call.id) = some i := by
    rw [← hindex]
    exact hcall.owned
  have heq : appendToolCallDelta call = andThen (fun s => s.startTool i call) fun s => s.writeTool i call := by
    rw [appendToolCallDelta, hindex]
    rfl
  rw [heq]
  cases hlook : s.toolsByIndex.lookup i with
  | some tool =>
    obtain ⟨c, hc, rfl, hcarries⟩ := h.carries_of_lookup hlook
    have hstart : s.startTool c.index call = (s, []) := if_pos (by rw [hlook]; rfl)
    rw [andThen, hstart]
    obtain ⟨r, hread, hfrom⟩ := h.writeTool hc hlook hcarries (hopen _ _ hlook) howned
    rw [h.map_replace hc fun x => x.add call, ← addFragment_of_any hc hindex] at hfrom
    exact ⟨r, hread, hfrom⟩
  | none =>
    have hnot : ∀ c ∈ calls, c.index ≠ i := fun c => h.index_ne hlook
    obtain ⟨hid, hname⟩ := hcall.introduced fun c hc heq =>
      hnot c hc (Option.some.inj (heq.trans hindex))
    obtain ⟨r₁, hread₁, hfrom₁⟩ := h.startTool hindex hlook hid hname (howned hid)
    have hnew : (s.startTool i call).1.toolsByIndex.lookup i = some (s.newTool i call) := by
      rw [startTool_of_none hlook]
      exact ((sets_setTool _ rfl).lookup i).trans (if_pos rfl)
    obtain ⟨N₁, tracks₁, h₁⟩ := hfrom₁.1
    have hc : beginCall call ∈ calls ++ [beginCall call] :=
      List.mem_append_right _ (List.mem_singleton.mpr rfl)
    have hci : (beginCall call).index = i := beginCall_index hindex
    obtain ⟨tool', hlook', hcarries⟩ := h₁.carries (beginCall call) hc
    rw [hci, hnew] at hlook'
    cases hlook'
    obtain ⟨r₂, hread₂, hfrom₂⟩ := h₁.writeTool hc (by rw [hci]; exact hnew) hcarries
      (newTool_fields hid).2.2.2.2.2 (by rw [hci]; exact howned)
    rw [h₁.map_replace hc fun x => x.add call, hci, ← addFragment_of_not_any hindex hnot] at hfrom₂
    rw [hci] at hread₂
    exact ⟨r₂, (read_append_of_read hread₁).trans hread₂, hfrom₁.trans hfrom₂⟩

/-! ### The end of a tool -/

def StreamTool.argumentsDoneEvent (tool : StreamTool) : ResponsesStreamResponse where
  type := .functionArgsDone
  outputIndex := some tool.outputIndex
  itemID := tool.id

def StreamTool.doneEvent (tool : StreamTool) (status : String) : ResponsesStreamResponse where
  type := .outputItemDone
  outputIndex := some tool.outputIndex
  item := some (toolOutput tool status)

include hlook in
theorem doneTool_of_open (hopen : tool.done = false) (status : String) :
    s.doneTool status i = (s.setTool { tool with done := true }, [tool.argumentsDoneEvent, tool.doneEvent status]) := by
  rw [ChatToResponsesStreamState.doneTool, hlook]
  exact if_neg (by rw [hopen]; exact Bool.false_ne_true)

include h hc hat hcarries in
/-- An event of a tool that brings no change to the call. -/
theorem ToolsRelated.again
    (done : Bool) {event : ToolEvent} (hnames : Names N event c.index)
    (hknown : ∃ b ∈ carried event.event, (t.keyOf b).isSome) (hdelta : event.argumentsDelta = "")
    (hargs : event.arguments = "" ∨ event.arguments = c.arguments)
    (hclosed : done = true → ((event.chunks t).1.keyOf (.item tool.id)).isSome)
    (hs' : Sets s s' c.index { tool with done := done }) :
    ToolsRelated owner calls s' (event.chunks t).1 (received event.chunks t a).calls N
      (Function.update tracks c.index ((tracks c.index).step event)) := by
  have hcont : Continues owner tool { tool with done := done } c c :=
    ⟨rfl, (h.below c.index tool hat).2, rfl, rfl, rfl, hcarries.arguments, hcarries.id,
      (h.items _).symm.trans hcarries.item⟩
  have hdelivers := hcarries.delivers.step hnames.wellFormed hargs
  rw [hdelta, String.append_empty] at hdelivers
  have hrelated := h.event hc hat hcarries hcont hnames hknown hdelivers hclosed hs'
  have hcalls : (calls.map fun x => if x.index = c.index then c else x) = calls := by
    refine (h.map_replace hc id).trans ?_
    refine (List.map_congr_left fun x _ => ?_).trans (List.map_id calls)
    exact ite_self x
  rw [hcalls] at hrelated
  exact hrelated

include h hc hat hcarries in
theorem ToolsRelated.argumentsDone :
    ToolsFrom owner calls s (t, a)
      (((ToolEvent.argumentsDone tool.argumentsDoneEvent).chunks t).1,
        received (ToolEvent.argumentsDone tool.argumentsDoneEvent).chunks t a) := by
  have hcarried : carried tool.argumentsDoneEvent = [.output tool.outputIndex, .item tool.id] :=
    carried_output_item (e := tool.argumentsDoneEvent) rfl rfl hcarries.id
  have hnames : Names N (.argumentsDone tool.argumentsDoneEvent) c.index := by
    refine .of_carried rfl hcarried (List.cons_ne_nil _ _) fun b hb => ?_
    rcases List.mem_pair.mp hb with rfl | rfl
    · exact hcarries.output
    · exact hcarries.item
  have hknown : ∃ b ∈ carried tool.argumentsDoneEvent, (t.keyOf b).isSome := by
    rw [hcarried]
    exact ⟨.output tool.outputIndex, List.mem_cons_self, hcarries.registered⟩
  have hrelated := h.again hc hat hcarries tool.done hnames hknown rfl (.inl rfl)
    (fun hdone => hnames.keyOf_mono h.demux.buffers.tidy (hcarries.closed hdone)) (.same hat)
  exact ⟨⟨N, _, hrelated⟩, hnames.frame h.demux.buffers.tidy a⟩

include h hc hat hcarries in
/-- An item with the whole call, when the tool is closed or in the final response. -/
theorem ToolsRelated.item {status : String} (hitem : e.item = some (toolOutput tool status))
    (houtput : e.outputIndex = some tool.outputIndex ∨ e.outputIndex = none ∧ tool.done = true) {done : Bool}
    (hs' : Sets s s' c.index { tool with done := done }) :
    ToolsFrom owner calls s' (t, a) (((ToolEvent.item e).chunks t).1, received (ToolEvent.item e).chunks t a) := by
  have hcarried : carried e
      = (e.outputIndex.map ToolKey.output).toList ++ [.item tool.id, .call tool.id] :=
    carried_item hitem hcarries.id hcarries.id
  have hwf : (ToolEvent.item e).WellFormed := by
    show e.item.isSome
    rw [hitem]
    rfl
  have hnames : Names N (.item e) c.index := by
    refine .of_carried hwf hcarried (List.append_ne_nil_of_right_ne_nil _ (List.cons_ne_nil _ _))
      fun b hb => ?_
    rcases List.mem_append.mp hb with hb | hb
    · rcases houtput with heq | ⟨heq, _⟩
      · rw [heq] at hb
        rw [List.mem_singleton.mp hb]
        exact hcarries.output
      · rw [heq] at hb
        exact absurd hb List.not_mem_nil
    · rcases List.mem_pair.mp hb with rfl | rfl
      · exact hcarries.item
      · exact hcarries.call
  have hmem : ToolKey.item tool.id ∈ carried e := by
    rw [hcarried]
    exact List.mem_append_right _ List.mem_cons_self
  have hknown : ∃ b ∈ carried e, (t.keyOf b).isSome := by
    rcases houtput with heq | ⟨_, hdone⟩
    · refine ⟨.output tool.outputIndex, ?_, hcarries.registered⟩
      rw [hcarried, heq]
      exact List.mem_cons_self
    · exact ⟨.item tool.id, hmem, hcarries.closed hdone⟩
  have hargs : (ToolEvent.item e).arguments = c.arguments := by
    rw [ToolEvent.arguments, hitem, ← hcarries.arguments]
    rfl
  have hrelated := h.again hc hat hcarries done hnames hknown rfl (.inr hargs)
    (fun _ => hnames.keyOf_item h.demux.buffers.tidy hmem) hs'
  exact ⟨⟨N, _, hrelated⟩, hnames.frame h.demux.buffers.tidy a⟩

include h in
/-- **The end of a tool.** -/
theorem ToolsRelated.doneTool (status : String) (i : ℤ) :
    ∃ r, read relay (t, a) (s.doneTool status i).2 = some r ∧
      ToolsFrom owner calls (s.doneTool status i).1 (t, a) r := by
  cases hlook : s.toolsByIndex.lookup i with
  | none =>
    have hnothing : s.doneTool status i = (s, []) := by rw [ChatToResponsesStreamState.doneTool, hlook]
    rw [hnothing]
    exact ⟨(t, a), rfl, ⟨N, tracks, h⟩, rfl, rfl⟩
  | some tool =>
    cases hopen : tool.done with
    | true =>
      have hnothing : s.doneTool status i = (s, []) := by
        rw [ChatToResponsesStreamState.doneTool, hlook]
        exact if_pos hopen
      rw [hnothing]
      exact ⟨(t, a), rfl, ⟨N, tracks, h⟩, rfl, rfl⟩
    | false =>
      obtain ⟨c, hc, rfl, hcarries⟩ := h.carries_of_lookup hlook
      have hfrom := h.argumentsDone hc hlook hcarries
      obtain ⟨N₁, tracks₁, h₁⟩ := hfrom.1
      obtain ⟨tool', hlook', hcarries₁⟩ := h₁.carries c hc
      rw [hlook] at hlook'
      cases hlook'
      have hchat : tool.chatIndex = c.index := (h.below c.index tool hlook).2
      have hfrom₁ := h₁.item (e := tool.doneEvent status) hc hlook hcarries₁ rfl (.inl rfl)
        (sets_setTool s hchat : Sets s _ c.index { tool with done := true })
      rw [doneTool_of_open hlook hopen status]
      have hread : read relay (t, a) [tool.argumentsDoneEvent]
          = some (((ToolEvent.argumentsDone tool.argumentsDoneEvent).chunks t).1,
              received (ToolEvent.argumentsDone tool.argumentsDoneEvent).chunks t a) := rfl
      refine ⟨_, ?_, hfrom.trans hfrom₁⟩
      exact (read_append_of_read hread).trans (read_item (.inr rfl) rfl _ _)

end OneApi.Responses

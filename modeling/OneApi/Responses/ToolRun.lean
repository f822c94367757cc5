import OneApi.Responses.ToolTracks

/-!
# Runs of the Responses to chat converter

A run is the events of a stream one after the other, then the terminal event: its metadata, its outputs
one by one, and the finalization, which flushes the tools.  Whatever the events are, as long as each tool
event can be traced to its tool the client has the calls of the tracks at the end.
-/

namespace OneApi.Responses

open Claude.Stream (Chunk Delta ToolCallResponse)
open Chat Lib.Emit Tokens ResponsesToChatStreamState OneApi.Lib.Go Function Assembly Track
open Lib.Run (run Respects)

variable {T : Type} [DecidableEq T]

/-! ## The flush at the end -/

/-- Everything of the tool was sent. -/
def Track.Settled (t : Track) : Prop :=
  ∀ tool c, t.tool = some (tool, c) → argsToSend tool "" = "" ∧ (tool.name = "" ∨ tool.nameSent = true)

/-- A tool of which only deltas have come, when the stream ends. -/
def Track.flush (key : ToolKey) (t : Track) : Track where
  tool := some (send (ResponsesStreamTool.take t.waiting { key := key, callID := key.fallbackCallID }) none "")

variable {tool : ResponsesStreamTool}

/-- What has not been sent of the arguments is sent. -/
theorem argsToSend_append {before extra : String}
    (hargs : tool.arguments = before ++ extra) (hat : tool.argsSentAt = len before) :
    argsToSend tool "" = extra := by
  rw [argsToSend, hargs, hat, len_append]
  by_cases hextra : extra = ""
  · rw [if_neg, hextra]
    rintro ⟨_, hlt⟩
    rw [hextra, len_eq_zero.mpr rfl] at hlt
    omega
  · have hpos : len extra ≠ 0 := fun hzero => hextra (len_eq_zero.mp hzero)
    rw [if_pos ⟨rfl, by omega⟩, dropBytes_append]

theorem argsToSend_all (h : tool.argsSentAt = 0) : argsToSend tool "" = tool.arguments :=
  argsToSend_append (String.empty_append).symm (h.trans (len_eq_zero.mpr rfl).symm)

theorem argsToSend_nothing (h : tool.argsSentAt = len tool.arguments) : argsToSend tool "" = "" :=
  argsToSend_append (String.append_empty).symm h

theorem argsToSend_explicit {delta : String} (h : delta ≠ "") : argsToSend tool delta = delta :=
  if_neg fun hboth => h hboth.1

theorem Track.flush_settled (key : ToolKey) (t : Track) : (t.flush key).Settled := by
  intro tool c htool
  rw [flush, send, argsToSend_all rfl] at htool
  cases htool
  refine ⟨argsToSend_nothing ?_, .inl rfl⟩
  exact Nat.zero_add _

/-- While the tools are flushed: as `Demux`, but the new tools are known by their key only. -/
structure Flushing (N : ToolKey → Option T) (s : ResponsesToChatStreamState)
    (calls : List AssembledCall) (owners : List T) (tracks : T → Track) : Prop where
  refers : ∀ key ref, s.refOf key = some ref → ∃ τ, N key = some τ ∧ owners[ref]? = some τ
  buffers : Buffers N s fun τ => (tracks τ).waiting
  contents : Contents s.tools calls owners tracks
  settled : ∀ τ ∈ owners, (tracks τ).Settled

variable {N : ToolKey → Option T} {s s₁ s' : ResponsesToChatStreamState} {a : Assembly} {owners : List T}
  {tracks : T → Track} {τ : T}

variable {key : ToolKey} (h : Flushing N s a.calls owners tracks)

include h in
omit [DecidableEq T] in
/-- Nothing waits under the key of a tool. -/
theorem Flushing.pendingAt_eq {ref : ℕ} (href : s.refOf key = some ref) : s.pendingAt key = "" := by
  obtain ⟨τ, hτ, hown⟩ := h.refers key ref href
  obtain ⟨_, _, _, _, _, _, _, hwaits⟩ := h.contents.tool ref τ hown
  obtain ⟨b, _, hb, hothers⟩ := h.buffers.waits key τ hτ
  by_cases heq : key = b
  · rw [heq, hb, hwaits]
  · exact hothers key hτ heq

include h in
omit [DecidableEq T] in
/-- The key of a tool that is known: nothing happens. -/
theorem Flushing.flushKey_known {ref : ℕ} (href : s.refOf key = some ref) :
    Flushing N (flushKey key s).1 a.calls owners tracks ∧ (flushKey key s).2 = [] ∧
      (flushKey key s).1.waiting = s.waiting ∧ (flushKey key s).1.refOf = s.refOf := by
  obtain ⟨τ, _, hown⟩ := h.refers key ref href
  obtain ⟨tool, c, htrack, htool, _, hsent, _⟩ := h.contents.tool ref τ hown
  obtain ⟨_, hrefOf, hwaiting, htools, _⟩ := takePending_spec key s
  have hpending : s.pendingAt key = "" := h.pendingAt_eq href
  rw [hpending, modify_take_empty] at htools
  have hwaiting' : (takePending key ref s).waiting = s.waiting := by
    funext b
    rw [hwaiting]
    split
    next heq => rw [heq, h.buffers.tidy.waiting_eq_none hpending]
    next => rfl
  have hquiet : toolDelta ref "" (takePending key ref s) = (takePending key ref s, []) := by
    obtain ⟨hargs, hname⟩ := h.settled τ (List.mem_of_getElem? hown) tool c htrack
    exact toolDelta_of_quiet (htools ▸ htool) ⟨hsent, hargs, hname⟩
  have heq : flushKey key s = (takePending key ref s, []) := by
    have hunder : s.toolUnder { key := key, callID := key.fallbackCallID } = (s, ref) := by
      have hlook : s.toolByKey.lookup key = some ref := href
      rw [toolUnder, hlook]
    rw [flushKey, hunder]
    exact hquiet
  rw [heq]
  refine ⟨⟨?_, h.buffers.congr hwaiting', ?_, h.settled⟩, rfl, hwaiting', hrefOf⟩
  · rw [hrefOf]
    exact h.refers
  · rw [htools]
    exact h.contents

include h in
/-- The key of a tool of which only deltas have come. -/
theorem Flushing.flushKey_new {p : String} (href : s.refOf key = none) (hp : s.waiting key = some p) :
    ∃ τ, τ ∉ owners ∧ (tracks τ).waiting ≠ "" ∧
      Flushing N (flushKey key s).1 (received (flushKey key) s a).calls (owners ++ [τ])
        (update tracks τ ((tracks τ).flush key)) ∧
      (∀ b, (flushKey key s).1.waiting b = if b = key then none else s.waiting b) ∧
      ∀ b, (flushKey key s).1.refOf b = if b = key then some s.tools.length else s.refOf b := by
  have hne : s.pendingAt key ≠ "" := h.buffers.tidy.pendingAt_ne hp
  obtain ⟨τ, hτ⟩ := h.buffers.named key hne
  obtain ⟨b, _, hb, hothers⟩ := h.buffers.waits key τ hτ
  have hkey : key = b := by
    by_contra hcon
    exact hne (hothers key hτ hcon)
  subst hkey
  have hnot : τ ∉ owners := by
    intro hmem
    obtain ⟨r, hr⟩ := List.mem_iff_getElem?.mp hmem
    obtain ⟨_, _, _, _, _, _, _, hwaits⟩ := h.contents.tool r τ hr
    exact hne (hb.trans hwaits)
  have hunder : s.toolUnder { key := key, callID := key.fallbackCallID }
      = (s.addTool { key := key, callID := key.fallbackCallID }, s.tools.length) := by
    have hlook : s.toolByKey.lookup key = none := href
    rw [toolUnder, hlook]
  have hfound : Found [] { key := key, callID := key.fallbackCallID } s
      (s.addTool { key := key, callID := key.fallbackCallID }) s.tools.length :=
    found_addTool href fun b hb => absurd hb List.not_mem_nil
  have htools : (s.addTool { key := key, callID := key.fallbackCallID }).tools
      = s.tools ++ [{ key := key, callID := key.fallbackCallID }] := rfl
  have heq : flushKey key s = toolDelta s.tools.length ""
      (takePending key s.tools.length (s.addTool { key := key, callID := key.fallbackCallID })) := by
    rw [flushKey, hunder]
  generalize s.addTool { key := key, callID := key.fallbackCallID } = s₁ at hfound htools heq
  obtain ⟨_, hrefOf, hwaiting, htools', _⟩ := takePending_spec key s₁
  have hsame : s₁.pendingAt key = (tracks τ).waiting := by
    rw [pendingAt, hfound.waiting key]
    exact hb
  rw [htools, modify_concat, hsame] at htools'
  generalize takePending key s.tools.length s₁ = s₂ at hrefOf hwaiting htools' heq
  obtain ⟨_, hrefOf', hwaiting', _⟩ := toolDelta_frame
  have hw : ∀ b, (toolDelta s.tools.length "" s₂).1.waiting b = if b = key then none else s.waiting b := by
    intro b
    rw [hwaiting', hwaiting, hfound.waiting]
  refine ⟨τ, hnot, fun hempty => hne (hb.trans hempty), ?_, ?_, ?_⟩
  · rw [received, heq]
    refine ⟨fun k r hr => ?_, ?_, h.contents.send_new hnot htools' rfl "", fun τ' hτ' => ?_⟩
    · rw [hrefOf', hrefOf, hfound.refOf] at hr
      by_cases hk : k = key
      · rw [if_pos hk] at hr
        cases hr
        rw [hk, h.contents.tools_length, List.getElem?_concat_length]
        exact ⟨τ, hτ, rfl⟩
      · rw [if_neg hk] at hr
        obtain ⟨τ', hτ', hown⟩ := h.refers k r hr
        refine ⟨τ', hτ', ?_⟩
        rw [List.getElem?_append_left (List.getElem?_eq_some_iff.mp hown).1]
        exact hown
    · have hids : ∀ b, (toolDelta s.tools.length "" s₂).1.waiting b = if b ∈ [key] then none else s.waiting b := by
        intro b
        rw [hw, ite_congr (propext List.mem_singleton.symm) (fun _ => rfl) fun _ => rfl]
      refine h.buffers.take hids (fun b hb => by rw [List.mem_singleton.mp hb]; exact hτ)
        (fun b hb' hne' => ?_) (by rw [update_self, flush])
        fun τ' hτ' => by rw [update_of_ne hτ']
      by_contra hcon
      exact hne' (hothers b hb' fun hbb => hcon (List.mem_singleton.mpr hbb))
    · by_cases hττ : τ' = τ
      · rw [hττ, update_self]
        exact flush_settled key _
      · rw [update_of_ne hττ]
        refine h.settled τ' ((List.mem_append.mp hτ').resolve_right fun hmem => ?_)
        exact hττ (List.mem_singleton.mp hmem)
  · rw [heq]
    exact hw
  · intro b
    rw [heq, hrefOf', hrefOf, hfound.refOf]

/-- From some tools and tracks to those after a flush. -/
structure Flushes (owners₀ : List T) (tracks₀ : T → Track) (owners : List T) (tracks : T → Track) :
    Prop where
  extends_ : owners₀ <+: owners
  kept : ∀ τ, τ ∈ owners₀ ∨ τ ∉ owners → tracks τ = tracks₀ τ
  flushed : ∀ τ ∈ owners, τ ∉ owners₀ →
    (tracks₀ τ).tool = none ∧ (tracks₀ τ).waiting ≠ "" ∧ ∃ key, tracks τ = (tracks₀ τ).flush key

omit [DecidableEq T] in
theorem Flushes.refl (owners : List T) (tracks : T → Track) : Flushes owners tracks owners tracks :=
  ⟨List.prefix_refl owners, fun _ _ => rfl, fun _ hmem hnot => absurd hmem hnot⟩

variable {tracks₀ : T → Track}

theorem Flushes.new {owners₀ : List T}
    (h : Flushes owners₀ tracks₀ owners tracks) (hτ : τ ∉ owners) (htool : (tracks τ).tool = none)
    (hwaiting : (tracks τ).waiting ≠ "") (key : ToolKey) :
    Flushes owners₀ tracks₀ (owners ++ [τ]) (update tracks τ ((tracks τ).flush key)) := by
  have hsame : tracks τ = tracks₀ τ := h.kept τ (.inr hτ)
  have hold : ∀ τ' ∈ owners₀, τ' ≠ τ := by
    rintro τ' hmem rfl
    exact hτ (h.extends_.subset hmem)
  refine ⟨h.extends_.trans (List.prefix_append _ _), fun τ' hτ' => ?_, fun τ' hmem hnot => ?_⟩
  · have hne : τ' ≠ τ := by
      rcases hτ' with hmem | hnot
      · exact hold τ' hmem
      · rintro rfl
        exact hnot (List.mem_append_right _ (List.mem_singleton.mpr rfl))
    rw [update_of_ne hne]
    exact h.kept τ' (hτ'.imp_right fun hnot hmem => hnot (List.mem_append_left _ hmem))
  · by_cases heq : τ' = τ
    · rw [heq, update_self, ← hsame]
      exact ⟨htool, hwaiting, key, rfl⟩
    · rw [update_of_ne heq]
      refine h.flushed τ' ((List.mem_append.mp hmem).resolve_right fun hτ' => ?_) hnot
      exact heq (List.mem_singleton.mp hτ')

/-- The loop over the keys: what waits is under a key that is still to come. -/
theorem Flushing.loop {owners₀ : List T} (keys : List ToolKey)
    (h : Flushing N s a.calls owners tracks) (hf : Flushes owners₀ tracks₀ owners tracks)
    (hwaits : ∀ b, (s.waiting b).isSome → b ∈ keys) (hkeys : ∀ b ∈ keys, (s.refOf b).isSome ∨ (s.waiting b).isSome) :
    ∃ owners' tracks', Flushing N (forEach flushKey keys s).1
        (received (forEach flushKey keys) s a).calls owners' tracks' ∧
      Flushes owners₀ tracks₀ owners' tracks' ∧
      ∀ b, (forEach flushKey keys s).1.waiting b = none := by
  induction keys generalizing s a owners tracks with
  | nil =>
    refine ⟨owners, tracks, h, hf, fun b => ?_⟩
    cases hb : s.waiting b with
    | none => exact hb
    | some p => exact absurd (hwaits b (by rw [hb]; rfl)) List.not_mem_nil
  | cons key keys ih =>
    rw [forEach, received_andThen]
    cases href : s.refOf key with
    | some ref =>
      obtain ⟨h', hnil, hw, hr⟩ := h.flushKey_known href
      have hreceived : received (flushKey key) s a = a := by rw [received, hnil]; rfl
      rw [hreceived]
      refine ih h' hf (fun b hb => ?_) fun b hb => ?_
      · rw [hw] at hb
        refine (List.mem_cons.mp (hwaits b hb)).resolve_left ?_
        rintro rfl
        rw [h.buffers.tidy.waiting_eq_none (h.pendingAt_eq href)] at hb
        cases hb
      · rw [hw, hr]
        exact hkeys b (List.mem_cons_of_mem key hb)
    | none =>
      have hsome : (s.waiting key).isSome := by
        refine (hkeys key List.mem_cons_self).resolve_left ?_
        rw [href]
        exact Bool.false_ne_true
      obtain ⟨p, hp⟩ := Option.isSome_iff_exists.mp hsome
      obtain ⟨τ, hτ, hne, h', hw, hr⟩ := h.flushKey_new href hp
      refine ih h' (hf.new hτ (h.contents.unknown τ hτ) hne key) (fun b hb => ?_) fun b hb => ?_
      · rw [hw] at hb
        by_cases hbk : b = key
        · rw [if_pos hbk] at hb
          cases hb
        · rw [if_neg hbk] at hb
          exact (List.mem_cons.mp (hwaits b hb)).resolve_left hbk
      · rw [hw, hr]
        by_cases hbk : b = key
        · rw [if_pos hbk]
          exact .inl rfl
        · rw [if_neg hbk, if_neg hbk]
          exact hkeys b (List.mem_cons_of_mem key hb)

/-- **The flush.**  The tools that are known stay as they are, those of which only deltas have come
follow. -/
theorem Demux.flushAll (h : Demux N s a.calls owners tracks) (hsettled : ∀ τ ∈ owners, (tracks τ).Settled) :
    ∃ owners' tracks', Contents (flushAllPendingTools s).1.tools
        (received flushAllPendingTools s a).calls owners' tracks' ∧
      Flushes owners tracks owners' tracks' ∧
      ∀ b τ, N b = some τ → (tracks τ).waiting ≠ "" → τ ∈ owners' := by
  have hflushing : Flushing N s a.calls owners tracks :=
    ⟨fun key ref href => (h.tables.refers key ref href).2, h.buffers, h.contents, hsettled⟩
  obtain ⟨owners', tracks', h', hf, hnone⟩ := hflushing.loop (keysToFlush s)
    (Flushes.refl owners tracks) (fun b hb => mem_keysToFlush.mpr (.inr hb))
    fun b hb => mem_keysToFlush.mp hb
  refine ⟨owners', tracks', h'.contents, hf, fun b τ hb hne => ?_⟩
  by_contra hnot
  obtain ⟨b', _, hat, _⟩ := h'.buffers.waits b τ hb
  rw [hf.kept τ (.inr hnot), pendingAt, hnone b'] at hat
  exact hne hat.symm

/-! ## Actions -/

/-- What a stream gives to the converter one by one: the events, and in the place of the terminal event
its metadata and its outputs. -/
inductive Action
  | event (event : ResponsesStreamResponse)
  | metadata (response : Option OpenAIResponsesResponse)
  | output (out : ResponsesOutput)

namespace Action

def chunks : Action → ChatStep
  | .event e => eventChunks e
  | .metadata response => fun s => (s.applyResponseMetadata response, [])
  | .output out => outputChunks out

/-- The item of a terminal response. -/
def outputEvent (out : ResponsesOutput) : ResponsesStreamResponse := { type := .other "", item := some out }

def isToolItem (event : ResponsesStreamResponse) : Bool :=
  event.item.any fun item => isResponsesToolOutputType item.type

/-- The tool event that an action is. -/
def toolEvent : Action → Option ToolEvent
  | .event e =>
    match e.type with
    | .outputItemAdded => if isToolItem e then some (.item e) else none
    | .outputItemDone => if isToolItem e then some (.item e) else none
    | .functionArgsDelta => if e.delta = "" then none else some (.delta e)
    | .customToolInputDelta => if e.delta = "" then none else some (.delta e)
    | .functionArgsDone => some (.argumentsDone e)
    | .customToolInputDone => some (.argumentsDone e)
    | _ => none
  | .metadata _ => none
  | .output out => if isResponsesToolOutputType out.type then some (.item (outputEvent out)) else none

def isTerminal : Action → Bool
  | .event e => e.type.isTerminal
  | _ => false

/-- A step that leaves the tools as they are. -/
def Apart (f : ChatStep) (s : ResponsesToChatStreamState) (a : Assembly) : Prop :=
  toolState (f s).1 = toolState s ∧ (f s).1.finalized = s.finalized ∧ (received f s a).calls = a.calls

theorem Apart.congr {f g : ChatStep} (h : f s = g s) (hg : Apart g s a) : Apart f s a := by
  rw [Apart, received, h]
  exact hg

theorem apart_of_silent {f : ChatStep} (h : f s = (s', [])) (htools : toolState s' = toolState s)
    (hfinal : s'.finalized = s.finalized) : Apart f s a := by
  rw [Apart, received, h]
  exact ⟨htools, hfinal, rfl⟩

variable (s) (a)

theorem apart_textDelta (delta : String) : Apart (textDelta delta) s a := by
  rw [Apart, textDelta_state, received_textDelta]
  split
  · exact ⟨rfl, rfl, rfl⟩
  · exact ⟨rfl, rfl, rfl⟩

theorem apart_reasoningDelta (delta : String) : Apart (reasoningDelta delta) s a := by
  rw [Apart, reasoningDelta_state, received_reasoningDelta]
  split
  · exact ⟨rfl, rfl, rfl⟩
  · exact ⟨rfl, rfl, rfl⟩

theorem toolState_applyResponseMetadata (response : Option OpenAIResponsesResponse) :
    toolState (s.applyResponseMetadata response) = toolState s ∧ (s.applyResponseMetadata response).finalized = s.finalized := by
  cases response with
  | none | some response => exact ⟨rfl, rfl⟩

theorem apart_created (response : Option OpenAIResponsesResponse) :
    Apart (fun s => ensureStart (s.applyResponseMetadata response)) s a := by
  obtain ⟨htools, hfinal⟩ := toolState_applyResponseMetadata s response
  have hchat := received_ensureStart (s.applyResponseMetadata response) a
  rw [received] at hchat
  rw [Apart, received, hchat, ensureStart_state]
  exact ⟨htools, hfinal, rfl⟩

theorem apart_reasoningDone :
    Apart (fun s => (if s.hasSentReasoning then { s with needsReasoningSummaryBreak := true } else s, [])) s a := by
  refine apart_of_silent rfl ?_ ?_
  · split <;> rfl
  · split <;> rfl

/-- A step is that of its tool event, or it leaves the tools as they are. -/
def Follows (f : ChatStep) (s : ResponsesToChatStreamState) (a : Assembly) : Option ToolEvent → Prop
  | some called => f s = called.chunks s
  | none => Apart f s a

variable {s} {e : ResponsesStreamResponse}

/-- An item event is one if its item is a tool. -/
theorem follows_item (heq : eventChunks e s = if isToolItem e then toolItem e s else (s, []))
    (a : Assembly) : Follows (eventChunks e) s a (if isToolItem e then some (.item e) else none) := by
  by_cases htool : isToolItem e
  · rw [if_pos htool] at heq ⊢
    exact heq
  · rw [if_neg htool] at heq ⊢
    exact apart_of_silent heq rfl rfl

theorem follows_delta (heq : eventChunks e s = toolArgumentsDelta e s) (a : Assembly) :
    Follows (eventChunks e) s a (if e.delta = "" then none else some (.delta e)) := by
  by_cases hdelta : e.delta = ""
  · rw [if_pos hdelta]
    exact apart_of_silent (heq.trans (if_pos hdelta)) rfl rfl
  · rw [if_neg hdelta]
    exact heq

variable (s) in
theorem follows_output (out : ResponsesOutput) : Follows (outputChunks out) s a (toolEvent (.output out)) := by
  rw [toolEvent]
  by_cases htool : isResponsesToolOutputType out.type = true
  · rw [if_pos htool]
    show outputChunks out s = toolItem (outputEvent out) s
    cases htype : out.type <;> rw [htype] at htool
    case functionCall => simp [outputChunks, htype, isResponsesToolOutputType, outputEvent]
    case customToolCall => simp [outputChunks, htype, isResponsesToolOutputType, outputEvent]
    all_goals cases htool
  rw [if_neg htool]
  show Apart (outputChunks out) s a
  by_cases htext : out.type = .message ∧ s.hasSentText = false
  · exact .congr (if_pos htext) (apart_textDelta s a (outputText out.content))
  by_cases hreason : out.type = .reasoning ∧ s.hasSentReasoning = false
  · exact .congr ((if_neg htext).trans (if_pos hreason)) (apart_reasoningDelta s a (contentText out.content))
  · exact apart_of_silent ((if_neg htext).trans ((if_neg hreason).trans (if_neg htool))) rfl rfl

/-- **What an action does.** -/
theorem chunks_follows (action : Action) (hterminal : action.isTerminal = false)
    (s : ResponsesToChatStreamState) (a : Assembly) : Follows action.chunks s a action.toolEvent := by
  cases action with
  | metadata response =>
    obtain ⟨htools, hfinal⟩ := toolState_applyResponseMetadata s response
    exact apart_of_silent rfl htools hfinal
  | output out => exact follows_output s a out
  | event e =>
    have heq : eventChunks e s = eventChunks e s := rfl
    conv_rhs at heq => rw [eventChunks]
    rw [isTerminal] at hterminal
    rw [toolEvent]
    show Follows (eventChunks e) s a _
    cases htype : e.type <;> rw [htype] at hterminal heq
    case created => exact Apart.congr heq (apart_created s a e.response)
    case reasoningSummaryDelta => exact Apart.congr heq (apart_reasoningDelta s a e.delta)
    case reasoningTextDelta => exact Apart.congr heq (apart_reasoningDelta s a e.delta)
    case reasoningSummaryDone => exact Apart.congr heq (apart_reasoningDone s a)
    case reasoningTextDone => exact Apart.congr heq (apart_reasoningDone s a)
    case outputTextDelta => exact Apart.congr heq (apart_textDelta s a e.delta)
    case outputItemAdded => exact follows_item heq a
    case outputItemDone => exact follows_item heq a
    case functionArgsDelta => exact follows_delta heq a
    case customToolInputDelta => exact follows_delta heq a
    case functionArgsDone => exact heq
    case customToolInputDone => exact heq
    case completed => cases hterminal
    case done => cases hterminal
    case incomplete => cases hterminal
    all_goals exact apart_of_silent heq rfl rfl

end Action

def streamActions (events : List ResponsesStreamResponse) (response : Option OpenAIResponsesResponse) : List Action :=
  events.map .event ++ .metadata response :: ((response.map (·.output)).getD []).map .output

/-! ## Sessions -/

/-- The converter, its client, and the tool events that have come. -/
structure Session where
  state : ResponsesToChatStreamState := {}
  chat : Assembly := {}
  past : List ToolEvent := []

namespace Session

def step (x : Session) (action : Action) : Session where
  state := (action.chunks x.state).1
  chat := received action.chunks x.state x.chat
  past := x.past ++ action.toolEvent.toList

def start (model : String) (includeUsage : Bool) : Session where
  state := newResponsesToChatStreamState model includeUsage

theorem run_step (acts : List Action) (x : Session) :
    (run step x acts).state = (forEach Action.chunks acts x.state).1 ∧
      (run step x acts).chat = received (forEach Action.chunks acts) x.state x.chat ∧
      (run step x acts).past = x.past ++ acts.flatMap fun action => action.toolEvent.toList := by
  induction acts generalizing x with
  | nil => exact ⟨rfl, rfl, (List.append_nil x.past).symm⟩
  | cons action acts ih =>
    obtain ⟨hstate, hchat, hpast⟩ := ih (x.step action)
    refine ⟨hstate, ?_, ?_⟩
    · rw [forEach, received_andThen]
      exact hchat
    · rw [List.flatMap_cons, ← List.append_assoc]
      exact hpast

end Session

/-- The tools that are known after some events, in the order in which they became known. -/
def ownersOf (N : ToolKey → Option T) (events : List ToolEvent) : List T :=
  events.foldl (fun owners event =>
    match toolOf N event with
    | some τ => ownersAfter owners τ event
    | none => owners) []

theorem ownersOf_snoc {event : ToolEvent} (h : toolOf N event = some τ) (events : List ToolEvent) :
    ownersOf N (events ++ [event]) = ownersAfter (ownersOf N events) τ event := by
  rw [ownersOf, List.foldl_append, List.foldl_cons, List.foldl_nil, h]
  rfl

/-- A session in which every event was traced to its tool. -/
structure Session.Traced (N : ToolKey → Option T) (x : Session) : Prop where
  demux : Demux N x.state x.chat.calls (ownersOf N x.past) (trackOf N x.past)
  open_ : x.state.finalized = false

/-- The condition of a step: the event names one tool and can be traced to it. -/
def Traceable (N : ToolKey → Option T) (x : Session) (action : Action) : Prop :=
  action.isTerminal = false ∧
    ∀ event, action.toolEvent = some event → ∃ τ, Names N event τ ∧ Linked N x.state event τ

theorem Session.traced_start (N : ToolKey → Option T) (model : String) (includeUsage : Bool) :
    (start model includeUsage).Traced N := by
  have hwaiting : ∀ b, (start model includeUsage).state.waiting b = none := by
    intro b
    cases b <;> rfl
  have hkeyOf : ∀ b, (start model includeUsage).state.keyOf b = none := by
    intro b
    cases b <;> rfl
  have hpending : ∀ b, (start model includeUsage).state.pendingAt b = "" := by
    intro b
    rw [pendingAt, hwaiting]
    rfl
  refine ⟨⟨⟨?_, ?_, ?_, ?_, ?_⟩, ⟨?_, ?_, ?_⟩, ⟨List.nodup_nil, rfl, rfl, ?_, ?_⟩⟩, rfl⟩
  · intro b hb
    rw [hkeyOf] at hb
    cases hb
  · intro key ref href
    cases href
  · intro b key hb
    rw [hkeyOf] at hb
    cases hb
  · intro k key hk
    rw [hkeyOf] at hk
    cases hk
  · intro τ hτ
    exact absurd hτ List.not_mem_nil
  · intro b hb
    rw [hwaiting] at hb
    cases hb
  · intro b₀ τ hb₀
    exact ⟨b₀, hb₀, hpending b₀, fun b' _ _ => hpending b'⟩
  · intro b hb
    exact absurd (hpending b) hb
  · intro ref τ href
    cases href
  · intro τ _
    rfl

theorem Session.traced_step {x : Session} {action : Action} (hstep : Traceable N x action)
    (h : x.Traced N) : (x.step action).Traced N := by
  obtain ⟨hterminal, hevent⟩ := hstep
  have hfollows := action.chunks_follows hterminal x.state x.chat
  cases htool : action.toolEvent with
  | none =>
    rw [htool] at hfollows
    obtain ⟨hstate, hfinal, hcalls⟩ := hfollows
    have hpast : (x.step action).past = x.past := by
      show x.past ++ action.toolEvent.toList = x.past
      rw [htool]
      exact List.append_nil x.past
    refine ⟨?_, hfinal.trans h.open_⟩
    rw [hpast]
    show Demux N (action.chunks x.state).1 (received action.chunks x.state x.chat).calls _ _
    rw [hcalls]
    exact h.demux.congr hstate
  | some event =>
    rw [htool] at hfollows
    have hchunks : action.chunks x.state = event.chunks x.state := hfollows
    obtain ⟨τ, hnames, hlinked⟩ := hevent event htool
    have hpast : (x.step action).past = x.past ++ [event] := by
      show x.past ++ action.toolEvent.toList = x.past ++ [event]
      rw [htool]
      rfl
    have hrest := (hnames.frame h.demux.buffers.tidy x.chat).1
    refine ⟨?_, ?_⟩
    · rw [hpast, trackOf_snoc hnames.toolOf, ownersOf_snoc hnames.toolOf]
      show Demux N (action.chunks x.state).1 (received action.chunks x.state x.chat).calls _ _
      rw [received, hchunks]
      exact h.demux.step hnames hlinked
    · show (action.chunks x.state).1.finalized = false
      rw [hchunks]
      have hfinal := congrArg ResponsesToChatStreamState.finalized hrest
      exact hfinal.trans h.open_

variable {model : String} {includeUsage : Bool}

theorem Session.traced_run {acts : List Action}
    (h : Respects Session.step (Traceable N) (start model includeUsage) acts) :
    (run Session.step (start model includeUsage) acts).Traced N :=
  Lib.Run.run_preserves_of_respects (fun _ _ hC hI => traced_step hC hI) h (traced_start N model includeUsage)

/-! ## The whole stream -/

/-- What the client has when the stream has ended. -/
def streamAssembly (model : String) (includeUsage : Bool) (events : List ResponsesStreamResponse)
    (response : Option OpenAIResponsesResponse) : Assembly :=
  ofChunks
    (streamChunks events response (newResponsesToChatStreamState model includeUsage)).2

/-- The tool events of a stream. -/
def toolEvents (events : List ResponsesStreamResponse) (response : Option OpenAIResponsesResponse) : List ToolEvent :=
  (streamActions events response).flatMap fun action => action.toolEvent.toList

theorem forEach_event (events : List ResponsesStreamResponse) :
    forEach Action.chunks (events.map .event) = forEach eventChunks events := by
  induction events with
  | nil => rfl
  | cons e events ih =>
    rw [List.map_cons, forEach, forEach, ih]
    rfl

theorem forEach_output (response : Option OpenAIResponsesResponse) :
    forEach Action.chunks (((response.map (·.output)).getD []).map .output) = terminalOutputChunks response := by
  cases response with
  | none => rfl
  | some response =>
    show forEach Action.chunks (response.output.map .output) = forEach outputChunks response.output
    induction response.output with
    | nil => rfl
    | cons out outs ih =>
      rw [List.map_cons, forEach, forEach, ih]
      rfl

/-- The end of a stream adds nothing but what is flushed. -/
theorem received_finalize (h : s.finalized = false) (response : Option OpenAIResponsesResponse) :
    received (finalize response) s a = received flushAllPendingTools { s with finalized := true } a := by
  have heq : received (finalize response) s a = received
      (andThen flushAllPendingTools (andThen ensureStart (andThen (finishChunk response) usageChunk)))
      { s with finalized := true } a := by
    rw [received, finalize, if_neg (by rw [h]; exact Bool.false_ne_true), received]
  rw [heq, received_andThen, received_andThen, received_ensureStart, received_andThen]
  generalize received flushAllPendingTools { s with finalized := true } a = b
  have hfinish : ∀ s : ResponsesToChatStreamState, received (finishChunk response) s b = b := by
    intro s
    show b.addDelta {} = b
    rw [addDelta]
    simp only [Delta.getContentString, Delta.getReasoningContent, Option.getD_none, String.append_empty, List.foldl_nil]
  rw [hfinish]
  generalize (finishChunk response _).1 = s'
  rw [received, usageChunk]
  cases s'.includeUsage with
  | true | false => rfl

variable {response : Option OpenAIResponsesResponse} {events : List ResponsesStreamResponse}

/-- A stream is the run of its actions, and then the flush. -/
theorem streamAssembly_eq {x : Session}
    (hx : run Session.step (.start model includeUsage) (streamActions events response) = x)
    (hopen : x.state.finalized = false) :
    streamAssembly model includeUsage events response
      = received flushAllPendingTools { x.state with finalized := true } x.chat := by
  rw [← received_finalize hopen response, ← hx, streamActions, Lib.Run.run_append, Lib.Run.run_cons]
  obtain ⟨hstate, hchat, _⟩ :=
    Session.run_step (events.map .event) (.start model includeUsage)
  generalize hy : run Session.step (.start model includeUsage) (events.map .event) = y at hstate hchat
  obtain ⟨hstate', hchat', _⟩ := Session.run_step
    (((response.map (·.output)).getD []).map .output) (y.step (.metadata response))
  rw [hstate', hchat', forEach_output]
  rw [forEach_event] at hstate hchat
  have hterminal : received (terminalEvent response) y.state y.chat
      = received (andThen (terminalOutputChunks response) (finalize response))
          (y.step (.metadata response)).state (y.step (.metadata response)).chat := rfl
  show received (streamChunks events response) (newResponsesToChatStreamState model includeUsage) {} = _
  rw [streamChunks, received_andThen, ← received_andThen (terminalOutputChunks response), ← hterminal, hstate, hchat]
  rfl

/-- **The calls of a stream** in which every event can be traced to its tool and of which everything was
sent: the calls of the tracks, and those that are flushed. -/
theorem stream_contents
    (hrun : Respects Session.step (Traceable N) (.start model includeUsage) (streamActions events response))
    (hsettled : ∀ τ ∈ ownersOf N (toolEvents events response), (trackOf N (toolEvents events response) τ).Settled) :
    ∃ tools owners tracks,
      Contents tools (streamAssembly model includeUsage events response).calls owners tracks ∧
      Flushes (ownersOf N (toolEvents events response)) (trackOf N (toolEvents events response)) owners tracks ∧
      ∀ b τ, N b = some τ → (trackOf N (toolEvents events response) τ).waiting ≠ "" → τ ∈ owners := by
  have htraced := Session.traced_run hrun
  have hpast := (Session.run_step (streamActions events response) (.start model includeUsage)).2.2
  generalize hx : run Session.step (.start model includeUsage) (streamActions events response) = x at htraced hpast
  have hpast' : x.past = toolEvents events response := hpast
  have hdemux := htraced.demux
  rw [hpast'] at hdemux
  have hfinal : Demux N { x.state with finalized := true } x.chat.calls
      (ownersOf N (toolEvents events response)) (trackOf N (toolEvents events response)) :=
    hdemux.congr rfl
  obtain ⟨owners, tracks, hcontents, hflushes, hall⟩ := hfinal.flushAll hsettled
  rw [streamAssembly_eq hx htraced.open_]
  exact ⟨_, owners, tracks, hcontents, hflushes, hall⟩

end OneApi.Responses

import OneApi.Lib.Run
import OneApi.Responses.ToChatTools

/-!
# One track per tool

The events of several tools arrive in one stream, and the tables of the converter have to find the tool
of each.  The purpose of the tables is that the tools do not meet: every tool is converted as if its
events were alone.  A `Track` is that conversion of one tool, and `Demux` says that the converter has the
tracks of all tools side by side.

Which tool an identifier names is decided outside, by the upstream.  The tables are right as long as an
event can be traced to its tool (`Linked`); the step lemma `Demux.step` is under this condition.
-/

namespace OneApi.Responses

open Claude.Stream (Chunk Delta ToolCallResponse)
open Chat Lib.Emit Tokens ResponsesToChatStreamState Function

/-! ## The events of tools -/

inductive ToolEvent
  | item (event : ResponsesStreamResponse)
  | delta (event : ResponsesStreamResponse)
  | argumentsDone (event : ResponsesStreamResponse)

namespace ToolEvent

def event : ToolEvent → ResponsesStreamResponse
  | .item event => event
  | .delta event => event
  | .argumentsDone event => event

def chunks : ToolEvent → ChatStep
  | .item event => toolItem event
  | .delta event => toolArgumentsDelta event
  | .argumentsDone event => flushPendingTool event

/-- An item event has an item; the others have none. -/
def WellFormed : ToolEvent → Prop
  | .item event => event.item.isSome
  | .delta event => event.item = none ∧ event.delta ≠ ""
  | .argumentsDone event => event.item = none

/-- The identifiers under which an event takes what waits: a delta goes on waiting under the first. -/
def takes : ToolEvent → List ToolKey
  | .item event => carried event
  | .delta event => (carried event).head?.toList
  | .argumentsDone event => carried event

end ToolEvent

variable {T : Type}

/-- The tool of an event, by a naming of the tools. -/
def toolOf (N : ToolKey → Option T) (event : ToolEvent) : Option T :=
  (carried event.event).head?.bind N

/-- All identifiers of the event name one tool. -/
structure Names (N : ToolKey → Option T) (event : ToolEvent) (τ : T) : Prop where
  wellFormed : event.WellFormed
  carries : carried event.event ≠ []
  names : ∀ b ∈ carried event.event, N b = some τ

theorem Names.toolOf {N : ToolKey → Option T} {event : ToolEvent} {τ : T} (h : Names N event τ) :
    toolOf N event = some τ := by
  rw [Responses.toolOf]
  cases hids : carried event.event with
  | nil => exact absurd hids h.carries
  | cons b ids =>
    refine h.names b ?_
    rw [hids]
    exact List.mem_cons_self

/-- The event can be traced to its tool: if the tool is known, an identifier of the event is, and what
waits for the tool waits where the event takes it. -/
structure Linked (N : ToolKey → Option T) (s : ResponsesToChatStreamState) (event : ToolEvent) (τ : T) :
    Prop where
  known : (∃ b, N b = some τ ∧ (s.keyOf b).isSome) → ∃ b ∈ carried event.event, (s.keyOf b).isSome
  waits : ∀ b, N b = some τ → s.pendingAt b ≠ "" → b ∈ event.takes

/-! ## The track of a tool -/

/-- A tool alone: the deltas that wait for it, and when it is known, the tool and the call that the client
has of it (at index 0). -/
structure Track where
  waiting : String := ""
  tool : Option (ResponsesStreamTool × AssembledCall) := none

attribute [local irreducible] Lib.Go.trimSpace

namespace Track

/-- A delta of the tool is sent. -/
def send (tool : ResponsesStreamTool) (call : Option AssembledCall) (explicitDelta : String) :
    ResponsesStreamTool × AssembledCall :=
  let fragment := tool.fragment 0 (argsToSend tool explicitDelta)
  (tool.afterSend (argsToSend tool explicitDelta),
    match call with
    | none => .first fragment
    | some c => c.add fragment)

/-- The tool when an item of it has come. -/
def withItem (event : ResponsesStreamResponse) (item : ResponsesOutput) (waiting : String)
    (tool : ResponsesStreamTool) : ResponsesStreamTool :=
  let tool := (tool.take waiting).describe event item
  if item.argumentsString ≠ "" then { tool with arguments := item.argumentsString } else tool

def addItem (event : ResponsesStreamResponse) (item : ResponsesOutput) (t : Track) : Track where
  tool := some (send
    (withItem event item t.waiting ((t.tool.map Prod.fst).getD { key := (keyForEvent event).getD (.output 0) }))
    (t.tool.map Prod.snd) "")

def step (t : Track) : ToolEvent → Track
  | .item event =>
    match event.item with
    | none => t
    | some item => t.addItem event item
  | .delta event =>
    match t.tool with
    | none => { t with waiting := t.waiting ++ event.delta }
    | some (tool, c) => { t with tool := some (send (tool.take event.delta) (some c) event.delta) }
  | .argumentsDone event =>
    match t.tool with
    | none =>
      let tool : ResponsesStreamTool :=
        { key := (keyForEvent event).getD (.output 0), callID := fallbackCallID event }
      { tool := some (send { tool.take t.waiting with itemID := (nonBlank event.itemID).getD "" }
          none "") }
    | some (tool, c) => { t with tool := some (send tool (some c) "") }

end Track

variable [DecidableEq T]

/-- The track of a tool after some events. -/
def trackOf (N : ToolKey → Option T) (events : List ToolEvent) (τ : T) : Track :=
  (events.filter fun event => toolOf N event = some τ).foldl Track.step {}

theorem trackOf_snoc {N : ToolKey → Option T} {event : ToolEvent} {τ : T}
    (h : toolOf N event = some τ) (events : List ToolEvent) :
    trackOf N (events ++ [event]) = update (trackOf N events) τ ((trackOf N events τ).step event) := by
  funext τ'
  rw [trackOf, List.filter_append, List.foldl_append]
  by_cases hτ : τ' = τ
  · rw [hτ, update_self, List.filter_singleton, h]
    rw [decide_eq_true rfl]
    rfl
  · rw [update_of_ne hτ, List.filter_singleton, h, decide_eq_false]
    · rfl
    · intro heq
      exact hτ (Option.some.inj heq).symm

/-! ## The tables -/

variable {change : ResponsesStreamTool → ResponsesStreamTool} {new : ResponsesStreamTool}

variable {looked : List ToolKey}

section Tables

omit [DecidableEq T]

/-- Every identifier that is known leads to the tool it names; `owners` are the tools in the order in
which they became known. -/
structure Tables (N : ToolKey → Option T) (s : ResponsesToChatStreamState) (owners : List T) : Prop where
  known : ∀ b, (s.keyOf b).isSome → ∃ ref, s.resolve b = some ref
  refers : ∀ key ref, s.refOf key = some ref → (s.keyOf key).isSome ∧ ∃ τ, N key = some τ ∧ owners[ref]? = some τ
  named : ∀ b key, s.keyOf b = some key → N key = N b
  output : ∀ k key, s.keyOf (.output k) = some key → key = .output k
  owned : ∀ τ ∈ owners, ∃ b, N b = some τ ∧ (s.keyOf b).isSome

/-- What waits for a tool waits under one identifier. -/
structure Buffers (N : ToolKey → Option T) (s : ResponsesToChatStreamState) (waiting : T → String) :
    Prop where
  tidy : s.Tidy
  waits : ∀ b₀ τ, N b₀ = some τ → ∃ b, N b = some τ ∧ s.pendingAt b = waiting τ ∧
    ∀ b', N b' = some τ → b' ≠ b → s.pendingAt b' = ""
  named : ∀ b, s.pendingAt b ≠ "" → ∃ τ, N b = some τ

variable {N : ToolKey → Option T} {s s₁ s' : ResponsesToChatStreamState} {owners : List T}

variable {b : ToolKey}

theorem Tables.owner_of_resolve (h : Tables N s owners) {ref : ℕ}
    (hb : s.resolve b = some ref) : ∃ τ, N b = some τ ∧ owners[ref]? = some τ := by
  obtain ⟨key, hkey, href⟩ := Option.bind_eq_some_iff.mp hb
  obtain ⟨_, τ, hτ, hown⟩ := h.refers key ref href
  exact ⟨τ, (h.named b key hkey).symm.trans hτ, hown⟩

variable {τ : T}

/-- A known identifier leads to the tool it names. -/
theorem Tables.resolve_of_known (h : Tables N s owners) (hτ : N b = some τ)
    (hb : (s.keyOf b).isSome) : ∃ ref, s.resolve b = some ref ∧ owners[ref]? = some τ := by
  obtain ⟨ref, href⟩ := h.known b hb
  obtain ⟨τ', hτ', hown⟩ := h.owner_of_resolve href
  rw [hτ] at hτ'
  cases hτ'
  exact ⟨ref, href, hown⟩

theorem Tables.mem_of_known (h : Tables N s owners) (hτ : N b = some τ) (hb : (s.keyOf b).isSome) : τ ∈ owners := by
  obtain ⟨ref, _, hown⟩ := h.resolve_of_known hτ hb
  exact List.mem_of_getElem? hown

variable {ids : List ToolKey}

/-- Identifiers of one tool are registered for it. -/
theorem Tables.registers {ref : ℕ} {owners' : List T} (h : Tables N s owners) (hfound : Found looked new s s₁ ref)
    (hreg : Registers ids new.key ref change s₁ s') (hkey : new.key ∈ ids)
    (hids : ∀ b ∈ ids, N b = some τ) (hout : ∀ k, ToolKey.output k ∈ ids → new.key = .output k)
    (hmono : ∀ (i : ℕ) (τ' : T), owners[i]? = some τ' → owners'[i]? = some τ')
    (hmem : ∀ τ' ∈ owners', τ' = τ ∨ τ' ∈ owners) (href : owners'[ref]? = some τ) : Tables N s' owners' := by
  have hkeyOf : ∀ b, s'.keyOf b = if b ∈ ids then some new.key else s.keyOf b := by
    intro b
    rw [hreg.keyOf, hfound.keyOf]
  have hrefOf : ∀ b, s'.refOf b = if b = new.key then some ref else s.refOf b := by
    intro b
    rw [hreg.refOf, hfound.refOf]
  have hnew : s'.keyOf new.key = some new.key := by rw [hkeyOf, if_pos hkey]
  refine ⟨fun b hb => ?_, fun key r hr => ?_, fun b key hb => ?_, fun k key hk => ?_, fun τ' hτ' => ?_⟩
  · rw [hkeyOf] at hb
    rw [resolve, hkeyOf]
    by_cases hmemb : b ∈ ids
    · rw [if_pos hmemb, Option.bind_some, hrefOf, if_pos rfl]
      exact ⟨ref, rfl⟩
    · rw [if_neg hmemb] at hb ⊢
      obtain ⟨key, hkb⟩ := Option.isSome_iff_exists.mp hb
      obtain ⟨r, hr⟩ := h.known b hb
      rw [resolve, hkb, Option.bind_some] at hr
      rw [hkb, Option.bind_some, hrefOf]
      split
      · exact ⟨ref, rfl⟩
      · exact ⟨r, hr⟩
  · rw [hrefOf] at hr
    by_cases heq : key = new.key
    · rw [if_pos heq] at hr
      cases hr
      rw [heq, hnew]
      exact ⟨rfl, τ, hids new.key hkey, href⟩
    · rw [if_neg heq] at hr
      obtain ⟨hsome, τ', hτ', hown⟩ := h.refers key r hr
      exact ⟨hfound.keyOf_mono hreg hsome, τ', hτ', hmono r τ' hown⟩
  · rw [hkeyOf] at hb
    by_cases hmemb : b ∈ ids
    · rw [if_pos hmemb] at hb
      cases hb
      rw [hids b hmemb, hids new.key hkey]
    · rw [if_neg hmemb] at hb
      exact h.named b key hb
  · rw [hkeyOf] at hk
    by_cases hmemb : ToolKey.output k ∈ ids
    · rw [if_pos hmemb] at hk
      cases hk
      exact hout k hmemb
    · rw [if_neg hmemb] at hk
      exact h.output k key hk
  · rcases hmem τ' hτ' with rfl | hold
    · exact ⟨new.key, hids new.key hkey, by rw [hnew]; rfl⟩
    · obtain ⟨b, hb, hsome⟩ := h.owned τ' hold
      exact ⟨b, hb, hfound.keyOf_mono hreg hsome⟩

theorem Tables.congr (h : Tables N s owners) (hkey : s'.keyOf = s.keyOf) (href : s'.refOf = s.refOf) :
    Tables N s' owners := by
  have hres : s'.resolve = s.resolve := by
    funext b
    rw [resolve, hkey, href, resolve]
  obtain ⟨hknown, hrefers, hnamed, houtput, howned⟩ := h
  exact ⟨by rwa [hkey, hres], by rwa [hkey, href], by rwa [hkey], by rwa [hkey], by rwa [hkey]⟩

/-! ## The buffers -/

variable {waiting : T → String}

/-- The identifiers of a tool under which all its deltas wait have what waits for it. -/
theorem Buffers.pendings (h : Buffers N s waiting)
    (hne : ids ≠ []) (hids : ∀ b ∈ ids, N b = some τ) (hnodup : ids.Nodup)
    (htakes : ∀ b, N b = some τ → s.pendingAt b ≠ "" → b ∈ ids) : s.pendings ids = waiting τ := by
  obtain ⟨b₀, hb₀⟩ := List.exists_mem_of_ne_nil ids hne
  obtain ⟨b, hb, hwaits, hothers⟩ := h.waits b₀ τ (hids b₀ hb₀)
  have hsingle : ∀ l : List ToolKey, l.Nodup → (∀ b' ∈ l, N b' = some τ) →
      s.pendings l = if b ∈ l then s.pendingAt b else "" := by
    intro l
    induction l with
    | nil => exact fun _ _ => rfl
    | cons b' l ih =>
      intro hl hnames
      obtain ⟨hnot, hl⟩ := List.nodup_cons.mp hl
      rw [← List.singleton_append, pendings_append, pendings_singleton,
        ih hl fun b'' hb'' => hnames b'' (List.mem_cons_of_mem b' hb'')]
      by_cases heq : b' = b
      · rw [← heq, if_neg hnot, if_pos (List.mem_append_left _ (List.mem_singleton.mpr rfl)), String.append_empty]
      · rw [hothers b' (hnames b' List.mem_cons_self) heq, String.empty_append]
        have hiff : b ∈ [b'] ++ l ↔ b ∈ l := by
          rw [List.singleton_append, List.mem_cons, or_iff_right (Ne.symm heq)]
        rw [ite_congr (propext hiff) (fun _ => rfl) fun _ => rfl]
  rw [hsingle ids hnodup hids, ← hwaits]
  split
  next => rfl
  next hnot =>
    by_contra hne'
    exact hnot (htakes b hb (Ne.symm hne'))

variable {waiting' : T → String}

/-- What waits for a tool is taken. -/
theorem Buffers.take (h : Buffers N s waiting) (hw : ∀ b, s'.waiting b = if b ∈ ids then none else s.waiting b)
    (hids : ∀ b ∈ ids, N b = some τ) (htakes : ∀ b, N b = some τ → s.pendingAt b ≠ "" → b ∈ ids)
    (hτ : waiting' τ = "") (hothers : ∀ τ', τ' ≠ τ → waiting' τ' = waiting τ') : Buffers N s' waiting' := by
  have hpending : ∀ b, s'.pendingAt b = if b ∈ ids then "" else s.pendingAt b := by
    intro b
    rw [pendingAt, hw]
    split
    · rfl
    · rfl
  have hempty : ∀ b, N b = some τ → s'.pendingAt b = "" := by
    intro b hb
    rw [hpending]
    split
    next => rfl
    next hnot =>
      by_contra hne
      exact hnot (htakes b hb hne)
  refine ⟨fun b => ?_, fun b₀ τ' hb₀ => ?_, fun b hb => ?_⟩
  · rw [hw]
    split
    · exact Option.some_ne_none "" ∘ Eq.symm
    · exact h.tidy b
  · by_cases heq : τ' = τ
    · subst heq
      exact ⟨b₀, hb₀, (hempty b₀ hb₀).trans hτ.symm, fun b' hb' _ => hempty b' hb'⟩
    · have hsame : ∀ b, N b = some τ' → s'.pendingAt b = s.pendingAt b := by
        intro b hb
        rw [hpending, if_neg]
        intro hmem
        rw [hids b hmem] at hb
        exact heq (Option.some.inj hb).symm
      obtain ⟨b, hb, hwaits, hrest⟩ := h.waits b₀ τ' hb₀
      refine ⟨b, hb, ?_, fun b' hb' hne => ?_⟩
      · rw [hsame b hb, hwaits, hothers τ' heq]
      · rw [hsame b' hb', hrest b' hb' hne]
  · rw [hpending] at hb
    split at hb
    · exact absurd rfl hb
    · exact h.named b hb

theorem Buffers.congr (h : Buffers N s waiting) (hw : s'.waiting = s.waiting) : Buffers N s' waiting := by
  have hpending : s'.pendingAt = s.pendingAt := by
    funext b
    rw [pendingAt, hw, pendingAt]
  obtain ⟨htidy, hwaits, hnamed⟩ := h
  exact ⟨by rwa [Tidy, hw], by rwa [hpending], by rwa [hpending]⟩

/-- One more delta waits. -/
theorem Buffers.add {delta : String} (h : Buffers N s waiting) (hb : N b = some τ) (hdelta : delta ≠ "")
    (hw : ∀ b', s'.waiting b' = if b' = b then some (s.pendingAt b ++ delta) else s.waiting b')
    (htakes : ∀ b', N b' = some τ → s.pendingAt b' ≠ "" → b' = b)
    (hτ : waiting' τ = waiting τ ++ delta) (hothers : ∀ τ', τ' ≠ τ → waiting' τ' = waiting τ') :
    Buffers N s' waiting' := by
  have hpending : ∀ b', s'.pendingAt b' = if b' = b then s.pendingAt b ++ delta else s.pendingAt b' := by
    intro b'
    rw [pendingAt, hw]
    split
    · rfl
    · rfl
  have hne : s.pendingAt b ++ delta ≠ "" := by
    intro happ
    exact hdelta (String.append_eq_empty_iff.mp happ).2
  refine ⟨fun b' => ?_, fun b₀ τ' hb₀ => ?_, fun b' hb' => ?_⟩
  · rw [hw]
    split
    · exact fun hsome => hne (Option.some.inj hsome)
    · exact h.tidy b'
  · obtain ⟨b₁, hb₁, hwaits, hrest⟩ := h.waits b₀ τ' hb₀
    by_cases heq : τ' = τ
    · subst heq
      -- what waited is what waited under `b`, or nothing did
      have hat : s.pendingAt b = waiting τ' := by
        by_cases hbb : b₁ = b
        · rw [← hbb, hwaits]
        · have hnone : s.pendingAt b₁ = "" := by
            by_contra hsome
            exact hbb (htakes b₁ hb₁ hsome)
          rw [← hwaits, hnone, hrest b hb (Ne.symm hbb)]
      refine ⟨b, hb, ?_, fun b' hb' hne' => ?_⟩
      · rw [hpending, if_pos rfl, hat, hτ]
      · rw [hpending, if_neg hne']
        by_contra hsome
        exact hne' (htakes b' hb' hsome)
    · have hdiff : ∀ b', N b' = some τ' → s'.pendingAt b' = s.pendingAt b' := by
        intro b' hb'
        rw [hpending, if_neg]
        intro hbb
        rw [hbb, hb] at hb'
        exact heq (Option.some.inj hb').symm
      refine ⟨b₁, hb₁, ?_, fun b' hb' hne' => ?_⟩
      · rw [hdiff b₁ hb₁, hwaits, hothers τ' heq]
      · rw [hdiff b' hb', hrest b' hb' hne']
  · rw [hpending] at hb'
    by_cases hbb : b' = b
    · exact ⟨τ, hbb ▸ hb⟩
    · rw [if_neg hbb] at hb'
      exact h.named b' hb'

end Tables

/-! ## The tools and the calls of the client -/

variable {c : AssembledCall}

section Contents

/-- The tools and the calls of the client are those of the tracks. -/
structure Contents (tools : List ResponsesStreamTool) (calls : List AssembledCall) (owners : List T)
    (tracks : T → Track) : Prop where
  nodup : owners.Nodup
  tools_length : tools.length = owners.length
  calls_length : calls.length = owners.length
  tool : ∀ (ref : ℕ) (τ : T), owners[ref]? = some τ → ∃ tool c, (tracks τ).tool = some (tool, c) ∧
    tools[ref]? = some tool ∧ calls[ref]? = some { c with index := ref } ∧ tool.sent = true ∧
    c.id ≠ "" ∧ (tracks τ).waiting = ""
  unknown : ∀ τ, τ ∉ owners → (tracks τ).tool = none

variable {tools : List ResponsesStreamTool} {calls : List AssembledCall} {owners : List T}
  {tracks : T → Track}

omit [DecidableEq T] in
theorem Contents.numbered (h : Contents tools calls owners tracks) : Assembly.Numbered calls := by
  intro j c hc
  have hj : j < owners.length := by
    rw [← h.calls_length]
    exact (List.getElem?_eq_some_iff.mp hc).1
  obtain ⟨_, c', _, _, hc', _⟩ := h.tool j owners[j] (List.getElem?_eq_getElem hj)
  rw [hc] at hc'
  rw [Option.some.inj hc']

variable {τ : T}

omit [DecidableEq T] in
/-- A tool has one place. -/
theorem Contents.ref_unique (h : Contents tools calls owners tracks) {i j : ℕ}
    (hi : owners[i]? = some τ) (hj : owners[j]? = some τ) : i = j := by
  have hlt : i < owners.length := (List.getElem?_eq_some_iff.mp hi).1
  exact (List.getElem?_inj hlt h.nodup).mp (hi.trans hj.symm)

/-- The client gets a delta of a tool that it knows. -/
theorem Contents.send_known {s : ResponsesToChatStreamState} {a : Assembly} {ref : ℕ} {tool : ResponsesStreamTool}
    (h : Contents tools a.calls owners tracks) (href : owners[ref]? = some τ)
    (htrack : (tracks τ).tool = some (tool, c)) (hs : s.tools = tools.modify ref change)
    (hsent : (change tool).sent = true) (explicitDelta : String) :
    Contents (toolDelta ref explicitDelta s).1.tools (received (toolDelta ref explicitDelta) s a).calls
      owners (update tracks τ
        { tool := some (Track.send (change tool) (some c) explicitDelta) }) := by
  obtain ⟨tool', c', htrack', htool, hcall, _, hid, _⟩ := h.tool ref τ href
  rw [htrack] at htrack'
  cases htrack'
  have hget : s.tools[ref]? = some (change tool) := by
    rw [hs, List.getElem?_modify_eq, htool]
    rfl
  have hshown : Shown (change tool) ref a.calls :=
    ⟨h.numbered, fun _ => ⟨_, hcall, hid⟩, fun hfalse => absurd hsent (by rw [hfalse]; decide)⟩
  obtain ⟨⟨start, saw, hstate⟩, hreceived⟩ := toolDelta_spec hget hshown
  rw [hstate, hreceived]
  generalize hargs : argsToSend (change tool) explicitDelta = args
  show Contents (s.tools.modify ref fun t => t.afterSend args) (callsAfter (change tool) ref args a.calls) owners _
  rw [hs, List.modify_modify_eq, callsAfter, if_pos hsent]
  refine ⟨h.nodup, ?_, ?_, fun r τ' hr => ?_, fun τ' hτ' => ?_⟩
  · rw [List.length_modify, h.tools_length]
  · rw [List.length_modify, h.calls_length]
  · by_cases heq : τ' = τ
    · subst heq
      have hrr : ref = r := h.ref_unique href hr
      subst hrr
      refine ⟨(change tool).afterSend args, c.add ((change tool).fragment 0 args), ?_, ?_, ?_, rfl, ?_, ?_⟩
      · rw [update_self, Track.send, hargs]
      · rw [List.getElem?_modify_eq, htool]
        rfl
      · rw [List.getElem?_modify_eq, hcall]
        rfl
      · show (if c.id = "" then _ else c.id) ≠ ""
        rw [if_neg hid]
        exact hid
      · rw [update_self]
    · have hne : ref ≠ r := by
        rintro rfl
        rw [href] at hr
        exact heq (Option.some.inj hr).symm
      rw [update_of_ne heq, List.getElem?_modify_ne _ _ hne, List.getElem?_modify_ne _ _ hne]
      exact h.tool r τ' hr
  · have hne : τ' ≠ τ := by
      rintro rfl
      exact hτ' (List.mem_of_getElem? href)
    rw [update_of_ne hne]
    exact h.unknown τ' hτ'

/-- The client gets the first delta of a tool. -/
theorem Contents.send_new {s : ResponsesToChatStreamState} {a : Assembly}
    {tool : ResponsesStreamTool} (h : Contents tools a.calls owners tracks) (hτ : τ ∉ owners)
    (hs : s.tools = tools ++ [tool]) (hsent : tool.sent = false) (explicitDelta : String) :
    Contents (toolDelta tools.length explicitDelta s).1.tools
      (received (toolDelta tools.length explicitDelta) s a).calls (owners ++ [τ])
      (update tracks τ { tool := some (Track.send tool none explicitDelta) }) := by
  have hget : s.tools[tools.length]? = some tool := by
    rw [hs, List.getElem?_concat_length]
  have hshown : Shown tool tools.length a.calls :=
    ⟨h.numbered, fun htrue => absurd hsent (by rw [htrue]; decide),
      fun _ => by rw [h.calls_length, h.tools_length]⟩
  obtain ⟨⟨start, saw, hstate⟩, hreceived⟩ := toolDelta_spec hget hshown
  rw [hstate, hreceived]
  generalize hargs : argsToSend tool explicitDelta = args
  show Contents (s.tools.modify tools.length fun t => t.afterSend args)
    (callsAfter tool tools.length args a.calls) (owners ++ [τ]) _
  have htools : (s.tools.modify tools.length fun t => t.afterSend args) = tools ++ [tool.afterSend args] := by
    rw [hs, modify_concat]
  rw [htools, callsAfter, if_neg (by rw [hsent]; decide)]
  refine ⟨?_, ?_, ?_, fun r τ' hr => ?_, fun τ' hτ' => ?_⟩
  · exact List.nodup_append.mpr ⟨h.nodup, List.nodup_singleton τ, fun x hx y hy => by
      rw [List.mem_singleton.mp hy]
      rintro rfl
      exact hτ hx⟩
  · rw [List.length_append, List.length_append, h.tools_length]
    rfl
  · rw [List.length_append, List.length_append, h.calls_length]
    rfl
  · rcases Nat.lt_or_ge r owners.length with hlt | hge
    · rw [List.getElem?_append_left hlt] at hr
      have hne : τ' ≠ τ := by
        rintro rfl
        exact hτ (List.mem_of_getElem? hr)
      rw [update_of_ne hne, List.getElem?_append_left (by rw [h.tools_length]; exact hlt),
        List.getElem?_append_left (by rw [h.calls_length]; exact hlt)]
      exact h.tool r τ' hr
    · have hrlen : r = owners.length := by
        have hr' := (List.getElem?_eq_some_iff.mp hr).1
        rw [List.length_append, List.length_singleton] at hr'
        omega
      subst hrlen
      rw [List.getElem?_concat_length] at hr
      cases hr
      refine ⟨tool.afterSend args, .first (tool.fragment 0 args), ?_, ?_, ?_, rfl, tool.fragment_id_ne 0 args, ?_⟩
      · rw [update_self, Track.send, hargs]
      · rw [← h.tools_length, List.getElem?_concat_length]
      · rw [← h.calls_length, List.getElem?_concat_length, h.calls_length, h.tools_length]
        rfl
      · rw [update_self]
  · have hne : τ' ≠ τ := by
      rintro rfl
      exact hτ' (List.mem_append_right _ (List.mem_singleton.mpr rfl))
    rw [update_of_ne hne]
    exact h.unknown τ' fun hmem => hτ' (List.mem_append_left _ hmem)

end Contents

/-! ## One step -/

/-- The converter has the tracks of all tools side by side. -/
structure Demux (N : ToolKey → Option T) (s : ResponsesToChatStreamState) (calls : List AssembledCall)
    (owners : List T) (tracks : T → Track) : Prop where
  tables : Tables N s owners
  buffers : Buffers N s fun τ => (tracks τ).waiting
  contents : Contents s.tools calls owners tracks

/-- The tool becomes known, if it was not. -/
def addOwner (owners : List T) (τ : T) : List T := if τ ∈ owners then owners else owners ++ [τ]

/-- The tools that are known after an event. -/
def ownersAfter (owners : List T) (τ : T) : ToolEvent → List T
  | .delta _ => owners
  | _ => addOwner owners τ

variable {N : ToolKey → Option T} {s s₁ s' : ResponsesToChatStreamState} {a : Assembly} {owners : List T}
  {tracks : T → Track} {τ : T}

theorem waiting_update (tool : Option (ResponsesStreamTool × AssembledCall)) :
    (fun τ' => (update tracks τ { tool := tool } τ').waiting)
      = fun τ' => if τ' = τ then "" else (tracks τ').waiting := by
  funext τ'
  by_cases heq : τ' = τ
  · rw [heq, update_self, if_pos rfl]
  · rw [update_of_ne heq, if_neg heq]

variable {ref : ℕ} {tool : ResponsesStreamTool}

/-- A delta is sent for a tool that is known, which may change before. -/
theorem Demux.send_known (h : Contents s.tools a.calls owners tracks) (htables : Tables N s' owners)
    (hbuffers : Buffers N s' fun τ' => if τ' = τ then "" else (tracks τ').waiting)
    (href : owners[ref]? = some τ) (htrack : (tracks τ).tool = some (tool, c))
    (hs : s'.tools = s.tools.modify ref change) (hsent : (change tool).sent = true) (explicitDelta : String) :
    Demux N (toolDelta ref explicitDelta s').1 (received (toolDelta ref explicitDelta) s' a).calls
      owners (update tracks τ
        { tool := some (Track.send (change tool) (some c) explicitDelta) }) := by
  obtain ⟨hkey, hrefOf, hwaiting, _⟩ := toolDelta_frame
  refine ⟨htables.congr hkey hrefOf, ?_, h.send_known href htrack hs hsent explicitDelta⟩
  rw [waiting_update]
  exact hbuffers.congr hwaiting

/-- The first delta is sent for a tool. -/
theorem Demux.send_new (h : Contents s.tools a.calls owners tracks) (htables : Tables N s' (owners ++ [τ]))
    (hbuffers : Buffers N s' fun τ' => if τ' = τ then "" else (tracks τ').waiting)
    (hτ : τ ∉ owners) (hs : s'.tools = s.tools ++ [tool]) (hsent : tool.sent = false) (explicitDelta : String) :
    Demux N (toolDelta s.tools.length explicitDelta s').1
      (received (toolDelta s.tools.length explicitDelta) s' a).calls (owners ++ [τ])
      (update tracks τ { tool := some (Track.send tool none explicitDelta) }) := by
  obtain ⟨hkey, hrefOf, hwaiting, _⟩ := toolDelta_frame
  refine ⟨htables.congr hkey hrefOf, ?_, h.send_new hτ hs hsent explicitDelta⟩
  rw [waiting_update]
  exact hbuffers.congr hwaiting

theorem getElem?_addOwner {τ' : T} (h : owners[ref]? = some τ') : (addOwner owners τ)[ref]? = some τ' := by
  rw [addOwner]
  split
  · exact h
  · rw [List.getElem?_append_left (List.getElem?_eq_some_iff.mp h).1]
    exact h

theorem mem_addOwner {τ' : T} : τ' ∈ addOwner owners τ ↔ τ' = τ ∨ τ' ∈ owners := by
  rw [addOwner]
  split
  next hmem =>
    refine ⟨.inr, ?_⟩
    rintro (rfl | h)
    · exact hmem
    · exact h
  next => rw [List.mem_append, List.mem_singleton, or_comm]

variable {event : ResponsesStreamResponse} (h : Demux N s a.calls owners tracks)

include h in
/-- The identifiers of an event are registered for its tool, at the place of the tool or at the end, and a
delta is sent. -/
theorem Demux.registered (hfound : Found looked new s s₁ ref)
    (hreg : Registers (carried event) new.key ref change s₁ s')
    (hkey : keyForEvent event = some new.key) (hnames : ∀ b ∈ carried event, N b = some τ)
    (htakes : ∀ b, N b = some τ → s.pendingAt b ≠ "" → b ∈ carried event)
    (hplace : (owners[ref]? = some τ ∧ s₁.tools = s.tools) ∨
      τ ∉ owners ∧ ref = s.tools.length ∧ s₁.tools = s.tools ++ [new])
    (hsent : ∀ tool, (change tool).sent = tool.sent) (hnew : new.sent = false) :
    Demux N (toolDelta ref "" s').1 (received (toolDelta ref "") s' a).calls (addOwner owners τ)
      (update tracks τ { tool := some (Track.send
        (change (((tracks τ).tool.map Prod.fst).getD new)) ((tracks τ).tool.map Prod.snd) "") }) := by
  have hat : (addOwner owners τ)[ref]? = some τ := by
    rcases hplace with ⟨hown, _⟩ | ⟨hnot, hlen, _⟩
    · exact getElem?_addOwner hown
    · rw [addOwner, if_neg hnot, hlen, h.contents.tools_length, List.getElem?_concat_length]
  have htables : Tables N s' (addOwner owners τ) := by
    refine h.tables.registers hfound hreg (mem_carried_of_keyForEvent hkey) hnames (fun k hk => ?_)
      (fun i τ' hi => getElem?_addOwner hi) (fun τ' => mem_addOwner.mp) hat
    exact Option.some.inj (hkey.symm.trans (keyForEvent_of_output hk))
  have hbuffers : Buffers N s' fun τ' => if τ' = τ then "" else (tracks τ').waiting := by
    refine h.buffers.take (fun b => ?_) hnames htakes (if_pos rfl) fun τ' hne => if_neg hne
    rw [hreg.waiting, hfound.waiting]
  have htools := hreg.tools
  rcases hplace with ⟨hown, hsame⟩ | ⟨hnot, rfl, hlast⟩
  · obtain ⟨tool, c, htrack, _, _, htool, _⟩ := h.contents.tool ref τ hown
    rw [addOwner, if_pos (List.mem_of_getElem? hown)] at htables ⊢
    rw [hsame] at htools
    rw [htrack]
    exact Demux.send_known h.contents htables hbuffers hown htrack htools ((hsent tool).trans htool) ""
  · rw [addOwner, if_neg hnot] at htables ⊢
    rw [hlast, modify_concat] at htools
    rw [h.contents.unknown τ hnot]
    exact Demux.send_new h.contents htables hbuffers hnot htools ((hsent new).trans hnew) ""

theorem Track.withItem_sent (event : ResponsesStreamResponse) (item : ResponsesOutput)
    (waiting : String) (tool : ResponsesStreamTool) : (withItem event item waiting tool).sent = tool.sent := by
  rw [withItem]
  split
  · rfl
  · rfl

include h in
omit [DecidableEq T] in
/-- The item of a tool that is known is found at the place of the tool. -/
theorem Demux.place_of_item {item : ResponsesOutput} (hitem : event.item = some item)
    (hfound : Found (itemIdentifiers event item) new s s₁ ref)
    (hkey : keyForEvent event = some new.key) (hnames : ∀ b ∈ carried event, N b = some τ)
    (hknown : (∃ b, N b = some τ ∧ (s.keyOf b).isSome) → ∃ b ∈ carried event, (s.keyOf b).isSome) :
    (owners[ref]? = some τ ∧ s₁.tools = s.tools) ∨ τ ∉ owners ∧ ref = s.tools.length ∧ s₁.tools = s.tools ++ [new] := by
  have hlooked : ∀ b ∈ itemIdentifiers event item, b ∈ carried event :=
    fun b hb => (mem_itemIdentifiers hitem).mpr (.inr hb)
  rcases hfound.tool with ⟨htools, hsome⟩ | ⟨htools, href, hnone, hall⟩
  · refine .inl ⟨?_, htools⟩
    rcases hsome with hdirect | ⟨b, hb, hres⟩
    · obtain ⟨_, τ', hτ', hown⟩ := h.tables.refers _ _ hdirect
      rw [hnames _ (mem_carried_of_keyForEvent hkey)] at hτ'
      cases hτ'
      exact hown
    · obtain ⟨τ', hτ', hown⟩ := h.tables.owner_of_resolve hres
      rw [hnames b (hlooked b hb)] at hτ'
      cases hτ'
      exact hown
  · refine .inr ⟨fun hmem => ?_, href, htools⟩
    -- an identifier that is known would have been found
    obtain ⟨b, hb, hsome⟩ := hknown (h.tables.owned τ hmem)
    obtain ⟨r, hr⟩ := h.tables.known b hsome
    rcases (mem_itemIdentifiers hitem).mp hb with hout | hid
    · obtain ⟨k, hk⟩ : ∃ k, b = .output k := by
        cases hindex : event.outputIndex with
        | none =>
          rw [hindex] at hout
          exact absurd hout List.not_mem_nil
        | some k =>
          rw [hindex] at hout
          exact ⟨k, List.mem_singleton.mp hout⟩
      subst hk
      obtain ⟨key, hkeyOf, href'⟩ := Option.bind_eq_some_iff.mp hr
      rw [h.tables.output k key hkeyOf] at href'
      have heq : new.key = .output k :=
        Option.some.inj (hkey.symm.trans (keyForEvent_of_output hb))
      rw [heq, href'] at hnone
      cases hnone
    · rw [hall b hid] at hr
      cases hr

/-- The arguments of the item replace those of the tool. -/
def setArguments (item : ResponsesOutput) (ref : ℕ) (s : ResponsesToChatStreamState) : ResponsesToChatStreamState :=
  if item.argumentsString ≠ "" then
    s.modifyTool ref fun tool => { tool with arguments := item.argumentsString }
  else s

/-- What an item does: its identifiers are registered, its tool is described, and a delta is sent. -/
theorem toolItem_spec {item : ResponsesOutput} (hs : s.Tidy) (hitem : event.item = some item)
    (hids : carried event ≠ []) :
    ∃ key s₁ s' ref, keyForEvent event = some key ∧ toolItem event s = toolDelta ref "" s' ∧
      Found (itemIdentifiers event item) { key := key } s s₁ ref ∧
      Registers (carried event) key ref (Track.withItem event item (s.pendings (carried event))) s₁ s' := by
  obtain ⟨key, s₁, s', ref, hkey, heq, hfound, hreg⟩ := ensureToolForEvent_spec hs hitem hids
  refine ⟨key, s₁, setArguments item ref s', ref, hkey, ?_, hfound, ?_⟩
  · rw [toolItem, heq, hitem]
    rfl
  rw [setArguments]
  by_cases hargs : item.argumentsString ≠ ""
  · rw [if_pos hargs]
    refine (hreg.trans (.modifyTool s' key ref _)).cast (fun b => by rw [List.append_nil]) ?_
    funext tool
    rw [Track.withItem, if_pos hargs]
    rfl
  · rw [if_neg hargs]
    refine hreg.cast (fun _ => Iff.rfl) ?_
    funext tool
    rw [Track.withItem, if_neg hargs]

include h in
theorem Demux.item {item : ResponsesOutput} (hitem : event.item = some item)
    (hnames : Names N (.item event) τ) (hlinked : Linked N s (.item event) τ) :
    Demux N (toolItem event s).1 (received (toolItem event) s a).calls (addOwner owners τ)
      (update tracks τ ((tracks τ).addItem event item)) := by
  obtain ⟨key, s₁, s', ref, hkey, heq, hfound, hreg⟩ :=
    toolItem_spec h.buffers.tidy hitem hnames.carries
  have hplace := h.place_of_item hitem hfound hkey hnames.names hlinked.known
  have hpending : s.pendings (carried event) = (tracks τ).waiting :=
    h.buffers.pendings hnames.carries hnames.names carried_nodup hlinked.waits
  rw [hpending] at hreg
  rw [received, heq, Track.addItem, hkey]
  exact h.registered hfound hreg hkey hnames.names hlinked.waits hplace (Track.withItem_sent event item _) rfl

include h in
omit [DecidableEq T] in
/-- An event without item finds its tool, or the tool is not known. -/
theorem Demux.find (hitem : event.item = none) (hnames : ∀ b ∈ carried event, N b = some τ)
    (hknown : (∃ b, N b = some τ ∧ (s.keyOf b).isSome) → ∃ b ∈ carried event, (s.keyOf b).isSome) :
    (∃ ref, s.findToolForEvent event = some ref ∧ owners[ref]? = some τ) ∨
      s.findToolForEvent event = none ∧ τ ∉ owners ∧ ∀ b ∈ carried event, s.keyOf b = none := by
  rcases findToolForEvent_spec s hitem with ⟨b, hb, hsome, hfind⟩ | ⟨hnone, hfind⟩
  · obtain ⟨ref, href, hown⟩ := h.tables.resolve_of_known (hnames b hb) hsome
    exact .inl ⟨ref, hfind.trans href, hown⟩
  · refine .inr ⟨hfind, fun hmem => ?_, hnone⟩
    obtain ⟨b, hb, hsome⟩ := hknown (h.tables.owned τ hmem)
    rw [hnone b hb] at hsome
    cases hsome

variable {tools : List ResponsesStreamTool} {calls : List AssembledCall}

omit [DecidableEq T] in
theorem Contents.track_eq (h : Contents tools calls owners tracks) (hown : owners[ref]? = some τ) :
    ∃ tool c, tracks τ = { tool := some (tool, c) } ∧ tool.sent = true := by
  obtain ⟨tool, c, htrack, _, _, hsent, _, hwaiting⟩ := h.tool ref τ hown
  refine ⟨tool, c, ?_, hsent⟩
  cases htracks : tracks τ with
  | mk waiting tool' =>
    rw [htracks] at htrack hwaiting
    rw [← htrack, ← hwaiting]

/-- Nothing waits for a tool that is known. -/
theorem Contents.waiting_eq (h : Contents tools calls owners tracks) (hown : owners[ref]? = some τ) :
    (fun τ' => if τ' = τ then "" else (tracks τ').waiting) = fun τ' => (tracks τ').waiting := by
  obtain ⟨tool, c, htrack, _⟩ := h.track_eq hown
  funext τ'
  by_cases heq : τ' = τ
  · rw [if_pos heq, heq, htrack]
  · rw [if_neg heq]

/-- What waits for a tool that is not known may change. -/
theorem Contents.update_unknown (h : Contents tools calls owners tracks) (hτ : τ ∉ owners) (waiting : String) :
    Contents tools calls owners (update tracks τ { waiting := waiting }) := by
  refine ⟨h.nodup, h.tools_length, h.calls_length, fun ref τ' hown => ?_, fun τ' hτ' => ?_⟩
  · have hne : τ' ≠ τ := by
      rintro rfl
      exact hτ (List.mem_of_getElem? hown)
    rw [update_of_ne hne]
    exact h.tool ref τ' hown
  · by_cases heq : τ' = τ
    · rw [heq, update_self]
    · rw [update_of_ne heq]
      exact h.unknown τ' hτ'

include h in
theorem Demux.argumentsDone
    (hnames : Names N (.argumentsDone event) τ) (hlinked : Linked N s (.argumentsDone event) τ) :
    Demux N (flushPendingTool event s).1 (received (flushPendingTool event) s a).calls
      (addOwner owners τ) (update tracks τ ((tracks τ).step (.argumentsDone event))) := by
  have hitem : event.item = none := hnames.wellFormed
  rcases h.find hitem hnames.names hlinked.known with ⟨ref, hfind, hown⟩ | ⟨hfind, hnot, hnone⟩
  · have heq : flushPendingTool event s = toolDelta ref "" s := by
      rw [flushPendingTool, hfind]
    have hadd : addOwner owners τ = owners := if_pos (List.mem_of_getElem? hown)
    obtain ⟨tool, c, htrack, hsent⟩ := h.contents.track_eq hown
    have hbuffers : Buffers N s fun τ' => if τ' = τ then "" else (tracks τ').waiting := by
      rw [h.contents.waiting_eq hown]
      exact h.buffers
    rw [received, heq, hadd, htrack]
    exact Demux.send_known h.contents h.tables hbuffers hown (by rw [htrack]) (List.modify_id ref s.tools).symm hsent ""
  · obtain ⟨key, s₁, s', ref, hkey, hens, hfound, hreg⟩ :=
      ensureFallbackToolForEvent_spec h.buffers.tidy hitem hnames.carries
    have heq : flushPendingTool event s = toolDelta ref "" s' := by
      rw [flushPendingTool, hfind, hens]
    have hpending : s.pendings (carried event) = (tracks τ).waiting :=
      h.buffers.pendings hnames.carries hnames.names carried_nodup hlinked.waits
    have hplace : ref = s.tools.length ∧ s₁.tools = s.tools ++ [{ key := key, callID := fallbackCallID event }] := by
      rcases hfound.tool with ⟨_, hdirect | ⟨b, hb, _⟩⟩ | ⟨htools, href, _⟩
      · have hsome := (h.tables.refers key ref hdirect).1
        rw [hnone key (mem_carried_of_keyForEvent hkey)] at hsome
        cases hsome
      · exact absurd hb List.not_mem_nil
      · exact ⟨href, htools⟩
    have hsend := h.registered hfound hreg hkey hnames.names hlinked.waits (.inr ⟨hnot, hplace⟩) (fun _ => rfl) rfl
    rw [hpending, h.contents.unknown τ hnot] at hsend
    rw [received, heq, Track.step, h.contents.unknown τ hnot, hkey]
    exact hsend

include h in
theorem Demux.delta (hnames : Names N (.delta event) τ) (hlinked : Linked N s (.delta event) τ) :
    Demux N (toolArgumentsDelta event s).1 (received (toolArgumentsDelta event) s a).calls owners
      (update tracks τ ((tracks τ).step (.delta event))) := by
  obtain ⟨hitem, hdelta⟩ := hnames.wellFormed
  rcases h.find hitem hnames.names hlinked.known with ⟨ref, hfind, hown⟩ | ⟨hfind, hnot, hnone⟩
  · have heq : toolArgumentsDelta event s = toolDelta ref event.delta (s.modifyTool ref (.take event.delta)) := by
      rw [toolArgumentsDelta, if_neg hdelta, hfind]
      rfl
    obtain ⟨tool, c, htrack, hsent⟩ := h.contents.track_eq hown
    have htables : Tables N (s.modifyTool ref (.take event.delta)) owners :=
      h.tables.congr (by funext b; cases b <;> rfl) rfl
    have hbuffers : Buffers N (s.modifyTool ref (.take event.delta))
        fun τ' => if τ' = τ then "" else (tracks τ').waiting := by
      rw [h.contents.waiting_eq hown]
      exact h.buffers.congr (by funext b; cases b <;> rfl)
    rw [received, heq, htrack]
    exact Demux.send_known h.contents htables hbuffers hown (by rw [htrack]) rfl hsent event.delta
  · have heq : toolArgumentsDelta event s = (bufferDelta event s, []) := by
      rw [toolArgumentsDelta, if_neg hdelta, hfind]
    obtain ⟨b, hhead, hwaiting, hkeyOf, hrefOf, htools, _⟩ :=
      bufferDelta_spec s hitem hnames.carries
    have hb : N b = some τ := hnames.names b (List.mem_of_mem_head? hhead)
    have htakes : ∀ b', N b' = some τ → s.pendingAt b' ≠ "" → b' = b := by
      intro b' hb' hne
      have hmem : b' ∈ (carried event).head?.toList := hlinked.waits b' hb' hne
      rw [hhead] at hmem
      exact List.mem_singleton.mp hmem
    have htrack : (tracks τ).step (.delta event) = { waiting := (tracks τ).waiting ++ event.delta } := by
      rw [Track.step, h.contents.unknown τ hnot]
    rw [received, heq, htrack]
    refine ⟨h.tables.congr hkeyOf hrefOf, h.buffers.add hb hdelta hwaiting htakes ?_ ?_, ?_⟩
    · rw [update_self]
    · intro τ' hne
      rw [update_of_ne hne]
    · rw [htools]
      exact h.contents.update_unknown hnot _

omit [DecidableEq T] in
/-- A tool event sends a delta of one tool, or nothing, from a state with the same rest; what is registered stays
registered. -/
theorem Names.sends {event : ToolEvent} (h : Names N event τ) (hs : s.Tidy) :
    ∃ s', s'.rest = s.rest ∧ (∀ b, (s.keyOf b).isSome → (s'.keyOf b).isSome) ∧
      (event.chunks s = (s', []) ∨ ∃ ref explicitDelta, event.chunks s = toolDelta ref explicitDelta s') := by
  cases event with
  | item e =>
    obtain ⟨item, hitem⟩ := Option.isSome_iff_exists.mp h.wellFormed
    obtain ⟨key, s₁, s', ref, _, heq, hfound, hreg⟩ := toolItem_spec hs hitem h.carries
    exact ⟨s', hreg.rest.trans hfound.rest, fun b => hfound.keyOf_mono hreg, .inr ⟨ref, "", heq⟩⟩
  | delta e =>
    obtain ⟨hitem, hdelta⟩ := h.wellFormed
    show ∃ s' : ResponsesToChatStreamState, s'.rest = s.rest ∧ _ ∧
      (toolArgumentsDelta e s = _ ∨ ∃ ref d, toolArgumentsDelta e s = _)
    rw [toolArgumentsDelta, if_neg hdelta]
    cases s.findToolForEvent e with
    | some ref =>
      refine ⟨s.modifyTool ref (.take e.delta), rfl, fun b hb => ?_, .inr ⟨ref, e.delta, rfl⟩⟩
      cases b <;> exact hb
    | none =>
      obtain ⟨_, _, _, hkeyOf, _, _, hrest⟩ := bufferDelta_spec s hitem h.carries
      exact ⟨bufferDelta e s, hrest, fun b hb => by rw [hkeyOf]; exact hb, .inl rfl⟩
  | argumentsDone e =>
    show ∃ s' : ResponsesToChatStreamState, s'.rest = s.rest ∧ _ ∧
      (flushPendingTool e s = _ ∨ ∃ ref d, flushPendingTool e s = _)
    rw [flushPendingTool]
    cases s.findToolForEvent e with
    | some ref => exact ⟨s, rfl, fun _ hb => hb, .inr ⟨ref, "", rfl⟩⟩
    | none =>
      obtain ⟨key, s₁, s', ref, _, hens, hfound, hreg⟩ :=
        ensureFallbackToolForEvent_spec hs h.wellFormed h.carries
      rw [hens]
      exact ⟨s', hreg.rest.trans hfound.rest, fun b => hfound.keyOf_mono hreg, .inr ⟨ref, "", rfl⟩⟩

omit [DecidableEq T] in
/-- A tool event leaves everything but the tools as it is, and sends no text and no reasoning. -/
theorem Names.frame {event : ToolEvent} (h : Names N event τ) (hs : s.Tidy) (a : Assembly) :
    (event.chunks s).1.rest = s.rest ∧
      received event.chunks s a = { a with calls := (received event.chunks s a).calls } := by
  obtain ⟨s', hrest, _, heq | ⟨ref, explicitDelta, heq⟩⟩ := h.sends hs
  · rw [received, heq]
    exact ⟨hrest, rfl⟩
  · have hreceived : received event.chunks s a = received (toolDelta ref explicitDelta) s' a := by
      rw [received, heq, received]
    rw [heq, hreceived]
    exact ⟨(toolDelta_frame).2.2.2.trans hrest, received_toolDelta _⟩

include h in
/-- **One step.**  An event that can be traced to its tool moves the track of the tool and no other. -/
theorem Demux.step {event : ToolEvent} (hnames : Names N event τ) (hlinked : Linked N s event τ) :
    Demux N (event.chunks s).1 (received event.chunks s a).calls (ownersAfter owners τ event)
      (update tracks τ ((tracks τ).step event)) := by
  cases event with
  | item event =>
    obtain ⟨item, hitem⟩ := Option.isSome_iff_exists.mp hnames.wellFormed
    have hstep : (tracks τ).step (.item event) = (tracks τ).addItem event item := by
      rw [Track.step, hitem]
    rw [hstep]
    exact h.item hitem hnames hlinked
  | delta event => exact h.delta hnames hlinked
  | argumentsDone event => exact h.argumentsDone hnames hlinked

/-! ## Consequences -/

omit [DecidableEq T] in
/-- What is registered stays registered. -/
theorem Names.keyOf_mono {event : ToolEvent} (h : Names N event τ) (hs : s.Tidy) {b : ToolKey}
    (hb : (s.keyOf b).isSome) : ((event.chunks s).1.keyOf b).isSome := by
  obtain ⟨s', _, hkept, heq | ⟨ref, explicitDelta, heq⟩⟩ := h.sends hs
  · rw [heq]
    exact hkept b hb
  · rw [heq, toolDelta_frame.1]
    exact hkept b hb

omit [DecidableEq T] in
/-- An item registers the identifiers it carries. -/
theorem Names.keyOf_item {e : ResponsesStreamResponse} (h : Names N (.item e) τ) (hs : s.Tidy)
    {b : ToolKey} (hb : b ∈ carried e) : (((ToolEvent.item e).chunks s).1.keyOf b).isSome := by
  obtain ⟨item, hitem⟩ := Option.isSome_iff_exists.mp h.wellFormed
  obtain ⟨key, s₁, s', ref, _, heq, hfound, hreg⟩ := toolItem_spec hs hitem h.carries
  show ((toolItem e s).1.keyOf b).isSome
  rw [heq, toolDelta_frame.1, hreg.keyOf, if_pos hb]
  rfl

omit [DecidableEq T] in
/-- When nothing waits for a tool, nothing waits. -/
theorem Demux.pendingAt_eq (h : Demux N s calls owners tracks)
    (hquiet : ∀ τ, (tracks τ).waiting = "") (b : ToolKey) : s.pendingAt b = "" := by
  by_contra hne
  obtain ⟨τ, hτ⟩ := h.buffers.named b hne
  obtain ⟨b', _, hat, hothers⟩ := h.buffers.waits b τ hτ
  by_cases heq : b = b'
  · exact hne ((heq ▸ hat).trans (hquiet τ))
  · exact hne (hothers b hτ heq)

omit [DecidableEq T] in
/-- More identifiers may be named while nothing waits. -/
theorem Demux.extend {N' : ToolKey → Option T}
    (h : Demux N s calls owners tracks) (hN : ∀ b τ, N b = some τ → N' b = some τ)
    (hquiet : ∀ τ, (tracks τ).waiting = "") : Demux N' s calls owners tracks := by
  refine ⟨⟨h.tables.known, fun key ref href => ?_, fun b key hb => ?_, h.tables.output,
    fun τ hτ => ?_⟩, ⟨h.buffers.tidy, fun b₀ τ hb₀ => ?_, fun b hb => ?_⟩, h.contents⟩
  · obtain ⟨hsome, τ, hτ, hown⟩ := h.tables.refers key ref href
    exact ⟨hsome, τ, hN key τ hτ, hown⟩
  · have hsome : (s.keyOf b).isSome := by rw [hb]; rfl
    obtain ⟨ref, href⟩ := h.tables.known b hsome
    obtain ⟨τ, hτ, _⟩ := h.tables.owner_of_resolve href
    rw [hN b τ hτ, hN key τ ((h.tables.named b key hb).trans hτ)]
  · obtain ⟨b, hb, hsome⟩ := h.tables.owned τ hτ
    exact ⟨b, hN b τ hb, hsome⟩
  · exact ⟨b₀, hb₀, (h.pendingAt_eq hquiet b₀).trans (hquiet τ).symm,
      fun b' _ _ => h.pendingAt_eq hquiet b'⟩
  · exact absurd (h.pendingAt_eq hquiet b) hb

omit [DecidableEq T] in
theorem Demux.congr (h : Demux N s calls owners tracks)
    (hs' : toolState s' = toolState s) : Demux N s' calls owners tracks := by
  obtain ⟨hkeyOf, hrefOf, hwaiting, htools⟩ := tables_of_toolState hs'
  refine ⟨h.tables.congr hkeyOf hrefOf, h.buffers.congr hwaiting, ?_⟩
  rw [htools]
  exact h.contents

/-- The client keeps the id and the name that it has of a tool. -/
theorem Track.step_keeps {t : Track}
    (ht : t.tool = some (tool, c)) (hid : c.id ≠ "") (hname : c.name ≠ "") (event : ToolEvent) :
    ∃ tool' c', (t.step event).tool = some (tool', c') ∧ c'.id = c.id ∧ c'.name = c.name := by
  have hadd : ∀ fragment : ToolCallResponse, (c.add fragment).id = c.id ∧ (c.add fragment).name = c.name :=
    fun fragment => ⟨if_neg hid, if_neg hname⟩
  obtain ⟨waiting, known⟩ := t
  cases ht
  cases event with
  | item e =>
    rw [step]
    cases e.item with
    | none => exact ⟨tool, c, rfl, rfl, rfl⟩
    | some item => exact ⟨_, _, rfl, hadd _⟩
  | delta e | argumentsDone e => exact ⟨_, _, rfl, hadd _⟩

end OneApi.Responses

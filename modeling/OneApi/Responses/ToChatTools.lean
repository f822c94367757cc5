import OneApi.Chat.Assembly
import OneApi.Responses.ToChatStream
import Mathlib.Data.List.Dedup

/-!
# The tools of the Responses to chat converter

The tables of the converter, seen through the identifiers of tools: `keyOf` is the key an identifier is
known under, `refOf` the tool of a key, `waiting` the deltas that wait under an identifier.  What each
function does to tools is said here once, in these terms; nothing after this module opens the tables.
-/

namespace OneApi.Responses

open Claude.Stream (Chunk Delta ToolCallResponse)
open Chat Lib.Emit Tokens OneApi.Lib.Go Assembly ResponsesStreamTool

/-- The identifiers an event carries: its output index, its item id and the call id of its item. -/
def carried (event : ResponsesStreamResponse) : List ToolKey :=
  (event.outputIndex.map ToolKey.output).toList ++
    ((responseStreamEventItemID event).map ToolKey.item).toList ++
    ((event.item.bind fun item => nonBlank item.callId).map ToolKey.call).toList

/-- The tool with more arguments. -/
def ResponsesStreamTool.take (pending : String) (tool : ResponsesStreamTool) : ResponsesStreamTool :=
  { tool with arguments := tool.arguments ++ pending }

/-- The tool with what an item says of it. -/
def ResponsesStreamTool.describe (event : ResponsesStreamResponse) (item : ResponsesOutput)
    (tool : ResponsesStreamTool) : ResponsesStreamTool :=
  { tool with
    itemID := (responseStreamEventItemID event).getD tool.itemID
    callID := (nonBlank item.callId).getD (if tool.callID = "" then trimSpace item.id else tool.callID)
    name := (nonBlank item.name).getD tool.name }

namespace ResponsesToChatStreamState

variable (s : ResponsesToChatStreamState)

/-- The key that an identifier is known under. -/
def keyOf : ToolKey → Option ToolKey
  | .output index => s.outputIndexToKey.lookup index
  | .item id => s.itemIDToKey.lookup id
  | .call id => s.callIDToKey.lookup id

/-- The tool of a key. -/
def refOf (key : ToolKey) : Option ℕ := s.toolByKey.lookup key

/-- The tool an identifier leads to. -/
def resolve (b : ToolKey) : Option ℕ := (s.keyOf b).bind s.refOf

/-- The deltas that wait under an identifier. -/
def waiting : ToolKey → Option String
  | .output index => s.pendingArgsByOutputIndex.lookup index
  | .item id => s.pendingArgsByItemID.lookup id
  | .call _ => none

def pendingAt (b : ToolKey) : String := (s.waiting b).getD ""

/-- What waits under any of some identifiers. -/
def pendings (ids : List ToolKey) : String := String.join (ids.map s.pendingAt)

/-- Only deltas that are not empty wait. -/
def Tidy : Prop := ∀ b, s.waiting b ≠ some ""

/-- The state without the tools, their tables and the marks that a tool call sets. -/
def rest : ResponsesToChatStreamState :=
  { s with
    tools := [], toolByKey := ∅, outputIndexToKey := ∅, itemIDToKey := ∅, callIDToKey := ∅
    pendingArgsByOutputIndex := ∅, pendingArgsByItemID := ∅, sentStart := false, sawToolCall := false }

theorem toolByItemID_eq (id : Option String) : s.toolByItemID id = (id.map ToolKey.item).bind s.resolve := by
  cases id <;> rfl

theorem toolByCallID_eq (id : Option String) : s.toolByCallID id = (id.map ToolKey.call).bind s.resolve := by
  cases id <;> rfl

theorem toolByOutputIndex_eq (index : Option ℤ) :
    s.toolByOutputIndex index = (index.map ToolKey.output).bind s.resolve := by
  cases index <;> rfl

variable {s} {b : ToolKey}

theorem Tidy.pendingAt_ne (h : s.Tidy) {p : String} (hb : s.waiting b = some p) : s.pendingAt b ≠ "" := by
  intro hp
  rw [pendingAt, hb, Option.getD_some] at hp
  rw [hp] at hb
  exact h b hb

theorem Tidy.waiting_eq_none (h : s.Tidy) (hb : s.pendingAt b = "") : s.waiting b = none := by
  cases hw : s.waiting b with
  | none => rfl
  | some p => exact absurd hb (h.pendingAt_ne hw)

/-- Identifiers get a key, what waited under them is taken, and one tool is changed. -/
structure Registers (ids : List ToolKey) (key : ToolKey) (ref : ℕ)
    (change : ResponsesStreamTool → ResponsesStreamTool) (s s' : ResponsesToChatStreamState) :
    Prop where
  keyOf : ∀ b, s'.keyOf b = if b ∈ ids then some key else s.keyOf b
  refOf : ∀ b, s'.refOf b = s.refOf b
  waiting : ∀ b, s'.waiting b = if b ∈ ids then none else s.waiting b
  tools : s'.tools = s.tools.modify ref change
  rest : s'.rest = s.rest

namespace Registers

variable (s) (key : ToolKey) (ref : ℕ)

theorem nothing : Registers [] key ref (fun tool => tool) s s where
  keyOf _ := (if_neg List.not_mem_nil).symm
  refOf _ := rfl
  waiting _ := (if_neg List.not_mem_nil).symm
  tools := (List.modify_id ref s.tools).symm
  rest := rfl

theorem modifyTool (change : ResponsesStreamTool → ResponsesStreamTool) :
    Registers [] key ref change s (s.modifyTool ref change) where
  keyOf b := by cases b <;> exact (if_neg List.not_mem_nil).symm
  refOf _ := rfl
  waiting b := by cases b <;> exact (if_neg List.not_mem_nil).symm
  tools := rfl
  rest := rfl

variable {s} {key} {ref} {ids ids' : List ToolKey} {change change' : ResponsesStreamTool → ResponsesStreamTool}
  {s' s'' : ResponsesToChatStreamState} (h : Registers ids key ref change s s')

include h in
theorem tidy (hs : s.Tidy) : s'.Tidy := by
  intro b
  rw [h.waiting b]
  split
  · exact Option.some_ne_none "" ∘ Eq.symm
  · exact hs b

include h in
theorem trans (h' : Registers ids' key ref change' s' s'') :
    Registers (ids ++ ids') key ref (change' ∘ change) s s'' where
  keyOf b := by
    rw [h'.keyOf, h.keyOf]
    by_cases hb : b ∈ ids <;> by_cases hb' : b ∈ ids' <;> simp [hb, hb']
  refOf b := by rw [h'.refOf, h.refOf]
  waiting b := by
    rw [h'.waiting, h.waiting]
    by_cases hb : b ∈ ids <;> by_cases hb' : b ∈ ids' <;> simp [hb, hb']
  tools := by rw [h'.tools, h.tools, List.modify_modify_eq]
  rest := by rw [h'.rest, h.rest]

include h in
/-- A registration is looked at with its identifiers and its change given in another form. -/
theorem cast (hids : ∀ b, b ∈ ids ↔ b ∈ ids') (hchange : change = change') : Registers ids' key ref change' s s' where
  keyOf b := by rw [h.keyOf, ite_congr (propext (hids b)) (fun _ => rfl) fun _ => rfl]
  refOf := h.refOf
  waiting b := by rw [h.waiting, ite_congr (propext (hids b)) (fun _ => rfl) fun _ => rfl]
  tools := by rw [h.tools, hchange]
  rest := h.rest

end Registers

theorem take_empty : take "" = fun tool => tool := by
  funext tool
  rw [take, String.append_empty]

theorem modify_take_empty (tools : List ResponsesStreamTool) (ref : ℕ) : tools.modify ref (.take "") = tools := by
  rw [take_empty]
  exact List.modify_id ref tools

section Lookup

variable {α β : Type} [DecidableEq α] (m : AList fun _ : α => β) (a : α) (v : β)

theorem lookup_insert_ite (a' : α) : (m.insert a v).lookup a' = if a' = a then some v else m.lookup a' := by
  split
  next h =>
    rw [h]
    exact AList.lookup_insert m
  next h => exact AList.lookup_insert_ne h

theorem lookup_erase_ite (a' : α) : (m.erase a).lookup a' = if a' = a then none else m.lookup a' := by
  split
  next h =>
    rw [h]
    exact AList.lookup_erase a m
  next h => exact AList.lookup_erase_ne h

end Lookup

theorem pendings_singleton : s.pendings [b] = s.pendingAt b := by
  rw [pendings, List.map_singleton, String.join_cons, String.join_nil, String.append_empty]

theorem registerOutputIndex_registers (hs : s.Tidy) (index : Option ℤ) (key : ToolKey) (ref : ℕ) :
    Registers (index.map ToolKey.output).toList key ref
      (.take (s.pendings (index.map ToolKey.output).toList)) s
      (s.registerOutputIndex index key ref) := by
  cases index with
  | none => exact (Registers.nothing s key ref).cast (fun _ => Iff.rfl) take_empty.symm
  | some k =>
    show Registers [.output k] key ref (.take (s.pendings [.output k])) s _
    rw [pendings_singleton]
    have hkey : ∀ b, { s with outputIndexToKey := s.outputIndexToKey.insert k key }.keyOf b
        = if b ∈ [ToolKey.output k] then some key else s.keyOf b := by
      intro b
      cases b <;> simp [keyOf, lookup_insert_ite]
    by_cases hp : s.pendingAt (.output k) = ""
    · have hw : s.waiting (.output k) = none := hs.waiting_eq_none hp
      have heq : s.registerOutputIndex (some k) key ref
          = { s with outputIndexToKey := s.outputIndexToKey.insert k key } :=
        if_neg (not_not.mpr hp)
      rw [heq, hp, take_empty]
      refine ⟨hkey, fun _ => rfl, fun b => ?_, (List.modify_id ref s.tools).symm, rfl⟩
      split
      next hb =>
        rw [List.mem_singleton.mp hb]
        exact hw
      next => rfl
    · have heq : s.registerOutputIndex (some k) key ref = { s with
              outputIndexToKey := s.outputIndexToKey.insert k key
              tools := s.tools.modify ref (.take (s.pendingAt (.output k)))
              pendingArgsByOutputIndex := s.pendingArgsByOutputIndex.erase k } := if_pos hp
      rw [heq]
      refine ⟨hkey, fun _ => rfl, fun b => ?_, rfl, rfl⟩
      cases b <;> simp [waiting, lookup_erase_ite]

theorem registerItemID_registers (hs : s.Tidy) (id : Option String) (key : ToolKey) (ref : ℕ) :
    Registers (id.map ToolKey.item).toList key ref
      (fun tool => { tool.take (s.pendings (id.map ToolKey.item).toList) with
        itemID := id.getD tool.itemID }) s
      (s.registerItemID id key ref) := by
  cases id with
  | none =>
    refine (Registers.nothing s key ref).cast (fun _ => Iff.rfl) ?_
    funext tool
    exact (congrFun take_empty tool).symm
  | some i =>
    show Registers [.item i] key ref (fun tool => { tool.take (s.pendings [.item i]) with
      itemID := i }) s _
    rw [pendings_singleton]
    have hkey : ∀ b, { s with itemIDToKey := s.itemIDToKey.insert i key }.keyOf b
        = if b ∈ [ToolKey.item i] then some key else s.keyOf b := by
      intro b
      cases b <;> simp [keyOf, lookup_insert_ite]
    by_cases hp : s.pendingAt (.item i) = ""
    · have hw : s.waiting (.item i) = none := hs.waiting_eq_none hp
      have heq : s.registerItemID (some i) key ref = { s with
              itemIDToKey := s.itemIDToKey.insert i key
              tools := s.tools.modify ref fun tool => { tool with itemID := i } } :=
        if_neg (not_not.mpr hp)
      rw [heq, hp, take_empty]
      refine ⟨hkey, fun _ => rfl, fun b => ?_, rfl, rfl⟩
      split
      next hb =>
        rw [List.mem_singleton.mp hb]
        exact hw
      next => rfl
    · have heq : s.registerItemID (some i) key ref = { s with
              itemIDToKey := s.itemIDToKey.insert i key
              tools := (s.tools.modify ref fun tool => { tool with itemID := i }).modify ref
                (.take (s.pendingAt (.item i)))
              pendingArgsByItemID := s.pendingArgsByItemID.erase i } := if_pos hp
      rw [heq]
      refine ⟨hkey, fun _ => rfl, fun b => ?_, List.modify_modify_eq _ _ _ _, rfl⟩
      cases b <;> simp [waiting, lookup_erase_ite]

/-- The call id and the name that a tool has after an item. -/
theorem registerItem_registers (s : ResponsesToChatStreamState) (item : ResponsesOutput) (key : ToolKey) (ref : ℕ) :
    Registers ((nonBlank item.callId).map ToolKey.call).toList key ref (fun tool =>
        { tool with
          callID := (nonBlank item.callId).getD (if tool.callID = "" then trimSpace item.id else tool.callID)
          name := (nonBlank item.name).getD tool.name }) s
      (s.registerItem item key ref) := by
  rw [registerItem]
  generalize nonBlank item.callId = callID
  generalize nonBlank item.name = name
  generalize trimSpace item.id = itemID
  cases callID with
  | none =>
    have hcall := Registers.modifyTool s key ref fun tool =>
      { tool with callID := if tool.callID = "" then itemID else tool.callID }
    cases name with
    | none => exact hcall
    | some n => exact (hcall.trans (.modifyTool _ key ref _)).cast (fun b => by rw [List.append_nil]; rfl) rfl
  | some c =>
    have hcall : Registers [ToolKey.call c] key ref (fun tool => { tool with callID := c }) s
        { s.modifyTool ref fun tool => { tool with callID := c } with
          callIDToKey := s.callIDToKey.insert c key } := by
      refine ⟨fun b => ?_, fun _ => rfl, fun b => ?_, rfl, rfl⟩
      · cases b <;> simp [keyOf, lookup_insert_ite, modifyTool]
      · cases b <;> simp [waiting, modifyTool]
    cases name with
    | none => exact hcall
    | some n => exact (hcall.trans (.modifyTool _ key ref _)).cast (fun b => by rw [List.append_nil]; rfl) rfl

/-! ## Finding the tool of an event -/

variable {event : ResponsesStreamResponse}

/-- The key of an event is one of the identifiers it carries; an event without a key carries none. -/
theorem keyForEvent_cases :
    (∃ key ∈ carried event, keyForEvent event = some key) ∨ carried event = [] ∧ keyForEvent event = none := by
  rw [carried, responseStreamEventItemID, keyForEvent]
  generalize event.outputIndex = index
  generalize nonBlank event.itemID = eventID
  cases index with
  | some k =>
    exact .inl ⟨_, List.mem_append_left _ (List.mem_append_left _ (List.mem_singleton.mpr rfl)), rfl⟩
  | none =>
    cases event.item with
    | none => cases eventID <;> simp
    | some item =>
      rw [Option.bind_some, Option.bind_some, Option.bind_some]
      generalize nonBlank item.id = itemID
      generalize nonBlank item.callId = callID
      cases itemID <;> cases callID <;> cases eventID <;> simp

theorem mem_carried_of_keyForEvent {key : ToolKey} (h : keyForEvent event = some key) : key ∈ carried event := by
  obtain ⟨key', hmem, hkey⟩ | ⟨-, hnone⟩ := keyForEvent_cases
  · rw [h] at hkey
    cases hkey
    exact hmem
  · rw [h] at hnone
    cases hnone

/-- An event that carries an identifier has a key. -/
theorem keyForEvent_isSome (h : carried event ≠ []) : ∃ key, keyForEvent event = some key := by
  obtain ⟨key, -, hkey⟩ | ⟨hnil, -⟩ := keyForEvent_cases
  · exact ⟨key, hkey⟩
  · exact absurd hnil h

/-- The output index is the key of an event that has one. -/
theorem keyForEvent_of_output {k : ℤ}
    (h : ToolKey.output k ∈ carried event) : keyForEvent event = some (.output k) := by
  have hindex : event.outputIndex = some k := by
    rw [carried] at h
    generalize event.item.bind (fun item => nonBlank item.callId) = callID at h
    simpa using h
  rw [keyForEvent, hindex]
  rfl

/-- The tool of a key: known under the key or under an identifier that is looked at, or a new one. -/
structure Found (looked : List ToolKey) (new : ResponsesStreamTool) (s s' : ResponsesToChatStreamState)
    (ref : ℕ) : Prop where
  keyOf : ∀ b, s'.keyOf b = s.keyOf b
  refOf : ∀ b, s'.refOf b = if b = new.key then some ref else s.refOf b
  waiting : ∀ b, s'.waiting b = s.waiting b
  rest : s'.rest = s.rest
  tool : s'.tools = s.tools ∧ (s.refOf new.key = some ref ∨ ∃ b ∈ looked, s.resolve b = some ref) ∨
    s'.tools = s.tools ++ [new] ∧ ref = s.tools.length ∧ s.refOf new.key = none ∧ ∀ b ∈ looked, s.resolve b = none

variable {looked : List ToolKey} {new : ResponsesStreamTool} {s' : ResponsesToChatStreamState} {ref : ℕ}

theorem Found.tidy (h : Found looked new s s' ref) (hs : s.Tidy) : s'.Tidy := by
  intro b
  rw [h.waiting b]
  exact hs b

theorem Found.pendings (h : Found looked new s s' ref) (ids : List ToolKey) : s'.pendings ids = s.pendings ids := by
  have hat : s'.pendingAt = s.pendingAt := by
    funext b
    rw [pendingAt, h.waiting b, pendingAt]
  rw [ResponsesToChatStreamState.pendings, hat, ResponsesToChatStreamState.pendings]

/-- What is registered stays registered. -/
theorem Found.keyOf_mono {ids : List ToolKey} {key b : ToolKey} {s₁ : ResponsesToChatStreamState}
    {change : ResponsesStreamTool → ResponsesStreamTool} (h : Found looked new s s₁ ref)
    (hreg : Registers ids key ref change s₁ s') (hb : (s.keyOf b).isSome) : (s'.keyOf b).isSome := by
  rw [hreg.keyOf, h.keyOf]
  split
  · rfl
  · exact hb

theorem found_of_refOf (h : s.refOf new.key = some ref) : Found looked new s s ref := by
  refine ⟨fun _ => rfl, fun b => ?_, fun _ => rfl, rfl, .inl ⟨rfl, .inl h⟩⟩
  split
  next hb => rw [hb, h]
  next => rfl

theorem found_addTool (h : s.refOf new.key = none) (hlooked : ∀ b ∈ looked, s.resolve b = none) :
    Found looked new s (s.addTool new) s.tools.length :=
  ⟨fun b => by cases b <;> rfl, fun b => lookup_insert_ite _ _ _ b, fun b => by cases b <;> rfl, rfl,
    .inr ⟨rfl, rfl, h, hlooked⟩⟩

theorem toolUnder_found (s : ResponsesToChatStreamState) (new : ResponsesStreamTool) :
    Found [] new s (s.toolUnder new).1 (s.toolUnder new).2 := by
  rw [toolUnder]
  cases hlook : s.toolByKey.lookup new.key with
  | some ref => exact found_of_refOf hlook
  | none => exact found_addTool hlook fun b hb => absurd hb List.not_mem_nil

/-- The identifiers of an item that are looked up when its key is not known. -/
def itemIdentifiers (event : ResponsesStreamResponse) (item : ResponsesOutput) : List ToolKey :=
  ((responseStreamEventItemID event).map ToolKey.item).toList ++ ((nonBlank item.callId).map ToolKey.call).toList

variable {item : ResponsesOutput}

theorem mem_itemIdentifiers (hitem : event.item = some item) :
    b ∈ carried event ↔ b ∈ (event.outputIndex.map ToolKey.output).toList ∨ b ∈ itemIdentifiers event item := by
  rw [carried, hitem, Option.bind_some, List.append_assoc]
  exact List.mem_append

theorem toolForKey_found (s : ResponsesToChatStreamState) (event : ResponsesStreamResponse)
    (item : ResponsesOutput) (key : ToolKey) :
    Found (itemIdentifiers event item) { key := key } s (s.toolForKey event item key).1
      (s.toolForKey event item key).2 := by
  rw [toolForKey, itemIdentifiers, toolByItemID_eq, toolByCallID_eq]
  generalize (responseStreamEventItemID event).map ToolKey.item = itemID
  generalize (nonBlank item.callId).map ToolKey.call = callID
  cases hkey : s.toolByKey.lookup key with
  | some ref => exact found_of_refOf hkey
  | none =>
    cases hids : (itemID.bind s.resolve).or (callID.bind s.resolve) with
    | some ref =>
      refine ⟨fun b => by cases b <;> rfl, fun b => lookup_insert_ite _ _ _ b,
        fun b => by cases b <;> rfl, rfl, .inl ⟨rfl, .inr ?_⟩⟩
      rcases Option.or_eq_some_iff.mp hids with h | ⟨_, h⟩
      · obtain ⟨b, hb, hres⟩ := Option.bind_eq_some_iff.mp h
        exact ⟨b, List.mem_append_left _ (Option.mem_toList.mpr hb), hres⟩
      · obtain ⟨b, hb, hres⟩ := Option.bind_eq_some_iff.mp h
        exact ⟨b, List.mem_append_right _ (Option.mem_toList.mpr hb), hres⟩
    | none =>
      refine found_addTool hkey fun b hb => ?_
      obtain ⟨h₁, h₂⟩ := Option.or_eq_none_iff.mp hids
      rcases List.mem_append.mp hb with hb | hb
      · exact Option.bind_eq_none_iff.mp h₁ b (Option.mem_toList.mp hb)
      · exact Option.bind_eq_none_iff.mp h₂ b (Option.mem_toList.mp hb)

theorem pendings_congr {ids : List ToolKey} (h : ∀ b ∈ ids, s'.waiting b = s.waiting b) :
    s'.pendings ids = s.pendings ids := by
  have hmap : ids.map s'.pendingAt = ids.map s.pendingAt := by
    refine List.map_congr_left fun b hb => ?_
    rw [pendingAt, h b hb, pendingAt]
  rw [pendings, hmap, pendings]

variable (s)

theorem pendings_append (ids ids' : List ToolKey) :
    s.pendings (ids ++ ids') = s.pendings ids ++ s.pendings ids' := by
  rw [pendings, List.map_append, String.join_append, pendings, pendings]

/-- No deltas wait under a call id. -/
theorem pendings_call (id : Option String) : s.pendings (id.map ToolKey.call).toList = "" := by
  cases id with
  | none => rfl
  | some c => exact pendings_singleton

theorem pendings_carried (event : ResponsesStreamResponse) :
    s.pendings (carried event) = s.pendings ((event.outputIndex.map ToolKey.output).toList ++
      ((responseStreamEventItemID event).map ToolKey.item).toList) := by
  rw [carried, pendings_append, pendings_call, String.append_empty]

variable {s}

/-- The item id that is registered after the output index takes what waited before. -/
theorem registerIDs_registers (hs : s.Tidy) (event : ResponsesStreamResponse) (key : ToolKey) (ref : ℕ) :
    Registers ((event.outputIndex.map ToolKey.output).toList ++
        ((responseStreamEventItemID event).map ToolKey.item).toList) key ref
      (fun tool => { tool.take (s.pendings ((event.outputIndex.map ToolKey.output).toList ++
          ((responseStreamEventItemID event).map ToolKey.item).toList)) with
        itemID := (responseStreamEventItemID event).getD tool.itemID }) s
      ((s.registerOutputIndex event.outputIndex key ref).registerItemID (responseStreamEventItemID event) key ref) := by
  generalize responseStreamEventItemID event = itemID
  have hout := registerOutputIndex_registers hs event.outputIndex key ref
  have hid := registerItemID_registers (hout.tidy hs) itemID key ref
  have hsame : (s.registerOutputIndex event.outputIndex key ref).pendings (itemID.map .item).toList
      = s.pendings (itemID.map .item).toList := by
    refine pendings_congr fun b hb => ?_
    rw [hout.waiting b, if_neg]
    intro hmem
    cases itemID <;> cases hindex : event.outputIndex <;> simp_all
  rw [hsame] at hid
  refine (hout.trans hid).cast (fun _ => Iff.rfl) ?_
  funext tool
  simp only [Function.comp_apply, take, pendings_append, String.append_assoc]

/-- What an item does to its tool. -/
theorem ensureToolForEvent_spec (hs : s.Tidy) (hitem : event.item = some item) (hids : carried event ≠ []) :
    ∃ key s₁ s' ref, keyForEvent event = some key ∧ s.ensureToolForEvent event = some (s', ref) ∧
      Found (itemIdentifiers event item) { key := key } s s₁ ref ∧
      Registers (carried event) key ref
        (fun tool => (tool.take (s.pendings (carried event))).describe event item) s₁ s' := by
  obtain ⟨key, hkey⟩ := keyForEvent_isSome hids
  have hfound := toolForKey_found s event item key
  have heq : s.ensureToolForEvent event = some
      ((((s.toolForKey event item key).1.registerOutputIndex event.outputIndex key
          (s.toolForKey event item key).2).registerItemID (responseStreamEventItemID event) key
          (s.toolForKey event item key).2).registerItem item key (s.toolForKey event item key).2,
        (s.toolForKey event item key).2) := by
    rw [ensureToolForEvent, hitem, Option.bind_some, hkey, Option.some_or, Option.map_some]
  refine ⟨key, (s.toolForKey event item key).1, _, (s.toolForKey event item key).2, hkey, heq, hfound, ?_⟩
  have hreg := (registerIDs_registers (hfound.tidy hs) event key _).trans
    (registerItem_registers _ item key (s.toolForKey event item key).2)
  refine hreg.cast (fun b => ?_) ?_
  · rw [carried, hitem, Option.bind_some]
  · rw [hfound.pendings, ← pendings_carried]
    rfl

variable (hitem : event.item = none)

include hitem in
theorem carried_of_no_item : carried event = (event.outputIndex.map ToolKey.output).toList ++
      ((nonBlank event.itemID).map ToolKey.item).toList := by
  rw [carried, responseStreamEventItemID, hitem]
  exact List.append_nil _

variable (s)

include hitem in
theorem findToolForEvent_eq : s.findToolForEvent event =
      if ((event.outputIndex.map ToolKey.output).bind s.keyOf).isSome then
        (event.outputIndex.map ToolKey.output).bind s.resolve
      else if (((nonBlank event.itemID).map ToolKey.item).bind s.keyOf).isSome then
        ((nonBlank event.itemID).map ToolKey.item).bind s.resolve
      else none := by
  rw [findToolForEvent, hitem, toolByOutputIndex_eq, toolByItemID_eq]
  cases event.outputIndex <;> cases nonBlank event.itemID <;> rfl

include hitem in
/-- An event without item is for the tool of the first of its identifiers that is known. -/
theorem findToolForEvent_spec :
    (∃ b ∈ carried event, (s.keyOf b).isSome ∧ s.findToolForEvent event = s.resolve b) ∨
      (∀ b ∈ carried event, s.keyOf b = none) ∧ s.findToolForEvent event = none := by
  rw [findToolForEvent_eq s hitem, carried_of_no_item hitem]
  generalize event.outputIndex.map ToolKey.output = index
  generalize (nonBlank event.itemID).map ToolKey.item = itemID
  cases hout : index.bind s.keyOf with
  | some key =>
    obtain ⟨b, hb, hkey⟩ := Option.bind_eq_some_iff.mp hout
    refine .inl ⟨b, List.mem_append_left _ (Option.mem_toList.mpr hb), ?_, ?_⟩
    · rw [hkey]
      rfl
    · rw [Option.isSome_some, if_pos rfl, hb, Option.bind_some]
  | none =>
    cases hid : itemID.bind s.keyOf with
    | some key =>
      obtain ⟨b, hb, hkey⟩ := Option.bind_eq_some_iff.mp hid
      refine .inl ⟨b, List.mem_append_right _ (Option.mem_toList.mpr hb), ?_, ?_⟩
      · rw [hkey]
        rfl
      · rw [Option.isSome_none, if_neg Bool.false_ne_true, Option.isSome_some, if_pos rfl, hb, Option.bind_some]
    | none =>
      refine .inr ⟨fun b hb => ?_, rfl⟩
      rcases List.mem_append.mp hb with hb | hb
      · exact Option.bind_eq_none_iff.mp hout b (Option.mem_toList.mp hb)
      · exact Option.bind_eq_none_iff.mp hid b (Option.mem_toList.mp hb)

variable {s} in
/-- A tool that no item was seen of. -/
theorem ensureFallbackToolForEvent_spec (hs : s.Tidy) (hitem : event.item = none) (hids : carried event ≠ []) :
    ∃ key s₁ s' ref, keyForEvent event = some key ∧
      s.ensureFallbackToolForEvent event = some (s', ref) ∧
      Found [] { key := key, callID := fallbackCallID event } s s₁ ref ∧
      Registers (carried event) key ref (fun tool => { tool.take (s.pendings (carried event)) with
          itemID := (nonBlank event.itemID).getD tool.itemID }) s₁ s' := by
  obtain ⟨key, hmem⟩ := keyForEvent_isSome hids
  have hkey : (event.outputIndex.map ToolKey.output).or ((nonBlank event.itemID).map ToolKey.item) = some key := by
    rw [keyForEvent, hitem] at hmem
    exact hmem
  have hfound := toolUnder_found s { key := key, callID := fallbackCallID event }
  obtain ⟨s₁, ref, hunder⟩ : ∃ s₁ ref,
      s.toolUnder { key := key, callID := fallbackCallID event } = (s₁, ref) := ⟨_, _, rfl⟩
  rw [hunder] at hfound
  have heq : s.ensureFallbackToolForEvent event = some
      ((s₁.registerOutputIndex event.outputIndex key ref).registerItemID
        (responseStreamEventItemID event) key ref, ref) := by
    rw [ensureFallbackToolForEvent, hkey, Option.map_some, hunder]
  refine ⟨key, _, _, _, hmem, heq, hfound, ?_⟩
  have hid : responseStreamEventItemID event = nonBlank event.itemID := by
    rw [responseStreamEventItemID, hitem]
    rfl
  refine (registerIDs_registers (hfound.tidy hs) event key _).cast (fun b => ?_) ?_
  · rw [carried_of_no_item hitem, hid]
  · rw [hfound.pendings, ← pendings_carried, hid]

theorem carried_nodup : (carried event).Nodup := by
  rw [carried]
  generalize event.outputIndex = index
  generalize responseStreamEventItemID event = itemID
  generalize event.item.bind (fun item => nonBlank item.callId) = callID
  cases index <;> cases itemID <;> cases callID <;> simp

include hitem in
/-- A delta of a tool that is not known waits under the first identifier it carries. -/
theorem bufferDelta_spec (hids : carried event ≠ []) :
    ∃ b, (carried event).head? = some b ∧
      (∀ b', (bufferDelta event s).waiting b' =
        if b' = b then some (s.pendingAt b ++ event.delta) else s.waiting b') ∧
      (bufferDelta event s).keyOf = s.keyOf ∧ (bufferDelta event s).refOf = s.refOf ∧
      (bufferDelta event s).tools = s.tools ∧ (bufferDelta event s).rest = s.rest := by
  rw [carried_of_no_item hitem] at hids ⊢
  rw [bufferDelta]
  generalize event.outputIndex = index at hids ⊢
  generalize nonBlank event.itemID = itemID at hids ⊢
  cases index with
  | some k =>
    refine ⟨.output k, rfl, fun b' => ?_, ?_, rfl, rfl, rfl⟩
    · cases b' <;> simp [waiting, pendingAt, lookup_insert_ite]
    · funext b'
      cases b' <;> rfl
  | none =>
    cases itemID with
    | none => exact absurd rfl hids
    | some i =>
      refine ⟨.item i, rfl, fun b' => ?_, ?_, rfl, rfl, rfl⟩
      · cases b' <;> simp [waiting, pendingAt, lookup_insert_ite]
      · funext b'
        cases b' <;> rfl

theorem takePending_spec (key : ToolKey) (s : ResponsesToChatStreamState) :
    (takePending key ref s).keyOf = s.keyOf ∧ (takePending key ref s).refOf = s.refOf ∧
      (∀ b, (takePending key ref s).waiting b = if b = key then none else s.waiting b) ∧
      (takePending key ref s).tools = s.tools.modify ref (.take (s.pendingAt key)) ∧
      (takePending key ref s).rest = s.rest := by
  cases key with
  | output k | item i =>
    refine ⟨?_, rfl, fun b => ?_, rfl, rfl⟩
    · funext b
      cases b <;> rfl
    · cases b <;> simp [takePending, modifyTool, waiting, lookup_erase_ite]
  | call c =>
    refine ⟨rfl, rfl, fun b => ?_, ?_, rfl⟩
    · cases b <;> simp [takePending, waiting]
    · exact (modify_take_empty s.tools ref).symm

variable {s} in
theorem mem_keysToFlush {key : ToolKey} :
    key ∈ keysToFlush s ↔ (s.refOf key).isSome ∨ (s.waiting key).isSome := by
  rw [keysToFlush, List.mem_insertionSort, List.mem_dedup, List.mem_append, List.mem_append,
    List.mem_map, List.mem_map, refOf, AList.lookup_isSome, ← AList.mem_keys, or_assoc]
  refine or_congr_right ?_
  cases key <;> simp [waiting, AList.lookup_isSome, AList.mem_keys]

end ResponsesToChatStreamState

open ResponsesToChatStreamState

/-! ## What the client makes of the chunks -/

/-- What the client has after the chunks of a step. -/
def received (step : ChatStep) (s : ResponsesToChatStreamState) (a : Assembly) : Assembly :=
  (step s).2.foldl addChunk a

theorem received_andThen (f g : ChatStep) (s : ResponsesToChatStreamState) (a : Assembly) :
    received (andThen f g) s a = received g (f s).1 (received f s a) := by
  rw [received, andThen, List.foldl_append]
  rfl

theorem addDelta_content (a : Assembly) (text : String) :
    a.addDelta { content := some text } = { a with text := a.text ++ text } := by
  rw [addDelta]
  simp only [Delta.getContentString, Delta.getReasoningContent, Option.getD_some, String.append_empty, List.foldl_nil]

theorem addDelta_reasoning (a : Assembly) (text : String) :
    a.addDelta { reasoningContent := some text } = { a with reasoning := a.reasoning ++ text } := by
  rw [addDelta]
  simp only [Delta.getContentString, Delta.getReasoningContent, Option.getD_none, String.append_empty, List.foldl_nil]

theorem addDelta_toolCall (a : Assembly) (call : ToolCallResponse) :
    a.addDelta { toolCalls := [call] } = { a with calls := addFragment a.calls call } := by
  rw [addDelta]
  simp only [Delta.getContentString, Delta.getReasoningContent, Option.getD_none, String.append_empty,
    List.foldl_cons, List.foldl_nil]

theorem ensureStart_state (s : ResponsesToChatStreamState) : (ensureStart s).1 = { s with sentStart := true } := by
  rw [ensureStart]
  by_cases h : s.sentStart = true
  · rw [if_pos h, ← h]
  · rw [if_neg h]

/-- The first chunk has no content. -/
theorem received_ensureStart (s : ResponsesToChatStreamState) (a : Assembly) : received ensureStart s a = a := by
  rw [received, ensureStart]
  by_cases h : s.sentStart = true
  · rw [if_pos h]
    rfl
  · rw [if_neg h]
    show a.addDelta { content := some "" } = a
    rw [addDelta_content, String.append_empty]

theorem ToolKey.text_ne (key : ToolKey) : key.text ≠ "" := by
  cases key with
  | output index =>
    have hhead : toString "output:" ≠ "" := by decide
    simp [ToolKey.text, hhead]
  | item id | call id => simp [ToolKey.text]

theorem ResponsesStreamTool.fragment_id_ne (tool : ResponsesStreamTool) (ref : ℕ) (args : String) :
    (tool.fragment ref args).id ≠ "" := by
  rw [fragment]
  show (if trimSpace tool.callID = "" then tool.key.text
    else trimSpace tool.callID) ≠ ""
  split
  next => exact tool.key.text_ne
  next h => exact h

/-- The state when a delta of a tool was sent. -/
def afterDelta (ref : ℕ) (args : String) (start saw : Bool) (s : ResponsesToChatStreamState) :
    ResponsesToChatStreamState :=
  { s with
    tools := s.tools.modify ref fun tool => tool.afterSend args
    sentStart := start
    sawToolCall := saw }

/-- The calls of the client when a delta of a tool was sent. -/
def callsAfter (tool : ResponsesStreamTool) (ref : ℕ) (args : String) (calls : List AssembledCall) :
    List AssembledCall :=
  if tool.sent then calls.modify ref fun c => c.add (tool.fragment ref args)
  else calls ++ [.first (tool.fragment ref args)]

/-- The client knows the tools that were sent, by their position. -/
structure Shown (tool : ResponsesStreamTool) (ref : ℕ) (calls : List AssembledCall) : Prop where
  numbered : Assembly.Numbered calls
  known : tool.sent = true → ∃ c, calls[ref]? = some c ∧ c.id ≠ ""
  next : tool.sent = false → calls.length = ref

variable {tool : ResponsesStreamTool}

/-- A tool of which everything was sent is left as it is. -/
theorem ResponsesStreamTool.afterSend_empty (hsent : tool.sent = true)
    (hname : tool.name = "" ∨ tool.nameSent = true) : tool.afterSend "" = tool := by
  cases tool
  simp only [afterSend] at *
  rcases hname with h | h <;> simp [h, hsent, len_eq_zero]

theorem modify_eq_of_getElem? {α : Type} {l : List α} {i : ℕ} {x : α} {f : α → α}
    (hx : l[i]? = some x) (hf : f x = x) : l.modify i f = l := by
  refine List.ext_getElem? fun j => ?_
  rw [List.getElem?_modify]
  by_cases h : i = j
  · rw [← h, hx, Option.map_eq_map, Option.map_some, if_pos rfl, hf]
  · cases hj : l[j]? with
    | none => rfl
    | some y => rw [Option.map_eq_map, Option.map_some, if_neg h]

theorem modify_concat {α : Type} (l : List α) (x : α) (f : α → α) : (l ++ [x]).modify l.length f = l ++ [f x] := by
  induction l with
  | nil => rfl
  | cons y l ih => exact congrArg (y :: ·) ih

/-- Everything of the tool was sent. -/
def ResponsesStreamTool.Quiet (tool : ResponsesStreamTool) (args : String) : Prop :=
  tool.sent = true ∧ args = "" ∧ (tool.name = "" ∨ tool.nameSent = true)

variable {s : ResponsesToChatStreamState} {ref : ℕ} {explicitDelta : String}

theorem toolDelta_of_quiet (htool : s.tools[ref]? = some tool)
    (h : tool.Quiet (argsToSend tool explicitDelta)) : toolDelta ref explicitDelta s = (s, []) := by
  rw [toolDelta, htool]
  exact if_pos h

theorem toolDelta_of_not_quiet (htool : s.tools[ref]? = some tool) (h : ¬ tool.Quiet (argsToSend tool explicitDelta)) :
    toolDelta ref explicitDelta s = andThen ensureStart (fun s =>
        sendDelta { toolCalls := [tool.fragment ref (argsToSend tool explicitDelta)] }
          { s.modifyTool ref fun t => t.afterSend (argsToSend tool explicitDelta) with
            sawToolCall := true }) s := by
  rw [toolDelta, htool]
  exact if_neg h

/-- Sending leaves the tables as they are. -/
theorem toolDelta_frame : (toolDelta ref explicitDelta s).1.keyOf = s.keyOf ∧
      (toolDelta ref explicitDelta s).1.refOf = s.refOf ∧
      (toolDelta ref explicitDelta s).1.waiting = s.waiting ∧
      (toolDelta ref explicitDelta s).1.rest = s.rest := by
  cases htool : s.tools[ref]? with
  | none =>
    have hnone : toolDelta ref explicitDelta s = (s, []) := by rw [toolDelta, htool]
    rw [hnone]
    exact ⟨rfl, rfl, rfl, rfl⟩
  | some tool =>
    by_cases hquiet : tool.Quiet (argsToSend tool explicitDelta)
    · rw [toolDelta_of_quiet htool hquiet]
      exact ⟨rfl, rfl, rfl, rfl⟩
    · rw [toolDelta_of_not_quiet htool hquiet, andThen, ensureStart_state]
      refine ⟨?_, rfl, ?_, rfl⟩
      · funext b
        cases b <;> rfl
      · funext b
        cases b <;> rfl

/-- A tool call has no text and no reasoning. -/
theorem received_toolDelta (a : Assembly) : received (toolDelta ref explicitDelta) s a
      = { a with calls := (received (toolDelta ref explicitDelta) s a).calls } := by
  cases htool : s.tools[ref]? with
  | none =>
    have hnone : toolDelta ref explicitDelta s = (s, []) := by rw [toolDelta, htool]
    rw [received, hnone]
    rfl
  | some tool =>
    by_cases hquiet : tool.Quiet (argsToSend tool explicitDelta)
    · rw [received, toolDelta_of_quiet htool hquiet]
      rfl
    · rw [received, toolDelta_of_not_quiet htool hquiet]
      generalize argsToSend tool explicitDelta = args
      have hsend := received_andThen ensureStart (fun s =>
        sendDelta { toolCalls := [tool.fragment ref args] }
          { s.modifyTool ref fun t => t.afterSend args with sawToolCall := true }) s a
      rw [received_ensureStart] at hsend
      have hdelta := hsend.trans (addDelta_toolCall a (tool.fragment ref args))
      rw [received] at hdelta
      rw [hdelta]

/-- A fragment with nothing new leaves the call as it is. -/
theorem add_fragment_of_quiet {args : String} {c : AssembledCall} (h : tool.Quiet args) (hid : c.id ≠ "") :
    c.add (tool.fragment ref args) = c := by
  obtain ⟨_, hargs, hname⟩ := h
  have hfragment : (tool.fragment ref args).name = "" := by
    rcases hname with h | h <;> simp [fragment, h]
  have hsame : (if c.name = "" then (tool.fragment ref args).name else c.name) = c.name := by
    rw [hfragment]
    split
    next h => exact h.symm
    next => rfl
  rw [AssembledCall.add, if_neg hid, hsame, hargs]
  show { c with arguments := c.arguments ++ "" } = c
  rw [String.append_empty]

/-- A fragment arrives at the call of its tool. -/
theorem addFragment_eq_callsAfter {calls : List AssembledCall} (h : Shown tool ref calls) (args : String) :
    addFragment calls (tool.fragment ref args) = callsAfter tool ref args calls := by
  rw [callsAfter]
  split
  next hsent =>
    obtain ⟨c, hc, _⟩ := h.known hsent
    exact addFragment_of_lt h.numbered rfl (List.getElem?_eq_some_iff.mp hc).1
  next hsent =>
    have hlen : calls.length = ref := h.next (Bool.eq_false_of_not_eq_true hsent)
    refine addFragment_of_eq h.numbered ?_
    rw [hlen]
    rfl

/-- What is sent for a tool, and what the client has then. -/
theorem toolDelta_spec {a : Assembly} (htool : s.tools[ref]? = some tool) (hshown : Shown tool ref a.calls) :
    (∃ start saw, (toolDelta ref explicitDelta s).1
      = afterDelta ref (argsToSend tool explicitDelta) start saw s) ∧
      received (toolDelta ref explicitDelta) s a
        = { a with calls := callsAfter tool ref (argsToSend tool explicitDelta) a.calls } := by
  rw [received]
  by_cases hquiet : tool.Quiet (argsToSend tool explicitDelta)
  · obtain ⟨c, hc, hid⟩ := hshown.known hquiet.1
    rw [toolDelta_of_quiet htool hquiet]
    refine ⟨⟨s.sentStart, s.sawToolCall, ?_⟩, ?_⟩
    · rw [afterDelta, modify_eq_of_getElem? htool]
      rw [hquiet.2.1]
      exact afterSend_empty hquiet.1 hquiet.2.2
    · rw [callsAfter, if_pos hquiet.1,
        modify_eq_of_getElem? hc (add_fragment_of_quiet hquiet hid)]
      rfl
  · rw [toolDelta_of_not_quiet htool hquiet]
    refine ⟨⟨true, true, ?_⟩, ?_⟩
    · rw [andThen, ensureStart_state]
      rfl
    · show received (andThen ensureStart _) s a = _
      rw [received_andThen, received_ensureStart]
      show a.addDelta _ = _
      rw [addDelta_toolCall, addFragment_eq_callsAfter hshown]

/-! ## Text and reasoning -/

variable (delta : String)

theorem textDelta_state (s : ResponsesToChatStreamState) :
    (textDelta delta s).1 =
      if delta = "" then s else { s with hasSentText := true, sentStart := true } := by
  rw [textDelta]
  by_cases h : delta = ""
  · rw [if_pos h, if_pos h]
    rfl
  · rw [if_neg h, if_neg h, andThen, ensureStart_state]
    rfl

theorem received_textDelta (s : ResponsesToChatStreamState) (a : Assembly) :
    received (textDelta delta) s a = { a with text := a.text ++ delta } := by
  rw [textDelta]
  by_cases h : delta = ""
  · rw [if_pos h, h, String.append_empty]
    rfl
  · rw [if_neg h, received_andThen]
    have hstart := received_ensureStart { s with hasSentText := true } a
    rw [received] at hstart
    show (received _ s a).addDelta _ = _
    rw [received, hstart, addDelta_content]

theorem reasoningDelta_state (s : ResponsesToChatStreamState) :
    (reasoningDelta delta s).1 =
      if delta = "" then s
      else { s with
        needsReasoningSummaryBreak := false, hasSentReasoning := true, sentStart := true } := by
  rw [reasoningDelta]
  by_cases h : delta = ""
  · rw [if_pos h, if_pos h]
  · rw [if_neg h, if_neg h, andThen, ensureStart_state]
    rfl

theorem received_reasoningDelta (s : ResponsesToChatStreamState) (a : Assembly) :
    received (reasoningDelta delta) s a =
      { a with reasoning := a.reasoning ++ (if delta = "" then "" else summaryBreak s delta) } := by
  rw [received, reasoningDelta]
  by_cases h : delta = ""
  · rw [if_pos h, if_pos h, String.append_empty]
    rfl
  · rw [if_neg h, if_neg h]
    show received (andThen _ _) s a = _
    rw [received_andThen]
    have hstart := received_ensureStart
      { s with needsReasoningSummaryBreak := false, hasSentReasoning := true } a
    rw [received] at hstart
    show (received _ s a).addDelta _ = _
    rw [received, hstart, addDelta_reasoning]

/-- The tools and their tables alone. -/
def toolState (s : ResponsesToChatStreamState) : ResponsesToChatStreamState where
  tools := s.tools
  toolByKey := s.toolByKey
  outputIndexToKey := s.outputIndexToKey
  itemIDToKey := s.itemIDToKey
  callIDToKey := s.callIDToKey
  pendingArgsByOutputIndex := s.pendingArgsByOutputIndex
  pendingArgsByItemID := s.pendingArgsByItemID

theorem tables_of_toolState {s' : ResponsesToChatStreamState} (h : toolState s' = toolState s) :
    s'.keyOf = s.keyOf ∧ s'.refOf = s.refOf ∧ s'.waiting = s.waiting ∧ s'.tools = s.tools := by
  have hkeyOf : ∀ s : ResponsesToChatStreamState, (toolState s).keyOf = s.keyOf := by
    intro s
    funext b
    cases b <;> rfl
  have hwaiting : ∀ s : ResponsesToChatStreamState, (toolState s).waiting = s.waiting := by
    intro s
    funext b
    cases b <;> rfl
  refine ⟨?_, ?_, ?_, ?_⟩
  · rw [← hkeyOf s', h, hkeyOf s]
  · have href : (toolState s').refOf = (toolState s).refOf := by rw [h]
    exact href
  · rw [← hwaiting s', h, hwaiting s]
  · have htools : (toolState s').tools = (toolState s).tools := by rw [h]
    exact htools

end OneApi.Responses

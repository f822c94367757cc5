import OneApi.Responses.FromChatStream

/-!
# The protocol of a Responses stream

A client that reads a Responses stream keeps the list of the output items: an item is added at the next
index, deltas of its kind go to an item that is open, an item is closed once, and the response ends when
all items are closed; nothing comes after that.

The converter's state mirrors that list: the references in `outputOrder`, each with what was written
for it and whether it is closed.  So the client accepts all events of a stream in which no delta follows
the finish reason, and the output of the final response is the list it has.
-/

namespace OneApi.Responses

open Claude.Stream (Chunk Choice Delta ToolCallResponse)
open Chat Lib.Acceptor Lib.Emit Tokens Function

/-! ## The client -/

/-- An output item as its events show it. -/
structure Item where
  type : OutputType
  text : String := ""
  done : Bool := false
  deriving Repr, DecidableEq

namespace Item

/-- A delta, for an open item of its kind. -/
def write (type : OutputType) (delta : String) (item : Item) : Option Item :=
  if item.type = type ∧ item.done = false then some { item with text := item.text ++ delta } else none

def close (item : Item) : Option Item :=
  if item.done = false then some { item with done := true } else none

end Item

/-- The items so far, and the output of the final response. -/
structure Reader where
  items : List Item := []
  final : Option (List ResponsesOutput) := none
  deriving Repr, DecidableEq

namespace Reader

/-- Change the item at an index. -/
def changeItem (r : Reader) (index : Option ℤ) (change : Item → Option Item) : Option Reader :=
  match index with
  | some (.ofNat n) =>
    (r.items[n]?).bind fun item => (change item).map fun item => { r with items := r.items.set n item }
  | _ => none

/-- Add an item at the next index. -/
def addItem (r : Reader) (index : Option ℤ) (item : Option ResponsesOutput) : Option Reader :=
  match item with
  | some item =>
    if index = some (r.items.length : ℤ) then
      some { r with items := r.items ++ [{ type := item.type }] }
    else none
  | none => none

/-- The response ends when all items are closed. -/
def finish (r : Reader) (response : Option OpenAIResponsesResponse) : Option Reader :=
  if r.items.all (fun item => item.done) then
    response.map fun response => { r with final := some response.output }
  else none

def accept (r : Reader) (e : ResponsesStreamResponse) : Option Reader :=
  if r.final.isSome then none
  else
    match e.type with
    | .created => some r
    | .outputItemAdded => r.addItem e.outputIndex e.item
    | .outputTextDelta => r.changeItem e.outputIndex (Item.write .message e.delta)
    | .reasoningSummaryDelta => r.changeItem e.outputIndex (Item.write .reasoning e.delta)
    | .functionArgsDelta => r.changeItem e.outputIndex (Item.write .functionCall e.delta)
    | .outputTextDone => r.changeItem e.outputIndex (Item.write .message "")
    | .reasoningSummaryDone => r.changeItem e.outputIndex (Item.write .reasoning "")
    | .functionArgsDone => r.changeItem e.outputIndex (Item.write .functionCall "")
    | .outputItemDone => r.changeItem e.outputIndex Item.close
    | .completed => r.finish e.response
    | .incomplete => r.finish e.response
    | _ => none

end Reader

/-! ## The state as a list of items -/

def OutputRef.type : OutputRef → OutputType
  | .message => .message
  | .reasoning => .reasoning
  | .tool _ => .functionCall

/-- The event that carries a delta of the item. -/
def OutputRef.deltaType : OutputRef → EventType
  | .message => .outputTextDelta
  | .reasoning => .reasoningSummaryDelta
  | .tool _ => .functionArgsDelta

/-- The event that says that no more deltas come. -/
def OutputRef.doneType : OutputRef → EventType
  | .message => .outputTextDone
  | .reasoning => .reasoningSummaryDone
  | .tool _ => .functionArgsDone

def StreamTool.item : Option StreamTool → Item
  | none => { type := .functionCall }
  | some tool => { type := .functionCall, text := tool.arguments, done := tool.done }

variable (delta : String)

namespace ChatToResponsesStreamState

variable {s s' : ChatToResponsesStreamState} {r : Reader} {ref : OutputRef} {k : ℤ}

/-- The output index of an item that has been started. -/
def indexOf (s : ChatToResponsesStreamState) : OutputRef → Option ℤ
  | .message => if s.textStarted then some s.textOutputIndex else none
  | .reasoning => if s.reasoningStarted then some s.reasoningIndex else none
  | .tool index => (s.toolsByIndex.lookup index).map fun tool => tool.outputIndex

def itemAt (s : ChatToResponsesStreamState) : OutputRef → Item
  | .message => { type := .message, text := s.text, done := s.textDone }
  | .reasoning => { type := .reasoning, text := s.reasoning, done := s.reasoningDone }
  | .tool index => StreamTool.item (s.toolsByIndex.lookup index)

theorem type_itemAt (s : ChatToResponsesStreamState) (ref : OutputRef) : (s.itemAt ref).type = ref.type := by
  cases ref with
  | message | reasoning => rfl
  | tool index => cases h : s.toolsByIndex.lookup index <;> simp [itemAt, h, StreamTool.item, OutputRef.type]

/-- A tool is stored under its own index. -/
def Keyed (s : ChatToResponsesStreamState) : Prop :=
  ∀ index tool, s.toolsByIndex.lookup index = some tool → tool.chatIndex = index

/-- Every item that was started stands in the order at its index; the others are empty. -/
structure Ordered (s : ChatToResponsesStreamState) : Prop where
  next : s.nextOutputIndex = s.outputOrder.length
  nodup : s.outputOrder.Nodup
  placed : ∀ ref k, s.indexOf ref = some k → ∃ n : ℕ, k = n ∧ s.outputOrder[n]? = some ref
  absent : ∀ ref, s.indexOf ref = none → ref ∉ s.outputOrder ∧ s.itemAt ref = { type := ref.type }
  keyed : s.Keyed
  running : s.finalized = false

/-- The client has the items of the converter, in their order. -/
structure Mirrors (s : ChatToResponsesStreamState) (r : Reader) : Prop where
  ordered : s.Ordered
  items : r.items = s.outputOrder.map s.itemAt
  final : r.final = none

/-- `s'` is `s` with one more item. -/
structure Started (s s' : ChatToResponsesStreamState) (ref : OutputRef) : Prop where
  order : s'.outputOrder = s.outputOrder ++ [ref]
  next : s'.nextOutputIndex = s.nextOutputIndex + 1
  index : s'.indexOf = update s.indexOf ref (some s.nextOutputIndex)
  item : s'.itemAt = s.itemAt
  keyed : s.Keyed → s'.Keyed
  running : s'.finalized = s.finalized

/-- `s'` is `s` with another item in the place of one. -/
structure Changed (s s' : ChatToResponsesStreamState) (ref : OutputRef) (item : Item) : Prop where
  order : s'.outputOrder = s.outputOrder
  next : s'.nextOutputIndex = s.nextOutputIndex
  index : s'.indexOf = s.indexOf
  item : s'.itemAt = update s.itemAt ref item
  keyed : s.Keyed → s'.Keyed
  running : s'.finalized = s.finalized

theorem Ordered.started (h : s.Ordered) (hnone : s.indexOf ref = none) (hs' : Started s s' ref) :
    s'.Ordered where
  next := by
    rw [hs'.next, hs'.order, h.next, List.length_append, List.length_singleton, Nat.cast_add]
    rfl
  nodup := by
    rw [hs'.order, List.nodup_append]
    refine ⟨h.nodup, List.nodup_singleton ref, ?_⟩
    rintro a ha b hb rfl
    exact (h.absent ref hnone).1 (List.mem_singleton.mp hb ▸ ha)
  placed := by
    intro ref' k' hk'
    rw [hs'.index] at hk'
    by_cases heq : ref' = ref
    · subst heq
      rw [update_self] at hk'
      refine ⟨s.outputOrder.length, (Option.some.inj hk').symm.trans h.next, ?_⟩
      rw [hs'.order, List.getElem?_append_right (le_refl _), Nat.sub_self]
      rfl
    · rw [update_of_ne heq] at hk'
      obtain ⟨n, hn, hget⟩ := h.placed ref' k' hk'
      have hlt : n < s.outputOrder.length := (List.getElem?_eq_some_iff.mp hget).1
      exact ⟨n, hn, by rw [hs'.order, List.getElem?_append_left hlt, hget]⟩
  absent := by
    intro ref' hnone'
    rw [hs'.index] at hnone'
    have hne : ref' ≠ ref := by
      rintro rfl
      rw [update_self] at hnone'
      cases hnone'
    rw [update_of_ne hne] at hnone'
    obtain ⟨hnot, hempty⟩ := h.absent ref' hnone'
    refine ⟨?_, by rw [hs'.item]; exact hempty⟩
    rw [hs'.order, List.mem_append, List.mem_singleton]
    exact not_or.mpr ⟨hnot, hne⟩
  keyed := hs'.keyed h.keyed
  running := hs'.running.trans h.running

variable {item : Item}

theorem Ordered.changed (h : s.Ordered) (hplace : s.indexOf ref = some k)
    (hs' : Changed s s' ref item) : s'.Ordered where
  next := by rw [hs'.next, hs'.order]; exact h.next
  nodup := by rw [hs'.order]; exact h.nodup
  placed := by rw [hs'.index, hs'.order]; exact h.placed
  absent := by
    intro ref' hnone
    rw [hs'.index] at hnone
    have hne : ref' ≠ ref := by
      rintro rfl
      rw [hplace] at hnone
      cases hnone
    rw [hs'.order, hs'.item, update_of_ne hne]
    exact h.absent ref' hnone
  keyed := hs'.keyed h.keyed
  running := hs'.running.trans h.running

/-- An item is started: the client adds it. -/
theorem Mirrors.started (h : s.Mirrors r) (hnone : s.indexOf ref = none) (hs' : Started s s' ref)
    {item : ResponsesOutput} (htype : item.type = ref.type) :
    ∃ r', r.addItem (some s.nextOutputIndex) (some item) = some r' ∧ s'.Mirrors r' := by
  have hlength : s.nextOutputIndex = (r.items.length : ℤ) := by
    rw [h.items, List.length_map]
    exact h.ordered.next
  refine ⟨_, if_pos (congrArg some hlength), ⟨h.ordered.started hnone hs', ?_, h.final⟩⟩
  rw [hs'.order, hs'.item, List.map_append, List.map_singleton, (h.ordered.absent ref hnone).2, h.items, htype]

/-- An item is changed: the client changes it. -/
theorem Mirrors.changed (h : s.Mirrors r) (hplace : s.indexOf ref = some k)
    {change : Item → Option Item} (hchange : change (s.itemAt ref) = some item)
    (hs' : Changed s s' ref item) : ∃ r', r.changeItem (some k) change = some r' ∧ s'.Mirrors r' := by
  obtain ⟨n, rfl, hget⟩ := h.ordered.placed ref k hplace
  have hitems : r.items[n]? = some (s.itemAt ref) := by
    rw [h.items, List.getElem?_map, hget, Option.map_some]
  refine ⟨{ r with items := r.items.set n item }, ?_, ⟨h.ordered.changed hplace hs', ?_, h.final⟩⟩
  · show ((r.items[n]?).bind fun item => (change item).map fun item => _) = _
    rw [hitems, Option.bind_some, hchange, Option.map_some]
  · obtain ⟨hlt, hgetElem⟩ := List.getElem?_eq_some_iff.mp hget
    have hmem : ref ∈ s.outputOrder := List.mem_of_getElem? hget
    rw [hs'.order, hs'.item, h.ordered.nodup.map_update, if_pos hmem, ← h.items, ← hgetElem,
      h.ordered.nodup.idxOf_getElem n hlt]

/-- The items are read from these fields alone. -/
theorem Mirrors.of_fields (h : s.Mirrors r) (horder : s'.outputOrder = s.outputOrder)
    (hnext : s'.nextOutputIndex = s.nextOutputIndex) (hindex : s'.indexOf = s.indexOf)
    (hitem : s'.itemAt = s.itemAt) (htools : s'.toolsByIndex = s.toolsByIndex)
    (hrunning : s'.finalized = s.finalized) : s'.Mirrors r where
  ordered :=
    { next := by rw [hnext, horder]; exact h.ordered.next
      nodup := by rw [horder]; exact h.ordered.nodup
      placed := by rw [hindex, horder]; exact h.ordered.placed
      absent := by rw [hindex, horder, hitem]; exact h.ordered.absent
      keyed := by rw [Keyed, htools]; exact h.ordered.keyed
      running := hrunning.trans h.ordered.running }
  items := by rw [horder, hitem]; exact h.items
  final := h.final

/-- A step that leaves the items alone. -/
theorem Mirrors.unchanged (h : s.Mirrors r) (hplace : s.indexOf ref = some k)
    (hs' : Changed s s' ref (s.itemAt ref)) : s'.Mirrors r where
  ordered := h.ordered.changed hplace hs'
  items := by rw [hs'.order, hs'.item, update_eq_self]; exact h.items
  final := h.final

/-! ## What each function does to the items -/

/-- The function starts the item, if it has not been started. -/
def StartsItem (f : ResponsesStep) (ref : OutputRef) : Prop :=
  ∀ s, (s.indexOf ref).isSome ∧ f s = (s, []) ∨
    s.indexOf ref = none ∧ ∃ s' e item, f s = (s', [e]) ∧ Started s s' ref ∧
      e.type = .outputItemAdded ∧ e.outputIndex = some s.nextOutputIndex ∧ e.item = some item ∧
      item.type = ref.type

/-- The function writes to the item that has been started. -/
def WritesItem (f : ResponsesStep) (ref : OutputRef) : Prop :=
  ∀ s k, s.Keyed → s.indexOf ref = some k →
    (∃ s', f s = (s', []) ∧ Changed s s' ref (s.itemAt ref)) ∨
    ∃ s' e, f s = (s', [e]) ∧
      Changed s s' ref { s.itemAt ref with text := (s.itemAt ref).text ++ e.delta } ∧
      e.type = ref.deltaType ∧ e.outputIndex = some k

/-- The function closes the item, if it is open. -/
def ClosesItem (f : ResponsesStep) (ref : OutputRef) : Prop :=
  ∀ s, s.Keyed → ((s.indexOf ref).isSome → (s.itemAt ref).done = true) ∧ f s = (s, []) ∨
    ∃ s' e e' k, s.indexOf ref = some k ∧ (s.itemAt ref).done = false ∧ f s = (s', [e, e']) ∧
      Changed s s' ref { s.itemAt ref with done := true } ∧
      e.type = ref.doneType ∧ e.outputIndex = some k ∧
      e'.type = .outputItemDone ∧ e'.outputIndex = some k

theorem indexOf_setTool (tool : StreamTool) : (s.setTool tool).indexOf
      = update s.indexOf (.tool tool.chatIndex) (some tool.outputIndex) := by
  funext ref
  cases ref with
  | message | reasoning => rfl
  | tool index =>
    by_cases heq : index = tool.chatIndex
    · rw [heq, update_self]
      simp only [indexOf, setTool, AList.lookup_insert, Option.map_some]
    · rw [update_of_ne (by simpa using heq)]
      simp only [indexOf, setTool, AList.lookup_insert_ne heq]

theorem itemAt_setTool (tool : StreamTool) : (s.setTool tool).itemAt
      = update s.itemAt (.tool tool.chatIndex) (StreamTool.item (some tool)) := by
  funext ref
  cases ref with
  | message | reasoning => rfl
  | tool index =>
    by_cases heq : index = tool.chatIndex
    · rw [heq, update_self]
      simp only [itemAt, setTool, AList.lookup_insert]
    · rw [update_of_ne (by simpa using heq)]
      simp only [itemAt, setTool, AList.lookup_insert_ne heq]

theorem keyed_setTool (h : s.Keyed) (tool : StreamTool) : (s.setTool tool).Keyed := by
  intro index tool' hlookup
  by_cases heq : index = tool.chatIndex
  · rw [heq, setTool, AList.lookup_insert] at hlookup
    rw [heq, ← Option.some.inj hlookup]
  · rw [setTool, AList.lookup_insert_ne heq] at hlookup
    exact h index tool' hlookup

theorem startText_starts : StartsItem startText .message := by
  intro s
  cases hstarted : s.textStarted with
  | true => exact .inl ⟨by simp [indexOf, hstarted], by rw [startText, hstarted]; rfl⟩
  | false =>
    refine .inr ⟨by simp [indexOf, hstarted], ?_⟩
    refine ⟨_, _, _, by rw [startText, hstarted]; rfl, ?_, rfl, rfl, rfl, rfl⟩
    exact ⟨rfl, rfl, by funext ref; cases ref <;> rfl, by funext ref; cases ref <;> rfl,
      fun hkeyed => hkeyed, rfl⟩

theorem startReasoning_starts : StartsItem startReasoning .reasoning := by
  intro s
  cases hstarted : s.reasoningStarted with
  | true => exact .inl ⟨by simp [indexOf, hstarted], by rw [startReasoning, hstarted]; rfl⟩
  | false =>
    refine .inr ⟨by simp [indexOf, hstarted], ?_⟩
    refine ⟨_, _, _, by rw [startReasoning, hstarted]; rfl, ?_, rfl, rfl, rfl, rfl⟩
    exact ⟨rfl, rfl, by funext ref; cases ref <;> rfl, by funext ref; cases ref <;> rfl,
      fun hkeyed => hkeyed, rfl⟩

theorem startTool_starts (chatIndex : ℤ) (toolCall : ToolCallResponse) :
    StartsItem (fun s => s.startTool chatIndex toolCall) (.tool chatIndex) := by
  intro s
  cases hlookup : s.toolsByIndex.lookup chatIndex with
  | some tool => exact .inl ⟨by simp [indexOf, hlookup], by simp [startTool, hlookup]⟩
  | none =>
    have hitem : s.itemAt (.tool chatIndex) = StreamTool.item (some (s.newTool chatIndex toolCall)) := by
      simp only [itemAt, hlookup]
      rfl
    have hitems : (s.nextIndex (.tool chatIndex)).itemAt = s.itemAt := by
      funext ref
      cases ref <;> rfl
    have hindexes : (s.nextIndex (.tool chatIndex)).indexOf = s.indexOf := by
      funext ref
      cases ref <;> rfl
    refine .inr ⟨by simp [indexOf, hlookup], ?_⟩
    refine ⟨_, _, _, by simp only [startTool, hlookup]; rfl, ?_, rfl, rfl, rfl, rfl⟩
    refine ⟨rfl, rfl, ?_, ?_, fun h => keyed_setTool h _, rfl⟩
    · rw [indexOf_setTool, hindexes]
      rfl
    · rw [itemAt_setTool, hitems]
      exact (congrArg (update s.itemAt _) hitem.symm).trans (update_eq_self _ _)

theorem writeText_writes : WritesItem (fun s => s.writeText delta) .message := by
  intro s k _ hplace
  have hk : s.textOutputIndex = k := by
    rw [indexOf, Option.ite_none_right_eq_some] at hplace
    exact Option.some.inj hplace.2
  refine .inr ⟨_, _, rfl, ?_, rfl, congrArg some hk⟩
  exact ⟨rfl, rfl, by funext ref; cases ref <;> rfl, by funext ref; cases ref <;> rfl,
        fun hkeyed => hkeyed, rfl⟩

theorem writeReasoning_writes : WritesItem (fun s => s.writeReasoning delta) .reasoning := by
  intro s k _ hplace
  have hk : s.reasoningIndex = k := by
    rw [indexOf, Option.ite_none_right_eq_some] at hplace
    exact Option.some.inj hplace.2
  refine .inr ⟨_, _, rfl, ?_, rfl, congrArg some hk⟩
  exact ⟨rfl, rfl, by funext ref; cases ref <;> rfl, by funext ref; cases ref <;> rfl,
        fun hkeyed => hkeyed, rfl⟩

/-- Storing a tool again, at the same output index, changes its item only. -/
theorem changed_setTool (h : s.Keyed) {tool : StreamTool} {index : ℤ} (tool' : StreamTool)
    (hlookup : s.toolsByIndex.lookup index = some tool) (hchat : tool'.chatIndex = tool.chatIndex)
    (houtput : tool'.outputIndex = tool.outputIndex) :
    Changed s (s.setTool tool') (.tool index) (StreamTool.item (some tool')) := by
  have hindex : tool'.chatIndex = index := hchat.trans (h index tool hlookup)
  have hplace : s.indexOf (.tool index) = some tool'.outputIndex := by
    rw [indexOf, hlookup, houtput]
    rfl
  refine ⟨rfl, rfl, ?_, ?_, fun h => keyed_setTool h tool', rfl⟩
  · rw [indexOf_setTool, hindex, ← hplace, update_eq_self]
  · rw [itemAt_setTool, hindex]

theorem StreamTool.named_fields (tool : StreamTool) (toolCall : ToolCallResponse) :
    (tool.named toolCall).chatIndex = tool.chatIndex ∧
      (tool.named toolCall).outputIndex = tool.outputIndex ∧
      (tool.named toolCall).arguments = tool.arguments ∧ (tool.named toolCall).done = tool.done := by
  simp only [StreamTool.named, and_self]

theorem StreamTool.item_named (tool : StreamTool) (toolCall : ToolCallResponse) :
    StreamTool.item (some (tool.named toolCall)) = StreamTool.item (some tool) := by
  simp only [StreamTool.item, StreamTool.named]

theorem writeTool_writes (chatIndex : ℤ) (toolCall : ToolCallResponse) :
    WritesItem (fun s => s.writeTool chatIndex toolCall) (.tool chatIndex) := by
  intro s k hkeyed hplace
  obtain ⟨tool, hlookup, rfl⟩ := Option.map_eq_some_iff.mp hplace
  have hitem : s.itemAt (.tool chatIndex) = StreamTool.item (some (tool.named toolCall)) := by
    rw [itemAt, hlookup, StreamTool.item_named]
  obtain ⟨hchat, houtput, -⟩ := StreamTool.named_fields tool toolCall
  rw [hitem]
  simp only [writeTool, hlookup]
  generalize tool.named toolCall = named at hchat houtput
  by_cases harguments : toolCall.arguments = ""
  · refine .inl ⟨s.setTool named, if_neg (not_not.mpr harguments), ?_⟩
    exact changed_setTool hkeyed named hlookup hchat houtput
  · refine .inr ⟨_, _, if_pos harguments, ?_, rfl, congrArg some houtput⟩
    exact changed_setTool hkeyed _ hlookup hchat houtput

variable (status : String)

theorem doneText_closes : ClosesItem (fun s => s.doneText status) .message := by
  intro s _
  cases hstarted : s.textStarted with
  | false => exact .inl ⟨by simp [indexOf, hstarted], by simp [doneText, hstarted]⟩
  | true =>
    cases hdone : s.textDone with
    | true => exact .inl ⟨fun _ => hdone, by simp [doneText, hdone]⟩
    | false =>
        refine .inr ⟨_, _, _, s.textOutputIndex, by simp [indexOf, hstarted], hdone,
          if_pos (by rw [hstarted, hdone]; rfl), ?_, rfl, rfl, rfl, rfl⟩
        exact ⟨rfl, rfl, by funext ref; cases ref <;> rfl, by funext ref; cases ref <;> rfl,
      fun hkeyed => hkeyed, rfl⟩

theorem doneReasoning_closes : ClosesItem (fun s => s.doneReasoning status) .reasoning := by
  intro s _
  cases hstarted : s.reasoningStarted with
  | false => exact .inl ⟨by simp [indexOf, hstarted], by simp [doneReasoning, hstarted]⟩
  | true =>
    cases hdone : s.reasoningDone with
    | true => exact .inl ⟨fun _ => hdone, by simp [doneReasoning, hdone]⟩
    | false =>
        refine .inr ⟨_, _, _, s.reasoningIndex, by simp [indexOf, hstarted], hdone,
          if_pos (by rw [hstarted, hdone]; rfl), ?_, rfl, rfl, rfl, rfl⟩
        exact ⟨rfl, rfl, by funext ref; cases ref <;> rfl, by funext ref; cases ref <;> rfl,
      fun hkeyed => hkeyed, rfl⟩

theorem doneTool_closes (index : ℤ) : ClosesItem (fun s => s.doneTool status index) (.tool index) := by
  intro s hkeyed
  cases hlookup : s.toolsByIndex.lookup index with
  | none => exact .inl ⟨by simp [indexOf, hlookup], by simp [doneTool, hlookup]⟩
  | some tool =>
    have hitem : s.itemAt (.tool index) = StreamTool.item (some tool) := by rw [itemAt, hlookup]
    have hplace : s.indexOf (.tool index) = some tool.outputIndex := by rw [indexOf, hlookup]; rfl
    rw [hitem]
    cases hdone : tool.done with
    | true => exact .inl ⟨fun _ => hdone, by simp [doneTool, hlookup, hdone]⟩
    | false =>
      refine .inr ⟨_, _, _, tool.outputIndex, hplace, hdone,
        by simp only [doneTool, hlookup, hdone]; rfl, ?_, rfl, rfl, rfl, rfl⟩
      exact changed_setTool hkeyed _ hlookup rfl rfl

/-! ## What the client reads -/

variable {e : ResponsesStreamResponse}

theorem accept_added (h : s.Mirrors r)
    (htype : e.type = .outputItemAdded) : r.accept e = r.addItem e.outputIndex e.item := by
  rw [Reader.accept, h.final, htype]
  rfl

theorem accept_delta (h : s.Mirrors r) (htype : e.type = ref.deltaType) :
    r.accept e = r.changeItem e.outputIndex (Item.write ref.type e.delta) := by
  rw [Reader.accept, h.final, htype]
  cases ref <;> rfl

theorem accept_done (h : s.Mirrors r) (htype : e.type = ref.doneType) :
    r.accept e = r.changeItem e.outputIndex (Item.write ref.type "") := by
  rw [Reader.accept, h.final, htype]
  cases ref <;> rfl

theorem accept_itemDone (h : s.Mirrors r)
    (htype : e.type = .outputItemDone) : r.accept e = r.changeItem e.outputIndex Item.close := by
  rw [Reader.accept, h.final, htype]
  rfl

theorem accept_terminal (h : s.Mirrors r)
    (htype : e.type = .completed ∨ e.type = .incomplete) : r.accept e = r.finish e.response := by
  rw [Reader.accept, h.final]
  rcases htype with htype | htype <;> rw [htype] <;> rfl

/-- No item is closed, so that deltas may come for all of them. -/
def NoneDone (s : ChatToResponsesStreamState) : Prop := ∀ ref, (s.itemAt ref).done = false

/-- What the functions that append deltas keep. -/
def Writable (s : ChatToResponsesStreamState) (r : Reader) : Prop := s.Mirrors r ∧ s.NoneDone

theorem NoneDone.changed (h : s.NoneDone) (hs' : Changed s s' ref item) (hopen : item.done = false) : s'.NoneDone := by
  intro ref'
  rw [hs'.item]
  by_cases heq : ref' = ref
  · rw [heq, update_self]
    exact hopen
  · rw [update_of_ne heq]
    exact h ref'

theorem write_itemAt (hopen : (s.itemAt ref).done = false) (delta : String) :
    Item.write ref.type delta (s.itemAt ref) = some { s.itemAt ref with text := (s.itemAt ref).text ++ delta } :=
  if_pos ⟨s.type_itemAt ref, hopen⟩

variable {f g : ResponsesStep}

theorem StartsItem.writable (hf : StartsItem f ref) :
    Triple Reader.accept Writable f fun s r => s.Writable r ∧ (s.indexOf ref).isSome := by
  rintro s r ⟨h, hopen⟩
  rcases hf s with ⟨hstarted, heq⟩ | ⟨hnone, s', e, item, heq, hs', htype, hindex, hitem, hitemType⟩
  · rw [heq]
    exact ⟨r, rfl, ⟨h, hopen⟩, hstarted⟩
  · obtain ⟨r', hadd, h'⟩ := h.started hnone hs' hitemType
    rw [heq]
    refine ⟨r', ?_, ⟨h', fun ref' => ?_⟩, ?_⟩
    · rw [read_cons, accept_added h htype, hindex, hitem, hadd]
      rfl
    · rw [hs'.item]
      exact hopen ref'
    · rw [hs'.index, update_self]
      rfl

theorem WritesItem.writable (hf : WritesItem f ref) :
    Triple Reader.accept (fun s r => s.Writable r ∧ (s.indexOf ref).isSome) f Writable := by
  rintro s r ⟨⟨h, hopen⟩, hstarted⟩
  obtain ⟨k, hplace⟩ := Option.isSome_iff_exists.mp hstarted
  rcases hf s k h.ordered.keyed hplace with ⟨s', heq, hs'⟩ | ⟨s', e, heq, hs', htype, hindex⟩
  · rw [heq]
    exact ⟨r, rfl, h.unchanged hplace hs', hopen.changed hs' (hopen ref)⟩
  · obtain ⟨r', hchange, h'⟩ := h.changed hplace (s.write_itemAt (hopen ref) e.delta) hs'
    rw [heq]
    refine ⟨r', ?_, h', hopen.changed hs' (hopen ref)⟩
    rw [read_cons, accept_delta h htype, hindex, hchange]
    rfl

/-- The items that may still be open. -/
def Pending (refs : List OutputRef) (s : ChatToResponsesStreamState) (r : Reader) : Prop :=
  s.Mirrors r ∧ ∀ ref, (s.indexOf ref).isSome → (s.itemAt ref).done = true ∨ ref ∈ refs

theorem ClosesItem.pending (hf : ClosesItem f ref) (rest : List OutputRef) :
    Triple Reader.accept (Pending (ref :: rest)) f (Pending rest) := by
  rintro s r ⟨h, hpending⟩
  rcases hf s h.ordered.keyed with ⟨hdone, heq⟩ |
    ⟨s', e, e', k, hplace, hopen, heq, hs', htype, hindex, htype', hindex'⟩
  · rw [heq]
    refine ⟨r, rfl, h, fun ref' hstarted => ?_⟩
    rcases hpending ref' hstarted with hdone' | hmem
    · exact .inl hdone'
    · rcases List.mem_cons.mp hmem with rfl | hmem
      · exact .inl (hdone hstarted)
      · exact .inr hmem
  · rw [heq]
    -- the first event changes nothing, the second closes the item
    have hsame : Changed s s ref { s.itemAt ref with text := (s.itemAt ref).text ++ "" } := by
      rw [String.append_empty]
      exact ⟨rfl, rfl, rfl, (update_eq_self _ _).symm, fun hkeyed => hkeyed, rfl⟩
    obtain ⟨r₁, hchange₁, h₁⟩ := h.changed hplace (s.write_itemAt hopen "") hsame
    have hclose : Item.close (s.itemAt ref) = some { s.itemAt ref with done := true } := if_pos hopen
    obtain ⟨r₂, hchange₂, h₂⟩ := h₁.changed hplace hclose hs'
    refine ⟨r₂, ?_, h₂, fun ref' hstarted => ?_⟩
    · rw [read_cons, accept_done h htype, hindex, hchange₁, Option.bind_some, read_cons,
        accept_itemDone h₁ htype', hindex', hchange₂]
      rfl
    · rw [hs'.item]
      by_cases heq' : ref' = ref
      · rw [heq', update_self]
        exact .inl rfl
      · rw [update_of_ne heq']
        rw [hs'.index] at hstarted
        exact (hpending ref' hstarted).imp_right fun hmem =>
          (List.mem_cons.mp hmem).resolve_left heq'

end ChatToResponsesStreamState

open ChatToResponsesStreamState

theorem appendTextDelta_writable : Triple Reader.accept Writable (appendTextDelta delta) Writable :=
  startText_starts.writable.andThen (writeText_writes delta).writable

theorem appendReasoningDelta_writable : Triple Reader.accept Writable (appendReasoningDelta delta) Writable :=
  startReasoning_starts.writable.andThen (writeReasoning_writes delta).writable

theorem appendToolCallDelta_writable (toolCall : ToolCallResponse) :
    Triple Reader.accept Writable (appendToolCallDelta toolCall) Writable :=
  (startTool_starts _ toolCall).writable.andThen (writeTool_writes _ toolCall).writable

theorem deltaEvents_writable (delta : Delta) : Triple Reader.accept Writable (deltaEvents delta) Writable := by
  have hempty : ∀ (append : String → ResponsesStep) text,
      (∀ text, Triple Reader.accept Writable (append text) Writable) →
        Triple Reader.accept Writable (unlessEmpty append text) Writable := by
    intro append text h
    rw [unlessEmpty]
    split
    · exact h text
    · exact .of_silent fun _ _ => id
  exact (hempty _ _ appendReasoningDelta_writable).andThen
    ((hempty _ _ appendTextDelta_writable).andThen (.forEach appendToolCallDelta_writable _))

/-- Everything that was started is closed. -/
theorem doneDeltaEvents_closes : Triple Reader.accept Mirrors doneDeltaEvents (Pending []) := by
  intro s r h
  have hall : Pending (.message :: .reasoning :: s.sortedTools.map .tool) s r := by
    refine ⟨h, fun ref hstarted => .inr ?_⟩
    cases ref with
    | message => exact List.mem_cons_self
    | reasoning => exact List.mem_cons_of_mem _ List.mem_cons_self
    | tool index =>
      refine List.mem_cons_of_mem _ (List.mem_cons_of_mem _ (List.mem_map_of_mem ?_))
      rw [sortedTools, List.mem_insertionSort, ← AList.mem_keys, ← AList.lookup_isSome]
      rw [indexOf, Option.isSome_map] at hstarted
      exact hstarted
  have htools : Triple Reader.accept (Pending (s.sortedTools.map .tool))
      (forEach (fun index t => t.doneTool s.outputStatus index) s.sortedTools) (Pending []) := by
    have hloop := Triple.forEach_rest (I := fun indexes => Pending (indexes.map .tool))
      (fun index rest => (doneTool_closes s.outputStatus index).pending (rest.map .tool))
      s.sortedTools []
    rw [List.append_nil] at hloop
    exact hloop
  exact ((doneText_closes s.outputStatus).pending _ |>.andThen
    ((doneReasoning_closes s.outputStatus).pending _ |>.andThen htools)) s r hall

/-! ## Streams without a delta after the finish reason -/

/-- Nothing that would be appended. -/
def Silent (delta : Delta) : Prop :=
  delta.getReasoningContent = "" ∧ delta.getContentString = "" ∧ delta.toolCalls = []

instance (delta : Delta) : Decidable (Silent delta) := inferInstanceAs (Decidable (_ ∧ _))

/-- The choice has a finish reason. -/
def Finishes (choice : Choice) : Prop :=
  Lib.Go.trimSpace (choice.finishReason.getD "") ≠ ""

instance (choice : Choice) : Decidable (Finishes choice) := inferInstanceAs (Decidable (_ ≠ _))

/-- No delta follows the finish reason. -/
def NoDeltaAfterFinish : List Choice → Prop
  | [] => True
  | choice :: rest =>
    (Finishes choice → ∀ later ∈ rest, Silent later.delta) ∧ NoDeltaAfterFinish rest

instance NoDeltaAfterFinish.decidable : ∀ choices, Decidable (NoDeltaAfterFinish choices)
  | [] => isTrue trivial
  | choice :: rest =>
    have := NoDeltaAfterFinish.decidable rest
    inferInstanceAs (Decidable ((Finishes choice → ∀ later ∈ rest, Silent later.delta) ∧ _))

theorem deltaEvents_silent {delta : Delta} (h : Silent delta) : deltaEvents delta = fun s => (s, []) := by
  obtain ⟨hreasoning, htext, htools⟩ := h
  funext s
  rw [deltaEvents, unlessEmpty, unlessEmpty, hreasoning, htext, htools]
  rfl

/-- What is known when the choices `rest` are still to come. -/
structure Expects (rest : List Choice) (s : ChatToResponsesStreamState) (r : Reader) : Prop where
  mirrors : s.Mirrors r
  ordered : NoDeltaAfterFinish rest
  writable : s.NoneDone ∨ ∀ choice ∈ rest, Silent choice.delta

variable {s : ChatToResponsesStreamState} {r : Reader}

theorem applyFinishReason_mirrors (h : s.Mirrors r) (reason : String) : (applyFinishReason reason s).Mirrors r := by
  rw [applyFinishReason]
  generalize responsesStatusFromChatFinishReason reason = status
  refine h.of_fields rfl rfl ?_ ?_ rfl rfl
  · funext ref
    cases ref <;> rfl
  · funext ref
    cases ref <;> rfl

theorem finishEvents_of_not {choice : Choice} (h : ¬Finishes choice) :
    finishEvents choice.finishReason = fun s => (s, []) := by
  rw [Finishes, not_not] at h
  cases hreason : choice.finishReason with
  | none => rfl
  | some reason =>
    rw [hreason] at h
    exact if_neg (not_not.mpr h)

theorem finishEvents_mirrors (finishReason : Option String) :
    Triple Reader.accept Mirrors (finishEvents finishReason) Mirrors := by
  cases finishReason with
  | none => exact .of_silent fun _ _ => id
  | some reason =>
    rw [finishEvents]
    split
    · intro s r h
      obtain ⟨r', hread, hpending⟩ :=
        doneDeltaEvents_closes _ r (applyFinishReason_mirrors h reason)
      exact ⟨r', hread, hpending.1⟩
    · exact .of_silent fun _ _ => id

theorem choiceEvents_expects (choice : Choice) (rest : List Choice) :
    Triple Reader.accept (Expects (choice :: rest)) (choiceEvents choice) (Expects rest) := by
  intro s r h
  -- before the finish reason, deltas are written; after it, there are none
  have hdelta : ∃ r', read Reader.accept r (deltaEvents choice.delta s).2 = some r' ∧
      (deltaEvents choice.delta s).1.Mirrors r' ∧
      ((deltaEvents choice.delta s).1.NoneDone ∨ ∀ later ∈ rest, Silent later.delta) := by
    rcases h.writable with hopen | hsilent
    · obtain ⟨r', hread, h', hopen'⟩ := deltaEvents_writable choice.delta s r ⟨h.mirrors, hopen⟩
      exact ⟨r', hread, h', .inl hopen'⟩
    · rw [deltaEvents_silent (hsilent choice List.mem_cons_self)]
      exact ⟨r, rfl, h.mirrors, .inr fun later hlater => hsilent later (List.mem_cons_of_mem _ hlater)⟩
  obtain ⟨r', hread, h', hwritable⟩ := hdelta
  have hread' : ∀ {r''}, read Reader.accept r' (finishEvents choice.finishReason
      (deltaEvents choice.delta s).1).2 = some r'' →
      read Reader.accept r (choiceEvents choice s).2 = some r'' := fun hfinish =>
    (read_append_of_read hread).trans hfinish
  by_cases hfinish : Finishes choice
  · obtain ⟨r'', hread'', h''⟩ := finishEvents_mirrors choice.finishReason _ r' h'
    exact ⟨r'', hread' hread'', h'', h.ordered.2, .inr (h.ordered.1 hfinish)⟩
  · refine ⟨r', hread' (by rw [finishEvents_of_not hfinish]; rfl), ?_, h.ordered.2, ?_⟩
    · rw [choiceEvents, andThen, finishEvents_of_not hfinish]
      exact h'
    · rw [choiceEvents, andThen, finishEvents_of_not hfinish]
      exact hwritable

variable {rest : List Choice}

theorem Expects.of_fields {s' : ChatToResponsesStreamState}
    (h : Expects rest s r) (hmirrors : s'.Mirrors r) (hitem : s'.itemAt = s.itemAt) : Expects rest s' r := by
  refine ⟨hmirrors, h.ordered, h.writable.imp_left fun hopen ref => ?_⟩
  rw [hitem]
  exact hopen ref

theorem applyChunk_expects (h : Expects rest s r) (chunk : Chunk Usage) : Expects rest (applyChunk chunk s) r := by
  have hindex : (applyChunk chunk s).indexOf = s.indexOf := by
    funext ref
    cases ref <;> simp only [indexOf, applyChunk] <;> rfl
  have hitem : (applyChunk chunk s).itemAt = s.itemAt := by
    funext ref
    cases ref <;> simp only [itemAt, applyChunk]
  have hmirrors : (applyChunk chunk s).Mirrors r := by
    refine h.mirrors.of_fields ?_ ?_ hindex hitem ?_ ?_ <;> simp only [applyChunk]
  exact h.of_fields hmirrors hitem

theorem sendCreated_expects (rest : List Choice) : Triple Reader.accept (Expects rest) sendCreated (Expects rest) := by
  intro s r h
  rw [sendCreated]
  split
  · exact ⟨r, rfl, h⟩
  · have hitem : ({ s with sentCreated := true } : ChatToResponsesStreamState).itemAt = s.itemAt := by
      funext ref
      cases ref <;> rfl
    refine ⟨r, ?_, h.of_fields (h.mirrors.of_fields rfl rfl ?_ hitem rfl rfl) hitem⟩
    · rw [read_cons, Reader.accept, h.mirrors.final]
      rfl
    · funext ref
      cases ref <;> rfl

/-- **A stream, choice by choice.**  The invariant may speak of the choices that are still to come. -/
theorem chunks_triple {ρ : Type} {accept : ρ → ResponsesStreamResponse → Option ρ}
    {I : List Choice → ChatToResponsesStreamState → ρ → Prop}
    (hchunk : ∀ chunk rest, Triple accept (I rest) (fun s => sendCreated (applyChunk chunk s)) (I rest))
    (hchoice : ∀ choice rest, Triple accept (I (choice :: rest)) (choiceEvents choice) (I rest))
    (chunks : List (Chunk Usage)) :
    Triple accept (I (chunks.flatMap fun chunk => chunk.choices))
      (forEach chatCompletionsStreamChunkToResponsesEvents chunks) (I []) := by
  induction chunks with
  | nil => exact .of_silent fun _ _ => id
  | cons chunk chunks ih =>
    rw [List.flatMap_cons]
    exact ((hchunk chunk _).andThen (.forEach_rest hchoice chunk.choices _)).andThen ih

theorem chunks_expects (chunks : List (Chunk Usage)) :
    Triple Reader.accept (Expects (chunks.flatMap fun chunk => chunk.choices))
      (forEach chatCompletionsStreamChunkToResponsesEvents chunks) (Expects []) :=
  chunks_triple (fun chunk rest _ r h => sendCreated_expects rest _ r (applyChunk_expects h chunk))
    choiceEvents_expects chunks

/-! ## The whole stream -/

/-- What an item of the output shows: its type, and its text or arguments. -/
def ResponsesOutput.shown (out : ResponsesOutput) : OutputType × String :=
  (out.type, match out.type with
    | .functionCall => out.argumentsString
    | _ => contentText out.content)

def Item.shown (item : Item) : OutputType × String := (item.type, item.text)

/-- The client has read the whole stream: it ended with a response whose output is the list of the
items, each with the text or the arguments that its deltas add up to. -/
def Reader.Complete (r : Reader) : Prop :=
  ∃ output, r.final = some output ∧ output.map ResponsesOutput.shown = r.items.map Item.shown

theorem shown_refOutput (h : s.Ordered) (status : String) {ref : OutputRef} (hmem : ref ∈ s.outputOrder) :
    ∃ out, s.refOutput status ref = some out ∧ out.shown = (s.itemAt ref).shown := by
  cases ref with
  | message => exact ⟨_, rfl, by simp [ResponsesOutput.shown, Item.shown, messageOutput, itemAt, contentText]⟩
  | reasoning =>
    exact ⟨_, rfl, by simp [ResponsesOutput.shown, Item.shown, reasoningOutput, itemAt, contentText]⟩
  | tool index =>
    cases hlookup : s.toolsByIndex.lookup index with
    | none =>
      have hnone : s.indexOf (.tool index) = none := by rw [indexOf, hlookup]; rfl
      exact absurd hmem (h.absent _ hnone).1
    | some tool =>
      refine ⟨toolOutput tool status, by rw [refOutput, hlookup]; rfl, ?_⟩
      rw [itemAt, hlookup]
      rfl

theorem shown_finalResponse (h : s.Ordered) :
    s.finalResponse.output.map ResponsesOutput.shown = (s.outputOrder.map s.itemAt).map Item.shown := by
  have hall := fun ref (hmem : ref ∈ s.outputOrder) => shown_refOutput h s.outputStatus hmem
  rw [List.map_map, finalResponse]
  dsimp only
  generalize s.outputOrder = order at hall
  induction order with
  | nil => rfl
  | cons ref order ih =>
    obtain ⟨out, hout, hshown⟩ := hall ref List.mem_cons_self
    rw [List.filterMap_cons_some hout, List.map_cons, List.map_cons, hshown,
      ih fun ref' hmem => hall ref' (List.mem_cons_of_mem _ hmem)]
    rfl

/-- The client reads the end of the stream. -/
theorem finalize_complete :
    Triple Reader.accept Mirrors finalizeChatCompletionsStreamToResponses fun _ r => r.Complete := by
  intro s r h
  have hrunning : s.finalized = false := h.ordered.running
  obtain ⟨r', hread, h', hdone⟩ := doneDeltaEvents_closes s r h
  have hall : r'.items.all (fun item => item.done) = true := by
    rw [h'.items, List.all_map, List.all_eq_true]
    intro ref hmem
    refine (hdone ref (Option.isSome_iff_ne_none.mpr fun hnone => ?_)).resolve_right List.not_mem_nil
    exact (h'.ordered.absent ref hnone).1 hmem
  rw [finalizeChatCompletionsStreamToResponses, hrunning]
  refine ⟨{ r' with final := some (doneDeltaEvents s).1.finalResponse.output }, ?_, _, rfl,
    (shown_finalResponse h'.ordered).trans (congrArg (List.map Item.shown) h'.items.symm)⟩
  refine (read_append_of_read hread).trans ?_
  rw [read_cons, accept_terminal h' (by dsimp only; split; exact .inr rfl; exact .inl rfl), Reader.finish, if_pos hall]
  rfl

theorem start_expects (id model : String) (h : NoDeltaAfterFinish rest) :
    Expects rest { id := id, model := model : ChatToResponsesStreamState } {} := by
  refine ⟨⟨⟨rfl, List.nodup_nil, ?_, ?_, ?_, rfl⟩, rfl, rfl⟩, h, .inl ?_⟩
  · intro ref k hk
    cases ref <;> exact absurd hk nofun
  · intro ref _
    cases ref <;> exact ⟨List.not_mem_nil, rfl⟩
  · intro index tool hlookup
    exact absurd hlookup nofun
  · intro ref
    cases ref <;> rfl

/-- The events of a chat stream in which no delta follows the finish reason are the ones the client
expects, and it has read the whole response with the last of them. -/
theorem chatStreamToResponses_complete (id model : String) (chunks : List (Chunk Usage))
    (h : NoDeltaAfterFinish (chunks.flatMap fun chunk => chunk.choices)) :
    ∃ r, read Reader.accept {} (chatStreamToResponses chunks { id := id, model := model }).2 = some r ∧
      r.Complete := by
  have hchunks := (chunks_expects chunks).weaken (fun _ _ hexpects => hexpects)
    fun _ _ hexpects => hexpects.mirrors
  exact hchunks.andThen finalize_complete _ {} (start_expects id model h)

/-- Reasoning, text and two interleaved tool calls, ended by a finish reason. -/
def mixedChunks : List (Chunk Usage) :=
  [{ choices := [{ delta := { reasoningContent := some "hm" } }] },
   { choices := [{ delta := { content := some "let me see" } }] },
   { choices := [{ delta := { toolCalls := [{ index := some 1, id := "b", name := "g", arguments := "[" },
                                            { index := some 0, id := "a", name := "f" }] } }] },
   { choices := [{ delta := { toolCalls := [{ index := some 1, arguments := "]" }] }
                   finishReason := some "tool_calls" }] },
   { usage := some { promptTokens := 1 } }]

theorem mixedChunks_complete :
    NoDeltaAfterFinish (mixedChunks.flatMap fun chunk => chunk.choices) ∧
      ∃ r, read Reader.accept {} (chatStreamToResponses mixedChunks { id := "r", model := "m" }).2
        = some r ∧ r.Complete :=
  ⟨by decide +kernel, chatStreamToResponses_complete "r" "m" mixedChunks (by decide +kernel)⟩

end OneApi.Responses

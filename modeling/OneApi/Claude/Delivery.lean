import OneApi.Claude.Stream

/-!
# What the events of a Claude stream deliver

The text, the thinking and, tool call by tool call, the arguments that a chat stream carries are to be
found again in the deltas of the Claude events.  A reader of the events knows which tool call a delta
belongs to from its block: the blocks of a run of tool calls follow the last block that was stopped, so
the distance to it is the index of the call.

`Delivers` follows the reader through the functions of the converter, one lemma for each, up to
`delivers_streamResponseOpenAI2Claude`: what a chunk delivers is `passedOn`.  That is not everything it
carries.  The converter looks at the first choice only, sends one of the three kinds of content that a
later chunk may bring together, only the first tool call of the first chunk, and nothing of a later
chunk that has a finish reason and no usage.
-/

namespace OneApi.Claude.Stream

open ClaudeConvertInfo

variable {U : Type}

/-! ## What chunks carry -/

/-- The arguments that the tool calls of a chunk bring, from the `i`-th one on, each with the index of
its call. -/
def argumentsFrom : ℕ → List ToolCallResponse → List (ℤ × String)
  | _, [] => []
  | i, call :: calls => (call.offset i, call.arguments) :: argumentsFrom (i + 1) calls

/-- The arguments of one call, concatenated. -/
def argumentsOf (fragments : List (ℤ × String)) (call : ℤ) : String :=
  String.join ((fragments.filter fun fragment => fragment.1 = call).map Prod.snd)

/-- Text, thinking and the arguments of every tool call. -/
structure Content where
  text : String
  thinking : String
  arguments : ℤ → String

namespace Content

def empty : Content := ⟨"", "", fun _ => ""⟩

def append (c c' : Content) : Content :=
  ⟨c.text ++ c'.text, c.thinking ++ c'.thinking, fun call => c.arguments call ++ c'.arguments call⟩

/-- No text of `c` is longer than the one of `c'`. -/
structure Shorter (c c' : Content) : Prop where
  text : c.text.length ≤ c'.text.length
  thinking : c.thinking.length ≤ c'.thinking.length
  arguments : ∀ call, (c.arguments call).length ≤ (c'.arguments call).length

theorem append_assoc (a b c : Content) : (a.append b).append c = a.append (b.append c) := by
  simp only [append, String.append_assoc]

@[simp] theorem empty_append (c : Content) : empty.append c = c := by
  simp only [append, empty, String.empty_append]

@[simp] theorem append_empty (c : Content) : c.append empty = c := by
  simp only [append, empty, String.append_empty]

theorem Shorter.refl (c : Content) : c.Shorter c :=
  ⟨Nat.le_refl _, Nat.le_refl _, fun _ => Nat.le_refl _⟩

/-- What a longer rest cannot make up for was not lost before. -/
theorem Shorter.of_append {a b c d : Content} (h : (a.append b).Shorter (c.append d))
    (hrest : d.Shorter b) : a.Shorter c := by
  obtain ⟨htext, hthinking, hargs⟩ := h
  obtain ⟨htext', hthinking', hargs'⟩ := hrest
  simp only [append, String.length_append] at htext hthinking hargs
  refine ⟨by omega, by omega, fun call => ?_⟩
  have := hargs call
  have := hargs' call
  omega

theorem Shorter.right_of_append {a b d : Content} (h : (a.append b).Shorter (a.append d)) : b.Shorter d := by
  obtain ⟨htext, hthinking, hargs⟩ := h
  simp only [append, String.length_append] at htext hthinking hargs
  refine ⟨by omega, by omega, fun call => ?_⟩
  have := hargs call
  omega

end Content

theorem argumentsOf_append (fragments fragments' : List (ℤ × String)) (call : ℤ) :
    argumentsOf (fragments ++ fragments') call = argumentsOf fragments call ++ argumentsOf fragments' call := by
  simp only [argumentsOf, List.filter_append, List.map_append, String.join_append]

theorem argumentsOf_cons (fragment : ℤ × String) (fragments : List (ℤ × String)) (call : ℤ) :
    argumentsOf (fragment :: fragments) call
      = (if fragment.1 = call then fragment.2 else "") ++ argumentsOf fragments call := by
  by_cases h : fragment.1 = call <;> simp [argumentsOf, h, String.join_cons]

/-- Fragments without a text may be left out. -/
theorem argumentsOf_filter (fragments : List (ℤ × String)) :
    argumentsOf (fragments.filter fun fragment => fragment.2 ≠ "") = argumentsOf fragments := by
  funext call
  induction fragments with
  | nil => rfl
  | cons fragment fragments ih =>
    by_cases h : fragment.2 = ""
    · rw [List.filter_cons_of_neg (by simpa using h), ih, argumentsOf_cons, h, ite_self, String.empty_append]
    · rw [List.filter_cons_of_pos (by simpa using h), argumentsOf_cons, argumentsOf_cons, ih]

def Delta.carried (delta : Delta) : Content :=
  ⟨delta.getContentString, delta.getReasoningContent, argumentsOf (argumentsFrom 0 delta.toolCalls)⟩

theorem Delta.carried_arguments (delta : Delta) :
    delta.carried.arguments = argumentsOf (argumentsFrom 0 delta.toolCalls) := rfl

/-- What the choices of a chunk carry together. -/
def carriedBy : List Choice → Content
  | [] => .empty
  | choice :: choices => choice.delta.carried.append (carriedBy choices)

/-- What a list of chunks carries. -/
def carried : List (Input U) → Content
  | [] => .empty
  | input :: inputs => (carriedBy input.chunk.choices).append (carried inputs)

/-! ## What events deliver -/

/-- A fragment of arguments: its call, the block it came in, and its text. -/
structure ToolDelta where
  call : ℤ
  block : ℤ
  text : String
  deriving Repr, DecidableEq

/-- What has been delivered, in order. -/
structure Delivery where
  text : String := ""
  thinking : String := ""
  tools : List ToolDelta := []
  deriving Repr, DecidableEq

namespace Delivery

def append (d d' : Delivery) : Delivery :=
  ⟨d.text ++ d'.text, d.thinking ++ d'.thinking, d.tools ++ d'.tools⟩

def content (d : Delivery) : Content :=
  ⟨d.text, d.thinking, argumentsOf (d.tools.map fun delta => (delta.call, delta.text))⟩

/-- Every tool call has one block. -/
def OneBlock (d : Delivery) : Prop :=
  ∀ delta ∈ d.tools, ∀ delta' ∈ d.tools, delta.call = delta'.call → delta.block = delta'.block

theorem append_assoc (a b c : Delivery) : (a.append b).append c = a.append (b.append c) := by
  simp only [append, String.append_assoc, List.append_assoc]

@[simp] theorem append_nothing (d : Delivery) : d.append {} = d := by
  simp only [append, String.append_empty, List.append_nil]

theorem content_append (d d' : Delivery) : (d.append d').content = d.content.append d'.content := by
  simp only [content, append, Content.append, List.map_append, Content.mk.injEq, true_and]
  funext call
  exact argumentsOf_append _ _ call

end Delivery

/-- The reader of the events: the index after the last block that was stopped, and what it got. -/
structure Reader where
  base : ℤ := 0
  got : Delivery := {}
  deriving Repr, DecidableEq

namespace Reader

def event (r : Reader) : Event U → Reader
  | .contentBlockDelta _ (.textDelta text) => { r with got := r.got.append { text := text } }
  | .contentBlockDelta _ (.thinkingDelta text) => { r with got := r.got.append { thinking := text } }
  | .contentBlockDelta index (.inputJsonDelta text) =>
    { r with got := r.got.append { tools := [⟨index - r.base, index, text⟩] } }
  | .contentBlockStop index => { r with base := index + 1 }
  | _ => r

def events (r : Reader) (es : List (Event U)) : Reader := es.foldl event r

@[simp] theorem events_nil (r : Reader) : r.events ([] : List (Event U)) = r := rfl

@[simp] theorem events_cons (r : Reader) (e : Event U) (es : List (Event U)) :
    r.events (e :: es) = (r.event e).events es := rfl

theorem events_append (r : Reader) (es es' : List (Event U)) : r.events (es ++ es') = (r.events es).events es' := by
  rw [events, List.foldl_append, ← events, ← events]

/-- Stopping the blocks from `index` on, at least one, moves the base behind them. -/
theorem events_stops (r : Reader) (index : ℤ) (n : ℕ) :
    r.events ((indicesFrom index (n + 1)).map (.contentBlockStop : ℤ → Event U))
      = { r with base := index + n + 1 } := by
  induction n generalizing r index with
  | zero =>
    rw [indicesFrom_cons]
    show (r.event (.contentBlockStop index : Event U)) = _
    simp only [event, Reader.mk.injEq, and_true]
    omega
  | succ n ih =>
    rw [indicesFrom_cons, List.map_cons, events_cons, ih]
    simp only [event, Reader.mk.injEq, and_true]
    omega

end Reader

/-! ## The reader beside the converter -/

/-- Where the blocks of the content that is open, or of the next one, begin. -/
def ClaudeConvertInfo.base (info : ClaudeConvertInfo U) : ℤ :=
  match info.lastMessagesType with
  | .tools => info.toolCallBaseIndex
  | _ => info.index

/-- The reader counts the blocks as the converter does. -/
structure Tracks (r : Reader) (info : ClaudeConvertInfo U) : Prop where
  offset : 0 ≤ info.toolCallMaxIndexOffset
  base : r.base = info.base

/-- Events that deliver `d`, after which the reader still tracks, unless the message has ended. -/
structure Delivers (r : Reader) (sent : ClaudeConvertInfo U × List (Event U)) (d : Delivery) :
    Prop where
  got : (r.events sent.2).got = r.got.append d
  follows : sent.1.done = false → Tracks (r.events sent.2) sent.1

variable {r : Reader} {info : ClaudeConvertInfo U}

/-- Sending nothing. -/
theorem Tracks.delivers (h : Tracks r info) : Delivers r (info, []) {} :=
  ⟨(Delivery.append_nothing _).symm, fun _ => h⟩

/-- What stops the open blocks delivers nothing. -/
theorem got_stopOpenBlocks : (r.events info.stopOpenBlocks).got = r.got := by
  have hstops : ∀ (indices : List ℤ) (r : Reader),
      (r.events (indices.map (.contentBlockStop : ℤ → Event U))).got = r.got := by
    intro indices
    induction indices with
    | nil => exact fun _ => rfl
    | cons index indices ih => exact fun r => ih _
  rw [stopOpenBlocks]
  cases info.lastMessagesType with
  | none | text | thinking => rfl
  | tools => exact hstops _ r

/-- After the open blocks are stopped, the next block is the next one for the reader too. -/
theorem events_stopOpenBlocksAndAdvance (h : Tracks r info) :
    r.events info.stopOpenBlocksAndAdvance.2 = { r with base := info.stopOpenBlocksAndAdvance.1.index } := by
  have hbase := h.base
  rw [base] at hbase
  rw [stopOpenBlocksAndAdvance, stopOpenBlocks]
  cases hlast : info.lastMessagesType with
  | none =>
    rw [hlast] at hbase
    have hindex : r.base = info.index := hbase
    show r = { r with base := info.index }
    rw [← hindex]
  | text | thinking => rfl
  | tools =>
    obtain ⟨n, hn⟩ := Int.eq_ofNat_of_zero_le h.offset
    have hcount : (info.toolCallMaxIndexOffset + 1).toNat = n + 1 := by omega
    show r.events ((indicesFrom _ (info.toolCallMaxIndexOffset + 1).toNat).map _)
      = { r with base := info.toolCallBaseIndex + info.toolCallMaxIndexOffset + 1 }
    rw [hcount, Reader.events_stops, hn]

theorem stopOpenBlocksAndAdvance_offset (h : 0 ≤ info.toolCallMaxIndexOffset) :
    0 ≤ info.stopOpenBlocksAndAdvance.1.toolCallMaxIndexOffset := by
  rw [stopOpenBlocksAndAdvance]
  cases info.lastMessagesType with
  | none | text | thinking => exact h
  | tools => exact Int.le_refl 0

/-- A delta of text or thinking, whatever its block. -/
def BlockDelta.delivery : BlockDelta → Delivery
  | .textDelta text => { text := text }
  | .thinkingDelta text => { thinking := text }
  | .inputJsonDelta _ => {}

/-- The kinds of content that have one block. -/
def LastMessageType.carries : LastMessageType → BlockDelta → Prop
  | .text, .textDelta _ => True
  | .thinking, .thinkingDelta _ => True
  | _, _ => False

variable {type : LastMessageType} {block : Block} {delta : BlockDelta}

theorem event_contentBlockDelta (hc : type.carries delta) (index : ℤ) :
    r.event (.contentBlockDelta index delta : Event U) = { r with got := r.got.append delta.delivery } := by
  cases type <;> cases delta <;> first | rfl | exact absurd hc id

theorem base_of_carries (hc : type.carries delta) (hlast : info.lastMessagesType = type) : info.base = info.index := by
  rw [base, hlast]
  cases type <;> first | rfl | (cases delta <;> exact absurd hc id)

/-- A block that is started where the reader expects it delivers its delta. -/
theorem delivers_start (hc : type.carries delta) (h : Tracks r info) :
    let advanced := info.stopOpenBlocksAndAdvance
    Delivers r ({ advanced.1 with lastMessagesType := type },
      advanced.2 ++ [.contentBlockStart advanced.1.index block,
        .contentBlockDelta advanced.1.index delta]) delta.delivery := by
  intro advanced
  have hevents : r.events (advanced.2 ++ [(.contentBlockStart advanced.1.index block : Event U),
      .contentBlockDelta advanced.1.index delta]) = ⟨advanced.1.index, r.got.append delta.delivery⟩ := by
    rw [Reader.events_append, events_stopOpenBlocksAndAdvance h, Reader.events_cons,
      Reader.events_cons, Reader.events_nil, event_contentBlockDelta hc]
    rfl
  refine ⟨by rw [hevents], fun _ => ?_⟩
  rw [hevents]
  refine ⟨stopOpenBlocksAndAdvance_offset h.offset, ?_⟩
  have hlast : ({ advanced.1 with lastMessagesType := type } : ClaudeConvertInfo U).lastMessagesType = type := rfl
  exact (base_of_carries hc hlast).symm

theorem delivers_sendContent (hc : type.carries delta) (h : Tracks r info) :
    Delivers r (info.sendContent type block delta) delta.delivery := by
  rw [sendContent]
  by_cases hlast : info.lastMessagesType = type
  · rw [if_neg (not_not.mpr hlast)]
    have hevents : r.events [(.contentBlockDelta info.index delta : Event U)]
        = { r with got := r.got.append delta.delivery } := event_contentBlockDelta hc info.index
    exact ⟨by rw [hevents], fun _ => by rw [hevents]; exact ⟨h.offset, h.base⟩⟩
  · rw [if_pos hlast]
    exact delivers_start hc h

/-! ## What the converter passes on -/

/-- The tool deltas of the calls from the `i`-th one on, in blocks from `base` on. -/
def toolDeltas (base : ℤ) (i : ℕ) (calls : List ToolCallResponse) : List ToolDelta :=
  ((argumentsFrom i calls).filter fun fragment => fragment.2 ≠ "").map fun fragment =>
    ⟨fragment.1, base + fragment.1, fragment.2⟩

variable (base : ℤ)

theorem toolDeltas_cons (i : ℕ) (call : ToolCallResponse) (calls : List ToolCallResponse) :
    toolDeltas base i (call :: calls)
      = (if call.arguments ≠ "" then [⟨call.offset i, base + call.offset i, call.arguments⟩] else [])
        ++ toolDeltas base (i + 1) calls := by
  by_cases h : call.arguments = ""
  · rw [toolDeltas, argumentsFrom, List.filter_cons_of_neg (by simpa using h), ← toolDeltas,
      if_neg (not_not.mpr h), List.nil_append]
  · rw [toolDeltas, argumentsFrom, List.filter_cons_of_pos (by simpa using h), List.map_cons,
      ← toolDeltas, if_pos h, List.singleton_append]

/-- The arguments of the calls, delivered. -/
theorem content_toolDeltas (i : ℕ) (calls : List ToolCallResponse) :
    Delivery.content { tools := toolDeltas base i calls }
      = ⟨"", "", argumentsOf (argumentsFrom i calls)⟩ := by
  rw [Delivery.content]
  simp only [Content.mk.injEq, true_and]
  rw [← argumentsOf_filter (argumentsFrom i calls), toolDeltas, List.map_map]
  exact congrArg argumentsOf (List.map_id _)

/-- The loop over the tool calls of a chunk delivers their arguments. -/
theorem events_toolLoop (r : Reader) (i : ℕ) (maxOffset : ℤ) (calls : List ToolCallResponse) :
    r.events (toolLoop r.base i maxOffset calls : List (Event U) × ℤ).1
      = { r with got := r.got.append { tools := toolDeltas r.base i calls } } := by
  induction calls generalizing r i maxOffset with
  | nil => rw [show toolDeltas r.base i [] = [] from rfl, Delivery.append_nothing]; rfl
  | cons call calls ih =>
    have hcall : r.events (toolEvents (r.base + call.offset i) call : List (Event U))
        = ⟨r.base, r.got.append { tools := if call.arguments ≠ "" then
            [⟨call.offset i, r.base + call.offset i, call.arguments⟩] else [] }⟩ := by
      rw [toolEvents, Reader.events_append]
      have hstart : r.events (if call.name ≠ "" then
          [(.contentBlockStart (r.base + call.offset i) (.toolUse call.id call.name) : Event U)]
          else []) = r := by split <;> rfl
      rw [hstart]
      split
      · rw [Reader.events_cons, Reader.events_nil, Reader.event,
          show r.base + call.offset i - r.base = call.offset i by omega]
      · rw [Delivery.append_nothing]; rfl
    rw [toolLoop, Reader.events_append, hcall]
    refine (ih ⟨r.base, _⟩ (i + 1) _).trans ?_
    simp only [Reader.mk.injEq, true_and]
    rw [Delivery.append_assoc, toolDeltas_cons]
    rfl

theorem le_toolLoop (i : ℕ) (maxOffset : ℤ) (calls : List ToolCallResponse) :
    maxOffset ≤ (toolLoop base i maxOffset calls : List (Event U) × ℤ).2 := by
  induction calls generalizing i maxOffset with
  | nil => exact Int.le_refl _
  | cons call calls ih => exact Int.le_trans (Int.le_max_left _ _) (ih _ _)

theorem events_enterTools (h : Tracks r info) :
    r.events info.enterTools.2 = { r with base := info.enterTools.1.toolCallBaseIndex } := by
  rw [enterTools]
  by_cases hlast : info.lastMessagesType = .tools
  · have hbase := h.base
    rw [base, hlast] at hbase
    have hindex : r.base = info.toolCallBaseIndex := hbase
    rw [if_neg (not_not.mpr hlast), ← hindex]
    rfl
  · rw [if_pos hlast]
    exact events_stopOpenBlocksAndAdvance h

theorem enterTools_offset (h : 0 ≤ info.toolCallMaxIndexOffset) : 0 ≤ info.enterTools.1.toolCallMaxIndexOffset := by
  rw [enterTools]
  split
  · exact Int.le_refl 0
  · exact h

theorem delivers_sendToolCalls (h : Tracks r info) (calls : List ToolCallResponse) :
    Delivers r (info.sendToolCalls calls)
      { tools := toolDeltas info.enterTools.1.toolCallBaseIndex 0 calls } := by
  have hevents : r.events (info.sendToolCalls calls).2
      = ⟨info.enterTools.1.toolCallBaseIndex,
          r.got.append { tools := toolDeltas info.enterTools.1.toolCallBaseIndex 0 calls }⟩ := by
    rw [sendToolCalls, Reader.events_append, events_enterTools h]
    exact events_toolLoop ⟨info.enterTools.1.toolCallBaseIndex, r.got⟩ 0 _ calls
  refine ⟨by rw [hevents], fun _ => ?_⟩
  rw [hevents]
  refine ⟨Int.le_trans (enterTools_offset h.offset) (le_toolLoop _ 0 _ calls), ?_⟩
  have hlast : (info.sendToolCalls calls).1.lastMessagesType = .tools := enterTools_last info
  rw [base, hlast]
  rfl

/-- One of the three kinds of content: tool calls before thinking, thinking before text. -/
def Delta.passed (base : ℤ) (delta : Delta) : Delivery :=
  if delta.toolCalls ≠ [] then { tools := toolDeltas base 0 delta.toolCalls }
  else if delta.getReasoningContent ≠ "" then { thinking := delta.getReasoningContent }
  else { text := delta.getContentString }

theorem delivers_sendDelta (h : Tracks r info) (delta : Delta) :
    Delivers r (info.sendDelta delta) (delta.passed info.enterTools.1.toolCallBaseIndex) := by
  rw [sendDelta, Delta.passed]
  by_cases htools : delta.toolCalls ≠ []
  · rw [if_pos htools, if_pos htools]
    exact delivers_sendToolCalls h delta.toolCalls
  rw [if_neg htools, if_neg htools]
  by_cases hreasoning : delta.getReasoningContent ≠ ""
  · rw [if_pos hreasoning, if_pos hreasoning]
    have hc : LastMessageType.thinking.carries (.thinkingDelta delta.getReasoningContent) := trivial
    exact delivers_sendContent hc h
  rw [if_neg hreasoning, if_neg hreasoning]
  by_cases htext : delta.getContentString ≠ ""
  · rw [if_pos htext]
    have hc : LastMessageType.text.carries (.textDelta delta.getContentString) := trivial
    exact delivers_sendContent hc h
  · rw [if_neg htext, not_not.mp htext]
    exact h.delivers

/-- The first chunk: its first tool call, and its thinking or else its text. -/
def Delta.firstPassed (delta : Delta) : Delivery where
  text := if delta.getReasoningContent ≠ "" then "" else delta.getContentString
  thinking := delta.getReasoningContent
  tools := (toolDeltas 0 0 (delta.toolCalls.take 1)).map fun d => ⟨0, 0, d.text⟩

/-- Nothing has been sent yet. -/
structure Fresh (r : Reader) (info : ClaudeConvertInfo U) : Prop extends Tracks r info where
  last : info.lastMessagesType = .none
  start : r.base = 0

/-- Deliveries one after the other. -/
theorem Delivers.append {sent sent' : ClaudeConvertInfo U × List (Event U)} {d d' : Delivery}
    (h : Delivers r sent d) (h' : Delivers (r.events sent.2) sent' d') :
    Delivers r (sent'.1, sent.2 ++ sent'.2) (d.append d') := by
  refine ⟨?_, fun hdone => ?_⟩
  · rw [Reader.events_append, h'.got, h.got, Delivery.append_assoc]
  · rw [Reader.events_append]
    exact h'.follows hdone

theorem delivers_close (r : Reader) (info : ClaudeConvertInfo U) (usage : Option U) :
    Delivers r (info.close usage) {} := by
  refine ⟨?_, fun hdone => Bool.noConfusion (hdone : true = false)⟩
  rw [close, Reader.events_append, Delivery.append_nothing]
  have hend : ∀ (r : Reader) (stopReason : String), r.events (endEvents usage stopReason) = r := by
    intro r stopReason
    cases usage <;> rfl
  rw [hend, got_stopOpenBlocks]

/-- The first tool call of the first chunk, at index 0. -/
theorem delivers_firstTool (h : Fresh r info) (choice : Choice) (choices : List Choice)
    (chunk : Chunk U) (hchoices : chunk.choices = choice :: choices) :
    Delivers r (info.firstTool chunk) { tools := choice.delta.firstPassed.tools } := by
  have hcall : chunk.getFirstToolCall = choice.delta.toolCalls.head? := by
    rw [Chunk.getFirstToolCall, hchoices]
  rw [firstTool, hcall]
  cases hcalls : choice.delta.toolCalls with
  | nil =>
    rw [Delta.firstPassed, hcalls]
    exact h.toTracks.delivers
  | cons call calls =>
    have hevents : r.events (.contentBlockStart 0 (.toolUse call.id call.name) ::
        if call.arguments ≠ "" then
          [(.contentBlockDelta 0 (.inputJsonDelta call.arguments) : Event U)] else [])
        = ⟨0, r.got.append { tools := choice.delta.firstPassed.tools }⟩ := by
      obtain ⟨base, got⟩ := r
      have hbase : base = 0 := h.start
      subst hbase
      rw [Delta.firstPassed, hcalls, List.take_succ_cons, List.take_zero, toolDeltas_cons]
      by_cases hargs : call.arguments = ""
      · rw [if_neg (not_not.mpr hargs), if_neg (not_not.mpr hargs)]
        exact congrArg (Reader.mk 0) (Delivery.append_nothing got).symm
      · rw [if_pos hargs, if_pos hargs]
        rfl
    refine ⟨congrArg Reader.got hevents, fun _ => ?_⟩
    exact ⟨Int.le_refl 0, congrArg Reader.base hevents⟩

/-- Without its tool calls a chunk passes on what its content in the first chunk would be. -/
theorem Delta.passed_withoutTools (delta : Delta) :
    Delta.passed base { delta with toolCalls := [] } =
      { text := delta.firstPassed.text, thinking := delta.firstPassed.thinking } := by
  rw [Delta.passed, if_neg (not_not_intro rfl)]
  show (if delta.getReasoningContent ≠ "" then { thinking := delta.getReasoningContent }
    else { text := delta.getContentString } : Delivery) = _
  by_cases hreasoning : delta.getReasoningContent = "" <;> simp [Delta.firstPassed, hreasoning]

theorem firstTool_done (chunk : Chunk U) : (info.firstTool chunk).1.done = info.done := by
  rw [firstTool]
  split <;> rfl

/-- The first chunk, up to its finish reason. -/
theorem delivers_firstChunk (h : Fresh r info) (hdone : info.done = false) (est : ℤ)
    (choice : Choice) (choices : List Choice) (chunk : Chunk U) (hchoices : chunk.choices = choice :: choices) :
    Delivers r (firstChunk est info chunk) choice.delta.firstPassed := by
  have htool := delivers_firstTool h choice choices chunk hchoices
  have hfollows := htool.follows ((firstTool_done chunk).trans hdone)
  have hcontent := delivers_sendDelta hfollows { choice.delta with toolCalls := [] }
  rw [← firstContent_firstTool h.last, Delta.passed_withoutTools] at hcontent
  have hsent : Delivers r ((((info.firstTool chunk).1).firstContent choice.delta).1,
      .messageStart chunk.id chunk.model est :: (info.firstTool chunk).2
        ++ (((info.firstTool chunk).1).firstContent choice.delta).2) choice.delta.firstPassed := by
    have happ := htool.append hcontent
    rw [show choice.delta.firstPassed = Delivery.append { tools := choice.delta.firstPassed.tools }
      { text := choice.delta.firstPassed.text, thinking := choice.delta.firstPassed.thinking } by
        simp only [Delivery.append, String.empty_append, List.append_nil]]
    exact ⟨happ.got, happ.follows⟩
  rw [firstChunk, hchoices]
  dsimp only
  cases choice.finish with
  | none => exact hsent
  | some reason =>
    have hclosed := hsent.append (delivers_close _
      { (((info.firstTool chunk).1).firstContent choice.delta).1 with finishReason := reason }
      (chunk.usage <|> info.usage))
    rw [Delivery.append_nothing] at hclosed
    exact hclosed

theorem enterTools_base_finishReason (info : ClaudeConvertInfo U) (reason : String) :
    ({ info with finishReason := reason }.enterTools).1.toolCallBaseIndex = info.enterTools.1.toolCallBaseIndex := by
  obtain ⟨last, index, usage, finishReason, done, base, offset⟩ := info
  cases last <;> rfl

/-- What a later chunk with a choice passes on: nothing when a finish reason comes without a usage. -/
theorem delivers_choiceChunk (h : Tracks r info) (usage : Option U) (choice : Choice) :
    Delivers r (choiceChunk info usage choice)
      (if choice.finish ≠ none ∧ usage = none then {}
        else choice.delta.passed info.enterTools.1.toolCallBaseIndex) := by
  rw [choiceChunk]
  cases choice.finish with
  | none =>
    rw [if_neg fun hfin => hfin.1 rfl]
    exact delivers_sendDelta h choice.delta
  | some reason =>
    have hinfo : Tracks r { info with finishReason := reason } := ⟨h.offset, h.base⟩
    cases usage with
    | none =>
      rw [if_pos ⟨nofun, rfl⟩]
      exact hinfo.delivers
    | some usage =>
      rw [if_neg fun hfin => nomatch hfin.2]
      have hsent := delivers_sendDelta hinfo choice.delta
      have hclosed := hsent.append (delivers_close _
        (({ info with finishReason := reason }.sendDelta choice.delta)).1 (some usage))
      rw [Delivery.append_nothing, enterTools_base_finishReason] at hclosed
      exact hclosed

theorem delivers_usageChunk (h : Tracks r info) (chunk : Chunk U) : Delivers r (usageChunk info chunk) {} := by
  rw [usageChunk]
  cases chunk.usage <|> info.usage with
  | none => exact h.delivers
  | some usage =>
    refine ⟨?_, fun hdone => Bool.noConfusion (hdone : true = false)⟩
    rw [Reader.events_append, Delivery.append_nothing]
    exact got_stopOpenBlocks

/-- What the converter passes on of a chunk, the `count`-th one. -/
def passedOn (count : ℕ) (info : ClaudeConvertInfo U) (chunk : Chunk U) : Delivery :=
  match chunk.choices with
  | [] => {}
  | choice :: _ =>
    if info.done then {}
    else if count = 1 then choice.delta.firstPassed
    else if choice.finish ≠ none ∧ chunk.usage = none then {}
    else choice.delta.passed info.enterTools.1.toolCallBaseIndex

theorem delivers_streamResponseOpenAI2Claude {count : ℕ} (h : info.done = false → Tracks r info)
    (hfirst : count = 1 → Fresh r info) (est : ℤ) (chunk : Chunk U) :
    Delivers r (streamResponseOpenAI2Claude est count info chunk) (passedOn count info chunk) := by
  rw [streamResponseOpenAI2Claude, passedOn]
  cases hdone : info.done with
  | true =>
    rw [if_pos rfl]
    have hnothing : Delivers r (info, []) {} :=
      ⟨(Delivery.append_nothing _).symm, fun hd => Bool.noConfusion (hd.symm.trans hdone)⟩
    cases chunk.choices with
    | nil | cons choice choices => exact hnothing
  | false =>
    rw [if_neg Bool.false_ne_true]
    have hfollows := h hdone
    by_cases hcount : count = 1
    · rw [if_pos hcount]
      have hfresh := hfirst hcount
      cases hchoices : chunk.choices with
      | nil =>
        have hnone : chunk.getFirstToolCall = none := by rw [Chunk.getFirstToolCall, hchoices]
        rw [firstChunk, hchoices, firstTool, hnone]
        exact ⟨(Delivery.append_nothing _).symm, fun _ => hfollows⟩
      | cons choice choices =>
        dsimp only
        rw [if_neg Bool.false_ne_true, if_pos hcount]
        exact delivers_firstChunk hfresh hdone est choice choices chunk hchoices
    · rw [if_neg hcount]
      cases chunk.choices with
      | nil => exact delivers_usageChunk hfollows chunk
      | cons choice choices =>
        dsimp only
        rw [if_neg Bool.false_ne_true, if_neg hcount]
        exact delivers_choiceChunk hfollows chunk.usage choice

end OneApi.Claude.Stream

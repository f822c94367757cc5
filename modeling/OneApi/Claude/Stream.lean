import Mathlib.Data.Int.Notation
import Mathlib.Data.List.Basic

/-!
# From OpenAI chat chunks to Claude events

`StreamResponseOpenAI2Claude` turns one chunk of an OpenAI chat stream into the events of a Claude
stream.  What it has to remember from chunk to chunk is in `ClaudeConvertInfo`: the kind of the block
it sent last, the index of that block, and for tool calls the index of the first one and how far their
own indices have come.  The caller counts the chunks; the first one is handled apart, since it also
begins the message.

A usage record is only ever passed on, so its type is a parameter.
-/

namespace OneApi.Claude.Stream

/-! ## Chunks -/

structure ToolCallResponse where
  index : Option ℤ := none
  id : String := ""
  name : String := ""
  arguments : String := ""
  deriving Repr, DecidableEq

/-- `ChatCompletionsStreamResponseChoiceDelta`. -/
structure Delta where
  content : Option String := none
  reasoningContent : Option String := none
  reasoning : Option String := none
  toolCalls : List ToolCallResponse := []
  deriving Repr, DecidableEq

def Delta.getContentString (delta : Delta) : String := delta.content.getD ""

def Delta.getReasoningContent (delta : Delta) : String :=
  match delta.reasoningContent, delta.reasoning with
  | none, none => ""
  | some text, _ => text
  | none, some text => text

structure Choice where
  delta : Delta := {}
  finishReason : Option String := none
  deriving Repr, DecidableEq

/-- The finish reason of a choice that has one and whose text is not empty. -/
def Choice.finish (choice : Choice) : Option String :=
  match choice.finishReason with
  | some reason => if reason ≠ "" then some reason else none
  | none => none

/-- `ChatCompletionsStreamResponse`. -/
structure Chunk (U : Type) where
  id : String := ""
  model : String := ""
  choices : List Choice := []
  usage : Option U := none
  deriving Repr, DecidableEq

/-- `GetFirstToolCall`; there is one when `IsToolCall`. -/
def Chunk.getFirstToolCall {U : Type} (chunk : Chunk U) : Option ToolCallResponse :=
  match chunk.choices with
  | [] => none
  | choice :: _ => choice.delta.toolCalls.head?

/-! ## Events -/

inductive Block
  | text
  | thinking
  | toolUse (id name : String)
  deriving Repr, DecidableEq

inductive BlockDelta
  | textDelta (text : String)
  | thinkingDelta (thinking : String)
  | inputJsonDelta (partialJson : String)
  deriving Repr, DecidableEq

/-- The events of a Claude stream. -/
inductive Event (U : Type)
  | messageStart (id model : String) (inputTokens : ℤ)
  | contentBlockStart (index : ℤ) (block : Block)
  | contentBlockDelta (index : ℤ) (delta : BlockDelta)
  | contentBlockStop (index : ℤ)
  | messageDelta (usage : U) (stopReason : String)
  | messageStop
  deriving Repr, DecidableEq

/-- `OpenAIFinishReasonToClaudeStopReason`. -/
def stopReasonOpenAI2Claude (finishReason : String) : String :=
  match finishReason.toLower with
  | "stop" => "end_turn"
  | "stop_sequence" => "stop_sequence"
  | "length" => "max_tokens"
  | "max_tokens" => "max_tokens"
  | "content_filter" => "refusal"
  | "tool_calls" => "tool_use"
  | _ => finishReason

/-! ## The converter -/

inductive LastMessageType
  | none
  | text
  | tools
  | thinking
  deriving Repr, DecidableEq

structure ClaudeConvertInfo (U : Type) where
  lastMessagesType : LastMessageType := .none
  index : ℤ := 0
  usage : Option U := none
  finishReason : String := ""
  done : Bool := false
  toolCallBaseIndex : ℤ := 0
  toolCallMaxIndexOffset : ℤ := 0
  deriving Repr, DecidableEq

variable {U : Type}

/-- The `n` indices from `base` on. -/
def indicesFrom (base : ℤ) (n : ℕ) : List ℤ := (List.range n).map fun offset : ℕ => base + offset

theorem indicesFrom_cons (base : ℤ) (n : ℕ) : indicesFrom base (n + 1) = base :: indicesFrom (base + 1) n := by
  rw [indicesFrom, List.range_succ_eq_map, List.map_cons, List.map_map]
  refine congrArg₂ List.cons (Int.add_zero base) (List.map_congr_left fun i _ => ?_)
  rw [Function.comp]
  omega

theorem indicesFrom_snoc (base : ℤ) (n : ℕ) : indicesFrom base (n + 1) = indicesFrom base n ++ [base + n] := by
  rw [indicesFrom, List.range_succ, List.map_append, List.map_singleton, ← indicesFrom]

theorem mem_indicesFrom {base offset : ℤ} {n : ℕ} : base + offset ∈ indicesFrom base n ↔ 0 ≤ offset ∧ offset < n := by
  simp only [indicesFrom, List.mem_map, List.mem_range]
  constructor
  · rintro ⟨i, hi, heq⟩
    omega
  · intro h
    exact ⟨offset.toNat, by omega, by omega⟩

/-- The last events of a message; the usage goes with the stop reason. -/
def endEvents (usage : Option U) (stopReason : String) : List (Event U) :=
  match usage with
  | some usage => [.messageDelta usage stopReason, .messageStop]
  | none => [.messageStop]

namespace ClaudeConvertInfo

def stopOpenBlocks (info : ClaudeConvertInfo U) : List (Event U) :=
  match info.lastMessagesType with
  | .none => []
  | .text => [.contentBlockStop info.index]
  | .thinking => [.contentBlockStop info.index]
  | .tools =>
    (indicesFrom info.toolCallBaseIndex (info.toolCallMaxIndexOffset + 1).toNat).map .contentBlockStop

def stopOpenBlocksAndAdvance (info : ClaudeConvertInfo U) : ClaudeConvertInfo U × List (Event U) :=
  match info.lastMessagesType with
  | .none => (info, [])
  | .tools =>
    ({ info with
        index := info.toolCallBaseIndex + info.toolCallMaxIndexOffset + 1
        toolCallBaseIndex := 0
        toolCallMaxIndexOffset := 0
        lastMessagesType := .none },
      info.stopOpenBlocks)
  | _ => ({ info with index := info.index + 1, lastMessagesType := .none }, info.stopOpenBlocks)

/-- The end of the message, with the usage if there is one. -/
def close (info : ClaudeConvertInfo U) (usage : Option U) : ClaudeConvertInfo U × List (Event U) :=
  ({ info with done := true },
    info.stopOpenBlocks ++ endEvents usage (stopReasonOpenAI2Claude info.finishReason))

/-- A block of text or of thinking is stopped and a new one started, or goes on when it is of the same
kind; then the delta is sent. -/
def sendContent (info : ClaudeConvertInfo U) (type : LastMessageType) (block : Block)
    (delta : BlockDelta) : ClaudeConvertInfo U × List (Event U) :=
  if info.lastMessagesType ≠ type then
    let advanced := info.stopOpenBlocksAndAdvance
    ({ advanced.1 with lastMessagesType := type },
      advanced.2 ++ [.contentBlockStart advanced.1.index block, .contentBlockDelta advanced.1.index delta])
  else (info, [.contentBlockDelta info.index delta])

end ClaudeConvertInfo

/-- The index of a tool call among the calls of its block run, its place in the chunk if it has none. -/
def ToolCallResponse.offset (call : ToolCallResponse) (i : ℕ) : ℤ := call.index.getD i

/-- The events of one tool call. -/
def toolEvents (blockIndex : ℤ) (call : ToolCallResponse) : List (Event U) :=
  (if call.name ≠ "" then [.contentBlockStart blockIndex (.toolUse call.id call.name)] else []) ++
    if call.arguments ≠ "" then [.contentBlockDelta blockIndex (.inputJsonDelta call.arguments)]
    else []

/-- The loop over the tool calls of a chunk: its events, and the largest offset so far. -/
def toolLoop (base : ℤ) : ℕ → ℤ → List ToolCallResponse → List (Event U) × ℤ
  | _, maxOffset, [] => ([], maxOffset)
  | i, maxOffset, call :: calls =>
    let rest := toolLoop base (i + 1) (max maxOffset (call.offset i)) calls
    (toolEvents (base + call.offset i) call ++ rest.1, rest.2)

namespace ClaudeConvertInfo

/-- The state before the tool calls of a chunk: they go on with the last run of tool blocks, or begin a
new one. -/
def enterTools (info : ClaudeConvertInfo U) : ClaudeConvertInfo U × List (Event U) :=
  if info.lastMessagesType ≠ .tools then
    let advanced := info.stopOpenBlocksAndAdvance
    ({ advanced.1 with
        toolCallBaseIndex := advanced.1.index
        toolCallMaxIndexOffset := 0
        lastMessagesType := .tools },
      advanced.2)
  else (info, [])

def sendToolCalls (info : ClaudeConvertInfo U) (calls : List ToolCallResponse) : ClaudeConvertInfo U × List (Event U) :=
  let entered := info.enterTools
  let loop := toolLoop entered.1.toolCallBaseIndex 0 entered.1.toolCallMaxIndexOffset calls
  ({ entered.1 with
      toolCallMaxIndexOffset := loop.2
      index := entered.1.toolCallBaseIndex + loop.2 },
    entered.2 ++ loop.1)

/-- The delta of a chunk: tool calls come before reasoning, and reasoning before content. -/
def sendDelta (info : ClaudeConvertInfo U) (delta : Delta) : ClaudeConvertInfo U × List (Event U) :=
  if delta.toolCalls ≠ [] then info.sendToolCalls delta.toolCalls
  else if delta.getReasoningContent ≠ "" then
    info.sendContent .thinking .thinking (.thinkingDelta delta.getReasoningContent)
  else if delta.getContentString ≠ "" then
    info.sendContent .text .text (.textDelta delta.getContentString)
  else (info, [])

/-- The tool call of the first chunk: its first one, always at index 0. -/
def firstTool (info : ClaudeConvertInfo U) (chunk : Chunk U) : ClaudeConvertInfo U × List (Event U) :=
  match chunk.getFirstToolCall with
  | none => (info, [])
  | some call =>
    ({ info with
        lastMessagesType := .tools
        toolCallBaseIndex := 0
        toolCallMaxIndexOffset := 0 },
      .contentBlockStart 0 (.toolUse call.id call.name) ::
        if call.arguments ≠ "" then [.contentBlockDelta 0 (.inputJsonDelta call.arguments)] else [])

/-- A block that the content of the first chunk begins. -/
def beginContent (info : ClaudeConvertInfo U) (type : LastMessageType) (block : Block)
    (delta : BlockDelta) : ClaudeConvertInfo U × List (Event U) :=
  let advanced := if info.lastMessagesType ≠ type then info.stopOpenBlocksAndAdvance else (info, [])
  ({ advanced.1 with lastMessagesType := type },
    advanced.2 ++ [.contentBlockStart advanced.1.index block, .contentBlockDelta advanced.1.index delta])

/-- The content of the first chunk. -/
def firstContent (info : ClaudeConvertInfo U) (delta : Delta) : ClaudeConvertInfo U × List (Event U) :=
  if delta.getReasoningContent ≠ "" then
    info.beginContent .thinking .thinking (.thinkingDelta delta.getReasoningContent)
  else if delta.getContentString ≠ "" then
    info.beginContent .text .text (.textDelta delta.getContentString)
  else (info, [])

end ClaudeConvertInfo

theorem enterTools_last (info : ClaudeConvertInfo U) : info.enterTools.1.lastMessagesType = .tools := by
  rw [ClaudeConvertInfo.enterTools]
  by_cases hlast : info.lastMessagesType = .tools
  · rw [if_neg (not_not_intro hlast)]
    exact hlast
  · rw [if_pos hlast]

/-- The content of the first chunk begins a block as the same content of a later chunk would, since no
text or thinking is open. -/
theorem firstContent_firstTool {info : ClaudeConvertInfo U} (h : info.lastMessagesType = .none)
    (chunk : Chunk U) (delta : Delta) :
    (info.firstTool chunk).1.firstContent delta =
      (info.firstTool chunk).1.sendDelta { delta with toolCalls := [] } := by
  have hbegin : ∀ (type : LastMessageType) (block : Block) (blockDelta : BlockDelta),
      type ≠ .none → type ≠ .tools → (info.firstTool chunk).1.beginContent type block blockDelta =
        (info.firstTool chunk).1.sendContent type block blockDelta := by
    intro type block blockDelta hnone htools
    have hne : (info.firstTool chunk).1.lastMessagesType ≠ type := by
      rw [ClaudeConvertInfo.firstTool]
      split
      · rw [h]
        exact hnone.symm
      · exact htools.symm
    rw [ClaudeConvertInfo.beginContent, ClaudeConvertInfo.sendContent, if_pos hne, if_pos hne]
  rw [ClaudeConvertInfo.firstContent, ClaudeConvertInfo.sendDelta, if_neg (not_not_intro rfl),
    hbegin .thinking _ _ nofun nofun, hbegin .text _ _ nofun nofun]
  rfl

/-- The first chunk: it begins the message, sends what it has, and ends the message at once when it has
a finish reason. -/
def firstChunk (estimatePromptTokens : ℤ) (info : ClaudeConvertInfo U) (chunk : Chunk U) :
    ClaudeConvertInfo U × List (Event U) :=
  let start : Event U := .messageStart chunk.id chunk.model estimatePromptTokens
  let tool := info.firstTool chunk
  match chunk.choices with
  | [] => (tool.1, start :: tool.2)
  | choice :: _ =>
    let content := tool.1.firstContent choice.delta
    match choice.finish with
    | none => (content.1, start :: tool.2 ++ content.2)
    | some reason =>
      let closed := { content.1 with finishReason := reason }.close (chunk.usage <|> info.usage)
      (closed.1, start :: tool.2 ++ content.2 ++ closed.2)

/-- A chunk without choices, which ends the message when there is a usage. -/
def usageChunk (info : ClaudeConvertInfo U) (chunk : Chunk U) : ClaudeConvertInfo U × List (Event U) :=
  match chunk.usage <|> info.usage with
  | none => (info, [])
  | some usage =>
    let stopReason := stopReasonOpenAI2Claude info.finishReason
    ({ info with done := true },
      info.stopOpenBlocks ++
        endEvents (some usage) (if stopReason = "" then "end_turn" else stopReason))

/-- A later chunk with a choice.  A finish reason without a usage in the same chunk is only kept: a
chunk with the usage is expected to follow. -/
def choiceChunk (info : ClaudeConvertInfo U) (usage : Option U) (choice : Choice) :
    ClaudeConvertInfo U × List (Event U) :=
  match choice.finish with
  | none => info.sendDelta choice.delta
  | some reason =>
    let info := { info with finishReason := reason }
    match usage with
    | none => (info, [])
    | some usage =>
      let sent := info.sendDelta choice.delta
      let closed := sent.1.close (some usage)
      (closed.1, sent.2 ++ closed.2)

/-- `StreamResponseOpenAI2Claude`; `sendResponseCount` is the number of the chunk. -/
def streamResponseOpenAI2Claude (estimatePromptTokens : ℤ) (sendResponseCount : ℕ)
    (info : ClaudeConvertInfo U) (chunk : Chunk U) : ClaudeConvertInfo U × List (Event U) :=
  if info.done then (info, [])
  else if sendResponseCount = 1 then firstChunk estimatePromptTokens info chunk
  else
    match chunk.choices with
    | [] => usageChunk info chunk
    | choice :: _ => choiceChunk info chunk.usage choice

/-! ## A stream -/

/-- The chunks of one stream so far: how many, what the converter remembers, what it has sent. -/
structure Session (U : Type) where
  count : ℕ := 0
  info : ClaudeConvertInfo U := {}
  events : List (Event U) := []
  deriving Repr, DecidableEq

/-- A chunk, and the usage that the caller has put in the converter's state when it arrives. -/
structure Input (U : Type) where
  chunk : Chunk U
  usage : Option U := none
  deriving Repr, DecidableEq

/-- The caller counts the chunk and converts it. -/
def step (estimatePromptTokens : ℤ) (s : Session U) (input : Input U) : Session U :=
  let sent := streamResponseOpenAI2Claude estimatePromptTokens (s.count + 1)
    { s.info with usage := input.usage } input.chunk
  ⟨s.count + 1, sent.1, s.events ++ sent.2⟩

end OneApi.Claude.Stream

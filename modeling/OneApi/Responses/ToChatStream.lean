import OneApi.Claude.Stream
import OneApi.Lib.Emit
import OneApi.Responses.Convert
import Mathlib.Data.Char
import Mathlib.Data.List.AList
import Mathlib.Data.List.Lex
import Mathlib.Data.List.Sort

/-!
# From the events of a Responses stream to chat chunks

`ResponsesStreamEventToChatChunks` turns the events of a Responses stream into the chunks of a chat
stream.  A tool call is known by its output index, its item id and its call id, and an event may carry
any of them; the state keeps a map from each kind of identifier to a key, and one from keys to tools.
Argument deltas of a tool that is not known yet wait under the output index or the item id they came
with.

The tools are pointers in the source and several keys may lead to one of them.  Here they are the
elements of `tools`, and a key leads to a position; the chat index of a tool is its position, since it
is counted up with every tool.  The time of creation, the text kept for counting tokens and the role of
the first chunk are left out.
-/

namespace OneApi.Responses

open Claude.Stream (Chunk Delta ToolCallResponse)
open Chat Lib.Emit Tokens OneApi.Lib.Go

/-- A key: `output:3`, `item:fc_1` or `call:call_1`. -/
inductive ToolKey
  | output (index : ℤ)
  | item (id : String)
  | call (id : String)
  deriving Repr, DecidableEq

def ToolKey.text : ToolKey → String
  | .output index => s!"output:{index}"
  | .item id => "item:" ++ id
  | .call id => "call:" ++ id

/-- `responsesStreamTool`, without its index. -/
structure ResponsesStreamTool where
  key : ToolKey
  callID : String := ""
  itemID : String := ""
  name : String := ""
  arguments : String := ""
  sent : Bool := false
  nameSent : Bool := false
  argsSentAt : ℕ := 0
  deriving Repr, DecidableEq

structure ResponsesToChatStreamState where
  id : String := ""
  model : String := ""
  includeUsage : Bool := false
  usage : Usage := {}
  sentStart : Bool := false
  finalized : Bool := false
  hasSentText : Bool := false
  sawToolCall : Bool := false
  hasSentReasoning : Bool := false
  needsReasoningSummaryBreak : Bool := false
  tools : List ResponsesStreamTool := []
  toolByKey : AList (fun _ : ToolKey => ℕ) := ∅
  outputIndexToKey : AList (fun _ : ℤ => ToolKey) := ∅
  itemIDToKey : AList (fun _ : String => ToolKey) := ∅
  callIDToKey : AList (fun _ : String => ToolKey) := ∅
  pendingArgsByOutputIndex : AList (fun _ : ℤ => String) := ∅
  pendingArgsByItemID : AList (fun _ : String => String) := ∅

def newResponsesToChatStreamState (model : String) (includeUsage : Bool) :
    ResponsesToChatStreamState where
  model := model
  includeUsage := includeUsage

/-- A trimmed text, if anything is left of it. -/
def nonBlank (text : String) : Option String :=
  if trimSpace text = "" then none else some (trimSpace text)

def responseStreamEventItemID (event : ResponsesStreamResponse) : Option String :=
  (event.item.bind fun item => nonBlank item.id).or (nonBlank event.itemID)

def keyForEvent (event : ResponsesStreamResponse) : Option ToolKey :=
  (event.outputIndex.map ToolKey.output).or ((event.item.bind fun item =>
      ((nonBlank item.id).map ToolKey.item).or ((nonBlank item.callId).map ToolKey.call)).or
    ((nonBlank event.itemID).map ToolKey.item))

def fallbackToolKey (itemID callID : String) (outputIndex : Option ℤ) : Option ToolKey :=
  (outputIndex.map ToolKey.output).or (((nonBlank itemID).map ToolKey.item).or ((nonBlank callID).map ToolKey.call))

def fallbackCallID (event : ResponsesStreamResponse) : String :=
  match nonBlank event.itemID, event.outputIndex with
  | some id, _ => id
  | none, some index => s!"call_output_{index}"
  | none, none => ""

namespace ResponsesToChatStreamState

variable (s : ResponsesToChatStreamState)

def makeChunk (delta : Delta) (finishReason : Option String) : Chunk Usage where
  id := s.id
  model := s.model
  choices := [{ delta := delta, finishReason := finishReason }]

def applyResponseMetadata (response : Option OpenAIResponsesResponse) : ResponsesToChatStreamState :=
  match response with
  | none => s
  | some response =>
    { s with
      id := if response.id ≠ "" ∧ s.id = "" then response.id else s.id
      model := if response.model ≠ "" then response.model else s.model
      usage := match response.usage with
        | some usage => usageFromResponsesUsage (some usage)
        | none => s.usage }

/-! ### The tools -/

def modifyTool (ref : ℕ) (change : ResponsesStreamTool → ResponsesStreamTool) : ResponsesToChatStreamState :=
  { s with tools := s.tools.modify ref change }

/-- A new tool under a key; its position is the number of tools before it. -/
def addTool (tool : ResponsesStreamTool) : ResponsesToChatStreamState :=
  { s with
    tools := s.tools ++ [tool]
    toolByKey := s.toolByKey.insert tool.key s.tools.length }

/-- The tool under a key, or a new one. -/
def toolUnder (new : ResponsesStreamTool) : ResponsesToChatStreamState × ℕ :=
  match s.toolByKey.lookup new.key with
  | some ref => (s, ref)
  | none => (s.addTool new, s.tools.length)

/-- The tool that an item id or a call id is known for. -/
def toolByItemID (id : Option String) : Option ℕ :=
  id.bind fun id => (s.itemIDToKey.lookup id).bind fun key => s.toolByKey.lookup key

def toolByCallID (id : Option String) : Option ℕ :=
  id.bind fun id => (s.callIDToKey.lookup id).bind fun key => s.toolByKey.lookup key

def toolByOutputIndex (index : Option ℤ) : Option ℕ :=
  index.bind fun index => (s.outputIndexToKey.lookup index).bind fun key => s.toolByKey.lookup key

/-- The key of the output index is remembered, and what waited under the index goes to the tool. -/
def registerOutputIndex (outputIndex : Option ℤ) (key : ToolKey) (ref : ℕ) : ResponsesToChatStreamState :=
  match outputIndex with
  | none => s
  | some index =>
    let pending := (s.pendingArgsByOutputIndex.lookup index).getD ""
    let s := { s with outputIndexToKey := s.outputIndexToKey.insert index key }
    if pending ≠ "" then
      { s.modifyTool ref fun tool => { tool with arguments := tool.arguments ++ pending } with
        pendingArgsByOutputIndex := s.pendingArgsByOutputIndex.erase index }
    else s

/-- The same for the item id. -/
def registerItemID (itemID : Option String) (key : ToolKey) (ref : ℕ) : ResponsesToChatStreamState :=
  match itemID with
  | none => s
  | some id =>
    let pending := (s.pendingArgsByItemID.lookup id).getD ""
    let s := { s.modifyTool ref fun tool => { tool with itemID := id } with
      itemIDToKey := s.itemIDToKey.insert id key }
    if pending ≠ "" then
      { s.modifyTool ref fun tool => { tool with arguments := tool.arguments ++ pending } with
        pendingArgsByItemID := s.pendingArgsByItemID.erase id }
    else s

/-- The call id and the name of the item. -/
def registerItem (item : ResponsesOutput) (key : ToolKey) (ref : ℕ) : ResponsesToChatStreamState :=
  let s := match nonBlank item.callId with
    | some id =>
      { s.modifyTool ref fun tool => { tool with callID := id } with
        callIDToKey := s.callIDToKey.insert id key }
    | none =>
      s.modifyTool ref fun tool =>
        { tool with callID := if tool.callID = "" then trimSpace item.id else tool.callID }
  match nonBlank item.name with
  | some name => s.modifyTool ref fun tool => { tool with name := name }
  | none => s

/-- The tool under the key, under an identifier that is known already, or a new one. -/
def toolForKey (event : ResponsesStreamResponse) (item : ResponsesOutput) (key : ToolKey) :
    ResponsesToChatStreamState × ℕ :=
  match s.toolByKey.lookup key with
  | some ref => (s, ref)
  | none =>
    match (s.toolByItemID (responseStreamEventItemID event)).or (s.toolByCallID (nonBlank item.callId)) with
    | some ref => ({ s with toolByKey := s.toolByKey.insert key ref }, ref)
    | none => (s.addTool { key := key }, s.tools.length)

def ensureToolForEvent (event : ResponsesStreamResponse) : Option (ResponsesToChatStreamState × ℕ) :=
  event.item.bind fun item =>
    ((keyForEvent event).or (fallbackToolKey item.id item.callId event.outputIndex)).map fun key =>
      let found := s.toolForKey event item key
      let s := found.1.registerOutputIndex event.outputIndex key found.2
      let s := s.registerItemID (responseStreamEventItemID event) key found.2
      (s.registerItem item key found.2, found.2)

def findToolForEvent (event : ResponsesStreamResponse) : Option ℕ :=
  if (event.outputIndex.bind fun index => s.outputIndexToKey.lookup index).isSome then
    s.toolByOutputIndex event.outputIndex
  else if ((nonBlank event.itemID).bind fun id => s.itemIDToKey.lookup id).isSome then
    s.toolByItemID (nonBlank event.itemID)
  else event.item.bind fun _ => (keyForEvent event).bind fun key => s.toolByKey.lookup key

def ensureFallbackToolForEvent (event : ResponsesStreamResponse) : Option (ResponsesToChatStreamState × ℕ) :=
  ((event.outputIndex.map ToolKey.output).or ((nonBlank event.itemID).map ToolKey.item)).map
    fun key =>
      let found := s.toolUnder { key := key, callID := fallbackCallID event }
      let s := found.1.registerOutputIndex event.outputIndex key found.2
      (s.registerItemID (responseStreamEventItemID event) key found.2, found.2)

end ResponsesToChatStreamState

open ResponsesToChatStreamState

/-! ## Chunks -/

/-- A step of the converter. -/
abbrev ChatStep := Step ResponsesToChatStreamState (Chunk Usage)

def silent : ChatStep := fun s => (s, [])

def ensureStart : ChatStep := fun s =>
  if s.sentStart then (s, [])
  else ({ s with sentStart := true }, [s.makeChunk { content := some "" } none])

/-- One chunk with a delta. -/
def sendDelta (delta : Delta) : ChatStep := fun s => (s, [s.makeChunk delta none])

def textDelta (delta : String) : ChatStep :=
  if delta = "" then silent
  else
    andThen (fun s => ensureStart { s with hasSentText := true }) (sendDelta { content := some delta })

/-- The line break before the next part of the reasoning. -/
def summaryBreak (s : ResponsesToChatStreamState) (delta : String) : String :=
  if s.needsReasoningSummaryBreak then
    if "\n\n".toList <+: delta.toList then delta
    else if "\n".toList <+: delta.toList then "\n" ++ delta
    else "\n\n" ++ delta
  else delta

def reasoningDelta (delta : String) : ChatStep := fun s =>
  if delta = "" then (s, [])
  else
    andThen (fun s => ensureStart
        { s with needsReasoningSummaryBreak := false, hasSentReasoning := true })
      (sendDelta { reasoningContent := some (summaryBreak s delta) }) s

/-- What is sent of the arguments: the given delta, or what has not been sent of them. -/
def argsToSend (tool : ResponsesStreamTool) (explicitDelta : String) : String :=
  if explicitDelta = "" ∧ len tool.arguments > tool.argsSentAt then
    dropBytes tool.arguments tool.argsSentAt
  else explicitDelta

/-- The tool when the delta was sent. -/
def ResponsesStreamTool.afterSend (tool : ResponsesStreamTool) (argsDelta : String) : ResponsesStreamTool :=
  { tool with
    sent := true
    nameSent := tool.nameSent || tool.name ≠ ""
    argsSentAt := tool.argsSentAt + len argsDelta }

/-- The fragment that is sent for a tool. -/
def ResponsesStreamTool.fragment (tool : ResponsesStreamTool) (ref : ℕ) (argsDelta : String) :
    ToolCallResponse where
  index := some ref
  id := if trimSpace tool.callID = "" then tool.key.text else trimSpace tool.callID
  name := if !tool.nameSent && tool.name ≠ "" then tool.name else ""
  arguments := argsDelta

def toolDelta (ref : ℕ) (explicitDelta : String) : ChatStep := fun s =>
  match s.tools[ref]? with
  | none => (s, [])
  | some tool =>
    let argsDelta := argsToSend tool explicitDelta
    if tool.sent ∧ argsDelta = "" ∧ (tool.name = "" ∨ tool.nameSent) then (s, [])
    else
      andThen ensureStart (fun s =>
        sendDelta { toolCalls := [tool.fragment ref argsDelta] }
          { s.modifyTool ref fun tool => tool.afterSend argsDelta with sawToolCall := true }) s

def toolItem (event : ResponsesStreamResponse) : ChatStep := fun s =>
  match s.ensureToolForEvent event with
  | none => (s, [])
  | some (s, ref) =>
    let args := (event.item.map ResponsesOutput.argumentsString).getD ""
    toolDelta ref "" (if args ≠ "" then s.modifyTool ref fun tool => { tool with arguments := args }
                      else s)

/-- A delta for a tool that is not known yet waits. -/
def bufferDelta (event : ResponsesStreamResponse) (s : ResponsesToChatStreamState) : ResponsesToChatStreamState :=
  match event.outputIndex, nonBlank event.itemID with
  | some index, _ =>
    { s with pendingArgsByOutputIndex := s.pendingArgsByOutputIndex.insert index
              ((s.pendingArgsByOutputIndex.lookup index).getD "" ++ event.delta) }
  | none, some itemID =>
    { s with pendingArgsByItemID := s.pendingArgsByItemID.insert itemID
              ((s.pendingArgsByItemID.lookup itemID).getD "" ++ event.delta) }
  | none, none => s

def toolArgumentsDelta (event : ResponsesStreamResponse) : ChatStep := fun s =>
  if event.delta = "" then (s, [])
  else
    match s.findToolForEvent event with
    | none => (bufferDelta event s, [])
    | some ref =>
      toolDelta ref event.delta (s.modifyTool ref fun tool => { tool with arguments := tool.arguments ++ event.delta })

def flushPendingTool (event : ResponsesStreamResponse) : ChatStep := fun s =>
  match s.findToolForEvent event with
  | some ref => toolDelta ref "" s
  | none =>
    match s.ensureFallbackToolForEvent event with
    | some (s, ref) => toolDelta ref "" s
    | none => (s, [])

/-! ## The end of the stream -/

def outputChunks (out : ResponsesOutput) : ChatStep := fun s =>
  if out.type = .message ∧ s.hasSentText = false then textDelta (outputText out.content) s
  else if out.type = .reasoning ∧ s.hasSentReasoning = false then
    reasoningDelta (contentText out.content) s
  else if isResponsesToolOutputType out.type then toolItem { type := .other "", item := some out } s
  else (s, [])

def terminalOutputChunks (response : Option OpenAIResponsesResponse) : ChatStep :=
  match response with
  | none => silent
  | some response => forEach outputChunks response.output

/-- The call id of a tool of which only arguments came. -/
def ToolKey.fallbackCallID : ToolKey → String
  | .output index => s!"call_output_{index}"
  | .item itemID => itemID
  | .call callID => "call:" ++ callID

/-- What waits under the key goes to the tool. -/
def takePending (key : ToolKey) (ref : ℕ) (s : ResponsesToChatStreamState) : ResponsesToChatStreamState :=
  match key with
  | .output index =>
    { s.modifyTool ref fun tool =>
        { tool with arguments :=
            tool.arguments ++ (s.pendingArgsByOutputIndex.lookup index).getD "" } with
      pendingArgsByOutputIndex := s.pendingArgsByOutputIndex.erase index }
  | .item itemID =>
    { s.modifyTool ref fun tool =>
        { tool with arguments :=
            tool.arguments ++ (s.pendingArgsByItemID.lookup itemID).getD "" } with
      pendingArgsByItemID := s.pendingArgsByItemID.erase itemID }
  | .call _ => s

def flushKey (key : ToolKey) : ChatStep := fun s =>
  let found := s.toolUnder { key := key, callID := key.fallbackCallID }
  toolDelta found.2 "" (takePending key found.2 found.1)

/-- The keys with a tool or with arguments that wait, sorted by their text. -/
def keysToFlush (s : ResponsesToChatStreamState) : List ToolKey :=
  (s.toolByKey.keys ++ s.pendingArgsByOutputIndex.keys.map ToolKey.output
    ++ s.pendingArgsByItemID.keys.map ToolKey.item).dedup.insertionSort
      fun a b => a.text.toList ≤ b.text.toList

def flushAllPendingTools : ChatStep := fun s => forEach flushKey (keysToFlush s) s

def finishChunk (response : Option OpenAIResponsesResponse) : ChatStep := fun s =>
  let finishReason :=
    (responsesFinishReasonFromStatus response).getD (if s.sawToolCall then "tool_calls" else "stop")
  (s, [s.makeChunk {} (some finishReason)])

def usageChunk : ChatStep := fun s =>
  (s, if s.includeUsage then [{ id := s.id, model := s.model, usage := some s.usage }] else [])

def finalize (response : Option OpenAIResponsesResponse) : ChatStep := fun s =>
  if s.finalized then (s, [])
  else
    andThen flushAllPendingTools (andThen ensureStart (andThen (finishChunk response) usageChunk))
      { s with finalized := true }

def finalizeResponsesToChatStream : ChatStep := finalize none

def ensureIncompleteResponse (response : Option OpenAIResponsesResponse) : OpenAIResponsesResponse :=
  let response := response.getD {}
  if response.status = .empty then { response with status := .text "incomplete" } else response

def terminalEvent (response : Option OpenAIResponsesResponse) : ChatStep := fun s =>
  andThen (terminalOutputChunks response) (finalize response) (s.applyResponseMetadata response)

/-- An event that ends the stream. -/
def EventType.isTerminal : EventType → Bool
  | .completed => true
  | .done => true
  | .incomplete => true
  | _ => false

/-- The step for an event that is not an error. -/
def eventChunks (event : ResponsesStreamResponse) : ChatStep := fun s =>
  match event.type with
  | .created => ensureStart (s.applyResponseMetadata event.response)
  | .reasoningSummaryDelta => reasoningDelta event.delta s
  | .reasoningTextDelta => reasoningDelta event.delta s
  | .reasoningSummaryDone =>
    (if s.hasSentReasoning then { s with needsReasoningSummaryBreak := true } else s, [])
  | .reasoningTextDone =>
    (if s.hasSentReasoning then { s with needsReasoningSummaryBreak := true } else s, [])
  | .outputTextDelta => textDelta event.delta s
  | .outputItemAdded =>
    if event.item.any fun item => isResponsesToolOutputType item.type then toolItem event s
    else (s, [])
  | .outputItemDone =>
    if event.item.any fun item => isResponsesToolOutputType item.type then toolItem event s
    else (s, [])
  | .functionArgsDelta => toolArgumentsDelta event s
  | .customToolInputDelta => toolArgumentsDelta event s
  | .functionArgsDone => flushPendingTool event s
  | .customToolInputDone => flushPendingTool event s
  | .completed => terminalEvent event.response s
  | .done => terminalEvent event.response s
  | .incomplete => terminalEvent (some (ensureIncompleteResponse event.response)) s
  | _ => (s, [])

def responsesStreamEventToChatChunks (event : ResponsesStreamResponse) (s : ResponsesToChatStreamState) :
    Except String (ResponsesToChatStreamState × List (Chunk Usage)) :=
  match event.type with
  | .failed => .error "responses stream error: response.failed"
  | .error => .error "responses stream error: response.error"
  | _ => .ok (eventChunks event s)

/-- A whole stream: events, then the terminal event with its response.  Without terminal event this is
the finalization alone, `terminalEvent none`. -/
def streamChunks (events : List ResponsesStreamResponse) (response : Option OpenAIResponsesResponse) : ChatStep :=
  andThen (forEach eventChunks events) (terminalEvent response)

end OneApi.Responses

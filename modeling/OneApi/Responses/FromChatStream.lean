import OneApi.Claude.Stream
import OneApi.Lib.Emit
import OneApi.Responses.Convert
import Mathlib.Data.List.AList
import Mathlib.Data.List.Sort

/-!
# From chat chunks to the events of a Responses stream

`ChatCompletionsStreamChunkToResponsesEvents` turns the chunks of a chat stream into the events of a
Responses stream, and `FinalizeChatCompletionsStreamToResponses` ends it.  Text, reasoning and every
tool call have an output item each.  An item gets the next output index when its first delta comes; all
items that are open are closed when a finish reason comes, or at the end.  `outputOrder` remembers which
item has which index, for the output of the final response.

The time of creation and the indices of content and summary parts, which are always 0, are left out.
-/

namespace OneApi.Responses

open Claude.Stream (Chunk Choice Delta ToolCallResponse)
open Chat Lib.Emit Tokens OneApi.Lib.Go

/-- `chatToResponsesStreamTool`. -/
structure StreamTool where
  chatIndex : ℤ
  outputIndex : ℤ
  id : String
  name : String
  arguments : String := ""
  done : Bool := false

/-- What a fragment says of the tool besides its arguments. -/
def StreamTool.named (tool : StreamTool) (toolCall : ToolCallResponse) : StreamTool :=
  { tool with
    id := if trimSpace toolCall.id ≠ "" then trimSpace toolCall.id else tool.id
    name := if trimSpace toolCall.name ≠ "" then trimSpace toolCall.name
            else tool.name }

/-- `chatToResponsesOutputRef`. -/
inductive OutputRef
  | message
  | reasoning
  | tool (toolIndex : ℤ)
  deriving Repr, DecidableEq

structure ChatToResponsesStreamState where
  id : String := ""
  model : String := ""
  usage : Usage := {}
  status : String := "completed"
  incompleteDetails : Option IncompleteDetails := none
  sentCreated : Bool := false
  textOutputIndex : ℤ := -1
  textStarted : Bool := false
  textDone : Bool := false
  reasoningIndex : ℤ := -1
  reasoningStarted : Bool := false
  reasoningDone : Bool := false
  finalized : Bool := false
  nextOutputIndex : ℤ := 0
  toolsByIndex : AList (fun _ : ℤ => StreamTool) := ∅
  outputOrder : List OutputRef := []
  text : String := ""
  reasoning : String := ""

/-- The next state of the converter, with the events it sends. -/
abbrev Emitted := ChatToResponsesStreamState × List ResponsesStreamResponse

abbrev ResponsesStep := Step ChatToResponsesStreamState ResponsesStreamResponse

namespace ChatToResponsesStreamState

variable (s : ChatToResponsesStreamState)

def messageID : String := s!"{s.id}_msg_0"

def reasoningID : String := s!"{s.id}_reasoning_0"

def outputStatus : String := if s.status = "incomplete" then "incomplete" else "completed"

def messageOutput (status : String) : ResponsesOutput where
  type := .message
  id := s.messageID
  status := status
  role := "assistant"
  content := [{ type := .outputText, text := s.text }]

def reasoningOutput (status : String) : ResponsesOutput where
  type := .reasoning
  id := s.reasoningID
  status := status
  content := [{ type := .summaryText, text := s.reasoning }]

def toolOutput (tool : StreamTool) (status : String) : ResponsesOutput where
  type := .functionCall
  id := tool.id
  status := status
  callId := tool.id
  name := tool.name
  arguments := .text tool.arguments

def createdResponse : OpenAIResponsesResponse where
  id := s.id
  status := .text "in_progress"
  model := s.model

/-- The item of the final output that a reference stands for. -/
def refOutput (status : String) : OutputRef → Option ResponsesOutput
  | .message => some (s.messageOutput status)
  | .reasoning => some (s.reasoningOutput status)
  | .tool index => (s.toolsByIndex.lookup index).map fun tool => toolOutput tool status

def finalResponse : OpenAIResponsesResponse where
  id := s.id
  status := .text s.status
  incompleteDetails := s.incompleteDetails
  model := s.model
  output := s.outputOrder.filterMap (s.refOutput s.outputStatus)
  usage := some s.usage

/-- The state after `nextIndex`, which returned the index it had before. -/
def nextIndex (ref : OutputRef) : ChatToResponsesStreamState :=
  { s with nextOutputIndex := s.nextOutputIndex + 1, outputOrder := s.outputOrder ++ [ref] }

def startText : Emitted :=
  if s.textStarted then (s, [])
  else
    ({ s.nextIndex .message with textStarted := true, textOutputIndex := s.nextOutputIndex },
      [{ type := .outputItemAdded, outputIndex := some s.nextOutputIndex
         item := some { type := .message, id := s.messageID, status := "in_progress",
                        role := "assistant" } }])

def writeText (delta : String) : Emitted :=
  ({ s with text := s.text ++ delta },
    [{ type := .outputTextDelta, outputIndex := some s.textOutputIndex, delta := delta,
       itemID := s.messageID }])

def startReasoning : Emitted :=
  if s.reasoningStarted then (s, [])
  else
    ({ s.nextIndex .reasoning with reasoningStarted := true, reasoningIndex := s.nextOutputIndex },
      [{ type := .outputItemAdded, outputIndex := some s.nextOutputIndex
         item := some { type := .reasoning, id := s.reasoningID, status := "in_progress" } }])

def writeReasoning (delta : String) : Emitted :=
  ({ s with reasoning := s.reasoning ++ delta },
    [{ type := .reasoningSummaryDelta, outputIndex := some s.reasoningIndex, delta := delta,
       itemID := s.reasoningID }])

def setTool (tool : StreamTool) : ChatToResponsesStreamState :=
  { s with toolsByIndex := s.toolsByIndex.insert tool.chatIndex tool }

/-- The tool that a first fragment begins. -/
def newTool (chatIndex : ℤ) (toolCall : ToolCallResponse) : StreamTool where
  chatIndex := chatIndex
  outputIndex := s.nextOutputIndex
  id :=
    if trimSpace toolCall.id = "" then s!"{s.id}_call_{chatIndex}"
    else trimSpace toolCall.id
  name := trimSpace toolCall.name

def startTool (chatIndex : ℤ) (toolCall : ToolCallResponse) : Emitted :=
  if (s.toolsByIndex.lookup chatIndex).isSome then (s, [])
  else
    let tool := s.newTool chatIndex toolCall
    ((s.nextIndex (.tool chatIndex)).setTool tool,
      [{ type := .outputItemAdded, outputIndex := some tool.outputIndex, itemID := tool.id
         item := some { type := .functionCall, id := tool.id, status := "in_progress",
                        callId := tool.id, name := tool.name, arguments := .text "" } }])

def writeTool (chatIndex : ℤ) (toolCall : ToolCallResponse) : Emitted :=
  match s.toolsByIndex.lookup chatIndex with
  | none => (s, [])
  | some tool =>
    let tool := tool.named toolCall
    if toolCall.arguments ≠ "" then
      (s.setTool { tool with arguments := tool.arguments ++ toolCall.arguments },
        [{ type := .functionArgsDelta, outputIndex := some tool.outputIndex, itemID := tool.id,
           delta := toolCall.arguments }])
    else (s.setTool tool, [])

/-! ## The end of the items -/

def doneText (status : String) : Emitted :=
  if s.textStarted && !s.textDone then
    ({ s with textDone := true },
      [{ type := .outputTextDone, outputIndex := some s.textOutputIndex, itemID := s.messageID },
       { type := .outputItemDone, outputIndex := some s.textOutputIndex
         item := some (s.messageOutput status) }])
  else (s, [])

def doneReasoning (status : String) : Emitted :=
  if s.reasoningStarted && !s.reasoningDone then
    ({ s with reasoningDone := true },
      [{ type := .reasoningSummaryDone, outputIndex := some s.reasoningIndex,
         itemID := s.reasoningID },
       { type := .outputItemDone, outputIndex := some s.reasoningIndex
         item := some (s.reasoningOutput status) }])
  else (s, [])

def doneTool (status : String) (index : ℤ) : Emitted :=
  match s.toolsByIndex.lookup index with
  | none => (s, [])
  | some tool =>
    if tool.done then (s, [])
    else
      (s.setTool { tool with done := true },
        [{ type := .functionArgsDone, outputIndex := some tool.outputIndex, itemID := tool.id },
         { type := .outputItemDone, outputIndex := some tool.outputIndex
           item := some (toolOutput tool status) }])

/-- The tools in the order of their chat indices. -/
def sortedTools : List ℤ := s.toolsByIndex.keys.insertionSort fun a b => a ≤ b

end ChatToResponsesStreamState

open ChatToResponsesStreamState

def appendTextDelta (delta : String) : ResponsesStep :=
  andThen startText fun s => s.writeText delta

def appendReasoningDelta (delta : String) : ResponsesStep :=
  andThen startReasoning fun s => s.writeReasoning delta

def appendToolCallDelta (toolCall : ToolCallResponse) : ResponsesStep :=
  let chatIndex := toolCall.index.getD 0
  andThen (fun s => s.startTool chatIndex toolCall) fun s => s.writeTool chatIndex toolCall

def doneDeltaEvents : ResponsesStep := fun s =>
  let status := s.outputStatus
  andThen (fun s => s.doneText status)
    (andThen (fun s => s.doneReasoning status) (forEach (fun index s => s.doneTool status index) s.sortedTools)) s

def applyFinishReason (finishReason : String) (s : ChatToResponsesStreamState) : ChatToResponsesStreamState :=
  let status := responsesStatusFromChatFinishReason finishReason
  { s with status := status.1, incompleteDetails := status.2 }

/-! ## Chunks -/

/-- A text or reasoning delta, unless it is empty. -/
def unlessEmpty (append : String → ResponsesStep)
    (delta : String) : ResponsesStep :=
  if delta ≠ "" then append delta else fun s => (s, [])

def deltaEvents (delta : Delta) : ResponsesStep :=
  andThen (unlessEmpty appendReasoningDelta delta.getReasoningContent)
    (andThen (unlessEmpty appendTextDelta delta.getContentString) (forEach appendToolCallDelta delta.toolCalls))

def finishEvents (finishReason : Option String) : ResponsesStep :=
  match finishReason with
  | none => fun s => (s, [])
  | some reason =>
    if trimSpace reason ≠ "" then fun s => doneDeltaEvents (applyFinishReason reason s)
    else fun s => (s, [])

def choiceEvents (choice : Choice) : ResponsesStep :=
  andThen (deltaEvents choice.delta) (finishEvents choice.finishReason)

/-- What is taken from every chunk. -/
def applyChunk (chunk : Chunk Usage) (s : ChatToResponsesStreamState) : ChatToResponsesStreamState :=
  { s with
    id := if s.id = "" then chunk.id else s.id
    model := if s.model = "" then chunk.model else s.model
    usage := match chunk.usage with
      | some usage => usageFromChatUsage usage
      | none => s.usage }

/-- The first event. -/
def sendCreated : ResponsesStep := fun s =>
  if s.sentCreated then (s, [])
  else
    ({ s with sentCreated := true }, [{ type := .created, response := some s.createdResponse }])

def chatCompletionsStreamChunkToResponsesEvents (chunk : Chunk Usage) : ResponsesStep :=
  andThen (fun s => sendCreated (applyChunk chunk s)) (forEach choiceEvents chunk.choices)

def finalizeChatCompletionsStreamToResponses : ResponsesStep := fun s =>
  if s.finalized then (s, [])
  else
    andThen doneDeltaEvents (fun s =>
      let s := { s with finalized := true }
      (s, [{ type := if s.status = "incomplete" then .incomplete else .completed
             response := some s.finalResponse }])) s

/-- The whole stream: every chunk, and the end. -/
def chatStreamToResponses (chunks : List (Chunk Usage)) : ResponsesStep :=
  andThen (forEach chatCompletionsStreamChunkToResponsesEvents chunks) finalizeChatCompletionsStreamToResponses

end OneApi.Responses

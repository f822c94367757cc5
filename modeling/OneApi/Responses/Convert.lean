import OneApi.Responses.Types
import OneApi.Tokens.Convert

/-!
# Between chat completions and Responses

`ChatCompletionsResponseToResponsesResponse` and `ResponsesResponseToChatCompletionsResponse`, with the
functions they call.  The time of creation is left out.
-/

namespace OneApi.Responses

open Chat Tokens OneApi.Lib.Go

/-! ## From chat -/

def responsesStatusFromChatFinishReason (finishReason : String) : String × Option IncompleteDetails :=
  match trimSpace finishReason with
  | "length" => ("incomplete", some ⟨"max_output_tokens"⟩)
  | "content_filter" => ("incomplete", some ⟨"content_filter"⟩)
  | _ => ("completed", none)

def responseOutputStatus (resp : OpenAIResponsesResponse) : String :=
  if responseStatusString resp ≠ "incomplete" then "completed" else "incomplete"

def chatToolCallToResponsesOutput (toolCall : ToolCall) (responseID : String) (index : ℕ)
    (status : String) : ResponsesOutput :=
  let callID :=
    if trimSpace toolCall.id = "" then s!"{responseID}_call_{index}"
    else trimSpace toolCall.id
  let function : ResponsesOutput :=
    { type := .functionCall, id := callID, status := status, callId := callID
      name := toolCall.name, arguments := .text toolCall.arguments }
  match toolCall.type with
  | .empty => function
  | .function => function
  | .other type =>
    { type := .other type, id := callID, status := status, callId := callID
      arguments := toolCall.custom }

/-- The message item of a completion that has a text. -/
def messageOutputs (id status text : String) : List ResponsesOutput :=
  if text ≠ "" then
    [{ type := .message, id := s!"{id}_msg_0", status := status, role := "assistant"
       content := [{ type := .outputText, text := text }] }]
  else []

/-- The reasoning item of a completion that has reasoning. -/
def reasoningOutputs (id status reasoning : String) : List ResponsesOutput :=
  if reasoning ≠ "" then
    [{ type := .reasoning, id := s!"{id}_reasoning_0", status := status
       content := [{ type := .summaryText, text := reasoning }] }]
  else []

def toolOutputs (id status : String) (calls : List ToolCall) : List ResponsesOutput :=
  calls.zipIdx.map fun call => chatToolCallToResponsesOutput call.1 id call.2 status

/-- The response and the usage returned with it. -/
def chatCompletionsResponseToResponsesResponse (resp : OpenAITextResponse) (id : String) :
    OpenAIResponsesResponse × Usage :=
  let usage := usageFromChatUsage resp.usage
  match resp.choices with
  | [] =>
    ({ id := id, status := .text "completed", model := resp.model, usage := some usage }, usage)
  | choice :: _ =>
    let status := responsesStatusFromChatFinishReason choice.finishReason
    let out : OpenAIResponsesResponse :=
      { id := id, status := .text status.1, incompleteDetails := status.2, model := resp.model
        usage := some usage }
    let itemStatus := responseOutputStatus out
    ({ out with
        output := messageOutputs id itemStatus choice.message.stringContent
          ++ reasoningOutputs id itemStatus choice.message.getReasoningContent
          ++ toolOutputs id itemStatus choice.message.toolCalls }, usage)

/-! ## To chat -/

def responsesFinishReasonFromStatus : Option OpenAIResponsesResponse → Option String
  | none => none
  | some resp =>
    if responseStatusString resp ≠ "incomplete" then none
    else
      match resp.incompleteDetails with
      | none => some "length"
      | some details =>
        if trimSpace details.reason = "content_filter" then some "content_filter"
        else some "length"

/-- The texts of the parts of type `output_text`; the empty ones add nothing. -/
def outputText (content : List ResponsesOutputContent) : String :=
  String.join ((content.filter fun c => c.type = .outputText).map fun c => c.text)

/-- The texts of all parts. -/
def contentText (content : List ResponsesOutputContent) : String :=
  String.join (content.map fun c => c.text)

def ResponsesOutput.isAssistantMessage (out : ResponsesOutput) : Bool :=
  out.type = .message && (out.role = "" || out.role = "assistant")

/-- The text of the messages, or all text there is if they have none. -/
def extractOutputTextFromResponses (resp : OpenAIResponsesResponse) : String :=
  let text := String.join
    ((resp.output.filter ResponsesOutput.isAssistantMessage).map fun out => outputText out.content)
  if text ≠ "" then text else String.join (resp.output.map fun out => contentText out.content)

def extractReasoningTextFromResponses (resp : OpenAIResponsesResponse) : String :=
  String.join ((resp.output.filter fun out => out.type = .reasoning).map fun out =>
    contentText out.content)

/-- The tool call of an output item; one without a name is skipped. -/
def toolCallFromOutput (out : ResponsesOutput) : Option ToolCall :=
  if !isResponsesToolOutputType out.type then none
  else if trimSpace out.name = "" then none
  else
    some { id := if trimSpace out.callId = "" then trimSpace out.id
                 else trimSpace out.callId
           type := .function
           name := trimSpace out.name
           arguments := out.argumentsString }

def responsesResponseToChatCompletionsResponse (resp : OpenAIResponsesResponse) (id : String) :
    OpenAITextResponse × Usage :=
  let reasoning := extractReasoningTextFromResponses resp
  let usage := usageFromResponsesUsage resp.usage
  let toolCalls := resp.output.filterMap toolCallFromOutput
  let finishReason :=
    (responsesFinishReasonFromStatus (some resp)).getD (if toolCalls.isEmpty then "stop" else "tool_calls")
  ({ id := id
     model := resp.model
     choices :=
       [{ message :=
            { content := .text (extractOutputTextFromResponses resp)
              reasoningContent := if reasoning ≠ "" then some reasoning else none
              toolCalls := toolCalls }
          finishReason := finishReason }]
     usage := usage }, usage)

end OneApi.Responses

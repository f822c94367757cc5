import OneApi.Responses.Convert

/-!
# A chat completion converted to Responses and back

The parts of a completion become the items of an output list, and the way back collects them from it.
Texts and counts come back as they were.  Tool calls come back as both converters normalise them: ids
and names trimmed, a missing id made up from the response's id and the position of the call, and a call
without a name left out.  A total that is missing is filled with the sum of the two counts.

The text comes back unless it is empty beside reasoning: the way back then finds no message and takes
all text there is.
-/

namespace OneApi.Responses

open Chat Tokens OneApi.Lib.Go

/-! ## The items of a converted completion -/

section Items

variable {id status text reasoning : String} {calls : List ToolCall}

theorem outputText_messageOutputs :
    String.join ((messageOutputs id status text).map fun out => outputText out.content) = text := by
  rw [messageOutputs]
  split
  · simp [outputText]
  · simp_all

theorem contentText_reasoningOutputs :
    String.join ((reasoningOutputs id status reasoning).map fun out => contentText out.content) = reasoning := by
  rw [reasoningOutputs]
  split
  · simp [contentText]
  · simp_all

variable {out : ResponsesOutput}

theorem isAssistantMessage_of_mem_messageOutputs
    (h : out ∈ messageOutputs id status text) : out.isAssistantMessage = true ∧ out.type = .message := by
  rw [messageOutputs] at h
  split at h
  · obtain rfl := List.mem_singleton.mp h
    exact ⟨rfl, rfl⟩
  · exact absurd h List.not_mem_nil

theorem type_of_mem_reasoningOutputs (h : out ∈ reasoningOutputs id status reasoning) : out.type = .reasoning := by
  rw [reasoningOutputs] at h
  split at h
  · obtain rfl := List.mem_singleton.mp h
    rfl
  · exact absurd h List.not_mem_nil

theorem chatToolCallToResponsesOutput_function {call : ToolCall} (h : call.IsFunction) (index : ℕ) :
    ∃ callID, callID = (if trimSpace call.id = "" then s!"{id}_call_{index}"
        else trimSpace call.id) ∧
      chatToolCallToResponsesOutput call id index status
        = { type := .functionCall, id := callID, status := status, callId := callID
            name := call.name, arguments := .text call.arguments } := by
  refine ⟨_, rfl, ?_⟩
  rw [chatToolCallToResponsesOutput]
  rcases h with h | h <;> rw [h]

theorem of_mem_toolOutputs (h : ∀ call ∈ calls, call.IsFunction)
    (hout : out ∈ toolOutputs id status calls) : out.type = .functionCall ∧ out.content = [] := by
  obtain ⟨⟨call, index⟩, hcall, rfl⟩ := List.mem_map.mp hout
  have hfunction := h call (List.fst_mem_of_mem_zipIdx hcall)
  obtain ⟨callID, -, heq⟩ := chatToolCallToResponsesOutput_function hfunction index
  rw [heq]
  exact ⟨rfl, rfl⟩

end Items

/-! ## What is found in them -/

/-- The call that comes back for the call at a position. -/
def returnedCall (id : String) (index : ℕ) (call : ToolCall) : Option ToolCall :=
  if trimSpace call.name = "" then none
  else
    some { id := if trimSpace call.id = "" then trimSpace s!"{id}_call_{index}"
                 else trimSpace call.id
           type := .function
           name := trimSpace call.name
           arguments := call.arguments }

section Extract

variable {id status text reasoning : String} {calls : List ToolCall} (h : ∀ call ∈ calls, call.IsFunction)

include h

/-- The calls add nothing to the text. -/
theorem contentText_toolOutputs :
    String.join ((toolOutputs id status calls).map fun out => contentText out.content) = "" := by
  have hempty : (toolOutputs id status calls).map (fun out => contentText out.content)
      = (toolOutputs id status calls).map fun _ => "" :=
    List.map_congr_left fun out hout => by rw [(of_mem_toolOutputs h hout).2]; rfl
  rw [hempty]
  generalize toolOutputs id status calls = outputs
  induction outputs with
  | nil => rfl
  | cons out outputs ih => rw [List.map_cons, String.join_cons, ih, String.append_empty]

variable {resp : OpenAIResponsesResponse} (houtput : resp.output = messageOutputs id status text ++
    reasoningOutputs id status reasoning ++ toolOutputs id status calls)

include houtput

theorem filter_isAssistantMessage :
    resp.output.filter ResponsesOutput.isAssistantMessage = messageOutputs id status text := by
  rw [houtput, List.filter_append, List.filter_append,
    List.filter_eq_self.mpr fun out hout => (isAssistantMessage_of_mem_messageOutputs hout).1,
    List.filter_eq_nil_iff.mpr fun out hout => ?_, List.filter_eq_nil_iff.mpr fun out hout => ?_,
    List.append_nil, List.append_nil]
  · rw [ResponsesOutput.isAssistantMessage, (of_mem_toolOutputs h hout).1]
    exact nofun
  · rw [ResponsesOutput.isAssistantMessage, type_of_mem_reasoningOutputs hout]
    exact nofun

theorem filter_reasoning :
    resp.output.filter (fun out => out.type = .reasoning) = reasoningOutputs id status reasoning := by
  rw [houtput, List.filter_append, List.filter_append,
    List.filter_eq_nil_iff.mpr fun out hout => ?_,
    List.filter_eq_self.mpr fun out hout => decide_eq_true (type_of_mem_reasoningOutputs hout),
    List.filter_eq_nil_iff.mpr fun out hout => ?_, List.nil_append, List.append_nil]
  · rw [(of_mem_toolOutputs h hout).1]
    exact nofun
  · rw [(isAssistantMessage_of_mem_messageOutputs hout).2]
    exact nofun

theorem filterMap_toolCallFromOutput :
    resp.output.filterMap toolCallFromOutput =
      calls.zipIdx.filterMap fun call => returnedCall id call.2 call.1 := by
  rw [houtput, List.filterMap_append, List.filterMap_append,
    List.filterMap_eq_nil_iff.mpr fun out hout => ?_,
    List.filterMap_eq_nil_iff.mpr fun out hout => ?_, List.nil_append, List.nil_append, toolOutputs,
    List.filterMap_map]
  · refine List.filterMap_congr fun call hcall => ?_
    obtain ⟨callID, hcallID, heq⟩ := chatToolCallToResponsesOutput_function
      (h call.1 (List.fst_mem_of_mem_zipIdx hcall)) call.2
    rw [Function.comp, heq]
    simp only [toolCallFromOutput, isResponsesToolOutputType, Bool.not_true, Bool.false_eq_true,
      if_false, ResponsesOutput.argumentsString, RawMessage.jsonRawMessageToString, returnedCall]
    rw [ite_self, hcallID, apply_ite trimSpace, trimSpace_trimSpace]
  · rw [toolCallFromOutput, type_of_mem_reasoningOutputs hout]
    rfl
  · rw [toolCallFromOutput, (isAssistantMessage_of_mem_messageOutputs hout).2]
    rfl

theorem text_comesBack (htext : text ≠ "" ∨ reasoning = "") : extractOutputTextFromResponses resp = text := by
  rw [extractOutputTextFromResponses, filter_isAssistantMessage h houtput, outputText_messageOutputs, houtput]
  by_cases hempty : text = ""
  · obtain rfl : reasoning = "" := htext.resolve_left fun hne => hne hempty
    rw [hempty]
    exact contentText_toolOutputs h
  · exact if_pos hempty

theorem reasoning_comesBack : extractReasoningTextFromResponses resp = reasoning := by
  rw [extractReasoningTextFromResponses, filter_reasoning h houtput, contentText_reasoningOutputs]

end Extract

/-! ## The round trip -/

/-- What of a message and the usage beside it comes back. -/
structure ComesBack (id : String) (message : Message) (usage : Usage) (back : OpenAITextResponse)
    (message' : Message) : Prop where
  choices : back.choices.map (fun choice => choice.message) = [message']
  content : message.stringContent ≠ "" ∨ message.getReasoningContent = "" →
    message'.stringContent = message.stringContent
  reasoning : message'.getReasoningContent = message.getReasoningContent
  toolCalls : message'.toolCalls = message.toolCalls.zipIdx.filterMap fun call => returnedCall id call.2 call.1
  promptTokens : back.usage.promptTokens = usage.promptTokens
  completionTokens : back.usage.completionTokens = usage.completionTokens
  totalTokens : back.usage.totalTokens
    = if usage.totalTokens = 0 then usage.promptTokens + usage.completionTokens
      else usage.totalTokens
  cachedTokens : back.usage.promptTokensDetails.cachedTokens = usage.promptTokensDetails.cachedTokens
  reasoningTokens : back.usage.completionTokenDetails.reasoningTokens = usage.completionTokenDetails.reasoningTokens

/-- The counts of a usage that went to Responses and back. -/
theorem usage_comesBack (usage : Usage) :
    let back := usageFromResponsesUsage (some (usageFromChatUsage usage))
    back.promptTokens = usage.promptTokens ∧ back.completionTokens = usage.completionTokens ∧
      back.totalTokens = (if usage.totalTokens = 0 then usage.promptTokens + usage.completionTokens
        else usage.totalTokens) ∧
      back.promptTokensDetails = usage.promptTokensDetails ∧
      back.completionTokenDetails = usage.completionTokenDetails := by
  refine ⟨rfl, rfl, ?_, usage.promptTokensDetails.copy_if_any, ?_⟩
  · simp only [usageFromResponsesUsage, usageFromChatUsage]
    by_cases h : usage.totalTokens = 0 <;> simp [h]
  · exact (OutputTokenDetails.copy_if_any _).trans usage.completionTokenDetails.copy_if_any

theorem getReasoningContent_of_set {message : Message} {reasoning : String}
    (h : message.reasoningContent = if reasoning ≠ "" then some reasoning else none)
    (hnone : message.reasoning = none) : message.getReasoningContent = reasoning := by
  rw [Message.getReasoningContent, h, hnone]
  by_cases hempty : reasoning = ""
  · rw [hempty]
    rfl
  · rw [if_pos hempty]

/-- A completion with one choice and only calls of functions, converted to Responses and back. -/
theorem roundTrip_comesBack (resp : OpenAITextResponse) (choice : OpenAITextResponseChoice)
    (hchoice : resp.choices = [choice])
    (hfunction : ∀ call ∈ choice.message.toolCalls, call.IsFunction) (id id' : String) :
    ∃ message, ComesBack id choice.message resp.usage
      (responsesResponseToChatCompletionsResponse
        (chatCompletionsResponseToResponsesResponse resp id).1 id').1 message := by
  obtain ⟨hprompt, hcompletion, htotal, hinput, houtput⟩ := usage_comesBack resp.usage
  rw [chatCompletionsResponseToResponsesResponse, hchoice]
  refine ⟨_, ⟨rfl, fun htext => text_comesBack hfunction rfl htext, ?_, ?_, hprompt, hcompletion,
    htotal, congrArg InputTokenDetails.cachedTokens hinput,
    congrArg OutputTokenDetails.reasoningTokens houtput⟩⟩
  · refine (getReasoningContent_of_set rfl rfl).trans ?_
    exact reasoning_comesBack hfunction rfl
  · exact filterMap_toolCallFromOutput hfunction rfl

def untidyChoice : OpenAITextResponseChoice where
  message :=
    { reasoningContent := some "hm"
      toolCalls := [{ id := " a ", name := " f " }, { name := "g" }, { id := "b", name := " " }] }

/-- A completion in which every normalisation shows. -/
def untidyCompletion : OpenAITextResponse where
  choices := [untidyChoice]
  usage := { promptTokens := 1, completionTokens := 2 }

theorem untidyCompletion_comesBack :
    untidyCompletion.choices = [untidyChoice] ∧
      (∀ call ∈ untidyChoice.message.toolCalls, call.IsFunction) ∧
      ∃ message, ComesBack "r" untidyChoice.message untidyCompletion.usage
        (responsesResponseToChatCompletionsResponse
          (chatCompletionsResponseToResponsesResponse untidyCompletion "r").1 "c").1 message :=
  ⟨rfl, by decide, roundTrip_comesBack untidyCompletion untidyChoice rfl (by decide) "r" "c"⟩

/-- Its tool calls, its total and its empty text do not come back as they were. -/
theorem untidyCompletion_not_preserved :
    let back := (responsesResponseToChatCompletionsResponse
      (chatCompletionsResponseToResponsesResponse untidyCompletion "r").1 "c").1
    back.choices.map (fun choice => choice.message.toolCalls)
        ≠ untidyCompletion.choices.map (fun choice => choice.message.toolCalls) ∧
      back.usage.totalTokens ≠ untidyCompletion.usage.totalTokens ∧
      back.choices.map (fun choice => choice.message.stringContent)
        ≠ untidyCompletion.choices.map (fun choice => choice.message.stringContent) := by
  decide +kernel

end OneApi.Responses

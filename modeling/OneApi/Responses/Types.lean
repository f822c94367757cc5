import OneApi.Chat.Types

/-!
# Responses and their stream events

The types of the Responses format, as far as the converters read and write them.  The type of an output
item and of an event is one of those the converters name, or another one.
-/

namespace OneApi.Responses

open Chat Tokens

inductive OutputType
  | message
  | reasoning
  | functionCall
  | customToolCall
  | other (name : String)
  deriving Repr, DecidableEq

def isResponsesToolOutputType : OutputType → Bool
  | .functionCall => true
  | .customToolCall => true
  | _ => false

inductive ContentType
  | outputText
  | summaryText
  | other (name : String)
  deriving Repr, DecidableEq

structure ResponsesOutputContent where
  type : ContentType
  text : String := ""
  deriving Repr, DecidableEq

structure ResponsesOutput where
  type : OutputType
  id : String := ""
  status : String := ""
  role : String := ""
  content : List ResponsesOutputContent := []
  callId : String := ""
  name : String := ""
  arguments : RawMessage := .empty
  deriving Repr, DecidableEq

def ResponsesOutput.argumentsString (out : ResponsesOutput) : String :=
  out.arguments.jsonRawMessageToString

structure IncompleteDetails where
  reason : String
  deriving Repr, DecidableEq

structure OpenAIResponsesResponse where
  id : String := ""
  status : RawMessage := .empty
  incompleteDetails : Option IncompleteDetails := none
  model : String := ""
  output : List ResponsesOutput := []
  usage : Option Usage := none
  deriving Repr, DecidableEq

def responseStatusString (resp : OpenAIResponsesResponse) : String :=
  Lib.Go.trimSpace resp.status.unmarshalString

inductive EventType
  | created
  | completed
  | done
  | incomplete
  | failed
  | error
  | outputTextDelta
  | outputTextDone
  | outputItemAdded
  | outputItemDone
  | functionArgsDelta
  | functionArgsDone
  | customToolInputDelta
  | customToolInputDone
  | reasoningSummaryDelta
  | reasoningSummaryDone
  | reasoningTextDelta
  | reasoningTextDone
  | other (name : String)
  deriving Repr, DecidableEq

structure ResponsesStreamResponse where
  type : EventType
  response : Option OpenAIResponsesResponse := none
  delta : String := ""
  item : Option ResponsesOutput := none
  outputIndex : Option ℤ := none
  itemID : String := ""
  deriving Repr, DecidableEq

end OneApi.Responses

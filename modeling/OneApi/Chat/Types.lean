import OneApi.Lib.Go
import OneApi.Tokens.Types

/-!
# A chat completion that is not streamed

What the response converters read and write of an `OpenAITextResponse`: the message of each choice, its
finish reason, and the usage.  The tool calls of a message are stored as JSON text; here they are the
list that `ParseToolCalls` reads and `SetToolCalls` writes.
-/

namespace OneApi.Chat

open Tokens

/-- `json.RawMessage`: nothing, the JSON of a string, or another JSON text. -/
inductive RawMessage
  | empty
  | text (value : String)
  | other (json : String)
  deriving Repr, DecidableEq

def RawMessage.jsonRawMessageToString : RawMessage → String
  | .empty => ""
  | .text value => value
  | .other json => if Lib.Go.trimSpace json = "null" then "" else Lib.Go.trimSpace json

/-- `Unmarshal` into a string, its error ignored. -/
def RawMessage.unmarshalString : RawMessage → String
  | .text value => value
  | _ => ""

/-- One element of a content that is a list; only texts are read. -/
inductive ContentPart
  | text (text : String)
  | other
  deriving Repr, DecidableEq

def ContentPart.string : ContentPart → String
  | .text s => s
  | .other => ""

inductive MessageContent
  | null
  | text (text : String)
  | parts (parts : List ContentPart)
  deriving Repr, DecidableEq

inductive ToolType
  | empty
  | function
  | other (name : String)
  deriving Repr, DecidableEq

/-- `ToolCallRequest` and `ToolCallResponse`, whose JSON is the same. -/
structure ToolCall where
  id : String := ""
  type : ToolType := .function
  name : String := ""
  arguments : String := ""
  custom : RawMessage := .empty
  deriving Repr, DecidableEq

/-- A call of a function: of that type, or of none. -/
def ToolCall.IsFunction (call : ToolCall) : Prop := call.type = .empty ∨ call.type = .function

instance (call : ToolCall) : Decidable call.IsFunction := inferInstanceAs (Decidable (_ ∨ _))

structure Message where
  content : MessageContent := .null
  reasoningContent : Option String := none
  reasoning : Option String := none
  toolCalls : List ToolCall := []
  deriving Repr, DecidableEq

def Message.stringContent (message : Message) : String :=
  match message.content with
  | .text text => text
  | .parts parts => String.join (parts.map ContentPart.string)
  | .null => ""

def Message.getReasoningContent (message : Message) : String :=
  match message.reasoningContent, message.reasoning with
  | none, none => ""
  | some text, _ => text
  | none, some text => text

structure OpenAITextResponseChoice where
  message : Message := {}
  finishReason : String := ""
  deriving Repr, DecidableEq

structure OpenAITextResponse where
  id : String := ""
  model : String := ""
  choices : List OpenAITextResponseChoice := []
  usage : Usage := {}
  deriving Repr, DecidableEq

end OneApi.Chat

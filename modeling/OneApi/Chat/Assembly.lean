import OneApi.Claude.Stream
import OneApi.Lib.Acceptor

/-!
# What a client of a chat stream puts together

The client concatenates the text and the reasoning of the deltas.  A fragment of a tool call belongs to
the call with its index: the first id and the first name that are not empty are taken, the arguments
are concatenated, and the calls stand in the order in which they first appear.
-/

namespace OneApi.Chat

open Claude.Stream (Chunk Choice Delta ToolCallResponse)
open Lib.Acceptor

/-- A tool call as far as its fragments have come. -/
structure AssembledCall where
  index : ℤ
  id : String
  name : String
  arguments : String
  deriving Repr, DecidableEq

/-- The call that a first fragment begins. -/
def AssembledCall.first (call : ToolCallResponse) : AssembledCall where
  index := call.index.getD 0
  id := call.id
  name := call.name
  arguments := call.arguments

def AssembledCall.add (c : AssembledCall) (call : ToolCallResponse) : AssembledCall :=
  { c with
    id := if c.id = "" then call.id else c.id
    name := if c.name = "" then call.name else c.name
    arguments := c.arguments ++ call.arguments }

structure Assembly where
  text : String := ""
  reasoning : String := ""
  calls : List AssembledCall := []
  deriving Repr, DecidableEq

namespace Assembly

def addFragment (calls : List AssembledCall) (call : ToolCallResponse) : List AssembledCall :=
  if calls.any fun c => c.index = call.index.getD 0 then
    calls.map fun c => if c.index = call.index.getD 0 then c.add call else c
  else calls ++ [.first call]

def addDelta (a : Assembly) (delta : Delta) : Assembly where
  text := a.text ++ delta.getContentString
  reasoning := a.reasoning ++ delta.getReasoningContent
  calls := delta.toolCalls.foldl addFragment a.calls

variable {U : Type}

def addChunk (a : Assembly) (chunk : Chunk U) : Assembly :=
  chunk.choices.foldl (fun a choice => a.addDelta choice.delta) a

def ofChunks (chunks : List (Chunk U)) : Assembly := chunks.foldl addChunk {}

/-- The client accepts every chunk. -/
def accept (a : Assembly) (chunk : Chunk U) : Option Assembly := some (a.addChunk chunk)

/-- The calls have the indices 0, 1, 2 and so on. -/
def Numbered (calls : List AssembledCall) : Prop :=
  ∀ (j : ℕ) (c : AssembledCall), calls[j]? = some c → c.index = (j : ℤ)

variable {calls : List AssembledCall} {call : ToolCallResponse} {j : ℕ}

/-- A fragment of a call that has begun. -/
theorem addFragment_of_lt (h : Numbered calls) (hindex : call.index = some (j : ℤ))
    (hj : j < calls.length) : addFragment calls call = calls.modify j fun c => c.add call := by
  have hget : calls[j]? = some calls[j] := List.getElem?_eq_getElem hj
  have hany : (calls.any fun c => c.index = call.index.getD 0) = true := by
    rw [List.any_eq_true]
    refine ⟨calls[j], List.getElem_mem hj, ?_⟩
    rw [hindex, Option.getD_some, h j calls[j] hget]
    exact decide_eq_true rfl
  rw [addFragment, if_pos hany]
  refine List.ext_getElem? fun i => ?_
  rw [List.getElem?_map, List.getElem?_modify, hindex, Option.getD_some]
  cases hi : calls[i]? with
  | none => rfl
  | some c =>
    rw [Option.map_some, Option.map_eq_map, Option.map_some, h i c hi]
    by_cases heq : j = i
    · rw [if_pos heq, if_pos (by rw [heq])]
    · rw [if_neg heq, if_neg (by omega)]

/-- The first fragment of the next call. -/
theorem addFragment_of_eq (h : Numbered calls) (hindex : call.index = some (calls.length : ℤ)) :
    addFragment calls call = calls ++ [.first call] := by
  rw [addFragment, if_neg]
  rw [List.any_eq_true]
  rintro ⟨c, hc, heq⟩
  obtain ⟨i, hi⟩ := List.mem_iff_getElem?.mp hc
  have hlt : i < calls.length := (List.getElem?_eq_some_iff.mp hi).1
  rw [hindex, Option.getD_some, h i c hi, decide_eq_true_eq] at heq
  omega

end Assembly

end OneApi.Chat

import OneApi.Claude.Client
import OneApi.Lib.Run

/-!
# When the events of the converter are well formed

The client of `Claude.Client` follows the converter chunk by chunk.  Text and thinking never go wrong:
there is at most one such block, at the converter's index.  Tool calls may.  The converter keeps the
first index of a run of tool blocks and the largest offset it has seen, starts a block for every call
with a name, and stops every index up to the largest offset; so what it sends fits only when the calls
with a name come at the offsets 0, 1, 2 and so on, arguments come for a call that has been named, and
the run has no gap when it is closed.  `ToolRun` says this of the calls alone, and
`wellFormed_iff_orderly` that it is exactly what is needed.  `messageStop_iff` says when a message ends, which by
`WellFormed.stops` leaves no block open.
-/

namespace OneApi.Claude.Stream

open Lib.Acceptor Lib.Run ClaudeConvertInfo Client

variable {U : Type} {info : ClaudeConvertInfo U} {m : ℕ} {c : Client}

/-! ## Runs of tool calls -/

/-- A run of tool calls so far: how many blocks have been started, and the largest offset. -/
structure ToolRun where
  opened : ℕ
  maxOffset : ℤ
  deriving Repr, DecidableEq

namespace ToolRun

/-- No offset up to the largest one was left out. -/
def Complete (r : ToolRun) : Prop := (r.opened : ℤ) = r.maxOffset + 1

/-- A call with a name is the next one; arguments alone are for a call that was named before. -/
def call (r : ToolRun) (offset : ℤ) (call : ToolCallResponse) : Option ToolRun :=
  if call.name ≠ "" then
    if offset = r.opened then some ⟨r.opened + 1, max r.maxOffset offset⟩ else none
  else if call.arguments ≠ "" then
    if 0 ≤ offset ∧ offset < r.opened then some ⟨r.opened, max r.maxOffset offset⟩ else none
  else some ⟨r.opened, max r.maxOffset offset⟩

/-- The calls of a chunk, from the `i`-th one on. -/
def calls : ℕ → ToolRun → List ToolCallResponse → Option ToolRun
  | _, r, [] => some r
  | i, r, call :: rest => (r.call (call.offset i) call).bind fun r' => calls (i + 1) r' rest

variable {r r' : ToolRun}

theorem call_some {offset : ℤ} {call : ToolCallResponse} (h : r.call offset call = some r') :
    r'.maxOffset = max r.maxOffset offset ∧
      ((r.opened : ℤ) ≤ r.maxOffset + 1 → (r'.opened : ℤ) ≤ r'.maxOffset + 1) := by
  rw [ToolRun.call] at h
  split_ifs at h <;> cases h <;> refine ⟨rfl, fun hbound => ?_⟩ <;> push_cast <;> omega

end ToolRun

/-- The blocks of a run of tool calls. -/
def toolBlocks (base : ℤ) (n : ℕ) : List (ℤ × Kind) := (indicesFrom base n).map (·, .tool)

/-- Where the client is when a run of tool blocks is open. -/
def toolClient (base : ℤ) (r : ToolRun) : Client :=
  ⟨.streaming, base + r.opened, toolBlocks base r.opened⟩

theorem mem_toolBlocks {base offset : ℤ} {n : ℕ} :
    (base + offset, Kind.tool) ∈ toolBlocks base n ↔ 0 ≤ offset ∧ offset < n := by
  simp only [toolBlocks, List.mem_map, Prod.mk.injEq, and_true, exists_eq_right, mem_indicesFrom]

theorem toolBlocks_snoc (base : ℤ) (n : ℕ) : toolBlocks base (n + 1) = toolBlocks base n ++ [(base + n, .tool)] := by
  rw [toolBlocks, indicesFrom_snoc, List.map_append, List.map_singleton, ← toolBlocks]

theorem toolBlocks_cons (base : ℤ) (n : ℕ) : toolBlocks base (n + 1) = (base, .tool) :: toolBlocks (base + 1) n := by
  rw [toolBlocks, indicesFrom_cons, List.map_cons, ← toolBlocks]

variable (base offset : ℤ)

theorem toolClient_succ (n : ℕ) :
    toolClient base ⟨n + 1, offset⟩ = ⟨.streaming, base + n + 1, toolBlocks base n ++ [(base + n, .tool)]⟩ := by
  rw [toolClient, toolBlocks_snoc, Int.add_assoc]
  rfl

theorem accept_toolStart (r : ToolRun) (id name : String) :
    (toolClient base r).accept (.contentBlockStart (base + offset) (.toolUse id name) : Event U) =
      if offset = r.opened then some (toolClient base ⟨r.opened + 1, max r.maxOffset offset⟩)
      else none := by
  rw [accept]
  by_cases hoffset : offset = r.opened
  · rw [if_pos hoffset, if_pos ⟨rfl, congrArg (base + ·) hoffset⟩, toolClient_succ, hoffset]
    rfl
  · have hnext : ¬ ((toolClient base r).phase = .streaming ∧ base + offset = (toolClient base r).next) :=
      fun h => hoffset (Int.add_left_cancel h.2)
    rw [if_neg hoffset, if_neg hnext]

theorem accept_toolDelta (r : ToolRun) (json : String) :
    (toolClient base r).accept (.contentBlockDelta (base + offset) (.inputJsonDelta json) : Event U) =
      if 0 ≤ offset ∧ offset < r.opened then some (toolClient base r) else none := by
  rw [accept]
  exact if_congr ((and_iff_right rfl).trans mem_toolBlocks) rfl rfl

/-- The events of a call are accepted exactly when it fits the run. -/
theorem read_toolEvents (r : ToolRun) (call : ToolCallResponse) :
    read accept (toolClient base r) (toolEvents (base + offset) call : List (Event U)) =
      (r.call offset call).map (toolClient base) := by
  rw [toolEvents, ToolRun.call]
  by_cases hname : call.name ≠ ""
  · rw [if_pos hname, if_pos hname, List.singleton_append, read_cons, accept_toolStart]
    by_cases hoffset : offset = r.opened
    · rw [if_pos hoffset, if_pos hoffset, Option.bind_some, Option.map_some]
      by_cases harguments : call.arguments ≠ ""
      · have hopen : 0 ≤ offset ∧ offset < ((r.opened + 1 : ℕ) : ℤ) := by omega
        rw [if_pos harguments, read_cons, accept_toolDelta, if_pos hopen, Option.bind_some, read_nil]
      · rw [if_neg harguments, read_nil]
    · rw [if_neg hoffset, if_neg hoffset, Option.bind_none, Option.map_none]
  · rw [if_neg hname, if_neg hname, List.nil_append]
    by_cases harguments : call.arguments ≠ ""
    · rw [if_pos harguments, if_pos harguments, read_cons, accept_toolDelta]
      by_cases hopen : 0 ≤ offset ∧ offset < r.opened
      · rw [if_pos hopen, if_pos hopen]
        rfl
      · rw [if_neg hopen, if_neg hopen]
        rfl
    · rw [if_neg harguments, if_neg harguments]
      rfl

/-- So are the events of all the calls of a chunk. -/
theorem read_toolLoop (base : ℤ) (i : ℕ) (r : ToolRun) (calls : List ToolCallResponse) :
    read accept (toolClient base r) (toolLoop base i r.maxOffset calls : List (Event U) × ℤ).1 =
      (r.calls i calls).map (toolClient base) := by
  induction calls generalizing i r with
  | nil => rfl
  | cons call calls ih =>
    rw [toolLoop, ToolRun.calls, read_append, read_toolEvents]
    cases hcall : r.call (call.offset i) call with
    | none => rfl
    | some r' =>
      rw [← (ToolRun.call_some hcall).1]
      exact ih (i + 1) r'

theorem toolLoop_maxOffset (base : ℤ) {i : ℕ} {r r' : ToolRun} {calls : List ToolCallResponse}
    (h : r.calls i calls = some r') (hbound : (r.opened : ℤ) ≤ r.maxOffset + 1) :
    (toolLoop base i r.maxOffset calls : List (Event U) × ℤ).2 = r'.maxOffset ∧ (r'.opened : ℤ) ≤ r'.maxOffset + 1 := by
  induction calls generalizing i r with
  | nil =>
    cases h
    exact ⟨rfl, hbound⟩
  | cons call calls ih =>
    obtain ⟨r₁, hcall, hrest⟩ := Option.bind_eq_some_iff.mp h
    obtain ⟨hmax, hkept⟩ := ToolRun.call_some hcall
    rw [toolLoop, ← hmax]
    exact ih hrest (hkept hbound)

/-- A run of tool blocks can be stopped up to its largest offset exactly when it has no gap. -/
theorem reads_toolStops (base next : ℤ) {n k : ℕ} (h : n ≤ k) :
    Reads accept ⟨.streaming, next, toolBlocks base n⟩
      ((indicesFrom base k).map .contentBlockStop : List (Event U)) (n = k)
      (· = ⟨.streaming, next, []⟩) := by
  induction k generalizing base n with
  | zero =>
    obtain rfl : n = 0 := Nat.le_zero.mp h
    exact Reads.of_iff (Reads.nil rfl) (iff_of_true trivial rfl)
  | succ k ih =>
    rw [indicesFrom_cons, List.map_cons]
    cases n with
    | zero =>
      have hrefused : (⟨.streaming, next, toolBlocks base 0⟩ : Client).accept
          (.contentBlockStop base : Event U) = none := rfl
      exact (Reads.cons_of_refused hrefused).of_iff (by simp)
    | succ n =>
      have hstopped : (⟨.streaming, next, toolBlocks base (n + 1)⟩ : Client).accept
          (.contentBlockStop base : Event U) = some ⟨.streaming, next, toolBlocks (base + 1) n⟩ := by
        rw [toolBlocks_cons, accept]
        simp
      exact ((ih (base + 1) (Nat.le_of_succ_le_succ h)).cons hstopped).of_iff (by simp)

/-! ## The client follows the converter -/

/-- The kind of the one block that is open after text or thinking. -/
def LastMessageType.kind? : LastMessageType → Option Kind
  | .text => some .text
  | .thinking => some .thinking
  | _ => Option.none

/-- Where the client is when the converter is in a state in which the message goes on; `m` is the
number of open blocks. -/
inductive Agrees : ClaudeConvertInfo U → ℕ → Client → Prop
  | none {info : ClaudeConvertInfo U} (hlast : info.lastMessagesType = .none) :
      Agrees info 0 ⟨.streaming, info.index, []⟩
  | content {info : ClaudeConvertInfo U} {kind : Kind}
      (hlast : info.lastMessagesType.kind? = some kind) :
      Agrees info 1 ⟨.streaming, info.index + 1, [(info.index, kind)]⟩
  | tools {info : ClaudeConvertInfo U} {m : ℕ} (hlast : info.lastMessagesType = .tools)
      (hbound : (m : ℤ) ≤ info.toolCallMaxIndexOffset + 1) :
      Agrees info m (toolClient info.toolCallBaseIndex ⟨m, info.toolCallMaxIndexOffset⟩)

/-- Whether the blocks that are open can be stopped as the converter does it. -/
def Closable (m : ℕ) (info : ClaudeConvertInfo U) : Prop :=
  info.lastMessagesType = .tools → ToolRun.Complete ⟨m, info.toolCallMaxIndexOffset⟩

variable (h : Agrees info m c)

include h in
theorem Agrees.length : c.opened.length = m := by
  cases h with
  | none hlast | content hlast => rfl
  | tools hlast hbound => simp [toolClient, toolBlocks, indicesFrom]

theorem closable_of_ne (h : info.lastMessagesType ≠ .tools) : Closable m info :=
  fun htools => absurd htools h

variable {kind : Kind}

theorem stopOpenBlocks_of_kind (h : info.lastMessagesType.kind? = some kind) :
    info.stopOpenBlocks = [.contentBlockStop info.index] := by
  rw [stopOpenBlocks]
  cases hlast : info.lastMessagesType with
  | text | thinking => rfl
  | none | tools => rw [hlast] at h; nomatch h

theorem ne_tools_of_kind (h : info.lastMessagesType.kind? = some kind) : info.lastMessagesType ≠ .tools := by
  intro htools
  rw [htools] at h
  nomatch h

include h in
theorem reads_stopOpenBlocks :
    Reads accept c info.stopOpenBlocks (Closable m info) (· = ⟨.streaming, c.next, []⟩) := by
  cases h with
  | none hlast =>
    have hclosable : Closable 0 info := closable_of_ne (by simp [hlast])
    rw [stopOpenBlocks, hlast]
    exact Reads.of_iff (Reads.nil rfl) (iff_of_true trivial hclosable)
  | content hlast =>
    have hclosable : Closable 1 info := closable_of_ne (ne_tools_of_kind hlast)
    rw [stopOpenBlocks_of_kind hlast]
    refine Reads.of_iff (Reads.cons ?_ (Reads.nil rfl)) (iff_of_true trivial hclosable)
    simp [accept]
  | tools hlast hbound =>
    rw [stopOpenBlocks, hlast]
    refine (reads_toolStops (n := m) _ _ (by omega)).of_iff ?_
    rw [Closable, imp_iff_right hlast]
    show _ ↔ (m : ℤ) = info.toolCallMaxIndexOffset + 1
    omega

theorem stopOpenBlocksAndAdvance_events : info.stopOpenBlocksAndAdvance.2 = info.stopOpenBlocks := by
  rw [stopOpenBlocksAndAdvance]
  cases hlast : info.lastMessagesType <;> rw [stopOpenBlocks, hlast]

include h in
/-- When the open blocks could be stopped, the converter's new index is the next one. -/
theorem stopOpenBlocksAndAdvance_index (hclosable : Closable m info) :
    info.stopOpenBlocksAndAdvance.1.index = c.next := by
  rw [stopOpenBlocksAndAdvance]
  cases h with
  | none hlast => rw [hlast]
  | content hlast =>
    cases htype : info.lastMessagesType with
    | text | thinking => rfl
    | none | tools => rw [htype] at hlast; nomatch hlast
  | tools hlast hbound =>
    have hcomplete : (m : ℤ) = info.toolCallMaxIndexOffset + 1 := hclosable hlast
    rw [hlast, toolClient]
    show info.toolCallBaseIndex + info.toolCallMaxIndexOffset + 1 = info.toolCallBaseIndex + (m : ℤ)
    omega

include h in
theorem reads_stopOpenBlocksAndAdvance :
    Reads accept c info.stopOpenBlocksAndAdvance.2 (Closable m info)
      (· = ⟨.streaming, info.stopOpenBlocksAndAdvance.1.index, []⟩) := by
  rw [stopOpenBlocksAndAdvance_events]
  refine (reads_stopOpenBlocks h).congr Iff.rfl fun c' hclosable hc' => ?_
  rw [hc', stopOpenBlocksAndAdvance_index h hclosable]

/-- Text or thinking is read exactly when the blocks before it can be stopped. -/
theorem reads_sendContent {type : LastMessageType} {block : Block} {delta : BlockDelta}
    (htype : type.kind? = some kind) (hblock : block.kind = kind) (hdelta : delta.kind = kind) (h : Agrees info m c) :
    Reads accept c (info.sendContent type block delta).2 (Closable m info)
      (Agrees (info.sendContent type block delta).1 1) := by
  rw [sendContent]
  by_cases hlast : info.lastMessagesType = type
  · -- the open block is of this kind already
    rw [if_neg (not_not_intro hlast)]
    rw [← hlast] at htype
    have hclosable : Closable m info := closable_of_ne (ne_tools_of_kind htype)
    cases h with
    | none hnone => rw [hnone] at htype; cases htype
    | tools htools => exact absurd htools (ne_tools_of_kind htype)
    | content hkind =>
      obtain rfl : _ = kind := Option.some.inj (hkind.symm.trans htype)
      refine Reads.of_iff (Reads.cons ?_ (Reads.nil (.content hkind))) (iff_of_true trivial hclosable)
      simp [accept, hdelta]
  · rw [if_pos hlast]
    refine Reads.of_iff ((reads_stopOpenBlocksAndAdvance h).append fun c' hc' => ?_) (and_iff_left trivial)
    subst hc'
    generalize hindex : info.stopOpenBlocksAndAdvance.1.index = index
    have hstart : (⟨.streaming, index, []⟩ : Client).accept (.contentBlockStart index block : Event U) =
        some ⟨.streaming, index + 1, [(index, kind)]⟩ := by
      simp [accept, hblock]
    have hsent : (⟨.streaming, index + 1, [(index, kind)]⟩ : Client).accept
        (.contentBlockDelta index delta : Event U) = some ⟨.streaming, index + 1, [(index, kind)]⟩ := by
      simp [accept, hdelta]
    refine Reads.cons hstart (Reads.cons hsent (Reads.nil ?_))
    rw [← hindex]
    exact .content htype

/-- The run of tool calls that the calls of a chunk go on with. -/
def toolRun (m : ℕ) (info : ClaudeConvertInfo U) : ToolRun :=
  if info.lastMessagesType ≠ .tools then ⟨0, 0⟩ else ⟨m, info.toolCallMaxIndexOffset⟩

theorem enterTools_maxOffset (m : ℕ) (info : ClaudeConvertInfo U) :
    info.enterTools.1.toolCallMaxIndexOffset = (toolRun m info).maxOffset := by
  rw [enterTools, toolRun]
  by_cases hlast : info.lastMessagesType = .tools
  · rw [if_neg (not_not_intro hlast), if_neg (not_not_intro hlast)]
  · rw [if_pos hlast, if_pos hlast]

include h in
theorem Agrees.toolRun_le : ((toolRun m info).opened : ℤ) ≤ (toolRun m info).maxOffset + 1 := by
  rw [toolRun]
  split_ifs with hlast
  · exact Int.zero_le_ofNat 1
  · cases h with
    | none hnone => exact absurd (by simp [hnone]) hlast
    | content hkind => exact absurd (ne_tools_of_kind hkind) hlast
    | tools htools hbound => exact hbound

include h in
/-- Before tool calls, what is open is stopped unless it is a run of tool calls, and that never
fails. -/
theorem reads_enterTools :
    Reads accept c info.enterTools.2 True
      (· = toolClient info.enterTools.1.toolCallBaseIndex (toolRun m info)) := by
  rw [enterTools, toolRun]
  by_cases hlast : info.lastMessagesType = .tools
  · rw [if_neg (not_not_intro hlast), if_neg (not_not_intro hlast)]
    cases h with
    | none hnone => rw [hnone] at hlast; cases hlast
    | content hkind => exact absurd hlast (ne_tools_of_kind hkind)
    | tools htools hbound => exact Reads.nil rfl
  · rw [if_pos hlast, if_pos hlast]
    refine (reads_stopOpenBlocksAndAdvance h).congr (iff_of_true (closable_of_ne hlast) trivial)
      fun c' _ hc' => ?_
    rw [hc', toolClient]
    simp [toolBlocks, indicesFrom]

include h in
/-- The tool calls of a chunk are read exactly when they fit the run. -/
theorem reads_sendToolCalls (calls : List ToolCallResponse) :
    Reads accept c (info.sendToolCalls calls).2
      (∃ r, (toolRun m info).calls 0 calls = some r)
      (fun c' => ∃ r, (toolRun m info).calls 0 calls = some r ∧
        Agrees (info.sendToolCalls calls).1 r.opened c' ∧
        (Closable r.opened (info.sendToolCalls calls).1 ↔ r.Complete)) := by
  have hloop := read_toolLoop (U := U) info.enterTools.1.toolCallBaseIndex 0 (toolRun m info) calls
  refine ((reads_enterTools h).append fun c₁ hc₁ => ?_).of_iff (and_iff_right trivial)
  rw [enterTools_maxOffset m, hc₁]
  cases hcalls : (toolRun m info).calls 0 calls with
  | none =>
    rw [hcalls, Option.map_none] at hloop
    exact ⟨by simp [hloop], by simp [hloop]⟩
  | some r =>
    rw [hcalls, Option.map_some] at hloop
    obtain ⟨hmax, hbound⟩ := toolLoop_maxOffset (U := U) info.enterTools.1.toolCallBaseIndex hcalls h.toolRun_le
    constructor
    · simp [hloop]
    · intro c' hc'
      obtain rfl : _ = c' := Option.some.inj (hloop.symm.trans hc')
      have hsent : (info.sendToolCalls calls).1.toolCallMaxIndexOffset = r.maxOffset := by
        rw [← hmax, ← enterTools_maxOffset m]
        rfl
      have hlast : (info.sendToolCalls calls).1.lastMessagesType = .tools := enterTools_last info
      refine ⟨r, rfl, ?_, ?_⟩
      · rw [show r = ⟨r.opened, (info.sendToolCalls calls).1.toolCallMaxIndexOffset⟩ by rw [hsent]]
        exact .tools hlast (by rw [hsent]; exact hbound)
      · rw [Closable, imp_iff_right hlast, hsent]

/-! ## The condition on a chunk -/

/-- What the delta of a later chunk needs; `closes` when the message ends with the chunk. -/
def DeltaFits (m : ℕ) (info : ClaudeConvertInfo U) (delta : Delta) (closes : Bool) : Prop :=
  if delta.toolCalls ≠ [] then
    ∃ r, (toolRun m info).calls 0 delta.toolCalls = some r ∧ (closes → r.Complete)
  else if delta.getReasoningContent ≠ "" ∨ delta.getContentString ≠ "" then Closable m info
  else closes → Closable m info

/-- What a later chunk needs.  One with a finish reason but without usage is not sent at all. -/
def ChunkFits (m : ℕ) (info : ClaudeConvertInfo U) (usage : Option U) (chunk : Chunk U) : Prop :=
  match chunk.choices with
  | [] => (chunk.usage <|> usage).isSome → Closable m info
  | choice :: _ =>
    match choice.finish, chunk.usage with
    | none, _ => DeltaFits m info choice.delta false
    | some _, none => True
    | some _, some _ => DeltaFits m info choice.delta true

/-- The first chunk, and anything after the end of the message, is as it may be; every other chunk
fits the blocks that are open. -/
def Orderly (s : Session U) (input : Input U) : Prop :=
  s.count = 0 ∨ s.info.done ∨ ChunkFits (openBlocks s.events) s.info input.usage input.chunk

/-- What holds of the client after a chunk: the message has ended, or the client is where the
converter thinks it is. -/
def Follows (info : ClaudeConvertInfo U) (c : Client) : Prop := info.done ∨ ∃ m, Agrees info m c

include h in
/-- The usage and the finish reason are not about blocks. -/
theorem Agrees.relabel (usage : Option U) (reason : String) :
    Agrees { info with usage := usage, finishReason := reason } m c := by
  cases h with
  | none hlast => exact .none hlast
  | content hlast => exact .content hlast
  | tools hlast hbound => exact .tools hlast hbound

variable {Q : Client → Prop}

theorem reads_endEvents (next : ℤ) (usage : Option U) (stopReason : String)
    (hQ : ∀ c, Q c) : Reads accept ⟨.streaming, next, []⟩ (endEvents usage stopReason) True Q := by
  cases usage with
  | none => exact Reads.cons rfl (Reads.nil (hQ _))
  | some usage => exact Reads.cons rfl (Reads.cons rfl (Reads.nil (hQ _)))

include h in
/-- The end of the message is read exactly when the open blocks can be stopped. -/
theorem reads_stop_end (usage : Option U) (stopReason : String) (hQ : ∀ c, Q c) :
    Reads accept c (info.stopOpenBlocks ++ endEvents usage stopReason) (Closable m info) Q := by
  refine Reads.of_iff ((reads_stopOpenBlocks h).append fun c' hc' => ?_) (and_iff_left trivial)
  subst hc'
  exact reads_endEvents _ usage _ hQ

theorem sendContent_last (type : LastMessageType) (block : Block) (delta : BlockDelta) :
    (info.sendContent type block delta).1.lastMessagesType = type := by
  rw [sendContent]
  by_cases hlast : info.lastMessagesType = type
  · rw [if_neg (not_not_intro hlast)]
    exact hlast
  · rw [if_pos hlast]

include h in
/-- A delta is read exactly when it fits.  The message could then end exactly when the delta fits one
that ends with it. -/
theorem reads_sendDelta (delta : Delta) :
    Reads accept c (info.sendDelta delta).2 (DeltaFits m info delta false)
      (fun c' => ∃ m', Agrees (info.sendDelta delta).1 m' c' ∧
        (Closable m' (info.sendDelta delta).1 ↔ DeltaFits m info delta true)) := by
  have hsent : ∀ {type kind block blockDelta} (hkind : LastMessageType.kind? type = some kind)
      (hblock : Block.kind block = kind) (hdelta : BlockDelta.kind blockDelta = kind),
      Reads accept c (info.sendContent type block blockDelta).2 (Closable m info)
        (fun c' => ∃ m', Agrees (info.sendContent type block blockDelta).1 m' c' ∧
          (Closable m' (info.sendContent type block blockDelta).1 ↔ Closable m info)) := by
    intro type kind block blockDelta hkind hblock hdelta
    refine (reads_sendContent hkind hblock hdelta h).congr Iff.rfl fun c' hclosable hc' => ?_
    have hlast : (info.sendContent type block blockDelta).1.lastMessagesType.kind? = some kind := by
      rw [sendContent_last, hkind]
    exact ⟨1, hc', iff_of_true (closable_of_ne (ne_tools_of_kind hlast)) hclosable⟩
  rw [sendDelta, DeltaFits, DeltaFits]
  by_cases hcalls : delta.toolCalls ≠ []
  · simp only [if_pos hcalls]
    refine (reads_sendToolCalls h delta.toolCalls).congr (by simp) fun c' _ hc' => ?_
    obtain ⟨r, hr, hagrees, hcomplete⟩ := hc'
    exact ⟨r.opened, hagrees, by simp [hcomplete, hr]⟩
  · by_cases hreasoning : delta.getReasoningContent ≠ ""
    · simp only [if_neg hcalls, if_pos hreasoning, if_pos (Or.inl hreasoning)]
      exact hsent rfl rfl rfl
    · by_cases htext : delta.getContentString ≠ ""
      · simp only [if_neg hcalls, if_neg hreasoning, if_pos htext, if_pos (Or.inr htext)]
        exact hsent rfl rfl rfl
      · have hempty : ¬ (delta.getReasoningContent ≠ "" ∨ delta.getContentString ≠ "") := by
          tauto
        simp only [if_neg hcalls, if_neg hreasoning, if_neg htext, if_neg hempty]
        exact Reads.of_iff (Reads.nil ⟨m, h, by simp⟩) (by simp)

theorem DeltaFits.of_closes {delta : Delta} (h : DeltaFits m info delta true) : DeltaFits m info delta false := by
  rw [DeltaFits] at h ⊢
  split_ifs at h ⊢
  · obtain ⟨r, hr, -⟩ := h
    exact ⟨r, hr, nofun⟩
  · exact h
  · exact nofun

include h in
/-- A chunk that is neither the first nor after the end is read exactly when it fits. -/
theorem reads_laterChunk (hdone : info.done = false) (estimate : ℤ) {n : ℕ} (hn : n ≠ 1) (chunk : Chunk U) :
    Reads accept c (streamResponseOpenAI2Claude estimate n info chunk).2
      (ChunkFits m info info.usage chunk)
      (Follows (streamResponseOpenAI2Claude estimate n info chunk).1) := by
  rw [streamResponseOpenAI2Claude, hdone, if_neg Bool.false_ne_true, if_neg hn, ChunkFits]
  cases hchoices : chunk.choices with
  | nil =>
    simp only [usageChunk]
    cases husage : chunk.usage <|> info.usage with
    | none => exact Reads.of_iff (Reads.nil (.inr ⟨m, h⟩)) (by simp)
    | some usage =>
      exact (reads_stop_end h (some usage) _ fun _ => .inl rfl).of_iff (by simp)
  | cons choice rest =>
    simp only [choiceChunk]
    cases hfinish : choice.finish with
    | none =>
      refine (reads_sendDelta h choice.delta).congr Iff.rfl fun c' _ hc' => ?_
      obtain ⟨m', hagrees, -⟩ := hc'
      exact .inr ⟨m', hagrees⟩
    | some reason =>
      have hreason := h.relabel info.usage reason
      cases husage : chunk.usage with
      | none => exact Reads.nil (.inr ⟨m, hreason⟩)
      | some usage =>
        refine Reads.of_iff ((reads_sendDelta hreason choice.delta).append fun c' hc' => ?_)
          (and_iff_right_of_imp DeltaFits.of_closes)
        obtain ⟨m', hagrees, hcloses⟩ := hc'
        exact (reads_stop_end hagrees (some usage) _ fun _ => .inl rfl).of_iff hcloses

/-! ## The first chunk -/

theorem deltaFits_of_closable (h : Closable m info) {delta : Delta} (hcalls : delta.toolCalls = [])
    (closes : Bool) : DeltaFits m info delta closes := by
  rw [DeltaFits, if_neg (not_not_intro hcalls)]
  split_ifs
  · exact h
  · exact fun _ => h

/-- The client is where the converter thinks it is, and the message could end there. -/
def Ready (info : ClaudeConvertInfo U) (c : Client) : Prop := ∃ m, Agrees info m c ∧ Closable m info

/-- Where the message could end, a delta without tool calls is read. -/
theorem reads_withoutTools (h : Ready info c) (delta : Delta) :
    Reads accept c (info.sendDelta { delta with toolCalls := [] }).2 True
      (Ready (info.sendDelta { delta with toolCalls := [] }).1) := by
  obtain ⟨m, hagrees, hclosable⟩ := h
  have hfits : ∀ closes, DeltaFits m info { delta with toolCalls := [] } closes :=
    deltaFits_of_closable hclosable rfl
  refine (reads_sendDelta hagrees _).congr (iff_of_true (hfits false) trivial) fun c' _ hc' => ?_
  obtain ⟨m', hagrees', hcloses⟩ := hc'
  exact ⟨m', hagrees', hcloses.mpr (hfits true)⟩

theorem reads_firstTool (usage : Option U) (chunk : Chunk U) :
    Reads accept ⟨.streaming, 0, []⟩
      (firstTool { usage := usage } chunk).2 True
      (Ready (firstTool { usage := usage } chunk).1) := by
  rw [firstTool]
  cases chunk.getFirstToolCall with
  | none => exact Reads.nil ⟨0, .none rfl, fun h => by cases h⟩
  | some call =>
    -- the block is open at index 0 before the arguments and after them
    have hready : Ready (⟨.tools, 0, usage, "", false, 0, 0⟩ : ClaudeConvertInfo U) (toolClient 0 ⟨1, 0⟩) :=
      ⟨1, .tools rfl (Int.le_refl 1), fun _ => rfl⟩
    have hstart : (⟨.streaming, 0, []⟩ : Client).accept
        (.contentBlockStart 0 (.toolUse call.id call.name) : Event U) = some (toolClient 0 ⟨1, 0⟩) :=
      rfl
    refine Reads.cons hstart ?_
    by_cases harguments : call.arguments ≠ ""
    · rw [if_pos harguments]
      exact Reads.cons rfl (Reads.nil hready)
    · rw [if_neg harguments]
      exact Reads.nil hready

/-- Whatever the first chunk is, its events are read. -/
theorem reads_firstChunk (estimate : ℤ) (usage : Option U) (chunk : Chunk U) :
    Reads accept {} (firstChunk estimate { usage := usage } chunk).2 True
      (Follows (firstChunk estimate { usage := usage } chunk).1) := by
  have hstart : ({} : Client).accept (.messageStart chunk.id chunk.model estimate : Event U) =
      some ⟨.streaming, 0, []⟩ := rfl
  have htool := reads_firstTool usage chunk
  rw [firstChunk]
  cases hchoices : chunk.choices with
  | nil =>
    refine Reads.cons hstart (htool.congr Iff.rfl fun c _ hc => ?_)
    obtain ⟨m, hagrees, -⟩ := hc
    exact .inr ⟨m, hagrees⟩
  | cons choice rest =>
    have hcontent := (htool.append fun c hc =>
      reads_withoutTools hc choice.delta).of_iff and_self_iff |>.cons hstart
    simp only [firstContent_firstTool]
    cases hfinish : choice.finish with
    | none =>
      refine hcontent.congr Iff.rfl fun c _ hc => ?_
      obtain ⟨m, hagrees, -⟩ := hc
      exact .inr ⟨m, hagrees⟩
    | some reason =>
      refine Reads.of_iff (hcontent.append fun c hc => ?_) and_self_iff
      obtain ⟨m, hagrees, hclosable⟩ := hc
      exact (reads_stop_end (hagrees.relabel _ reason) _ _ fun _ => .inl rfl).of_iff (iff_of_true hclosable trivial)

/-! ## Whole streams -/

/-- Between two chunks the client has read what was sent, and follows the converter. -/
def Inv (s : Session U) : Prop :=
  s = {} ∨ s.count ≠ 0 ∧ ∃ c, read accept {} s.events = some c ∧ Follows s.info c

variable {s : Session U}

theorem streamResponse_of_done {usage : Option U} (hdone : info.done = true) (estimate : ℤ) (count : ℕ)
    (chunk : Chunk U) : streamResponseOpenAI2Claude estimate count { info with usage } chunk =
      ({ info with usage }, []) := by
  rw [streamResponseOpenAI2Claude, if_pos hdone]

/-- One step: what a chunk adds is read exactly when the chunk is orderly. -/
theorem reads_step (h : Inv s) (estimate : ℤ) (input : Input U) :
    ∃ c sent, read accept {} s.events = some c ∧
      (step estimate s input).events = s.events ++ sent ∧
      Reads accept c sent (Orderly s input) (Follows (step estimate s input).info) := by
  rcases h with rfl | ⟨hcount, c, hread, hfollows⟩
  · exact ⟨{}, _, rfl, rfl,
      (reads_firstChunk estimate input.usage input.chunk).of_iff (iff_of_true trivial (.inl rfl))⟩
  · refine ⟨c, _, hread, rfl, ?_⟩
    rw [Orderly, or_iff_right hcount]
    cases hdone : s.info.done with
    | true =>
      rw [step, streamResponse_of_done hdone]
      exact Reads.of_iff (Reads.nil (.inl hdone)) (iff_of_true trivial (.inl rfl))
    | false =>
      obtain ⟨m, hagrees⟩ := hfollows.resolve_left (by simp [hdone])
      rw [or_iff_right Bool.false_ne_true, openBlocks_of_read hread, hagrees.length]
      exact reads_laterChunk (hagrees.relabel input.usage _) hdone estimate (by omega) input.chunk

theorem step_inv (h : Inv s) {estimate : ℤ} {input : Input U}
    (horderly : Orderly s input) : Inv (step estimate s input) := by
  obtain ⟨c, sent, hread, hevents, hsent⟩ := reads_step h estimate input
  obtain ⟨c', hc'⟩ := Option.isSome_iff_exists.mp (hsent.accepts_iff.mpr horderly)
  refine .inr ⟨Nat.succ_ne_zero _, c', ?_, hsent.after c' hc'⟩
  rw [hevents, read_append_of_read hread, hc']

theorem orderly_of_wellFormed (h : Inv s) {estimate : ℤ} {input : Input U}
    (hwell : WellFormed (step estimate s input).events) : Orderly s input := by
  obtain ⟨c, sent, hread, hevents, hsent⟩ := reads_step h estimate input
  rw [WellFormed, hevents, read_append_of_read hread] at hwell
  exact hsent.accepts_iff.mp hwell

/-- **Well-formed streams.**  The events that a sequence of chunks is turned into are well formed
exactly when every chunk is orderly where it comes. -/
theorem wellFormed_iff_orderly (estimate : ℤ) (inputs : List (Input U)) :
    WellFormed (run (step estimate) {} inputs).events ↔ Respects (step estimate) Orderly {} inputs := by
  refine run_iff_respects (I := Inv) (P := fun s => WellFormed s.events) ?_ ?_ ?_ ?_ (.inl rfl)
  · intro s h
    rcases h with rfl | ⟨-, c, hread, -⟩
    · rfl
    · rw [WellFormed, hread]
      rfl
  · exact fun s input h => isSome_read_of_append h
  · exact fun s input h horderly => step_inv h horderly
  · exact fun s input h hwell => orderly_of_wellFormed h hwell

/-! ## The end of the message -/

/-- A chunk that does not end the message: the converter goes on, and no stop is sent. -/
structure GoesOn (info : ClaudeConvertInfo U) (sent : ClaudeConvertInfo U × List (Event U)) : Prop where
  done : sent.1.done = info.done
  stop : .messageStop ∉ sent.2

theorem stop_notMem_stopOpenBlocks : .messageStop ∉ info.stopOpenBlocks := by
  rw [stopOpenBlocks]
  split <;> simp

theorem goesOn_stopOpenBlocksAndAdvance (info : ClaudeConvertInfo U) : GoesOn info info.stopOpenBlocksAndAdvance := by
  refine ⟨?_, stopOpenBlocksAndAdvance_events ▸ stop_notMem_stopOpenBlocks⟩
  rw [stopOpenBlocksAndAdvance]
  split <;> rfl

theorem goesOn_sendContent (type : LastMessageType) (block : Block) (delta : BlockDelta) :
    GoesOn info (info.sendContent type block delta) := by
  have hadvance := goesOn_stopOpenBlocksAndAdvance info
  rw [sendContent]
  split
  · exact ⟨hadvance.done, by simp [hadvance.stop]⟩
  · exact ⟨rfl, by simp⟩

theorem stop_notMem_toolLoop (base : ℤ) (i : ℕ) (maxOffset : ℤ) (calls : List ToolCallResponse) :
    .messageStop ∉ (toolLoop base i maxOffset calls (U := U)).1 := by
  induction calls generalizing i maxOffset with
  | nil => simp [toolLoop]
  | cons call calls ih =>
    simp only [toolLoop, toolEvents, List.mem_append, not_or]
    refine ⟨⟨?_, ?_⟩, ih _ _⟩ <;> split <;> simp

theorem goesOn_sendDelta (info : ClaudeConvertInfo U) (delta : Delta) : GoesOn info (info.sendDelta delta) := by
  have hadvance := goesOn_stopOpenBlocksAndAdvance info
  have henter : GoesOn info info.enterTools := by
    rw [enterTools]
    split
    · exact ⟨hadvance.done, hadvance.stop⟩
    · exact ⟨rfl, by simp⟩
  rw [sendDelta]
  split
  · exact ⟨henter.done, by simp [sendToolCalls, henter.stop, stop_notMem_toolLoop]⟩
  · split
    · exact goesOn_sendContent _ _ _
    · split
      · exact goesOn_sendContent _ _ _
      · exact ⟨rfl, by simp⟩

theorem goesOn_firstTool (info : ClaudeConvertInfo U) (chunk : Chunk U) : GoesOn info (info.firstTool chunk) := by
  rw [firstTool]
  split
  · exact ⟨rfl, by simp⟩
  · refine ⟨rfl, ?_⟩
    split <;> simp

/-- A chunk ends the message: a later one without choices when there is a usage, the first one when its choice has a
finish reason, and any other when it has both the finish reason and the usage. -/
def Input.Ends (count : ℕ) (input : Input U) : Prop :=
  match input.chunk.choices with
  | [] => count ≠ 0 ∧ (input.chunk.usage <|> input.usage).isSome
  | choice :: _ => choice.finish.isSome ∧ (count = 0 ∨ input.chunk.usage.isSome)

/-- What was sent marks the end of the message, for the converter and for the client, if it is the end. -/
structure Marks (ends : Prop) (sent : ClaudeConvertInfo U × List (Event U)) : Prop where
  done : sent.1.done = true ↔ ends
  stop : .messageStop ∈ sent.2 ↔ ends

theorem GoesOn.marks {ends : Prop} {sent : ClaudeConvertInfo U × List (Event U)} (h : GoesOn info sent)
    (hdone : info.done = false) (hends : ¬ ends) : Marks ends sent :=
  ⟨iff_of_false (by simp [h.done, hdone]) hends, iff_of_false h.stop hends⟩

theorem marks_close {ends : Prop} (h : ends) (events : List (Event U)) (usage : Option U) :
    Marks ends ((info.close usage).1, events ++ (info.close usage).2) :=
  ⟨iff_of_true rfl h, iff_of_true (by cases usage <;> simp [close, endEvents]) h⟩

theorem marks_firstChunk (estimate : ℤ) (input : Input U) :
    Marks (input.Ends 0) (firstChunk estimate { usage := input.usage } input.chunk) := by
  obtain ⟨⟨id, model, choices, chunkUsage⟩, usage⟩ := input
  have htool := goesOn_firstTool { usage } ⟨id, model, choices, chunkUsage⟩
  cases choices with
  | nil => exact GoesOn.marks ⟨htool.done, by simp [firstChunk, htool.stop]⟩ rfl nofun
  | cons choice rest =>
    simp only [firstChunk, firstContent_firstTool]
    have hcontent := goesOn_sendDelta (firstTool { usage } ⟨id, model, choice :: rest, chunkUsage⟩).1
      { choice.delta with toolCalls := [] }
    cases hfinish : choice.finish with
    | none =>
      exact GoesOn.marks ⟨hcontent.done.trans htool.done, by simp [htool.stop, hcontent.stop]⟩ rfl
        (by simp [Input.Ends, hfinish])
    | some reason =>
      have hends : Input.Ends 0 ⟨⟨id, model, choice :: rest, chunkUsage⟩, usage⟩ := ⟨by simp [hfinish], .inl rfl⟩
      exact marks_close hends _ _

theorem marks_laterChunk (info : ClaudeConvertInfo U) (hdone : info.done = false) (estimate : ℤ) {count : ℕ}
    (hcount : count ≠ 0) (chunk : Chunk U) :
    Marks (Input.Ends count ⟨chunk, info.usage⟩) (streamResponseOpenAI2Claude estimate (count + 1) info chunk) := by
  rw [streamResponseOpenAI2Claude, if_neg (by simp [hdone]), if_neg (by omega)]
  obtain ⟨id, model, choices, usage⟩ := chunk
  cases choices with
  | nil =>
    simp only [usageChunk]
    split
    · next hnone => exact GoesOn.marks ⟨rfl, by simp⟩ hdone (by simp [Input.Ends, hnone])
    · next _ hsome =>
      have hends : Input.Ends count ⟨⟨id, model, [], usage⟩, info.usage⟩ := ⟨hcount, by simp [hsome]⟩
      exact ⟨iff_of_true rfl hends, iff_of_true (by simp [endEvents]) hends⟩
  | cons choice rest =>
    simp only [choiceChunk]
    cases hfinish : choice.finish with
    | none => exact (goesOn_sendDelta info choice.delta).marks hdone (by simp [Input.Ends, hfinish])
    | some reason =>
      cases usage with
      | none => exact GoesOn.marks ⟨rfl, by simp⟩ hdone (by simp [Input.Ends, hcount])
      | some usage =>
        have hends : Input.Ends count ⟨⟨id, model, choice :: rest, some usage⟩, info.usage⟩ :=
          ⟨by simp [hfinish], .inr rfl⟩
        exact marks_close hends _ _

/-- One step: the message has ended, for the converter and for the client, if it had or if the chunk ends it. -/
theorem marks_step {ends : Prop} (h : Marks ends (s.info, s.events)) (hcount : s.count ≠ 0) (estimate : ℤ)
    (input : Input U) :
    Marks (ends ∨ input.Ends s.count) ((step estimate s input).info, (step estimate s input).events) := by
  cases hdone : s.info.done with
  | true =>
    have hended : ends := h.done.mp hdone
    rw [step, streamResponse_of_done hdone, List.append_nil]
    exact ⟨iff_of_true hdone (.inl hended), iff_of_true (h.stop.mpr hended) (.inl hended)⟩
  | false =>
    have hopen : ¬ ends := fun hended => Bool.noConfusion (hdone.symm.trans (h.done.mpr hended))
    have hsent := marks_laterChunk { s.info with usage := input.usage } hdone estimate hcount input.chunk
    rw [or_iff_right hopen]
    exact ⟨hsent.done, by simp [step, hsent.stop, mt h.stop.mp hopen]⟩

theorem marks_run {ends : Prop} (h : Marks ends (s.info, s.events)) (hcount : s.count ≠ 0) (estimate : ℤ)
    (inputs : List (Input U)) :
    .messageStop ∈ (run (step estimate) s inputs).events ↔ ends ∨ ∃ p ∈ inputs.zipIdx s.count, p.1.Ends p.2 := by
  induction inputs generalizing s ends with
  | nil => simp [h.stop]
  | cons input inputs ih =>
    rw [run_cons, ih (marks_step h hcount estimate input) (Nat.succ_ne_zero _), List.zipIdx_cons, or_assoc]
    simp [step]

/-- **When a message ends**: a stop is sent exactly if one of the chunks, at the place where it comes, ends the
message. -/
theorem messageStop_iff (estimate : ℤ) (inputs : List (Input U)) :
    .messageStop ∈ (run (step estimate) {} inputs).events ↔ ∃ p ∈ inputs.zipIdx, p.1.Ends p.2 := by
  cases inputs with
  | nil => simp
  | cons input inputs =>
    have hfirst : Marks (input.Ends 0) ((step estimate {} input).info, (step estimate {} input).events) :=
      marks_firstChunk estimate input
    rw [run_cons, marks_run hfirst (Nat.succ_ne_zero _), List.zipIdx_cons]
    simp [step]

/-- A usage that comes with a choice but no finish reason does not end the message: its block stays open. -/
example : let events := (run (step 0) {} [{ chunk := { choices := [{ delta := { content := some "a" } }] } },
      { chunk := { choices := [{ delta := { content := some "b" } }], usage := some () } }]).events
    openBlocks events = 1 ∧ .messageStop ∉ events := by decide

/-- Two calls that the first chunk names, and then arguments for the second one. -/
def parallelCalls : List (Input Unit) :=
  [{ chunk := { choices := [{ delta := { toolCalls :=
      [{ index := some 0, id := "call_0", name := "search" },
        { index := some 1, id := "call_1", name := "read" }] } }] } },
    { chunk := { choices := [{ delta := { toolCalls :=
      [{ index := some 1, arguments := "[]" }] } }] } }]

/-- The first chunk starts a block for its first call only, so the arguments are for a block that was
never started. -/
theorem parallelCalls_not_wellFormed :
    (run (step 0) {} parallelCalls).events =
        [.messageStart "" "" 0, .contentBlockStart 0 (.toolUse "call_0" "search"),
          .contentBlockDelta 1 (.inputJsonDelta "[]")] ∧
      ¬ WellFormed (run (step 0) {} parallelCalls).events := by
  decide

end OneApi.Claude.Stream

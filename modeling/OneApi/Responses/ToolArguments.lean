import OneApi.Responses.ToolRun

/-!
# The arguments of the tools

What a client concatenates for a tool is the concatenation of the deltas of the tool, whatever the order
of the events, as long as each event can be traced to its tool and an item with arguments comes after the
deltas of its tool.

The condition is needed.  A delta that comes before its tool is known waits under its output index, even
if it has the item id, and an item of the terminal response has no output index: such a delta is flushed
as a tool of its own.  And an item replaces the arguments of its tool, so a delta that comes after an item
with the whole arguments is sent a second time.
-/

namespace OneApi.Responses

open Chat ResponsesToChatStreamState OneApi.Lib.Go Function Track
open Lib.Run (run Respects)

variable {T : Type} [DecidableEq T]

namespace ToolEvent

/-- The delta of the arguments that an event brings. -/
def argumentsDelta : ToolEvent → String
  | .delta event => event.delta
  | _ => ""

/-- The arguments that an item carries. -/
def arguments : ToolEvent → String
  | .item event => (event.item.map ResponsesOutput.argumentsString).getD ""
  | _ => ""

end ToolEvent

/-- The deltas of a tool, concatenated. -/
def deltasOf (N : ToolKey → Option T) (events : List ToolEvent) (τ : T) : String :=
  String.join ((events.filter fun event => toolOf N event = some τ).map ToolEvent.argumentsDelta)

variable {event : ToolEvent}

theorem deltasOf_snoc {N : ToolKey → Option T} {τ : T} (h : toolOf N event = some τ) (events : List ToolEvent) :
    deltasOf N (events ++ [event]) =
      update (deltasOf N events) τ (deltasOf N events τ ++ event.argumentsDelta) := by
  funext τ'
  rw [deltasOf, List.filter_append, List.map_append, String.join_append, List.filter_singleton, h]
  by_cases hτ : τ' = τ
  · rw [hτ, update_self, decide_eq_true rfl]
    show _ ++ String.join [event.argumentsDelta] = _
    rw [String.join_cons, String.join_nil, String.append_empty]
    rfl
  · rw [update_of_ne hτ, decide_eq_false fun heq => hτ (Option.some.inj heq).symm]
    show _ ++ "" = _
    rw [String.append_empty]
    rfl

/-! ## One tool -/

/-- The track has brought some arguments: they wait, or the client has them all. -/
def Track.Delivers (args : String) (t : Track) : Prop :=
  match t.tool with
  | none => t.waiting = args
  | some (tool, c) => t.waiting = "" ∧ tool.arguments = args ∧ tool.argsSentAt = len args ∧
      c.arguments = args ∧ (tool.name = "" ∨ tool.nameSent = true)

variable {c : AssembledCall}

namespace Track

variable {args : String} {t : Track}

theorem afterSend_name (tool : ResponsesStreamTool) (delta : String) :
    (tool.afterSend delta).name = "" ∨ (tool.afterSend delta).nameSent = true := by
  by_cases hname : tool.name = ""
  · exact .inl hname
  · refine .inr ?_
    show (tool.nameSent || decide (tool.name ≠ "")) = true
    rw [decide_eq_true hname, Bool.or_true]

variable {tool : ResponsesStreamTool}

/-- The client of which the first part of the arguments is known gets the rest. -/
theorem delivers_known {before extra delta : String}
    (hargs : tool.arguments = before ++ extra) (hat : tool.argsSentAt = len before)
    (hc : c.arguments = before) (hsend : argsToSend tool delta = extra) :
    Delivers (before ++ extra) { tool := some (send tool (some c) delta) } := by
  rw [send, hsend]
  refine ⟨rfl, hargs, ?_, ?_, afterSend_name tool extra⟩
  · show tool.argsSentAt + len extra = len (before ++ extra)
    rw [hat, len_append]
  · show c.arguments ++ extra = before ++ extra
    rw [hc]

theorem delivers_new (hargs : tool.arguments = args)
    (hat : tool.argsSentAt = 0) : Delivers args { tool := some (send tool none "") } := by
  rw [send, argsToSend_all hat, hargs]
  refine ⟨rfl, hargs, ?_, rfl, afterSend_name tool args⟩
  show tool.argsSentAt + len args = len args
  rw [hat, Nat.zero_add]

/-- Nothing new is sent of a tool of which everything was. -/
theorem delivers_again (hargs : tool.arguments = args)
    (hat : tool.argsSentAt = len args) (hc : c.arguments = args) :
    Delivers args { tool := some (send tool (some c) "") } := by
  have hnothing : argsToSend tool "" = "" := argsToSend_nothing (hat.trans (by rw [hargs]))
  have h := delivers_known (hargs.trans (String.append_empty).symm) hat hc hnothing
  rw [String.append_empty] at h
  exact h

variable {item : ResponsesOutput}

/-- The arguments of the tool when an item came that has none or these. -/
theorem withItem_arguments {event : ResponsesStreamResponse} {waiting : String}
    (h : tool.arguments ++ waiting = args) (hitem : item.argumentsString = "" ∨ item.argumentsString = args) :
    (withItem event item waiting tool).arguments = args := by
  rw [withItem]
  split
  next hne => exact hitem.resolve_left hne
  next => exact h

theorem withItem_argsSentAt (event : ResponsesStreamResponse) (waiting : String) :
    (withItem event item waiting tool).argsSentAt = tool.argsSentAt := by
  rw [withItem]
  split
  · rfl
  · rfl

theorem Delivers.addItem {event : ResponsesStreamResponse}
    (h : t.Delivers args) (hitem : item.argumentsString = "" ∨ item.argumentsString = args) :
    (t.addItem event item).Delivers args := by
  obtain ⟨waiting, tool⟩ := t
  cases tool with
  | none =>
    have hwaiting : waiting = args := h
    refine delivers_new (withItem_arguments ?_ hitem) (withItem_argsSentAt _ _)
    show "" ++ waiting = args
    rw [String.empty_append, hwaiting]
  | some known =>
    obtain ⟨tool, c⟩ := known
    obtain ⟨hwaiting, hargs, hat, hc, _⟩ := h
    have hwaiting' : waiting = "" := hwaiting
    refine delivers_again (withItem_arguments ?_ hitem) ((withItem_argsSentAt _ _).trans hat) hc
    show tool.arguments ++ waiting = args
    rw [hwaiting', String.append_empty, hargs]

/-- **One event of a tool.**  The track brings what it brought before and the delta of the event, if an
item has no arguments or those that have come. -/
theorem Delivers.step (h : t.Delivers args) (hwf : event.WellFormed)
    (hitem : event.arguments = "" ∨ event.arguments = args) :
    (t.step event).Delivers (args ++ event.argumentsDelta) := by
  cases event with
  | item e =>
    obtain ⟨item, he⟩ := Option.isSome_iff_exists.mp hwf
    rw [ToolEvent.arguments, he] at hitem
    show (t.step (.item e)).Delivers (args ++ "")
    rw [String.append_empty, step, he]
    exact h.addItem hitem
  | delta e =>
    show (t.step (.delta e)).Delivers (args ++ e.delta)
    obtain ⟨waiting, tool⟩ := t
    cases tool with
    | none =>
      have hwaiting : waiting = args := h
      show waiting ++ e.delta = args ++ e.delta
      rw [hwaiting]
    | some known =>
      obtain ⟨tool, c⟩ := known
      obtain ⟨hwaiting, hargs, hat, hc, _⟩ := h
      have hwaiting' : waiting = "" := hwaiting
      subst hwaiting'
      refine delivers_known ?_ hat hc (argsToSend_explicit hwf.2)
      show tool.arguments ++ e.delta = args ++ e.delta
      rw [hargs]
  | argumentsDone e =>
    show (t.step (.argumentsDone e)).Delivers (args ++ "")
    rw [String.append_empty]
    obtain ⟨waiting, tool⟩ := t
    cases tool with
    | none =>
      have hwaiting : waiting = args := h
      refine delivers_new ?_ rfl
      show "" ++ waiting = args
      rw [String.empty_append, hwaiting]
    | some known =>
      obtain ⟨tool, c⟩ := known
      obtain ⟨hwaiting, hargs, hat, hc, _⟩ := h
      have hwaiting' : waiting = "" := hwaiting
      subst hwaiting'
      exact delivers_again hargs hat hc

theorem Delivers.settled (h : t.Delivers args) : t.Settled := by
  intro tool c htool
  rw [Delivers, htool] at h
  obtain ⟨_, hargs, hat, _, hname⟩ := h
  exact ⟨argsToSend_nothing (hat.trans (by rw [hargs])), hname⟩

/-- A tool that has an event is known, or something waits for it. -/
theorem step_known (hwf : event.WellFormed) : (t.step event).tool.isSome ∨ (t.step event).waiting ≠ "" := by
  cases event with
  | item e =>
    obtain ⟨item, he⟩ := Option.isSome_iff_exists.mp hwf
    rw [step, he]
    exact .inl rfl
  | delta e =>
    obtain ⟨waiting, tool⟩ := t
    cases tool with
    | none =>
      refine .inr fun hempty => ?_
      exact hwf.2 (String.append_eq_empty_iff.mp hempty).2
    | some known => exact .inl rfl
  | argumentsDone e =>
    obtain ⟨waiting, tool⟩ := t
    cases tool with
    | none | some known => exact .inl rfl

end Track

/-! ## All tools -/

/-- A tool event can be traced to its tool, and comes after the deltas of its tool if it is an item with
arguments. -/
def InOrder (N : ToolKey → Option T) (x : Session) (action : Action) : Prop :=
  ∀ event τ, action.toolEvent = some event → toolOf N event = some τ →
    Linked N x.state event τ ∧ (event.arguments = "" ∨ event.arguments = deltasOf N x.past τ)

variable {N : ToolKey → Option T}

variable {action : Action}

/-- The tracks of a session deliver the deltas that have come. -/
theorem delivers_step {x : Session} (hnames : ∀ event, action.toolEvent = some event → ∃ τ, Names N event τ)
    (horder : InOrder N x action) (h : ∀ τ, (trackOf N x.past τ).Delivers (deltasOf N x.past τ)) (τ : T) :
    (trackOf N (x.step action).past τ).Delivers (deltasOf N (x.step action).past τ) := by
  show (trackOf N (x.past ++ action.toolEvent.toList) τ).Delivers (deltasOf N (x.past ++ action.toolEvent.toList) τ)
  cases htool : action.toolEvent with
  | none =>
    show (trackOf N (x.past ++ []) τ).Delivers (deltasOf N (x.past ++ []) τ)
    rw [List.append_nil]
    exact h τ
  | some event =>
    obtain ⟨σ, hσ⟩ := hnames event htool
    show (trackOf N (x.past ++ [event]) τ).Delivers (deltasOf N (x.past ++ [event]) τ)
    rw [trackOf_snoc hσ.toolOf, deltasOf_snoc hσ.toolOf]
    by_cases hτ : τ = σ
    · rw [hτ, update_self, update_self]
      exact (h σ).step hσ.wellFormed (horder event σ htool hσ.toolOf).2
    · rw [update_of_ne hτ, update_of_ne hτ]
      exact h τ

/-- The track of a tool with an event is not empty. -/
theorem trackOf_known {events : List ToolEvent} (hwf : ∀ event ∈ events, event.WellFormed) {τ : T} :
    ((trackOf N events τ).tool.isSome ∨ (trackOf N events τ).waiting ≠ "") ↔
      ∃ event ∈ events, toolOf N event = some τ := by
  rw [trackOf]
  rcases List.eq_nil_or_concat (events.filter fun event => toolOf N event = some τ) with
    hnil | ⟨before, last, hlast⟩
  · rw [hnil]
    constructor
    · simp
    · rintro ⟨event, hmem, hτ⟩
      have hin : event ∈ events.filter fun event => toolOf N event = some τ :=
        List.mem_filter.mpr ⟨hmem, decide_eq_true hτ⟩
      rw [hnil] at hin
      exact absurd hin List.not_mem_nil
  · have hin : last ∈ events.filter fun event => toolOf N event = some τ := by
      rw [hlast, List.concat_eq_append]
      exact List.mem_append_right _ (List.mem_singleton.mpr rfl)
    obtain ⟨hmem, hτ⟩ := List.mem_filter.mp hin
    rw [hlast, List.concat_eq_append, List.foldl_append]
    exact ⟨fun _ => ⟨last, hmem, of_decide_eq_true hτ⟩,
      fun _ => step_known (hwf last hmem)⟩

/-- The call of a track that is flushed has the arguments that waited. -/
theorem flush_arguments {t : Track} {key : ToolKey} {tool : ResponsesStreamTool}
    (h : (t.flush key).tool = some (tool, c)) : c.arguments = t.waiting := by
  rw [flush, send, argsToSend_all rfl] at h
  cases h
  exact String.empty_append

variable {response : Option OpenAIResponsesResponse} {events : List ResponsesStreamResponse}

theorem mem_toolEvents (h : action ∈ streamActions events response) (htool : action.toolEvent = some event) :
    event ∈ toolEvents events response :=
  List.mem_flatMap.mpr ⟨action, h, by rw [htool]; exact List.mem_singleton.mpr rfl⟩

theorem isTerminal_of_mem_streamActions (hopen : ∀ e ∈ events, e.type.isTerminal = false)
    (h : action ∈ streamActions events response) : action.isTerminal = false := by
  rcases List.mem_append.mp h with hevent | hrest
  · obtain ⟨e, he, rfl⟩ := List.mem_map.mp hevent
    exact hopen e he
  · rcases List.mem_cons.mp hrest with rfl | hout
    · rfl
    · obtain ⟨out, _, rfl⟩ := List.mem_map.mp hout
      rfl

/-- **The arguments of every tool arrive once and in order.**  The tools have the indices 0, 1, 2 and so
on, one for each tool that an event names. -/
theorem toolArguments_delivered (N : ToolKey → Option T) (model : String) (includeUsage : Bool)
    (events : List ResponsesStreamResponse) (response : Option OpenAIResponsesResponse)
    (hopen : ∀ e ∈ events, e.type.isTerminal = false)
    (hnames : ∀ event ∈ toolEvents events response, ∃ τ, Names N event τ)
    (horder : Respects Session.step (InOrder N) (.start model includeUsage) (streamActions events response)) :
    ∃ owners : List T, owners.Nodup ∧
      (∀ τ, τ ∈ owners ↔ ∃ event ∈ toolEvents events response, toolOf N event = some τ) ∧
      (streamAssembly model includeUsage events response).calls.length = owners.length ∧
      ∀ (j : ℕ) (τ : T), owners[j]? = some τ →
        ∃ c, (streamAssembly model includeUsage events response).calls[j]? = some c ∧ c.index = j ∧
          c.arguments = deltasOf N (toolEvents events response) τ := by
  have hboth : Respects Session.step (fun x action => InOrder N x action ∧
      (action.isTerminal = false ∧ ∀ event, action.toolEvent = some event → ∃ τ, Names N event τ))
      (.start model includeUsage) (streamActions events response) :=
    horder.and_forall fun action haction => ⟨isTerminal_of_mem_streamActions hopen haction,
      fun event htool => hnames event (mem_toolEvents haction htool)⟩
  have htrace : Respects Session.step (Traceable N) (.start model includeUsage) (streamActions events response) := by
    refine Lib.Run.Respects.imp ?_ hboth
    intro x action ⟨hin, hterminal, hname⟩
    refine ⟨hterminal, fun event htool => ?_⟩
    obtain ⟨τ, hτ⟩ := hname event htool
    exact ⟨τ, hτ, (hin event τ htool hτ.toolOf).1⟩
  have hdelivers : ∀ τ, (trackOf N (toolEvents events response) τ).Delivers
      (deltasOf N (toolEvents events response) τ) := by
    have hrun := Lib.Run.run_preserves_of_respects
      (I := fun x : Session => ∀ τ, (trackOf N x.past τ).Delivers (deltasOf N x.past τ))
      (fun x action hC hI => delivers_step hC.2.2 hC.1 hI) hboth fun τ => rfl
    rw [(Session.run_step _ _).2.2] at hrun
    exact hrun
  have hwf : ∀ event ∈ toolEvents events response, event.WellFormed := by
    intro event hevent
    obtain ⟨τ, hτ⟩ := hnames event hevent
    exact hτ.wellFormed
  obtain ⟨tools, owners, tracks, hcontents, hflushes, hall⟩ :=
    stream_contents htrace fun τ _ => (hdelivers τ).settled
  refine ⟨owners, hcontents.nodup, fun τ => ?_, hcontents.calls_length, fun j τ hj => ?_⟩
  · rw [← trackOf_known hwf]
    constructor
    · intro hτ
      by_cases hold : τ ∈ ownersOf N (toolEvents events response)
      · obtain ⟨j, hj⟩ := List.mem_iff_getElem?.mp hτ
        obtain ⟨tool, c, htrack, _⟩ := hcontents.tool j τ hj
        rw [hflushes.kept τ (.inl hold)] at htrack
        rw [htrack]
        exact .inl rfl
      · exact .inr (hflushes.flushed τ hτ hold).2.1
    · intro hknown
      by_contra hnot
      have hnone := hcontents.unknown τ hnot
      rw [hflushes.kept τ (.inr hnot)] at hnone
      obtain ⟨event, hevent, hτ⟩ := (trackOf_known hwf).mp hknown
      obtain ⟨b, _, hb⟩ := Option.bind_eq_some_iff.mp hτ
      refine hnot (hall b τ hb (hknown.resolve_left ?_))
      rw [hnone]
      exact Bool.false_ne_true
  · obtain ⟨tool, c, htrack, _, hcall, _⟩ := hcontents.tool j τ hj
    refine ⟨_, hcall, rfl, ?_⟩
    show c.arguments = _
    have hd := hdelivers τ
    rw [Track.Delivers] at hd
    by_cases hold : τ ∈ ownersOf N (toolEvents events response)
    · rw [hflushes.kept τ (.inl hold)] at htrack
      rw [htrack] at hd
      exact hd.2.2.2.1
    · obtain ⟨hnone, _, key, hkey⟩ := hflushes.flushed τ (List.mem_of_getElem? hj) hold
      rw [hnone] at hd
      rw [hkey] at htrack
      exact (flush_arguments htrack).trans hd

/-! ## A delta that comes before its tool -/

/-- The delta of a tool that no item was seen of. -/
def earlyDelta : ResponsesStreamResponse where
  type := .functionArgsDelta
  outputIndex := some 0
  itemID := "fc_1"
  delta := "[]"

/-- The item of the tool; in a terminal response it has no output index. -/
def lateItem : ResponsesOutput where
  type := .functionCall
  id := "fc_1"
  callId := "call_1"
  name := "f"
  arguments := .text "[]"

/-- One tool, known by an output index, an item id and a call id. -/
def oneTool (b : ToolKey) : Option Unit :=
  if b = .output 0 ∨ b = .item "fc_1" ∨ b = .call "call_1" then some () else none

theorem earlyDelta_names : Names oneTool (.delta earlyDelta) () :=
  ⟨⟨rfl, by decide⟩, by decide, by decide⟩

/-- The item as an event of its own, with the output index. -/
def lateItemDone : ResponsesStreamResponse where
  type := .outputItemDone
  outputIndex := some 0
  item := some lateItem

theorem oneTool_carried {b : ToolKey} {τ : Unit} (h : oneTool b = some τ) : b ∈ carried lateItemDone := by
  rw [oneTool] at h
  split at h
  next hb => rcases hb with rfl | rfl | rfl <;> decide
  next => cases h

theorem earlyDelta_delivered :
    ∃ owners : List Unit, owners.Nodup ∧
      (∀ τ, τ ∈ owners ↔
        ∃ event ∈ toolEvents [earlyDelta, lateItemDone] none, toolOf oneTool event = some τ) ∧
      (streamAssembly "m" false [earlyDelta, lateItemDone] none).calls.length = owners.length ∧
      ∀ (j : ℕ) (τ : Unit), owners[j]? = some τ →
        ∃ c, (streamAssembly "m" false [earlyDelta, lateItemDone] none).calls[j]? = some c ∧
          c.index = j ∧
          c.arguments = deltasOf oneTool (toolEvents [earlyDelta, lateItemDone] none) τ := by
  have hdelta : Action.toolEvent (.event earlyDelta) = some (.delta earlyDelta) := by rfl
  have hitem : Action.toolEvent (.event lateItemDone) = some (.item lateItemDone) := by rfl
  refine toolArguments_delivered oneTool "m" false [earlyDelta, lateItemDone] none (by decide) ?_ ?_
  · have hevents : toolEvents [earlyDelta, lateItemDone] none
        = [.delta earlyDelta, .item lateItemDone] := by rfl
    rw [hevents]
    intro event hevent
    rcases List.mem_pair.mp hevent with rfl | rfl
    · exact ⟨(), earlyDelta_names⟩
    · exact ⟨(), rfl, by decide, by decide⟩
  · refine ⟨fun event τ hevent _ => ?_, fun event τ hevent _ => ?_, fun event τ hevent _ => ?_, trivial⟩
    · rw [hdelta] at hevent
      cases hevent
      refine ⟨⟨?_, fun b _ hb => ?_⟩, .inl rfl⟩
      · rintro ⟨b, _, hb⟩
        cases b <;> cases hb
      · cases b <;> exact absurd rfl hb
    · rw [hitem] at hevent
      cases hevent
      refine ⟨⟨?_, fun b hb _ => oneTool_carried hb⟩, .inr (by cases τ; decide +kernel)⟩
      rintro ⟨b, _, hb⟩
      cases b <;> cases hb
    · cases hevent

/-- In a terminal response the item does not lead to the delta, which is sent once for the item and once
for a tool of its own. -/
theorem earlyDelta_sent_twice :
    (∀ event ∈ toolEvents [earlyDelta] (some { output := [lateItem] }), Names oneTool event ()) ∧
      deltasOf oneTool (toolEvents [earlyDelta] (some { output := [lateItem] })) () = "[]" ∧
      (streamAssembly "m" false [earlyDelta] (some { output := [lateItem] })).calls =
        [⟨0, "call_1", "f", "[]"⟩, ⟨1, "call_output_0", "", "[]"⟩] := by
  refine ⟨?_, by decide +kernel, by decide +kernel⟩
  have hevents : toolEvents [earlyDelta] (some { output := [lateItem] })
      = [.delta earlyDelta, .item (Action.outputEvent lateItem)] := by rfl
  rw [hevents]
  intro event hevent
  rcases List.mem_pair.mp hevent with rfl | rfl
  · exact earlyDelta_names
  · exact ⟨rfl, by decide, by decide⟩

end OneApi.Responses

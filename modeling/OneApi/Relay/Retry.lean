import OneApi.Relay.Override
import OneApi.Lib.Run

/-!
# Header overrides over retries

One record serves all attempts of a request.  An attempt replaces the channel's part of it, applies the
parameter override of the channel and sends the header override that is then in effect.  A parameter
override that has been applied leaves its headers in the record, where they take the place of the
override of every later channel.
-/

namespace OneApi.Relay

open OneApi.Lib OneApi.Lib.Run

structure ChannelMeta where
  upstreamModelName : String := ""
  paramOverride : ParamOverride := {}
  headersOverride : Headers := ∅

structure RelayInfo where
  originModelName : String
  requestURLPath : String
  requestHeaders : Headers
  isChannelTest : Bool := false
  retryIndex : ℕ := 0
  lastError : Option LastError := none
  runtimeHeadersOverride : Headers := ∅
  useRuntimeHeadersOverride : Bool := false
  channelMeta : ChannelMeta := {}

def getEffectiveHeaderOverride (info : RelayInfo) : Headers :=
  if info.useRuntimeHeadersOverride then sanitizeHeaderOverrideMap info.runtimeHeadersOverride
  else sanitizeHeaderOverrideMap info.channelMeta.headersOverride

def buildParamOverrideContext (info : RelayInfo) : OverrideContext where
  upstreamModel := info.channelMeta.upstreamModelName
  originalModel := info.originModelName
  requestPath := info.requestURLPath
  requestHeaders := buildRequestHeadersContext info.requestHeaders
  headerOverride := sanitizeHeaderOverrideMap (getEffectiveHeaderOverride info)
  retryIndex := info.retryIndex
  lastError := info.lastError
  isChannelTest := info.isChannelTest

def syncRuntimeHeaderOverrideFromContext (info : RelayInfo) (context : OverrideContext) : RelayInfo :=
  { info with
    runtimeHeadersOverride := sanitizeHeaderOverrideMap context.headerOverride
    useRuntimeHeadersOverride := true }

/-- What the client sends. -/
structure ClientRequest where
  originModelName : String
  requestURLPath : String
  requestHeaders : Headers := ∅
  isChannelTest : Bool := false

/-- `GenRelayInfo`: the record of a new request. -/
def genRelayInfo (client : ClientRequest) : RelayInfo where
  originModelName := client.originModelName
  requestURLPath := client.requestURLPath
  requestHeaders := client.requestHeaders
  isChannelTest := client.isChannelTest

section Attempts

variable {β : Type} (engine : Engine β)

def applyParamOverrideWithRelayInfo (data : β) (info : RelayInfo) : Except String (β × RelayInfo) :=
  if info.channelMeta.paramOverride.isEmpty then .ok (data, info)
  else
    match applyParamOverride engine data info.channelMeta.paramOverride (buildParamOverrideContext info) with
    | .error e => .error e
    | .ok (result, context) => .ok (result, syncRuntimeHeaderOverrideFromContext info context)

/-- The part of the record that belongs to the channel. -/
def initChannelMeta (info : RelayInfo) (channelMeta : ChannelMeta) : RelayInfo := { info with channelMeta }

/-- One attempt of a request.  `data` is the body for the channel; some handlers pass the body on as it is
and do not apply the parameter override. -/
structure Attempt (β : Type) where
  channel : ChannelMeta
  data : β
  appliesOverride : Bool := true
  retryIndex : ℕ := 0
  lastError : Option LastError := none

def begin (info : RelayInfo) (a : Attempt β) : RelayInfo :=
  initChannelMeta { info with retryIndex := a.retryIndex, lastError := a.lastError } a.channel

/-- The record after an attempt, and the header override that is sent; `none` is an attempt that fails before
its request. -/
def attempt (info : RelayInfo) (a : Attempt β) : RelayInfo × Option Headers :=
  if a.appliesOverride then
    match applyParamOverrideWithRelayInfo engine a.data (begin info a) with
    | .error _ => (begin info a, none)
    | .ok (_, info) => (info, some (getEffectiveHeaderOverride info))
  else (begin info a, some (getEffectiveHeaderOverride (begin info a)))

/-- The record after earlier attempts. -/
def afterAttempts (info : RelayInfo) (earlier : List (Attempt β)) : RelayInfo :=
  run (fun info a => (attempt engine info a).1) info earlier

/-- The override headers sent to a channel after earlier attempts, as a map. -/
def headersSent (client : ClientRequest) (earlier : List (Attempt β)) (later : Attempt β) :
    Option (String → Option String) :=
  (attempt engine (afterAttempts engine (genRelayInfo client) earlier) later).2.map Headers.get

/-- The attempt applies a parameter override that is not empty, and the override does not fail for this
record. -/
def Applies (info : RelayInfo) (a : Attempt β) : Prop :=
  a.appliesOverride = true ∧ a.channel.paramOverride.isEmpty = false ∧
    ∃ result, applyParamOverride engine a.data a.channel.paramOverride
      (buildParamOverrideContext (begin info a)) = .ok result

end Attempts

variable {β : Type} {engine : Engine β} {info info' : RelayInfo} {a : Attempt β}

/-! ## What an attempt leaves -/

/-- The record of a request, but for what the next attempt replaces. -/
def SameRequest (β : Type) (info info' : RelayInfo) : Prop :=
  ∀ a : Attempt β, begin info' a = begin info a

theorem attempt_of_same (h : SameRequest β info info') : attempt engine info' a = attempt engine info a := by
  rw [attempt, attempt, h a]

/-- What the parameter override does to the record. -/
theorem applyParamOverrideWithRelayInfo_cases (data : β) :
    (∃ e, applyParamOverrideWithRelayInfo engine data info = .error e) ∨
      applyParamOverrideWithRelayInfo engine data info = .ok (data, info) ∨
      ∃ result context, applyParamOverrideWithRelayInfo engine data info
        = .ok (result, syncRuntimeHeaderOverrideFromContext info context) := by
  rw [applyParamOverrideWithRelayInfo]
  split
  · exact .inr (.inl rfl)
  split
  next e _ => exact .inl ⟨e, rfl⟩
  next result context _ => exact .inr (.inr ⟨result, context, rfl⟩)

theorem attempt_of_not_applies (hnot : ¬ Applies engine info a) : (attempt engine info a).1 = begin info a := by
  rw [attempt]
  by_cases happlies : a.appliesOverride = true
  · rw [if_pos happlies, applyParamOverrideWithRelayInfo]
    by_cases hempty : (begin info a).channelMeta.paramOverride.isEmpty = true
    · rw [if_pos hempty]
    · rw [if_neg hempty]
      cases happly : applyParamOverride engine a.data (begin info a).channelMeta.paramOverride
          (buildParamOverrideContext (begin info a)) with
      | error e => rfl
      | ok result => exact absurd ⟨happlies, Bool.eq_false_iff.mpr hempty, result, happly⟩ hnot
  · rw [if_neg happlies]

theorem attempt_of_applies (h : Applies engine info a) :
    (attempt engine info a).1.useRuntimeHeadersOverride = true := by
  obtain ⟨happlies, hnonempty, result, happly⟩ := h
  have hempty : ¬ (begin info a).channelMeta.paramOverride.isEmpty = true :=
    Bool.eq_false_iff.mp hnonempty
  have happly' : applyParamOverride engine a.data (begin info a).channelMeta.paramOverride
      (buildParamOverrideContext (begin info a)) = .ok result := happly
  rw [attempt, if_pos happlies, applyParamOverrideWithRelayInfo, if_neg hempty, happly']
  rfl

/-- Headers that an earlier attempt has left stay in use. -/
theorem attempt_useRuntime (h : info.useRuntimeHeadersOverride = true) :
    (attempt engine info a).1.useRuntimeHeadersOverride = true := by
  rw [attempt]
  split
  · rcases applyParamOverrideWithRelayInfo_cases a.data with
      ⟨e, he⟩ | hsame | ⟨result, context, hsync⟩
    · rw [he]
      exact h
    · rw [hsame]
      exact h
    · rw [hsync]
      rfl
  · exact h

/-! ## Whole requests -/

theorem SameRequest.attempt (h : SameRequest β info info') (hnot : ¬ Applies engine info a) :
    SameRequest β info (attempt engine info' a).1 := by
  rw [attempt_of_same h, attempt_of_not_applies hnot]
  exact fun _ => rfl

variable {earlier : List (Attempt β)}

theorem afterAttempts_of_not_applies
    (h : ∀ a ∈ earlier, ¬ Applies engine info a) : SameRequest β info (afterAttempts engine info earlier) :=
  run_preserves_of_respects (I := SameRequest β info) (fun _ _ hnot hsame => hsame.attempt hnot)
    (respects_of_forall h _) fun _ => rfl

theorem afterAttempts_of_applies (hsame : SameRequest β info info') (h : ∃ a ∈ earlier, Applies engine info a) :
    (afterAttempts engine info' earlier).useRuntimeHeadersOverride = true := by
  induction earlier generalizing info' with
  | nil =>
    obtain ⟨a, ha, _⟩ := h
    cases ha
  | cons b earlier ih =>
    rw [afterAttempts, run_cons]
    by_cases hb : Applies engine info b
    · refine run_preserves (I := fun i : RelayInfo => i.useRuntimeHeadersOverride = true)
        (fun _ a hi => attempt_useRuntime hi) earlier ?_
      rw [attempt_of_same hsame]
      exact attempt_of_applies hb
    · obtain ⟨a, ha, happlies⟩ := h
      rcases List.mem_cons.mp ha with rfl | hmem
      · exact absurd happlies hb
      · exact ih (hsame.attempt hb) ⟨a, hmem, happlies⟩

/-- An attempt that only sends one header. -/
def oneHeader (data : β) (value : String) : Attempt β where
  channel := { headersOverride := AList.singleton "x" value }
  data := data
  appliesOverride := false

theorem attempt_oneHeader (hnew : info.useRuntimeHeadersOverride = false) (data : β) (value : String) :
    (attempt engine info (oneHeader data value)).2 = some (sanitizeHeaderOverrideMap (AList.singleton "x" value)) := by
  rw [attempt, if_neg (by exact Bool.false_ne_true), getEffectiveHeaderOverride, if_neg]
  · rfl
  · exact Bool.eq_false_iff.mp hnew

theorem attempt_oneHeader_of_useRuntime (huse : info.useRuntimeHeadersOverride = true) (data : β)
    (value : String) : (attempt engine info (oneHeader data value)).2
      = some (sanitizeHeaderOverrideMap info.runtimeHeadersOverride) := by
  rw [attempt, if_neg (by exact Bool.false_ne_true), getEffectiveHeaderOverride, if_pos]
  · rfl
  · exact huse

/-- **The headers of earlier channels.**  The headers sent to a channel depend on its configuration and the
client only, for every later channel, exactly if no earlier attempt has applied a parameter override; so two
requests of the same client without such attempts send the same headers. -/
theorem headersSent_iff (engine : Engine β) (client : ClientRequest) (earlier : List (Attempt β)) :
    ((∀ later, headersSent engine client earlier later = headersSent engine client [] later) ↔
        ∀ a ∈ earlier, ¬ Applies engine (genRelayInfo client) a) ∧
      ∀ earlier', (∀ a ∈ earlier, ¬ Applies engine (genRelayInfo client) a) →
        (∀ a ∈ earlier', ¬ Applies engine (genRelayInfo client) a) →
        ∀ later, headersSent engine client earlier later = headersSent engine client earlier' later := by
  have hsent : ∀ earlier : List (Attempt β), (∀ a ∈ earlier, ¬ Applies engine (genRelayInfo client) a) →
      ∀ later, headersSent engine client earlier later = headersSent engine client [] later := by
    intro earlier hnot later
    rw [headersSent, headersSent, attempt_of_same (afterAttempts_of_not_applies hnot)]
    rfl
  refine ⟨⟨fun h => ?_, hsent earlier⟩, fun earlier' hnot hnot' later => ?_⟩
  · intro a ha happlies
    have huse : (afterAttempts engine (genRelayInfo client) earlier).useRuntimeHeadersOverride = true :=
      afterAttempts_of_applies (fun _ => rfl) ⟨a, ha, happlies⟩
    -- the record would hold every value of the one header
    have hvalue : ∀ value : String,
        (sanitizeHeaderOverrideMap
            (afterAttempts engine (genRelayInfo client) earlier).runtimeHeadersOverride).get "x"
          = (sanitizeHeaderOverrideMap (AList.singleton "x" value)).get "x" := by
      intro value
      have hsame := h (oneHeader a.data value)
      rw [headersSent, headersSent, attempt_oneHeader_of_useRuntime huse, attempt_oneHeader rfl] at hsame
      exact congrFun (Option.some.inj hsame) "x"
    have hone : (sanitizeHeaderOverrideMap (AList.singleton "x" "1")).get "x" = some "1" := by
      decide +kernel
    have htwo : (sanitizeHeaderOverrideMap (AList.singleton "x" "2")).get "x" = some "2" := by
      decide +kernel
    have hboth := (hvalue "1").symm.trans (hvalue "2")
    rw [hone, htwo] at hboth
    exact absurd hboth (by decide)
  · rw [hsent earlier hnot, hsent earlier' hnot']

/-- A body as a list of fields; no operation of the examples below reads it. -/
def fieldEngine : Engine (List (String × Value)) where
  setLiteral data key value := .ok (data ++ [(key, value)])
  checkConditions _ _ _ _ := .ok true
  apply data _ _ _ := .ok data
  parseReturnError _ := ""
  parseHeaderPassThroughNames _ := .ok []
  read data key := (data.find? fun entry => entry.1 = key).map Prod.snd
  write data key value := .ok (data ++ [(key, value)])

def chatClient : ClientRequest where
  originModelName := "gpt-4o"
  requestURLPath := "/v1/chat/completions"

/-- A channel with a key of its own in a header; it sets the temperature of every request or leaves it. -/
def firstChannel (paramOverride : ParamOverride) : Attempt (List (String × Value)) where
  channel := { paramOverride, headersOverride := AList.singleton "Authorization" "Bearer first" }
  data := []

def secondChannel : Attempt (List (String × Value)) where
  channel := { headersOverride := AList.singleton "X-Second" "1" }
  data := []
  retryIndex := 1

theorem headersSent_first :
    headersSent fieldEngine chatClient [firstChannel {}] secondChannel
      = headersSent fieldEngine chatClient [] secondChannel :=
  (headersSent_iff fieldEngine chatClient [firstChannel {}]).2 [] (by
    intro a ha happlies
    rw [List.mem_singleton.mp ha] at happlies
    exact Bool.noConfusion happlies.2.1) (fun _ ha => by cases ha) secondChannel

/-- The key of the first channel is sent to the second one. -/
theorem headersSent_leak :
    (headersSent fieldEngine chatClient
        [firstChannel { legacy := [("temperature", .number "0.5")] }] secondChannel).map
          (fun headers => (headers "authorization", headers "x-second"))
        = some (some "Bearer first", none) ∧
      (headersSent fieldEngine chatClient [firstChannel {}] secondChannel).map
          (fun headers => (headers "authorization", headers "x-second"))
        = some (none, some "1") := by
  decide +kernel

end OneApi.Relay

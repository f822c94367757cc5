import OneApi.Lib.Go
import OneApi.Lib.Run
import Mathlib.Tactic.Linarith
import Mathlib.Tactic.Ring

/-!
# The retry loop of a relayed request

`CacheGetRandomSatisfiedChannel` of `service/channel_select.go` and the loop of `controller/relay.go` around it.
The loop counts with `RetryParam`, which the selection resets when it moves to another group; the group it is at
is stored in the context of the request.

What the world answers in one pass through the loop is a `Round`: the channel that each group would give for
each priority, and the errors of the steps that follow.  A run is a list of rounds, so a statement about all
runs is about every pattern of failures, with channels that come and go in between.
-/

namespace OneApi.Channels

open OneApi.Lib OneApi.Lib.Run

structure RetryParam where
  retry : ℕ := 0
  resetNextTry : Bool := false
  deriving Repr, DecidableEq

def RetryParam.increaseRetry (param : RetryParam) : RetryParam :=
  if param.resetNextTry then { param with resetNextTry := false } else { param with retry := param.retry + 1 }

theorem RetryParam.increaseRetry_eq {param : RetryParam} (h : param.resetNextTry = false) :
    param.increaseRetry = { retry := param.retry + 1, resetNextTry := false } := by
  rw [RetryParam.increaseRetry, if_neg (by rw [h]; exact Bool.false_ne_true), h]

/-- What is fixed for a request: options, the token's group and the auto groups of the user. -/
structure RetrySettings where
  retryTimes : ℕ
  tokenGroup : String
  modelName : String := ""
  /-- The list of the option is not empty. -/
  autoGroupsEnabled : Bool := true
  autoGroups : List String
  crossGroupRetry : Bool := false
  /-- Bound to a verified channel. -/
  pinnedChannel : Bool := false
  skipRetryAfterAffinity : Bool := false
  isAlwaysSkipRetryCode : String → Bool := fun _ => false
  shouldRetryByStatusCode : ℤ → Bool := fun _ => true

structure RelayError where
  message : String
  errorCode : String
  statusCode : ℤ := 500
  skipRetry : Bool := false
  deriving Repr, DecidableEq

variable {χ : Type}

/-! ## Selection -/

/-- What a selection returns and leaves behind. -/
structure Selected (χ : Type) where
  channel : Option χ
  group : String
  param : RetryParam
  autoGroupIndex : Option ℕ
  deriving Repr, DecidableEq

/-- The loop over the auto groups from the one at `start`; `i` is the index of the first group of the list. -/
def searchGroups (s : RetrySettings) (select : String → ℕ → Except String (Option χ)) (start : ℕ) :
    ℕ → List String → RetryParam → Option ℕ → Selected χ
  | _, [], param, index => ⟨none, s.tokenGroup, param, index⟩
  | i, autoGroup :: rest, param, _ =>
    let priorityRetry := if i > start then 0 else param.retry
    match select autoGroup priorityRetry with
    | .ok (some channel) =>
      if s.crossGroupRetry && decide (priorityRetry ≥ s.retryTimes) then
        ⟨some channel, autoGroup, { retry := 0, resetNextTry := true }, some (i + 1)⟩
      else ⟨some channel, autoGroup, param, some i⟩
    | _ => searchGroups s select start (i + 1) rest { param with retry := 0 } (some (i + 1))

def cacheGetRandomSatisfiedChannel (s : RetrySettings) (select : String → ℕ → Except String (Option χ))
    (param : RetryParam) (autoGroupIndex : Option ℕ) : Except String (Selected χ) :=
  if s.tokenGroup = "auto" then
    if !s.autoGroupsEnabled then .error "auto groups is not enabled"
    else
      let start := autoGroupIndex.getD 0
      .ok (searchGroups s select start start (s.autoGroups.drop start) param autoGroupIndex)
  else
    match select s.tokenGroup param.retry with
    | .error err => .error err
    | .ok channel => .ok ⟨channel, s.tokenGroup, param, autoGroupIndex⟩

/-! ## The loop -/

/-- What one pass through the loop meets. -/
structure Round (χ : Type) where
  select : String → ℕ → Except String (Option χ)
  setupErr : Option RelayError := none
  bodyErr : Option RelayError := none
  /-- The error of the upstream request, if it fails. -/
  result : Option RelayError := none

structure Relay where
  param : RetryParam := {}
  autoGroupIndex : Option ℕ
  /-- Set by the first upstream request. -/
  channelMeta : Bool := false
  theOneError : Option RelayError := none
  running : Bool := true
  attempts : ℕ := 0
  deriving Repr, DecidableEq

/-- At the start of the loop, with the group index that the distributor left. -/
def Relay.opening (autoGroupIndex : Option ℕ) : Relay := { autoGroupIndex }

def errGetChannel (s : RetrySettings) (group err : String) : RelayError where
  message := "获取分组 " ++ group ++ " 下模型 " ++ s.modelName ++ " 的可用渠道失败（retry）: " ++ err
  errorCode := "get_channel_failed"
  skipRetry := true

def errNoChannel (s : RetrySettings) (group : String) : RelayError where
  message := "分组 " ++ group ++ " 下模型 " ++ s.modelName ++ " 的可用渠道不存在（retry）"
  errorCode := "get_channel_failed"
  skipRetry := true

/-- What a selection leaves in the request. -/
def Relay.take (relay : Relay) (selected : Selected χ) : Relay :=
  { relay with param := selected.param, autoGroupIndex := selected.autoGroupIndex }

/-- The channel of the context on the first pass and for a pinned request, a selection otherwise.  The error is
`none` if there is a channel. -/
def Relay.getChannel (s : RetrySettings) (round : Round χ) (relay : Relay) : Option RelayError × Relay :=
  if !relay.channelMeta || s.pinnedChannel then (none, relay)
  else
    match cacheGetRandomSatisfiedChannel s round.select relay.param relay.autoGroupIndex with
    | .error err => (some (errGetChannel s s.tokenGroup err), relay)
    | .ok selected =>
      match selected.channel with
      | none => (some (errNoChannel s selected.group), relay.take selected)
      | some _ => (round.setupErr, relay.take selected)

def isChannelError (err : RelayError) : Bool := "channel:".toList.isPrefixOf err.errorCode.toList

def shouldRetry (s : RetrySettings) (err : RelayError) (retryTimes : ℤ) : Bool :=
  if s.pinnedChannel then false
  else if s.skipRetryAfterAffinity then false
  else if isChannelError err then true
  else if err.skipRetry then false
  else if retryTimes ≤ 0 then false
  else if 200 ≤ err.statusCode ∧ err.statusCode < 300 then false
  else if err.statusCode < 100 ∨ 599 < err.statusCode then true
  else if s.isAlwaysSkipRetryCode err.errorCode then false
  else s.shouldRetryByStatusCode err.statusCode

def Relay.stop (relay : Relay) (err : Option RelayError) : Relay :=
  { relay with running := false, theOneError := err }

/-- The upstream request and the decision to go on. -/
def attempt (s : RetrySettings) (round : Round χ) (relay : Relay) : Relay :=
  let relay := { relay with attempts := relay.attempts + 1, channelMeta := true, theOneError := round.result }
  match round.result with
  | none => relay.stop none
  | some err =>
    if shouldRetry s err ((s.retryTimes : ℤ) - relay.param.retry) then
      { relay with param := relay.param.increaseRetry }
    else relay.stop (some err)

/-- The pass after the channel is known. -/
def Relay.proceed (s : RetrySettings) (round : Round χ) : Option RelayError × Relay → Relay
  | (some err, relay) => relay.stop (some err)
  | (none, relay) =>
    match round.bodyErr with
    | some err => relay.stop (some err)
    | none => attempt s round relay

/-- One pass through the loop, from its condition on. -/
def relayStep (s : RetrySettings) (relay : Relay) (round : Round χ) : Relay :=
  if !relay.running then relay
  else if relay.param.retry > s.retryTimes then relay.stop relay.theOneError
  else Relay.proceed s round (Relay.getChannel s round relay)

/-! ## Slots

A selection takes place at a group and a number of retries in it.  Each one that finds a channel moves the
request to a later slot, whether it stays in the group or resets the counter for another one. -/

/-- The slot of a group index and a retry. -/
def RetrySettings.slot (s : RetrySettings) (autoGroupIndex : Option ℕ) (retry : ℕ) : ℕ :=
  (if s.tokenGroup = "auto" then autoGroupIndex.getD 0 * (s.retryTimes + 1) else 0) + retry

/-- The most attempts of a request. -/
def RetrySettings.limit (s : RetrySettings) : ℕ :=
  if s.tokenGroup = "auto" then max 1 (s.autoGroups.length * (s.retryTimes + 1)) else s.retryTimes + 1

/-- The selection has moved on. -/
structure Selected.Advances (s : RetrySettings) (selected : Selected χ) (slot : ℕ) : Prop where
  slot_lt : slot < s.slot selected.autoGroupIndex selected.param.increaseRetry.retry
  noReset : selected.param.increaseRetry.resetNextTry = false

section Search

variable {s : RetrySettings} {select : String → ℕ → Except String (Option χ)} {start : ℕ}

variable {i : ℕ} {param : RetryParam}

/-- The groups are tried in turn: one is found, or the rest is tried with the counter at zero. -/
theorem searchGroups_cons (group : String) (rest : List String) (index : Option ℕ)
    (hzero : start < i → param.retry = 0) : (∃ channel, select group param.retry = .ok (some channel) ∧
      searchGroups s select start i (group :: rest) param index
        = if s.crossGroupRetry && decide (param.retry ≥ s.retryTimes) then
            ⟨some channel, group, { retry := 0, resetNextTry := true }, some (i + 1)⟩
          else ⟨some channel, group, param, some i⟩) ∨
    ((∀ channel, select group param.retry ≠ .ok (some channel)) ∧
      searchGroups s select start i (group :: rest) param index
        = searchGroups s select start (i + 1) rest { param with retry := 0 } (some (i + 1))) := by
  have hretry : (if i > start then 0 else param.retry) = param.retry := by
    split
    · exact (hzero ‹_›).symm
    · rfl
  rw [searchGroups]
  simp only [hretry]
  cases hselect : select group param.retry with
  | error err =>
    refine .inr ⟨?_, rfl⟩
    intro channel h
    cases h
  | ok found =>
    cases found with
    | none =>
      refine .inr ⟨?_, rfl⟩
      intro channel h
      cases h
    | some channel => exact .inl ⟨channel, rfl, rfl⟩

variable {index : Option ℕ}

theorem searchGroups_index {rest : List String}
    (hzero : start < i → param.retry = 0) (hi : start ≤ i) (hindex : index.getD 0 ≤ i) :
    index.getD 0 ≤ (searchGroups s select start i rest param index).autoGroupIndex.getD 0 := by
  induction rest generalizing i param index with
  | nil => exact le_rfl
  | cons group rest ih =>
    rcases searchGroups_cons group rest index hzero with ⟨channel, -, heq⟩ | ⟨-, heq⟩
    · rw [heq]
      split
      · exact hindex.trans (Nat.le_succ i)
      · exact hindex
    · rw [heq]
      have hnext := @ih (i + 1) { param with retry := 0 } (some (i + 1)) (fun _ => rfl) (by omega) le_rfl
      exact (hindex.trans (Nat.le_succ i)).trans hnext

/-- A search that finds a channel advances, and stays within the groups. -/
theorem searchGroups_advances (hauto : s.tokenGroup = "auto") {rest : List String}
    (hzero : start < i → param.retry = 0) (hi : start ≤ i)
    (hretry : param.retry ≤ s.retryTimes) (hreset : param.resetNextTry = false) {channel : χ}
    (h : (searchGroups s select start i rest param index).channel = some channel) :
    (searchGroups s select start i rest param index).Advances s (i * (s.retryTimes + 1) + param.retry) ∧
      i * (s.retryTimes + 1) + param.retry < (i + rest.length) * (s.retryTimes + 1) := by
  have hsucc : ∀ k, (k + 1) * (s.retryTimes + 1) = k * (s.retryTimes + 1) + (s.retryTimes + 1) :=
    fun k => Nat.succ_mul k _
  induction rest generalizing i param index with
  | nil => cases h
  | cons group rest ih =>
    rw [List.length_cons, ← Nat.add_assoc, hsucc]
    have hle : i * (s.retryTimes + 1) ≤ (i + rest.length) * (s.retryTimes + 1) :=
      Nat.mul_le_mul_right _ (Nat.le_add_right i rest.length)
    rcases searchGroups_cons group rest index hzero with ⟨found, -, heq⟩ | ⟨-, heq⟩
    · rw [heq]
      refine ⟨?_, by omega⟩
      split
      · -- the next group, from the start
        refine ⟨?_, rfl⟩
        show _ < s.slot (some (i + 1)) 0
        rw [RetrySettings.slot, if_pos hauto, Option.getD_some, hsucc]
        omega
      · -- the next retry in this group
        have hincrease := RetryParam.increaseRetry_eq hreset
        refine ⟨?_, congrArg RetryParam.resetNextTry hincrease⟩
        show _ < s.slot (some i) param.increaseRetry.retry
        rw [RetrySettings.slot, if_pos hauto, Option.getD_some, hincrease]
        show _ < _ + (param.retry + 1)
        omega
    · rw [heq] at h ⊢
      have hnext := @ih (i + 1) { param with retry := 0 } (some (i + 1)) (fun _ => rfl) (by omega)
        (Nat.zero_le _) hreset h
      obtain ⟨⟨hslot, hflag⟩, hlt⟩ := hnext
      rw [hsucc] at hslot
      rw [Nat.add_right_comm, hsucc, hsucc] at hlt
      exact ⟨⟨by omega, hflag⟩, by omega⟩

variable {selected : Selected χ} (h : cacheGetRandomSatisfiedChannel s select param index = .ok selected)

include h in
/-- A selection that returns a channel advances, and its slot is below the limit. -/
theorem selected_advances (hretry : param.retry ≤ s.retryTimes) (hreset : param.resetNextTry = false)
    (hchannel : selected.channel.isSome = true) :
    selected.Advances s (s.slot index param.retry) ∧ s.slot index param.retry < s.limit := by
  rw [cacheGetRandomSatisfiedChannel] at h
  by_cases hauto : s.tokenGroup = "auto"
  · rw [if_pos hauto] at h
    split at h
    · cases h
    · obtain rfl := Except.ok.inj h
      obtain ⟨channel, hchannel⟩ := Option.isSome_iff_exists.mp hchannel
      obtain ⟨hadvances, hlt⟩ := searchGroups_advances hauto (fun hlt => absurd hlt (lt_irrefl _)) le_rfl
        hretry hreset hchannel
      rw [RetrySettings.slot, if_pos hauto, RetrySettings.limit, if_pos hauto]
      refine ⟨hadvances, hlt.trans_le ?_⟩
      rw [List.length_drop]
      by_cases hstart : index.getD 0 ≤ s.autoGroups.length
      · rw [Nat.add_sub_cancel' hstart]
        exact le_max_right _ _
      · -- nothing is left to search
        rw [List.drop_eq_nil_of_le (by omega)] at hchannel
        cases hchannel
  · rw [if_neg hauto] at h
    split at h
    · cases h
    · obtain rfl := Except.ok.inj h
      have hincrease := RetryParam.increaseRetry_eq hreset
      rw [RetrySettings.limit, if_neg hauto, RetrySettings.slot, if_neg hauto]
      refine ⟨⟨?_, congrArg RetryParam.resetNextTry hincrease⟩, by omega⟩
      show _ < s.slot index param.increaseRetry.retry
      rw [RetrySettings.slot, if_neg hauto, hincrease]
      show _ < _ + (param.retry + 1)
      omega

include h in
theorem selected_index : index.getD 0 ≤ selected.autoGroupIndex.getD 0 := by
  rw [cacheGetRandomSatisfiedChannel] at h
  split at h
  · split at h
    · cases h
    · obtain rfl := Except.ok.inj h
      exact searchGroups_index (fun hlt => absurd hlt (lt_irrefl _)) le_rfl le_rfl
  · split at h
    · cases h
    · obtain rfl := Except.ok.inj h
      exact le_rfl

end Search

/-! ## What a pass through the loop does -/

/-- The request goes on after an attempt only if it may be retried, with the counter increased. -/
theorem attempt_cases (s : RetrySettings) (round : Round χ) (relay : Relay) :
    (attempt s round relay).attempts = relay.attempts + 1 ∧
      (attempt s round relay).autoGroupIndex = relay.autoGroupIndex ∧
      ((attempt s round relay).running = false ∨
        s.pinnedChannel = false ∧ (attempt s round relay).channelMeta = true ∧
          (attempt s round relay).param = relay.param.increaseRetry) := by
  rw [attempt]
  cases round.result with
  | none => exact ⟨rfl, rfl, .inl rfl⟩
  | some err =>
    simp only
    split
    · rename_i hretry
      refine ⟨rfl, rfl, .inr ⟨?_, rfl, rfl⟩⟩
      cases hpinned : s.pinnedChannel with
      | false => rfl
      | true =>
        rw [shouldRetry, hpinned] at hretry
        cases hretry
    · exact ⟨rfl, rfl, .inl rfl⟩

/-- The ways through the loop: it is over, it stops, it tries the channel of the context, or it selects one. -/
theorem relayStep_cases (s : RetrySettings) (relay : Relay) (round : Round χ) :
    relay.running = false ∧ relayStep s relay round = relay ∨
    (∃ err, relayStep s relay round = relay.stop err) ∨
    (relay.running = true ∧ relay.param.retry ≤ s.retryTimes) ∧
      ((relay.channelMeta = false ∨ s.pinnedChannel = true) ∧
          relayStep s relay round = attempt s round relay ∨
        relay.channelMeta = true ∧ ∃ selected,
          cacheGetRandomSatisfiedChannel s round.select relay.param relay.autoGroupIndex = .ok selected ∧
          ((∃ err, relayStep s relay round = (relay.take selected).stop err) ∨
            selected.channel.isSome = true ∧ relayStep s relay round = attempt s round (relay.take selected))) := by
  -- once there is a channel, only the body may still fail to be read
  have hproceed : ∀ relay' : Relay,
      (∃ err, Relay.proceed s round (none, relay') = relay'.stop err) ∨
        Relay.proceed s round (none, relay') = attempt s round relay' := by
    intro relay'
    rw [Relay.proceed]
    cases round.bodyErr with
    | some err => exact .inl ⟨some err, rfl⟩
    | none => exact .inr rfl
  rw [relayStep]
  cases hrunning : relay.running with
  | false => exact .inl ⟨rfl, rfl⟩
  | true =>
    right
    simp only [Bool.not_true, Bool.false_eq_true, if_false]
    split
    · exact .inl ⟨_, rfl⟩
    rename_i hretry
    have hlive : True ∧ relay.param.retry ≤ s.retryTimes := ⟨trivial, Nat.le_of_not_lt hretry⟩
    rw [Relay.getChannel]
    split
    · rename_i hcontext
      rcases hproceed relay with ⟨err, hstop⟩ | htry
      · exact .inl ⟨err, hstop⟩
      · exact .inr ⟨hlive, .inl ⟨by simpa using hcontext, htry⟩⟩
    rename_i hcontext
    have hmeta : relay.channelMeta = true := by
      cases hmeta : relay.channelMeta with
      | true => rfl
      | false => exact absurd (by rw [hmeta]; rfl) hcontext
    split
    · exact .inl ⟨_, rfl⟩
    rename_i selected hselected
    refine .inr ⟨hlive, .inr ⟨hmeta, selected, hselected, ?_⟩⟩
    cases selected.channel with
    | none => exact .inl ⟨_, rfl⟩
    | some channel =>
      cases round.setupErr with
      | some err => exact .inl ⟨some err, rfl⟩
      | none =>
        rcases hproceed (relay.take selected) with ⟨err, hstop⟩ | htry
        · exact .inl ⟨err, hstop⟩
        · exact .inr ⟨rfl, htry⟩

/-! ## The bound -/

theorem one_le_limit (s : RetrySettings) : 1 ≤ s.limit := by
  rw [RetrySettings.limit]
  split
  · exact le_max_left _ _
  · omega

/-- The attempts so far are within the limit, and while the loop goes on they are at most the slot it is at. -/
structure Bounded (s : RetrySettings) (relay : Relay) : Prop where
  attempts_le : relay.attempts ≤ s.limit
  noReset : relay.running = true → relay.param.resetNextTry = false
  attempts_le_slot : relay.running = true → relay.attempts ≤ s.slot relay.autoGroupIndex relay.param.retry
  first : relay.running = true → (relay.channelMeta = false ∨ s.pinnedChannel = true) → relay.attempts = 0

variable {s : RetrySettings} {relay : Relay}

theorem Bounded.stop (h : relay.attempts ≤ s.limit) (err : Option RelayError) : Bounded s (relay.stop err) where
  attempts_le := h
  noReset := fun hrunning => by cases hrunning
  attempts_le_slot := fun hrunning => by cases hrunning
  first := fun hrunning => by cases hrunning

/-- An attempt from a state that is below the limit and has moved past the attempts made. -/
theorem Bounded.of_attempt (round : Round χ) (hlimit : relay.attempts < s.limit)
    (hslot : relay.attempts < s.slot relay.autoGroupIndex relay.param.increaseRetry.retry)
    (hreset : relay.param.increaseRetry.resetNextTry = false) : Bounded s (attempt s round relay) := by
  obtain ⟨hattempts, hindex, hrest⟩ := attempt_cases s round relay
  rcases hrest with hstop | ⟨hpinned, hmeta, hparam⟩
  · refine ⟨by omega, ?_, ?_, ?_⟩ <;>
    · intro hrunning
      rw [hstop] at hrunning
      cases hrunning
  · refine ⟨by omega, fun _ => by rw [hparam]; exact hreset, fun _ => ?_, ?_⟩
    · rw [hattempts, hindex, hparam]
      exact hslot
    · rintro - (h | h)
      · rw [hmeta] at h
        cases h
      · rw [hpinned] at h
        cases h

theorem bounded_step (h : Bounded s relay) (round : Round χ) : Bounded s (relayStep s relay round) := by
  rcases relayStep_cases s relay round with
    ⟨-, heq⟩ | ⟨err, heq⟩ | ⟨⟨hrunning, hretry⟩, ⟨hcontext, heq⟩ | ⟨-, selected, hselected, hrest⟩⟩
  · rw [heq]
    exact h
  · rw [heq]
    exact .stop h.attempts_le err
  · -- the channel of the context: the first attempt
    rw [heq]
    have hzero := h.first hrunning hcontext
    have hincrease := RetryParam.increaseRetry_eq (h.noReset hrunning)
    refine Bounded.of_attempt round (hzero ▸ one_le_limit s) ?_ ?_
    · rw [hzero, hincrease, RetrySettings.slot]
      exact Nat.succ_pos _
    · rw [hincrease]
  · rcases hrest with ⟨err, heq⟩ | ⟨hsome, heq⟩
    · rw [heq]
      exact @Bounded.stop s (relay.take selected) h.attempts_le err
    · rw [heq]
      obtain ⟨⟨hslot, hreset⟩, hlimit⟩ := selected_advances hselected hretry (h.noReset hrunning) hsome
      have hle := h.attempts_le_slot hrunning
      exact Bounded.of_attempt round (lt_of_le_of_lt hle hlimit) (lt_of_le_of_lt hle hslot) hreset

theorem bounded_opening (index : Option ℕ) : Bounded s (Relay.opening index : Relay) :=
  ⟨Nat.zero_le _, fun _ => rfl, fun _ => Nat.zero_le _, fun _ _ => rfl⟩

/-! ## The group index and the end of the loop -/

theorem index_step (s : RetrySettings) (relay : Relay) (round : Round χ) :
    relay.autoGroupIndex.getD 0 ≤ (relayStep s relay round).autoGroupIndex.getD 0 := by
  rcases relayStep_cases s relay round with
    ⟨-, heq⟩ | ⟨err, heq⟩ | ⟨-, ⟨-, heq⟩ | ⟨-, selected, hselected, hrest⟩⟩
  · rw [heq]
  · rw [heq]
    exact le_rfl
  · rw [heq, (attempt_cases s round relay).2.1]
  · have hindex := selected_index hselected
    rcases hrest with ⟨err, heq⟩ | ⟨-, heq⟩
    · rw [heq]
      exact hindex
    · rw [heq, (attempt_cases s round (relay.take selected)).2.1]
      exact hindex

theorem index_run (rounds : List (Round χ)) :
    relay.autoGroupIndex.getD 0 ≤ (run (relayStep s) relay rounds).autoGroupIndex.getD 0 :=
  run_preserves (I := fun r => relay.autoGroupIndex.getD 0 ≤ r.autoGroupIndex.getD 0)
    (fun r round h => h.trans (index_step s r round)) rounds le_rfl

theorem running_of_step {round : Round χ} (h : (relayStep s relay round).running = true) : relay.running = true := by
  cases hover : relay.running with
  | true => rfl
  | false =>
    have hsame : relayStep s relay round = relay := by
      rw [relayStep, hover]
      rfl
    rw [hsame, hover] at h
    exact h

/-- A loop that is over stays so. -/
theorem running_of_run (s : RetrySettings) (relay : Relay) (rounds : List (Round χ))
    (h : (run (relayStep s) relay rounds).running = true) : relay.running = true := by
  induction rounds generalizing relay with
  | nil => exact h
  | cons round rounds ih => exact running_of_step (ih _ h)

/-- A loop that goes on has made an attempt in every pass. -/
theorem attempts_of_running (s : RetrySettings) (relay : Relay) (rounds : List (Round χ))
    (h : (run (relayStep s) relay rounds).running = true) :
    (run (relayStep s) relay rounds).attempts = relay.attempts + rounds.length := by
  induction rounds generalizing relay with
  | nil => rfl
  | cons round rounds ih =>
    rw [run_cons] at h ⊢
    rw [ih _ h, List.length_cons]
    have hattempts : (relayStep s relay round).running = true →
        (relayStep s relay round).attempts = relay.attempts + 1 := by
      intro hrunning
      rcases relayStep_cases s relay round with
        ⟨hover, heq⟩ | ⟨err, heq⟩ | ⟨-, ⟨-, heq⟩ | ⟨-, selected, -, ⟨err, heq⟩ | ⟨-, heq⟩⟩⟩
      · rw [heq, hover] at hrunning
        cases hrunning
      · rw [heq] at hrunning
        cases hrunning
      · rw [heq, (attempt_cases s round relay).1]
      · rw [heq] at hrunning
        cases hrunning
      · rw [heq, (attempt_cases s round (relay.take selected)).1]
        rfl
    rw [hattempts (running_of_run s _ rounds h)]
    omega

/-- **The loop is bounded.**  Whatever the rounds and the group index at the start, the attempts stay within the
limit, the stored index never decreases, and the loop is over once the rounds outnumber the limit. -/
theorem relay_bounded (s : RetrySettings) (index : Option ℕ) (rounds : List (Round χ)) :
    (run (relayStep s) (Relay.opening index) rounds).attempts
        ≤ (if s.tokenGroup = "auto" then max 1 (s.autoGroups.length * (s.retryTimes + 1))
            else s.retryTimes + 1) ∧
      (∀ before after, rounds = before ++ after →
        (run (relayStep s) (Relay.opening index) before).autoGroupIndex.getD 0
          ≤ (run (relayStep s) (Relay.opening index) rounds).autoGroupIndex.getD 0) ∧
      (s.limit < rounds.length → (run (relayStep s) (Relay.opening index) rounds).running = false) := by
  have hbounded : Bounded s (run (relayStep s) (Relay.opening index) rounds) :=
    run_preserves (I := Bounded s) (fun r round h => bounded_step h round) rounds (bounded_opening index)
  refine ⟨hbounded.attempts_le, ?_, ?_⟩
  · rintro before after rfl
    rw [run_append]
    exact index_run after
  · intro hlong
    by_contra hrunning
    have hattempts := attempts_of_running s (Relay.opening index) rounds (by simpa using hrunning)
    have hle := hbounded.attempts_le
    rw [hattempts] at hle
    have hlength : rounds.length ≤ s.limit := (Nat.le_add_left _ _).trans hle
    omega

/-- A pinned request of a token in the group auto, for a user without auto groups. -/
def pinnedSettings : RetrySettings where
  retryTimes := 3
  tokenGroup := "auto"
  autoGroups := []
  pinnedChannel := true

/-- It is sent once, to its channel, although there is no group. -/
theorem pinned_attempted :
    pinnedSettings.autoGroups.length * (pinnedSettings.retryTimes + 1)
      < (run (relayStep pinnedSettings) (Relay.opening none)
          [({ select := fun _ _ => .ok none } : Round Unit)]).attempts := by
  decide

end OneApi.Channels

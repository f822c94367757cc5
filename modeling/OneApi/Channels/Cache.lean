import OneApi.Lib.Go
import OneApi.Lib.Run
import OneApi.Lib.Table
import OneApi.Lib.Tiers

/-!
# The channel cache

The index of `model/channel_cache.go` from groups and models to channels, its construction from the tables, the
removal of a channel whose status changes, and the selection of a channel.  The selection never looks at the
status of a channel: it relies on the index.

A configuration of advanced routes is any type with a test for a path and a model.  `sort.Slice` may leave channels of one priority in any order; here they keep
theirs.  The random number of a draw is an argument, taken modulo the total weight.
-/

namespace OneApi.Channels

open OneApi.Lib OneApi.Lib.Run OneApi.Lib.Tiers

inductive ChannelStatus
  | unknown
  | enabled
  | manuallyDisabled
  | autoDisabled
  deriving Repr, DecidableEq

def channelTypeAdvancedCustom : ℕ := 58

structure Channel (κ : Type) where
  id : ℤ
  type : ℕ := 1
  status : ChannelStatus := .enabled
  group : String
  models : String
  priority : Option ℤ := none
  weight : Option ℕ := none
  advancedCustom : Option κ := none
  deriving Repr, DecidableEq

structure Ability where
  group : String
  model : String
  channelId : ℤ
  enabled : Bool
  priority : ℤ := 0
  weight : ℕ := 0
  deriving Repr, DecidableEq

/-- From a group and a model to the channels that serve it. -/
abbrev Index := String → String → List ℤ

variable {κ : Type}

def Channel.getPriority (channel : Channel κ) : ℤ := channel.priority.getD 0

def Channel.getWeight (channel : Channel κ) : ℕ := channel.weight.getD 0

/-- The groups a sync reads from the column; an empty column is the group with the empty name. -/
def Channel.splitGroups (channel : Channel κ) : List String := Go.split channel.group ','

def Channel.splitModels (channel : Channel κ) : List String := Go.split channel.models ','

structure Cache (κ : Type) where
  group2model2channels : Index
  channelsIDM : Table (Channel κ) Channel.id
  channel2advancedCustomConfig : ℤ → Option κ

/-! ## Construction -/

def Index.append (index : Index) (group model : String) (id : ℤ) : Index := fun g m =>
  if g = group ∧ m = model then index g m ++ [id] else index g m

/-- The loops over the groups and the models of a channel. -/
def indexChannel (index : Index) (channel : Channel κ) : Index :=
  channel.splitGroups.foldl
    (fun index group =>
      channel.splitModels.foldl (fun index model => index.append group model channel.id) index) index

def priorityOf (channels : Table (Channel κ) Channel.id) (id : ℤ) : ℤ :=
  ((channels.find id).map Channel.getPriority).getD 0

/-- The sync of the cache.  The maps of the models are made for the groups of the abilities; `none` is the panic
of a write to the map of another group. -/
def initChannelCache (channels : Table (Channel κ) Channel.id) (abilities : List Ability) : Option (Cache κ) :=
  let enabled := channels.rows.filter fun channel => channel.status = .enabled
  if enabled.any fun channel => channel.splitGroups.any fun group => channel.splitModels.any fun _ =>
      !(abilities.any fun ability => ability.group = group) then none
  else
    let index : Index := enabled.foldl indexChannel fun _ _ => []
    some
      { group2model2channels := fun group model =>
          (index group model).insertionSort fun a b => priorityOf channels a ≥ priorityOf channels b
        channelsIDM := channels
        channel2advancedCustomConfig := fun id =>
          (channels.find id).bind fun channel =>
            if channel.type = channelTypeAdvancedCustom then channel.advancedCustom else none }

/-! ## Changes of a status -/

def Channel.setStatus (status : ChannelStatus) (channel : Channel κ) : Channel κ := { channel with status }

theorem Channel.setStatus_id (status : ChannelStatus) (channel : Channel κ) :
    (channel.setStatus status).id = channel.id := rfl

/-- A channel that is not enabled any more is removed from each list of the index, once. -/
def cacheUpdateChannelStatus (cache : Cache κ) (id : ℤ) (status : ChannelStatus) : Cache κ :=
  { cache with
    channelsIDM := cache.channelsIDM.updateWhere (fun channel => channel.id = id)
      (Channel.setStatus status) (Channel.setStatus_id status)
    group2model2channels :=
      if status = .enabled then cache.group2model2channels
      else fun group model => (cache.group2model2channels group model).erase id }

/-! ## Selection -/

def hasPrefix (s pre : String) : Bool := pre.toList.isPrefixOf s.toList

def handleThinkingBudgetModel (name pre wildcard : String) : String :=
  if hasPrefix name pre && Go.contains name "-thinking-" then wildcard else name

def formatMatchingModelName (name : String) : String :=
  let name :=
    if hasPrefix name "gemini-2.5-flash-lite" then
      handleThinkingBudgetModel name "gemini-2.5-flash-lite" "gemini-2.5-flash-lite-thinking-*"
    else if hasPrefix name "gemini-2.5-flash" then
      handleThinkingBudgetModel name "gemini-2.5-flash" "gemini-2.5-flash-thinking-*"
    else if hasPrefix name "gemini-2.5-pro" then
      handleThinkingBudgetModel name "gemini-2.5-pro" "gemini-2.5-pro-thinking-*"
    else name
  let name := if hasPrefix name "gpt-4-gizmo" then "gpt-4-gizmo-*" else name
  if hasPrefix name "gpt-4o-gizmo" then "gpt-4o-gizmo-*" else name

section Selection

variable (supportsPathForModel : κ → String → String → Bool)

/-- The test of one candidate.  An id without a channel is kept, so that the selection reports it. -/
def keepsChannel (cache : Cache κ) (requestPath model : String) (id : ℤ) : Bool :=
  match cache.channelsIDM.find id with
  | none => true
  | some channel =>
    if channel.type ≠ channelTypeAdvancedCustom then true
    else
      match cache.channel2advancedCustomConfig id with
      | none => false
      | some config => supportsPathForModel config requestPath model

def filterChannelsByRequestPathAndModel (cache : Cache κ) (channels : List ℤ) (requestPath model : String) : List ℤ :=
  if requestPath = "" ∨ channels = [] then channels
  else channels.filter (keepsChannel supportsPathForModel cache requestPath model)

def errMissing (id : ℤ) : String := "数据库一致性错误，渠道# " ++ toString id ++ " 不存在，请联系管理员修复"

/-- The channels of a list of ids, or the first id without a channel. -/
def Cache.lookup (cache : Cache κ) : List ℤ → Except ℤ (List (Channel κ))
  | [] => .ok []
  | id :: ids =>
    match cache.channelsIDM.find id with
    | none => .error id
    | some channel => (cache.lookup ids).map (channel :: ·)

def smoothingFactor (sumWeight count : ℕ) : ℕ :=
  if sumWeight = 0 then 1 else if sumWeight / count < 10 then 100 else 1

def smoothingAdjustment (sumWeight : ℕ) : ℕ := if sumWeight = 0 then 100 else 0

def totalWeight (sumWeight count : ℕ) : ℕ :=
  (if sumWeight = 0 then count * 100 else sumWeight) * smoothingFactor sumWeight count

/-- One of the channels of a tier, by weight. -/
def drawChannel (targetChannels : List (Channel κ)) (random : ℕ) : Except String (Option (Channel κ)) :=
  let sumWeight := (targetChannels.map Channel.getWeight).sum
  let count := targetChannels.length
  match draw (fun left => left < 0) (fun channel : Channel κ =>
        ((channel.getWeight * smoothingFactor sumWeight count + smoothingAdjustment sumWeight : ℕ) : ℤ))
      targetChannels ((random % totalWeight sumWeight count : ℕ) : ℤ) with
  | some channel => .ok (some channel)
  | none => .error "channel not found"

/-- The selection from the channels that are left after the filter. -/
def selectChannel (cache : Cache κ) (group model : String) (retry random : ℕ) :
    List ℤ → Except String (Option (Channel κ))
  | [] => .ok none
  | [id] =>
    match cache.channelsIDM.find id with
    | none => .error (errMissing id)
    | some channel => .ok (some channel)
  | ids =>
    match cache.lookup ids with
    | .error id => .error (errMissing id)
    | .ok channels =>
      match tierAt (channels.map Channel.getPriority) retry with
      | none => .error "channel not found"
      | some targetPriority =>
        match channels.filter fun channel => channel.getPriority = targetPriority with
        | [] => .error ("no channel found, group: " ++ group ++ ", model: " ++ model ++ ", priority: "
            ++ toString targetPriority)
        | targetChannels => drawChannel targetChannels random

/-- The channels a request may go to: those listed for the model, or else for its normalized name. -/
def candidates (cache : Cache κ) (group model requestPath : String) : List ℤ :=
  let channels := filterChannelsByRequestPathAndModel supportsPathForModel cache
    (cache.group2model2channels group model) requestPath model
  if channels = [] then
    filterChannelsByRequestPathAndModel supportsPathForModel cache
      (cache.group2model2channels group (formatMatchingModelName model)) requestPath model
  else channels

def getRandomSatisfiedChannel (cache : Cache κ) (group model : String) (retry : ℕ) (requestPath : String)
    (random : ℕ) : Except String (Option (Channel κ)) :=
  selectChannel cache group model retry random (candidates supportsPathForModel cache group model requestPath)

end Selection

/-! ## The copies in the index -/

/-- How often the lists of a channel name a group and a model. -/
def Channel.entries (channel : Channel κ) (group model : String) : ℕ :=
  channel.splitGroups.count group * channel.splitModels.count model

theorem Channel.entries_le (channel : Channel κ) (group model : String) :
    channel.entries group model ≤ channel.splitGroups.length * channel.splitModels.length :=
  Nat.mul_le_mul List.count_le_length List.count_le_length

theorem count_append_entry (index : Index) (group model g m : String) (id i : ℤ) :
    (index.append group model id g m).count i
      = (index g m).count i + if id = i ∧ group = g ∧ model = m then 1 else 0 := by
  rw [Index.append]
  by_cases hkey : g = group ∧ m = model
  · obtain ⟨rfl, rfl⟩ := hkey
    by_cases hid : id = i <;> simp [hid]
  · rw [if_neg hkey, if_neg fun h => hkey ⟨h.2.1.symm, h.2.2.symm⟩, Nat.add_zero]

theorem count_models (models : List String) (index : Index) (group g m : String) (id i : ℤ) :
    (models.foldl (fun index model => index.append group model id) index g m).count i
      = (index g m).count i + if id = i ∧ group = g then models.count m else 0 := by
  induction models generalizing index with
  | nil => simp
  | cons model models ih =>
    rw [List.foldl_cons, ih, count_append_entry, List.count_cons]
    by_cases hkey : id = i ∧ group = g
    · by_cases hmodel : model = m
      · simp [hkey, hmodel]
        omega
      · simp [hkey, hmodel]
    · simp only [if_neg hkey, if_neg fun h : id = i ∧ group = g ∧ model = m => hkey ⟨h.1, h.2.1⟩]

theorem count_indexChannel (channel : Channel κ) (index : Index) (g m : String) (i : ℤ) :
    (indexChannel index channel g m).count i
      = (index g m).count i + if channel.id = i then channel.entries g m else 0 := by
  rw [indexChannel, Channel.entries]
  induction channel.splitGroups generalizing index with
  | nil => simp
  | cons group groups ih =>
    rw [List.foldl_cons, ih, count_models, List.count_cons]
    by_cases hid : channel.id = i
    · by_cases hgroup : group = g
      · simp [hid, hgroup]
        ring
      · simp [hid, hgroup]
    · simp [hid]

/-- The copies of an id in the index of a list of channels. -/
theorem count_indexChannels (channels : List (Channel κ)) (index : Index) (g m : String) (i : ℤ) :
    (channels.foldl indexChannel index g m).count i
      = (index g m).count i
        + ((channels.filter fun channel => channel.id = i).map fun channel => channel.entries g m).sum := by
  induction channels generalizing index with
  | nil => simp
  | cons channel channels ih =>
    rw [List.foldl_cons, ih, count_indexChannel]
    by_cases hid : channel.id = i
    · simp [hid]
      omega
    · simp [hid]

variable {channels : Table (Channel κ) Channel.id} {abilities : List Ability} {cache : Cache κ}

/-- What a sync builds. -/
theorem initChannelCache_eq (h : initChannelCache channels abilities = some cache) :
    cache.channelsIDM = channels ∧
      ∀ g m, (cache.group2model2channels g m).Perm
        (((channels.rows.filter fun channel => channel.status = .enabled).foldl indexChannel
          fun _ _ => []) g m) := by
  rw [initChannelCache] at h
  split at h
  · cases h
  · obtain rfl := Option.some.inj h
    exact ⟨rfl, fun g m => List.perm_insertionSort _ _⟩

/-- After a sync an id is listed only if it is the id of an enabled channel, once for each pair of entries. -/
theorem count_init (h : initChannelCache channels abilities = some cache) (g m : String) {i : ℤ}
    (hlisted : 0 < (cache.group2model2channels g m).count i) :
    ∃ channel, channels.find i = some channel ∧ channel.status = .enabled ∧
      (cache.group2model2channels g m).count i = channel.entries g m := by
  have hcount := ((initChannelCache_eq h).2 g m).count_eq i
  rw [count_indexChannels, List.count_nil, Nat.zero_add] at hcount
  -- the keys are distinct, so at most one channel has the id
  have hle : ((channels.rows.filter fun channel => channel.status = .enabled).filter
      fun channel => channel.id = i).length ≤ 1 := by
    rw [List.filter_comm]
    exact (List.length_filter_le _ _).trans (channels.length_filter_key_le i)
  generalize hfiltered : (channels.rows.filter fun channel => channel.status = .enabled).filter
    (fun channel => channel.id = i) = filtered at hcount hle
  cases filtered with
  | nil =>
    rw [hcount] at hlisted
    exact absurd hlisted (Nat.lt_irrefl 0)
  | cons channel rest =>
    obtain rfl : rest = [] := List.length_eq_zero_iff.mp (by simpa using hle)
    have hmem : channel ∈ (channels.rows.filter fun channel => channel.status = .enabled).filter
        (fun channel => channel.id = i) := hfiltered ▸ List.mem_singleton_self channel
    obtain ⟨hrow, hid⟩ := List.mem_filter.mp hmem
    obtain ⟨hrow, henabled⟩ := List.mem_filter.mp hrow
    refine ⟨channel, ?_, of_decide_eq_true henabled, ?_⟩
    · rw [← of_decide_eq_true hid]
      exact Table.find_of_mem hrow
    · rw [hcount, List.map_singleton, List.sum_singleton]

/-- The lists name the enabled channels that serve a group and a model, those of a high priority first. -/
def Cache.Complete (channels : Table (Channel κ) Channel.id) (cache : Cache κ) : Prop :=
  ∀ group model,
    (∀ id, id ∈ cache.group2model2channels group model ↔ ∃ channel ∈ channels.rows,
      channel.id = id ∧ channel.status = .enabled ∧ group ∈ channel.splitGroups ∧ model ∈ channel.splitModels) ∧
    (cache.group2model2channels group model).Pairwise fun a b => priorityOf channels a ≥ priorityOf channels b

theorem Channel.entries_pos {channel : Channel κ} {group model : String} :
    0 < channel.entries group model ↔ group ∈ channel.splitGroups ∧ model ∈ channel.splitModels := by
  rw [Channel.entries, CanonicallyOrderedAdd.mul_pos, List.count_pos_iff, List.count_pos_iff]

theorem mem_index {channels : List (Channel κ)} {group model : String} {id : ℤ} :
    id ∈ channels.foldl indexChannel (fun _ _ => []) group model ↔
      ∃ channel ∈ channels, channel.id = id ∧ group ∈ channel.splitGroups ∧ model ∈ channel.splitModels := by
  rw [← List.count_pos_iff, count_indexChannels, List.count_nil, Nat.zero_add, List.sum_pos_iff_exists_pos_nat]
  constructor
  · intro h
    obtain ⟨entries, hentries, hpos⟩ := h
    obtain ⟨channel, hmem, rfl⟩ := List.mem_map.mp hentries
    obtain ⟨hmem, hid⟩ := List.mem_filter.mp hmem
    exact ⟨channel, hmem, of_decide_eq_true hid, Channel.entries_pos.mp hpos⟩
  · intro h
    obtain ⟨channel, hmem, hid, hlists⟩ := h
    exact ⟨_, List.mem_map_of_mem (List.mem_filter.mpr ⟨hmem, decide_eq_true hid⟩),
      Channel.entries_pos.mpr hlists⟩

theorem complete_init (h : initChannelCache channels abilities = some cache) : cache.Complete channels := by
  intro group model
  constructor
  · intro id
    rw [((initChannelCache_eq h).2 group model).mem_iff, mem_index]
    simp only [List.mem_filter, decide_eq_true_eq, and_assoc, and_left_comm]
  · rw [initChannelCache] at h
    split at h
    · cases h
    · obtain rfl := Option.some.inj h
      have : Std.Total fun a b => priorityOf channels a ≥ priorityOf channels b :=
        ⟨fun a b => le_total (priorityOf channels b) (priorityOf channels a)⟩
      have : IsTrans ℤ fun a b => priorityOf channels a ≥ priorityOf channels b :=
        ⟨fun a b c hab hbc => le_trans hbc hab⟩
      exact List.pairwise_insertionSort _ _

/-- A sync finishes, with a complete index, if and only if each group of an enabled channel has an ability. -/
theorem index_complete_iff (channels : Table (Channel κ) Channel.id) (abilities : List Ability) :
    (∃ cache, initChannelCache channels abilities = some cache ∧ cache.Complete channels) ↔
      ∀ channel ∈ channels.rows, channel.status = .enabled →
        ∀ group ∈ channel.splitGroups, ∃ ability ∈ abilities, ability.group = group := by
  have hfinish : (∃ cache, initChannelCache channels abilities = some cache ∧ cache.Complete channels) ↔
      initChannelCache channels abilities ≠ none := by
    rw [Option.ne_none_iff_exists']
    exact exists_congr fun cache => and_iff_left_of_imp complete_init
  rw [hfinish, initChannelCache]
  simp only [ne_eq, ite_eq_left_iff, reduceCtorEq, imp_false, not_not, List.any_eq_true, List.mem_filter,
    Bool.not_eq_true', List.any_eq_false, decide_eq_true_eq]
  constructor
  · intro h channel hrow henabled group hgroup
    by_contra hmissing
    -- the first model of the list is the write that panics
    obtain ⟨model, hmodel⟩ := List.exists_mem_of_ne_nil _ (Go.split_ne_nil channel.models ',')
    exact h ⟨channel, ⟨hrow, henabled⟩, group, hgroup, model, hmodel,
      fun ability hmem heq => hmissing ⟨ability, hmem, heq⟩⟩
  · intro h hpanic
    obtain ⟨channel, ⟨hrow, henabled⟩, group, hgroup, -, -, hmissing⟩ := hpanic
    obtain ⟨ability, hmem, heq⟩ := h channel hrow henabled group hgroup
    exact hmissing ability hmem heq

/-- While the abilities are rebuilt there are none: the sync panics on the first enabled channel. -/
theorem index_without_abilities :
    initChannelCache (κ := Unit) (.single { id := 1, group := "default", models := "gpt-4o" }) [] = none := by
  decide

/-! ## What is selected -/

variable {ids : List ℤ}

theorem Cache.lookup_ok {channels : List (Channel κ)} (h : cache.lookup ids = .ok channels) :
    ids = channels.map Channel.id ∧ ∀ channel ∈ channels, cache.channelsIDM.find channel.id = some channel := by
  induction ids generalizing channels with
  | nil =>
    obtain rfl := Except.ok.inj h
    exact ⟨rfl, fun channel hmem => absurd hmem List.not_mem_nil⟩
  | cons id ids ih =>
    rw [Cache.lookup] at h
    cases hfind : cache.channelsIDM.find id with
    | none =>
      rw [hfind] at h
      cases h
    | some channel =>
      rw [hfind] at h
      cases hrest : cache.lookup ids with
      | error missing =>
        rw [hrest] at h
        cases h
      | ok rest =>
        rw [hrest] at h
        obtain rfl := Except.ok.inj h
        obtain ⟨hids, hall⟩ := ih hrest
        have hid : channel.id = id := Table.find_key hfind
        refine ⟨by rw [List.map_cons, hid, ← hids], List.forall_mem_cons.mpr ⟨?_, hall⟩⟩
        rw [hid]
        exact hfind

variable {channel : Channel κ}

theorem mem_of_drawChannel {targetChannels : List (Channel κ)} {random : ℕ}
    (h : drawChannel targetChannels random = .ok (some channel)) : channel ∈ targetChannels := by
  rw [drawChannel] at h
  split at h
  · rename_i drawn hdrawn
    obtain rfl := Option.some.inj (Except.ok.inj h)
    exact mem_of_draw hdrawn
  · cases h

/-- Whatever the draw, the channel is one of the candidates and of the tier of the retry. -/
theorem selectChannel_some {group model : String} {retry random : ℕ}
    (h : selectChannel cache group model retry random ids = .ok (some channel)) :
    ∃ channels, cache.lookup ids = .ok channels ∧ channel ∈ channels ∧
      tierAt (channels.map Channel.getPriority) retry = some channel.getPriority := by
  rw [selectChannel.eq_def] at h
  split at h
  · cases h
  · rename_i id
    split at h
    · cases h
    · rename_i found hfound
      obtain rfl := Option.some.inj (Except.ok.inj h)
      exact ⟨[found], by rw [Cache.lookup, hfound]; rfl, List.mem_singleton_self found,
        tierAt_singleton found.getPriority retry⟩
  · split at h
    · cases h
    · rename_i channels hlookup
      split at h
      · cases h
      · rename_i targetPriority htier
        split at h
        · cases h
        · have hmem := mem_of_drawChannel h
          obtain ⟨hmem, hpriority⟩ := List.mem_filter.mp hmem
          exact ⟨channels, hlookup, hmem, by rw [htier, of_decide_eq_true hpriority]⟩

end OneApi.Channels

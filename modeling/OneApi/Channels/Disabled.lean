import OneApi.Channels.Cache

/-!
# A disabled channel is not selected

A channel is listed once for each pair of entries of its group list and its model list, so a list with a
repeated entry lists it twice; a change of status takes one of them away.  `count_run` follows the number of
copies along any sequence of changes, and a selected channel is always a listed one.
-/

namespace OneApi.Channels

open OneApi.Lib OneApi.Lib.Run OneApi.Lib.Tiers

variable {κ : Type}

/-! ## Changes of status -/

/-- One call of `CacheUpdateChannelStatus`. -/
structure StatusUpdate where
  id : ℤ
  status : ChannelStatus
  deriving Repr, DecidableEq

def applyUpdate (cache : Cache κ) (update : StatusUpdate) : Cache κ :=
  cacheUpdateChannelStatus cache update.id update.status

/-- The status a channel was given last: by an update, or else by the table. -/
def lastStatus (channels : Table (Channel κ) Channel.id) (updates : List StatusUpdate) (id : ℤ) :
    Option ChannelStatus :=
  match (updates.filter fun update => update.id = id).getLast? with
  | some update => some update.status
  | none => (channels.find id).map Channel.status

def disables (id : ℤ) (update : StatusUpdate) : Bool := update.id = id ∧ update.status ≠ .enabled

theorem count_applyUpdate (cache : Cache κ) (update : StatusUpdate) (g m : String) (i : ℤ) :
    ((applyUpdate cache update).group2model2channels g m).count i
      = (cache.group2model2channels g m).count i - if disables i update then 1 else 0 := by
  by_cases henabled : update.status = .enabled
  · have hindex : (applyUpdate cache update).group2model2channels = cache.group2model2channels :=
      if_pos henabled
    rw [hindex]
    simp [disables, henabled]
  · have hindex : (applyUpdate cache update).group2model2channels
        = fun g m => (cache.group2model2channels g m).erase update.id := if_neg henabled
    rw [hindex]
    by_cases hid : update.id = i
    · simp [disables, henabled, hid]
    · simp [disables, hid, List.count_erase_of_ne (Ne.symm hid)]

/-- Each change away from enabled takes one copy. -/
theorem count_run (updates : List StatusUpdate) (cache : Cache κ) (g m : String) (i : ℤ) :
    ((run applyUpdate cache updates).group2model2channels g m).count i
      = (cache.group2model2channels g m).count i - updates.countP (disables i) := by
  induction updates generalizing cache with
  | nil => rfl
  | cons update updates ih =>
    rw [run_cons, ih, count_applyUpdate, List.countP_cons, Nat.sub_sub, Nat.add_comm]

/-! ## The selected channel is listed -/

variable {supportsPathForModel : κ → String → String → Bool}

variable {cache : Cache κ} {requestPath model : String}

theorem mem_of_filterChannels {ids : List ℤ} {id : ℤ}
    (h : id ∈ filterChannelsByRequestPathAndModel supportsPathForModel cache ids requestPath model) : id ∈ ids := by
  rw [filterChannelsByRequestPathAndModel] at h
  split at h
  · exact h
  · exact List.mem_of_mem_filter h

theorem mem_of_candidates {group : String} {id : ℤ}
    (h : id ∈ candidates supportsPathForModel cache group model requestPath) :
    ∃ name, id ∈ cache.group2model2channels group name := by
  rw [candidates] at h
  split at h
  · exact ⟨_, mem_of_filterChannels h⟩
  · exact ⟨_, mem_of_filterChannels h⟩

theorem listed_of_selected {group : String} {retry random : ℕ} {channel : Channel κ}
    (h : getRandomSatisfiedChannel supportsPathForModel cache group model retry requestPath random
      = .ok (some channel)) : ∃ name, channel.id ∈ cache.group2model2channels group name := by
  obtain ⟨channels, hlookup, hmem, -⟩ := selectChannel_some h
  have hlisted : channel.id ∈ candidates supportsPathForModel cache group model requestPath := by
    rw [(Cache.lookup_ok hlookup).1]
    exact List.mem_map_of_mem hmem
  exact mem_of_candidates hlisted

variable (supportsPathForModel)

/-- A channel that was last given another status than enabled is not selected, provided that it was changed
away from enabled at least as often as a pair of its lists' entries names one group and one model. -/
theorem disabled_not_selected {channels : Table (Channel κ) Channel.id} {abilities : List Ability}
    {cache : Cache κ} (hinit : initChannelCache channels abilities = some cache) (updates : List StatusUpdate)
    (hcopies : ∀ channel ∈ channels.rows, channel.status = .enabled →
      lastStatus channels updates channel.id ≠ some .enabled →
      ∀ group model, channel.entries group model ≤ updates.countP (disables channel.id))
    {group model requestPath : String} {retry random : ℕ} {channel : Channel κ}
    (hselected : getRandomSatisfiedChannel supportsPathForModel (run applyUpdate cache updates) group model
      retry requestPath random = .ok (some channel)) : lastStatus channels updates channel.id = some .enabled := by
  by_contra hlast
  obtain ⟨name, hlisted⟩ := listed_of_selected hselected
  have hpos : 0 < (cache.group2model2channels group name).count channel.id - updates.countP (disables channel.id) := by
    rw [← count_run]
    exact List.count_pos_iff.mpr hlisted
  obtain ⟨row, hfind, henabled, hcount⟩ := count_init hinit group name (i := channel.id) (by omega)
  have hid : row.id = channel.id := Table.find_key hfind
  have hle := hcopies row (Table.find_mem hfind) henabled (by rw [hid]; exact hlast) group name
  rw [hid] at hle
  omega

/-- A channel whose model list repeats an entry. -/
def repeatedChannel : Channel Unit := { id := 1, group := "default", models := "gpt-4o,gpt-4o" }

def plainChannel : Channel Unit := { id := 2, group := "default", models := "gpt-4o" }

def twoChannels : Table (Channel Unit) Channel.id := .pair repeatedChannel plainChannel (by decide)

def twoAbilities : List Ability :=
  [{ group := "default", model := "gpt-4o", channelId := 1, enabled := true },
    { group := "default", model := "gpt-4o", channelId := 2, enabled := true }]

theorem initChannelCache_two : (initChannelCache twoChannels twoAbilities).isSome = true := by
  decide +kernel

/-- The cache after a sync of the two channels. -/
def twoCache : Cache Unit := (initChannelCache twoChannels twoAbilities).get initChannelCache_two

theorem twoCache_eq : initChannelCache twoChannels twoAbilities = some twoCache :=
  (Option.some_get initChannelCache_two).symm

/-- Two changes take both copies away, and the other channel is selected. -/
theorem disabledTwice_not_selected :
    getRandomSatisfiedChannel (fun _ _ _ => false)
        (run applyUpdate twoCache [⟨1, .manuallyDisabled⟩, ⟨1, .autoDisabled⟩]) "default" "gpt-4o" 0
        "/v1/chat/completions" 7 = .ok (some plainChannel) ∧
      lastStatus twoChannels [⟨1, .manuallyDisabled⟩, ⟨1, .autoDisabled⟩] plainChannel.id = some .enabled := by
  have hselected : getRandomSatisfiedChannel (fun _ _ _ => false)
      (run applyUpdate twoCache [⟨1, .manuallyDisabled⟩, ⟨1, .autoDisabled⟩]) "default" "gpt-4o" 0
      "/v1/chat/completions" 7 = .ok (some plainChannel) := by decide +kernel
  refine ⟨hselected, disabled_not_selected _ twoCache_eq _ ?_ hselected⟩
  intro channel hmem _ hlast group model
  rcases List.mem_pair.mp hmem with rfl | rfl
  · exact repeatedChannel.entries_le group model
  · exact absurd rfl hlast

/-- One change leaves a copy: the disabled channel is selected. -/
theorem disabledOnce_selected :
    initChannelCache twoChannels twoAbilities = some twoCache ∧
      lastStatus twoChannels [⟨1, .autoDisabled⟩] 1 = some .autoDisabled ∧
      getRandomSatisfiedChannel (fun _ _ _ => false) (run applyUpdate twoCache [⟨1, .autoDisabled⟩])
        "default" "gpt-4o" 0 "/v1/chat/completions" 7
        = .ok (some { repeatedChannel with status := .autoDisabled }) :=
  ⟨twoCache_eq, by decide +kernel, by decide +kernel⟩

end OneApi.Channels

import OneApi.Channels.Cache
import OneApi.Lib.Procs
import Mathlib.Data.List.NodupEquivFin

/-!
# Channels with several keys

`GetNextEnabledKey`, `UpdateChannelStatus` and the functions under them in `model/channel.go`, for a channel in
multi-key mode.  The status of a key is kept under its index in `ChannelInfo`.

A caller holds the channel object of the memory cache, or a copy that it has loaded from the database; copies are
in use with the memory cache as well (`GetChannelById`), and a copy may be used again after the channel was
changed.  A key is chosen from what the caller holds.  Without the memory cache polling then writes the whole
`ChannelInfo` of the copy back.  An update changes the object of the cache first, if there is one, then loads a
copy of the row and saves it later; with the cache `channelStatusLock` lets one update through at a time.  Each
access to the database is a move of its own.

The list of keys is fixed: no function here writes the key column.
-/

namespace OneApi.Channels

open OneApi.Lib OneApi.Lib.Run OneApi.Lib.Procs Function

inductive MultiKeyMode
  | random
  | polling
  | other
  deriving Repr, DecidableEq

structure ChannelInfo where
  multiKeyMode : MultiKeyMode
  multiKeyStatusList : ℕ → Option ChannelStatus := fun _ => none
  multiKeyDisabledReason : ℕ → Option String := fun _ => none
  multiKeyDisabledTime : ℕ → Option ℤ := fun _ => none
  multiKeyPollingIndex : ℤ := 0

structure KeyedChannel where
  status : ChannelStatus := .enabled
  channelInfo : ChannelInfo
  statusReason : Option String := none
  statusTime : Option ℤ := none

/-- A key without an entry is enabled. -/
def ChannelInfo.getStatus (info : ChannelInfo) (idx : ℕ) : ChannelStatus :=
  (info.multiKeyStatusList idx).getD .enabled

/-! ## The next key -/

def ChannelInfo.enabledIdx (info : ChannelInfo) (keys : List String) : List ℕ :=
  (List.range keys.length).filter fun idx => info.getStatus idx = .enabled

/-- The key at an index, with the index. -/
def keyAt (keys : List String) (idx : ℕ) : String × ℕ := ((keys[idx]?).getD "", idx)

/-- The saved polling index, if it is one. -/
def pollingStart (keys : List String) (pollingIndex : ℤ) : ℕ :=
  if pollingIndex < 0 ∨ pollingIndex ≥ keys.length then 0 else pollingIndex.toNat

/-- The key for a request and the information of the channel after it.  The polling index is read from the
cache or the database, the rest from the channel of the caller. -/
def getNextEnabledKey (keys : List String) (info : ChannelInfo) (pollingIndex : ℤ) (random : ℕ) :
    Except String (String × ℕ) × ChannelInfo :=
  if keys = [] then (.error "no keys available", info)
  else
    match info.enabledIdx keys with
    | [] => (.error "no enabled keys", info)
    | first :: rest =>
      match info.multiKeyMode with
      | .random =>
        (.ok (keyAt keys (((first :: rest)[random % (first :: rest).length]?).getD first)), info)
      | .polling =>
        let start := pollingStart keys pollingIndex
        match (List.range keys.length).find? fun i =>
            info.getStatus ((start + i) % keys.length) = .enabled with
        | some i =>
          (.ok (keyAt keys ((start + i) % keys.length)),
            { info with
              multiKeyPollingIndex := (((start + i) % keys.length + 1) % keys.length : ℕ) })
        | none => (.ok (keyAt keys first), info)
      | .other => (.ok (keyAt keys first), info)

/-! ## Changes of status -/

def hasEnabledMultiKey (keys : List String) (statusList : ℕ → Option ChannelStatus) : Bool :=
  (List.range keys.length).any fun idx => (statusList idx).getD .enabled = .enabled

/-- The new status of the key at an index. -/
def ChannelInfo.setStatus (info : ChannelInfo) (idx : ℕ) (status : ChannelStatus) (reason : String) (now : ℤ) :
    ChannelInfo :=
  if status = .enabled then
    { info with multiKeyStatusList := update info.multiKeyStatusList idx none }
  else
    { info with
      multiKeyStatusList := update info.multiKeyStatusList idx (some status)
      multiKeyDisabledReason := update info.multiKeyDisabledReason idx (some reason)
      multiKeyDisabledTime := update info.multiKeyDisabledTime idx (some now) }

/-- The status of the first key equal to the one used is changed; a key that is not there is reported only. -/
def handlerMultiKeyUpdate (keys : List String) (channel : KeyedChannel) (usingKey : String)
    (status : ChannelStatus) (reason : String) (now : ℤ) : KeyedChannel :=
  if keys = [] then { channel with status }
  else
    match keys.findIdx? fun key => key = usingKey with
    | none =>
      if usingKey ≠ "" then channel
      else { channel with status, statusReason := some reason, statusTime := some now }
    | some keyIndex =>
      let channel := { channel with channelInfo := channel.channelInfo.setStatus keyIndex status reason now }
      if !hasEnabledMultiKey keys channel.channelInfo.multiKeyStatusList then
        { channel with
          status := .autoDisabled
          statusReason := some "All keys are disabled"
          statusTime := some now }
      else if status = .enabled then { channel with status := .enabled }
      else channel

/-! ## Calls -/

/-- One call of `UpdateChannelStatus`. -/
structure KeyUpdate where
  usingKey : String
  status : ChannelStatus
  reason : String := ""
  now : ℤ := 0
  deriving Repr, DecidableEq

/-- The row of the database, the channel object of the memory cache, whether `channelStatusLock` is held, and the
keys that updates have disabled and not enabled again, for the statements. -/
structure KeyStore where
  db : KeyedChannel
  cached : KeyedChannel
  locked : Bool := false
  disabled : List String := []

/-- Where a caller stands. -/
inductive KeyPlace
  | idle
  /-- With the object of the memory cache. -/
  | shared
  /-- With a copy of the channel. -/
  | loaded (channel : KeyedChannel)
  /-- Polling has chosen a key from a copy and has not yet saved its information. -/
  | polled (channel : KeyedChannel)
  /-- An update has loaded the channel and has not yet saved it. -/
  | updating (channel : KeyedChannel) (update : KeyUpdate)

inductive KeyAct
  /-- `GetChannelById`. -/
  | load
  /-- `CacheGetChannel`, or a selection from the cache. -/
  | loadCached
  | next (random : ℕ)
  /-- `SaveChannelInfo` at the end of polling. -/
  | saveInfo
  | update (update : KeyUpdate)
  /-- `SaveWithoutKey` at the end of an update. -/
  | save

section Calls

variable (memoryCacheEnabled : Bool) (keys : List String)

def KeyUpdate.apply (update : KeyUpdate) (channel : KeyedChannel) : KeyedChannel :=
  handlerMultiKeyUpdate keys channel update.usingKey update.status update.reason update.now

/-- The keys disabled after an update has been applied. -/
def KeyUpdate.record (update : KeyUpdate) (disabled : List String) : List String :=
  if update.usingKey ∉ keys then disabled
  else if update.status = .enabled then disabled.filter (· ≠ update.usingKey)
  else update.usingKey :: disabled

/-- What `CacheGetChannelInfo` reads. -/
def KeyStore.current (x : KeyStore) : KeyedChannel := if memoryCacheEnabled then x.cached else x.db

/-- A key chosen from the information a caller holds; the polling index is that of the cache or of the row. -/
def KeyStore.choose (x : KeyStore) (info : ChannelInfo) (random : ℕ) : Except String (String × ℕ) × ChannelInfo :=
  getNextEnabledKey keys info (x.current memoryCacheEnabled).channelInfo.multiKeyPollingIndex random

/-- `UpdateChannelStatus` up to its read of the row: the object of the cache is changed.  A row that has the
status already is left alone. -/
def KeyStore.beginUpdate (x : KeyStore) (place : KeyPlace) (update : KeyUpdate) : KeyStore × KeyPlace :=
  if memoryCacheEnabled then
    if x.locked then (x, place)
    else
      let x := { x with cached := update.apply keys x.cached, disabled := update.record keys x.disabled }
      if x.db.status = update.status then (x, place) else ({ x with locked := true }, .updating x.db update)
  else (x, if x.db.status = update.status then place else .updating x.db update)

/-- Without the memory cache the save is what disables a key. -/
def KeyStore.endUpdate (x : KeyStore) (channel : KeyedChannel) (update : KeyUpdate) : KeyStore :=
  { x with
    db := update.apply keys channel
    locked := false
    disabled := if memoryCacheEnabled then x.disabled else update.record keys x.disabled }

/-- One move, with the key that is returned. -/
def keyStep (x : KeyStore) : KeyPlace → KeyAct → (KeyStore × KeyPlace) × Option String
  | .updating channel update, .save => ((x.endUpdate memoryCacheEnabled keys channel update, .idle), none)
  | .updating channel update, _ => ((x, .updating channel update), none)
  | .polled channel, .saveInfo =>
    (({ x with db := { x.db with channelInfo := channel.channelInfo } }, .loaded channel), none)
  | .polled channel, _ => ((x, .polled channel), none)
  | _, .load => ((x, .loaded x.db), none)
  | _, .loadCached => ((x, if memoryCacheEnabled then .shared else .loaded x.db), none)
  | .shared, .next random =>
    let result := x.choose memoryCacheEnabled keys (x.current memoryCacheEnabled).channelInfo random
    (({ x with cached := { x.cached with channelInfo := result.2 } }, .shared), result.1.toOption.map Prod.fst)
  | .loaded channel, .next random =>
    let result := x.choose memoryCacheEnabled keys channel.channelInfo random
    let saves := !memoryCacheEnabled && channel.channelInfo.multiKeyMode = .polling && result.1.toOption.isSome
    let channel := { channel with channelInfo := result.2 }
    ((x, if saves then .polled channel else .loaded channel), result.1.toOption.map Prod.fst)
  | place, .update update => (x.beginUpdate memoryCacheEnabled keys place update, none)
  | place, _ => ((x, place), none)

def keyAct (x : KeyStore) (place : KeyPlace) (act : KeyAct) : KeyStore × KeyPlace :=
  (keyStep memoryCacheEnabled keys x place act).1

end Calls

/-! ## What the functions do to the status of a key -/

variable {info : ChannelInfo}

theorem mem_enabledIdx {keys : List String} {idx : ℕ} :
    idx ∈ info.enabledIdx keys ↔ idx < keys.length ∧ info.getStatus idx = .enabled := by
  rw [ChannelInfo.enabledIdx, List.mem_filter, List.mem_range, decide_eq_true_iff]

variable {random : ℕ}

/-- Whatever the mode, the key has an index whose status is enabled. -/
theorem getNextEnabledKey_ok {keys : List String} {pollingIndex : ℤ}
    {key : String × ℕ} (h : (getNextEnabledKey keys info pollingIndex random).1 = .ok key) :
    ∃ idx ∈ info.enabledIdx keys, key = keyAt keys idx := by
  rw [getNextEnabledKey] at h
  split at h
  · cases h
  · rename_i hne
    split at h
    · cases h
    · rename_i first rest henabled
      have hfirst : first ∈ info.enabledIdx keys := henabled ▸ List.mem_cons_self
      split at h
      · -- random
        refine ⟨_, ?_, (Except.ok.inj h).symm⟩
        rw [henabled]
        cases hget : (first :: rest)[random % (first :: rest).length]? with
        | none => exact List.mem_cons_self
        | some idx => exact List.mem_of_getElem? hget
      · -- polling
        simp only at h
        split at h
        · rename_i i hfind
          refine ⟨_, mem_enabledIdx.mpr ⟨Nat.mod_lt _ (List.length_pos_iff.mpr hne), ?_⟩, (Except.ok.inj h).symm⟩
          simpa using List.find?_some hfind
        · exact ⟨first, hfirst, (Except.ok.inj h).symm⟩
      · exact ⟨first, hfirst, (Except.ok.inj h).symm⟩

/-- The choice of a key changes no status. -/
theorem getNextEnabledKey_status (keys : List String) (pollingIndex : ℤ) :
    (getNextEnabledKey keys info pollingIndex random).2.getStatus = info.getStatus := by
  rw [getNextEnabledKey]
  split
  · rfl
  · split
    · rfl
    · split
      · rfl
      · simp only
        split <;> rfl
      · rfl

theorem setStatus_self (idx : ℕ) {status : ChannelStatus} (hstatus : status ≠ .enabled) (reason : String) (now : ℤ) :
    (info.setStatus idx status reason now).getStatus idx = status := by
  rw [ChannelInfo.setStatus, if_neg hstatus, ChannelInfo.getStatus]
  show (update info.multiKeyStatusList idx (some status) idx).getD .enabled = status
  rw [update_self]
  rfl

theorem setStatus_of_ne {idx other : ℕ} (hne : other ≠ idx) (status : ChannelStatus) (reason : String) (now : ℤ) :
    (info.setStatus idx status reason now).getStatus other = info.getStatus other := by
  rw [ChannelInfo.setStatus, ChannelInfo.getStatus, ChannelInfo.getStatus]
  split
  · show (update info.multiKeyStatusList idx none other).getD _ = _
    rw [update_of_ne hne]
  · show (update info.multiKeyStatusList idx (some status) other).getD _ = _
    rw [update_of_ne hne]

/-- An update leaves the information, or sets the status of the first key that it names. -/
theorem handlerMultiKeyUpdate_info (keys : List String) (channel : KeyedChannel) (usingKey : String)
    (status : ChannelStatus) (reason : String) (now : ℤ) :
    usingKey ∉ keys ∧
        (handlerMultiKeyUpdate keys channel usingKey status reason now).channelInfo = channel.channelInfo ∨
      ∃ idx, keys[idx]? = some usingKey ∧
        (handlerMultiKeyUpdate keys channel usingKey status reason now).channelInfo
          = channel.channelInfo.setStatus idx status reason now := by
  rw [handlerMultiKeyUpdate]
  by_cases hnil : keys = []
  · rw [if_pos hnil, hnil]
    exact .inl ⟨List.not_mem_nil, rfl⟩
  · rw [if_neg hnil]
    cases hfind : keys.findIdx? fun key => key = usingKey with
    | none =>
      refine .inl ⟨fun hmem => ?_, ?_⟩
      · have hnone := List.findIdx?_eq_none_iff.mp hfind usingKey hmem
        exact absurd rfl (of_decide_eq_false hnone)
      · simp only
        split <;> rfl
    | some idx =>
      obtain ⟨hlt, hkey, -⟩ := List.findIdx?_eq_some_iff_getElem.mp hfind
      refine .inr ⟨idx, ?_, ?_⟩
      · rw [List.getElem?_eq_getElem hlt, of_decide_eq_true hkey]
      · simp only
        split
        · rfl
        · split <;> rfl

/-! ## Disabled keys stay out of use -/

section Disabled

variable (memoryCacheEnabled : Bool) (keys : List String)

def sameStatus (a b : ChannelInfo) : Bool :=
  (List.range keys.length).all fun idx => a.getStatus idx = b.getStatus idx

/-- The key that is disabled occurs once. -/
def KeyUpdate.single (update : KeyUpdate) : Bool :=
  update.status = .enabled ∨ keys.count update.usingKey ≤ 1

/-- When a move keeps disabled keys out of use: a key that is disabled occurs once, and the copy that a key is
chosen from, that polling saves, or that an update without the memory cache saves has the statuses of the object
of the cache, or without the cache of the row. -/
def carefulKey (x : KeyStore) : KeyPlace → KeyAct → Bool
  | .updating channel update, .save =>
    memoryCacheEnabled || update.single keys && sameStatus keys channel.channelInfo x.db.channelInfo
  | .updating _ _, _ => true
  | .polled channel, .saveInfo => sameStatus keys channel.channelInfo (x.current memoryCacheEnabled).channelInfo
  | .polled _, _ => true
  | .loaded channel, .next _ => sameStatus keys channel.channelInfo (x.current memoryCacheEnabled).channelInfo
  | _, .update update => !memoryCacheEnabled || update.single keys
  | _, _ => true

/-- No index of a disabled key is enabled. -/
def Off (disabled : List String) (info : ChannelInfo) : Prop :=
  ∀ key ∈ disabled, ∀ idx, keys[idx]? = some key → info.getStatus idx ≠ .enabled

variable {memoryCacheEnabled keys}

variable {key : String}

theorem sameStatus_eq {a b : ChannelInfo} (h : sameStatus keys a b = true) {idx : ℕ}
    (hkey : keys[idx]? = some key) : a.getStatus idx = b.getStatus idx := by
  have hlt : idx < keys.length := (List.getElem?_eq_some_iff.mp hkey).1
  exact of_decide_eq_true (List.all_eq_true.mp h idx (List.mem_range.mpr hlt))

variable {disabled : List String}

theorem Off.congr {a b : ChannelInfo} (h : Off keys disabled a)
    (hsame : sameStatus keys b a = true) : Off keys disabled b := by
  intro key hmem idx hkey
  rw [sameStatus_eq hsame hkey]
  exact h key hmem idx hkey

theorem eq_of_count_le_one (hcount : keys.count key ≤ 1) {i j : ℕ} (hi : keys[i]? = some key)
    (hj : keys[j]? = some key) : i = j := by
  by_contra hne
  obtain ⟨hilt, hi⟩ := List.getElem?_eq_some_iff.mp hi
  obtain ⟨hjlt, hj⟩ := List.getElem?_eq_some_iff.mp hj
  have hdup : List.Duplicate key keys := by
    rw [List.duplicate_iff_exists_distinct_get]
    rcases Nat.lt_or_gt_of_ne hne with hlt | hlt
    · exact ⟨⟨i, hilt⟩, ⟨j, hjlt⟩, hlt, hi.symm, hj.symm⟩
    · exact ⟨⟨j, hjlt⟩, ⟨i, hilt⟩, hlt, hj.symm, hi.symm⟩
  have htwo := List.duplicate_iff_two_le_count.mp hdup
  omega

/-- An update that is careful about repeated keys disables all of the key. -/
theorem Off.apply {channel : KeyedChannel}
    (h : Off keys disabled channel.channelInfo) {update : KeyUpdate} (hsingle : update.single keys = true) :
    Off keys (update.record keys disabled) (update.apply keys channel).channelInfo := by
  rcases handlerMultiKeyUpdate_info keys channel update.usingKey update.status update.reason update.now with
    ⟨hnot, hinfo⟩ | ⟨at', hat, hinfo⟩
  · rw [KeyUpdate.record, if_pos hnot, KeyUpdate.apply, hinfo]
    exact h
  · have hmem : update.usingKey ∈ keys := List.mem_of_getElem? hat
    have hother : ∀ key ∈ disabled, key ≠ update.usingKey → ∀ idx, keys[idx]? = some key →
        (update.apply keys channel).channelInfo.getStatus idx ≠ .enabled := by
      intro key hkey hne idx hidx
      have hidxne : idx ≠ at' := by
        rintro rfl
        exact hne (Option.some.inj (hidx.symm.trans hat))
      rw [KeyUpdate.apply, hinfo, setStatus_of_ne hidxne]
      exact h key hkey idx hidx
    rw [KeyUpdate.record, if_neg (not_not.mpr hmem)]
    by_cases hstatus : update.status = .enabled
    · rw [if_pos hstatus]
      intro key hkey idx hidx
      obtain ⟨hkey, hne⟩ := List.mem_filter.mp hkey
      exact hother key hkey (of_decide_eq_true hne) idx hidx
    · rw [if_neg hstatus]
      intro key hkey idx hidx
      by_cases hsame : key = update.usingKey
      · have hcount := (of_decide_eq_true hsingle).resolve_left hstatus
        rw [hsame] at hidx
        rw [eq_of_count_le_one hcount hidx hat, KeyUpdate.apply, hinfo, setStatus_self _ hstatus]
        exact hstatus
      · exact hother key ((List.mem_cons.mp hkey).resolve_left hsame) hsame idx hidx

variable {x : KeyStore} {act : KeyAct}

theorem off_beginUpdate {update : KeyUpdate} (place : KeyPlace)
    (h : Off keys x.disabled (x.current memoryCacheEnabled).channelInfo)
    (hsingle : (!memoryCacheEnabled || update.single keys) = true) :
    Off keys (x.beginUpdate memoryCacheEnabled keys place update).1.disabled
      ((x.beginUpdate memoryCacheEnabled keys place update).1.current memoryCacheEnabled).channelInfo := by
  rw [KeyStore.beginUpdate]
  cases memoryCacheEnabled with
  | false => exact h
  | true =>
    have happly : Off keys _ (update.apply keys x.cached).channelInfo := Off.apply h hsingle
    simp only [if_true]
    split
    · exact h
    split <;> exact happly

theorem off_endUpdate {channel : KeyedChannel} {update : KeyUpdate}
    (h : Off keys x.disabled (x.current memoryCacheEnabled).channelInfo)
    (hcareful : (memoryCacheEnabled || update.single keys && sameStatus keys channel.channelInfo x.db.channelInfo)
      = true) :
    Off keys (x.endUpdate memoryCacheEnabled keys channel update).disabled
      ((x.endUpdate memoryCacheEnabled keys channel update).current memoryCacheEnabled).channelInfo := by
  cases memoryCacheEnabled with
  | true => exact h
  | false =>
    obtain ⟨hsingle, hsame⟩ := (Bool.and_eq_true _ _).mp hcareful
    exact Off.apply (h.congr hsame) hsingle

variable {place : KeyPlace}

variable (h : Off keys x.disabled (x.current memoryCacheEnabled).channelInfo)

include h in
/-- The choice of a key from the object of the cache. -/
theorem off_shared :
    let info := (x.choose memoryCacheEnabled keys (x.current memoryCacheEnabled).channelInfo random).2
    let y : KeyStore := { x with cached := { x.cached with channelInfo := info } }
    Off keys y.disabled (y.current memoryCacheEnabled).channelInfo := by
  cases memoryCacheEnabled with
  | false => exact h
  | true =>
    intro info y key hmem idx hkey
    show (getNextEnabledKey keys x.cached.channelInfo _ random).2.getStatus idx ≠ .enabled
    rw [getNextEnabledKey_status]
    exact h key hmem idx hkey

include h in
/-- A careful move keeps the disabled keys off. -/
theorem off_step (hcareful : carefulKey memoryCacheEnabled keys x place act = true) :
    Off keys (keyAct memoryCacheEnabled keys x place act).1.disabled
      ((keyAct memoryCacheEnabled keys x place act).1.current memoryCacheEnabled).channelInfo := by
  cases place with
  | updating channel update =>
    cases act with
    | save => exact off_endUpdate h hcareful
    | _ => exact h
  | polled channel =>
    cases act with
    | saveInfo =>
      cases memoryCacheEnabled with
      | true => exact h
      | false => exact h.congr hcareful
    | _ => exact h
  | idle =>
    cases act with
    | update update => exact off_beginUpdate _ h hcareful
    | _ => exact h
  | loaded channel =>
    cases act with
    | update update => exact off_beginUpdate _ h hcareful
    | _ => exact h
  | shared =>
    cases act with
    | next random => exact off_shared h
    | update update => exact off_beginUpdate _ h hcareful
    | _ => exact h

/-- A key that is chosen has an enabled index in the information it is chosen from. -/
theorem enabled_of_next {pollingIndex : ℤ}
    (h : (getNextEnabledKey keys info pollingIndex random).1.toOption.map Prod.fst = some key) :
    ∃ idx, keys[idx]? = some key ∧ info.getStatus idx = .enabled := by
  cases hnext : (getNextEnabledKey keys info pollingIndex random).1 with
  | error err =>
    rw [hnext] at h
    cases h
  | ok found =>
    rw [hnext] at h
    obtain ⟨idx, hmem, rfl⟩ := getNextEnabledKey_ok hnext
    obtain ⟨hlt, henabled⟩ := mem_enabledIdx.mp hmem
    refine ⟨idx, ?_, henabled⟩
    rw [← Option.some.inj h, List.getElem?_eq_getElem hlt, keyAt, List.getElem?_eq_getElem hlt]
    rfl

include h in
theorem next_not_disabled (hcareful : carefulKey memoryCacheEnabled keys x place (.next random) = true)
    (hnext : (keyStep memoryCacheEnabled keys x place (.next random)).2 = some key) : key ∉ x.disabled := by
  intro hmem
  cases place with
  | loaded channel =>
    obtain ⟨idx, hkey, henabled⟩ := enabled_of_next hnext
    rw [sameStatus_eq hcareful hkey] at henabled
    exact h key hmem idx hkey henabled
  | shared =>
    obtain ⟨idx, hkey, henabled⟩ := enabled_of_next hnext
    exact h key hmem idx hkey henabled
  | idle | polled | updating => cases hnext

/-- **A disabled key is not used again**, in any run of careful moves of any number of callers. -/
theorem disabledKey_unused {ι : Type} [DecidableEq ι] (memoryCacheEnabled : Bool) (keys : List String)
    (db cached : KeyedChannel) (acts : List (ι × KeyAct)) (hcareful : Respects (move (keyAct memoryCacheEnabled keys))
      (fun s a => carefulKey memoryCacheEnabled keys s.shared (s.proc a.1) a.2 = true)
      ⟨{ db, cached }, fun _ => .idle⟩ acts) {s : System ι KeyStore KeyPlace}
    (hrun : run (move (keyAct memoryCacheEnabled keys)) ⟨{ db, cached }, fun _ => .idle⟩ acts = s)
    (caller : ι) (random : ℕ)
    (hnext : carefulKey memoryCacheEnabled keys s.shared (s.proc caller) (.next random) = true) {key : String}
    (hkey : (keyStep memoryCacheEnabled keys s.shared (s.proc caller) (.next random)).2 = some key) :
    key ∉ s.shared.disabled := by
  refine next_not_disabled ?_ hnext hkey
  rw [← hrun]
  exact run_preserves_of_respects (I := fun s : System ι KeyStore KeyPlace =>
      Off keys s.shared.disabled (s.shared.current memoryCacheEnabled).channelInfo)
    (fun s a hstep h => off_step h hstep) hcareful (fun key hmem => absurd hmem List.not_mem_nil)

end Disabled

def channelWith (mode : MultiKeyMode) : KeyedChannel := { channelInfo := { multiKeyMode := mode } }

def disableFirst : KeyUpdate := { usingKey := "sk-a", status := .autoDisabled, reason := "invalid key" }

/-- Two callers after some moves, from a channel on which nothing has happened. -/
def afterMoves (memoryCacheEnabled : Bool) (mode : MultiKeyMode) (keys : List String)
    (acts : List (Two × KeyAct)) : System Two KeyStore KeyPlace :=
  run (move (keyAct memoryCacheEnabled keys))
    ⟨{ db := channelWith mode, cached := channelWith mode }, fun _ => .idle⟩ acts

def savedActs : List (Two × KeyAct) := [(.first, .update disableFirst), (.first, .save), (.second, .load)]

/-- A key is disabled and saved, and a request that comes after it gets the other one. -/
theorem disabledFirst_unused :
    (keyStep false ["sk-a", "sk-b"] (afterMoves false .polling ["sk-a", "sk-b"] savedActs).shared
        ((afterMoves false .polling ["sk-a", "sk-b"] savedActs).proc .second) (.next 0)).2 = some "sk-b" ∧
      "sk-b" ∉ (afterMoves false .polling ["sk-a", "sk-b"] savedActs).shared.disabled := by
  have hkey : (keyStep false ["sk-a", "sk-b"] (afterMoves false .polling ["sk-a", "sk-b"] savedActs).shared
      ((afterMoves false .polling ["sk-a", "sk-b"] savedActs).proc .second) (.next 0)).2 = some "sk-b" := by
    decide
  exact ⟨hkey, disabledKey_unused false ["sk-a", "sk-b"] (channelWith .polling) (channelWith .polling) savedActs
    ⟨by decide, by decide, by decide, trivial⟩ rfl .second 0 (by decide) hkey⟩

def cachedActs : List (Two × KeyAct) := [(.first, .update disableFirst), (.first, .save), (.second, .loadCached)]

/-- A key that is listed twice is returned after it has been disabled. -/
theorem repeatedKey_returned :
    "sk-a" ∈ (afterMoves true .random ["sk-a", "sk-a"] cachedActs).shared.disabled ∧
      (keyStep true ["sk-a", "sk-a"] (afterMoves true .random ["sk-a", "sk-a"] cachedActs).shared
        ((afterMoves true .random ["sk-a", "sk-a"] cachedActs).proc .second) (.next 0)).2 = some "sk-a" := by
  decide

-- the other way, with and without the memory cache: a copy that was loaded before the update still has the key on
example : ∀ memoryCacheEnabled, (keyStep memoryCacheEnabled ["sk-a", "sk-b"]
    (afterMoves memoryCacheEnabled .random ["sk-a", "sk-b"] ((.second, .load) :: savedActs.dropLast)).shared
    ((afterMoves memoryCacheEnabled .random ["sk-a", "sk-b"] ((.second, .load) :: savedActs.dropLast)).proc .second)
    (.next 0)).2 = some "sk-a" := by
  decide

end OneApi.Channels

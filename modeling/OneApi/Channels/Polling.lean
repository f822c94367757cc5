import OneApi.Channels.MultiKey
import OneApi.Lib.Cycle

/-!
# Polling the keys of a channel

With the memory cache the calls of `GetNextEnabledKey` on a channel come one after the other and share the index
that the last one has left.  While the keys and their statuses stay as they are, the enabled indices are returned
in turn (`polling_fair`).
-/

namespace OneApi.Channels

open OneApi.Lib OneApi.Lib.Cycle

variable {keys : List String} {info : ChannelInfo}

/-- The enabled indices in the order in which polling comes to them. -/
def ChannelInfo.upcoming (info : ChannelInfo) (keys : List String) : List ℕ :=
  markedFrom keys.length (fun idx => info.getStatus idx = .enabled) (pollingStart keys info.multiKeyPollingIndex)

theorem upcoming_rotated :
    ∃ offset, info.upcoming keys = (info.enabledIdx keys).rotate offset := markedFrom_rotated _

/-- What polling returns, call after call, on the channel of the cache. -/
def pollResults (keys : List String) : KeyStore → List ℕ → List (Except String (String × ℕ))
  | _, [] => []
  | x, random :: randoms =>
    (getNextEnabledKey keys x.cached.channelInfo x.cached.channelInfo.multiKeyPollingIndex random).1 ::
      pollResults keys (keyAct true keys x .shared (.next random)).1 randoms

/-- One call returns the first of the upcoming indices, which then comes last. -/
theorem getNextEnabledKey_upcoming (hmode : info.multiKeyMode = .polling) {idx : ℕ} {rest : List ℕ}
    (h : info.upcoming keys = idx :: rest) (random : ℕ) :
    (getNextEnabledKey keys info info.multiKeyPollingIndex random).1 = .ok (keyAt keys idx) ∧
      (getNextEnabledKey keys info info.multiKeyPollingIndex random).2.multiKeyMode = .polling ∧
      (getNextEnabledKey keys info info.multiKeyPollingIndex random).2.upcoming keys = rest ++ [idx] := by
  have hscan := @scan_eq_head keys.length (fun idx => info.getStatus idx = .enabled)
    (pollingStart keys info.multiKeyPollingIndex)
  rw [← ChannelInfo.upcoming, h, List.head?_cons] at hscan
  obtain ⟨i, hfind, hidx⟩ := Option.map_eq_some_iff.mp hscan
  have hpos : 0 < keys.length := Nat.zero_lt_of_lt (List.mem_range.mp (List.mem_of_find?_eq_some hfind))
  have hmem : idx ∈ info.enabledIdx keys := by
    obtain ⟨offset, hoffset⟩ := upcoming_rotated
    rw [← List.mem_rotate, ← hoffset, h]
    exact List.mem_cons_self
  have hcall : getNextEnabledKey keys info info.multiKeyPollingIndex random
      = (.ok (keyAt keys idx), { info with multiKeyPollingIndex := ((idx + 1) % keys.length : ℕ) }) := by
    rw [getNextEnabledKey, if_neg (List.length_pos_iff.mp hpos)]
    obtain ⟨first, others, henabled⟩ := List.exists_cons_of_ne_nil (List.ne_nil_of_mem hmem)
    rw [henabled]
    simp only [hmode, hfind, hidx]
  refine ⟨by rw [hcall], by rw [hcall]; exact hmode, ?_⟩
  rw [hcall, ← markedFrom_next h, ChannelInfo.upcoming]
  -- the index that is left behind is one of the list
  have hstart : pollingStart keys ((idx + 1) % keys.length : ℕ) = (idx + 1) % keys.length := by
    have hlt := Nat.mod_lt (idx + 1) hpos
    rw [pollingStart, if_neg (by omega), Int.toNat_natCast]
  show markedFrom keys.length _ (pollingStart keys ((idx + 1) % keys.length : ℕ)) = _
  rw [hstart]
  rfl

theorem pollResults_eq {x : KeyStore} (hmode : x.cached.channelInfo.multiKeyMode = .polling)
    (hsome : x.cached.channelInfo.upcoming keys ≠ []) (randoms : List ℕ) :
    pollResults keys x randoms = (List.range randoms.length).map fun k =>
      .ok (keyAt keys (((x.cached.channelInfo.upcoming keys).rotate k).headD 0)) := by
  induction randoms generalizing x with
  | nil => rfl
  | cons random randoms ih =>
    obtain ⟨idx, rest, hupcoming⟩ := List.exists_cons_of_ne_nil hsome
    obtain ⟨hresult, hmode', hrest⟩ := getNextEnabledKey_upcoming hmode hupcoming random
    have hrest' : (keyAct true keys x .shared (.next random)).1.cached.channelInfo.upcoming keys = rest ++ [idx] := hrest
    have hnext := ih (x := (keyAct true keys x .shared (.next random)).1) hmode' (by rw [hrest']; simp)
    rw [pollResults, hnext, hresult, hrest', List.length_cons, List.range_succ_eq_map, List.map_cons,
      List.map_map, hupcoming]
    simp only [Function.comp_def, List.rotate_cons_succ, List.rotate_zero, List.headD_cons]

/-- **Polling is fair.**  From whatever index it starts, polling returns the enabled indices in cyclic order, and as
many consecutive calls as there are enabled indices return each of them once. -/
theorem polling_fair (keys : List String) (x : KeyStore) (hmode : x.cached.channelInfo.multiKeyMode = .polling)
    (hsome : x.cached.channelInfo.enabledIdx keys ≠ []) :
    ∃ (offset : ℕ) (turn : ℕ → ℕ),
      (∀ k, (x.cached.channelInfo.enabledIdx keys)[(offset + k) % (x.cached.channelInfo.enabledIdx keys).length]?
        = some (turn k)) ∧
      (∀ randoms, pollResults keys x randoms = (List.range randoms.length).map fun k => .ok (keyAt keys (turn k))) ∧
      ∀ i, ((List.range (x.cached.channelInfo.enabledIdx keys).length).map fun k => turn (i + k)).Perm
        (x.cached.channelInfo.enabledIdx keys) := by
  obtain ⟨offset, hoffset⟩ := upcoming_rotated
  have hresults := @pollResults_eq keys x hmode
    (by rw [hoffset]; exact fun hnil => hsome (List.rotate_eq_nil_iff.mp hnil))
  rw [hoffset] at hresults
  generalize x.cached.channelInfo.enabledIdx keys = enabled at hsome hresults
  refine ⟨offset, fun k => ((enabled.rotate offset).rotate k).headD 0, fun k => ?_, hresults, fun i => ?_⟩
  · have hlt := Nat.mod_lt (offset + k) (List.length_pos_iff.mpr hsome)
    simp only [List.rotate_rotate]
    rw [← List.rotate_mod, List.headD_eq_head?_getD, List.head?_rotate hlt, List.getElem?_eq_getElem hlt]
    rfl
  · have hturns := heads_of_rotations ((enabled.rotate offset).rotate i) 0
    simp only [List.rotate_rotate, List.length_rotate, Nat.add_assoc] at hturns ⊢
    rw [hturns]
    exact List.rotate_perm _ _

/-- Three keys, the second of them disabled, and an index behind the last one. -/
def threeKeys : KeyStore :=
  let info : ChannelInfo :=
    { multiKeyMode := .polling, multiKeyPollingIndex := 7
      multiKeyStatusList := fun idx => if idx = 1 then some .manuallyDisabled else none }
  { db := { channelInfo := info }, cached := { channelInfo := info } }

theorem threeKeys_fair :
    threeKeys.cached.channelInfo.enabledIdx ["a", "b", "c"] = [0, 2] ∧
      ∃ (offset : ℕ) (turn : ℕ → ℕ),
        (∀ k, [0, 2][(offset + k) % 2]? = some (turn k)) ∧
        (∀ randoms, pollResults ["a", "b", "c"] threeKeys randoms
          = (List.range randoms.length).map fun k => .ok (keyAt ["a", "b", "c"] (turn k))) ∧
        ∀ i, ((List.range 2).map fun k => turn (i + k)).Perm [0, 2] :=
  ⟨by decide, polling_fair ["a", "b", "c"] threeKeys rfl (by decide)⟩

end OneApi.Channels

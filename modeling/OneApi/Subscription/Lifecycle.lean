import OneApi.Lib.Path
import OneApi.Subscription.Model
import Mathlib.Data.List.Sort

/-!
# Purchases and ends of subscriptions

`CreateUserSubscriptionFromPlanTx`, `AdminInvalidateUserSubscription`,
`AdminDeleteUserSubscription` and `ExpireDueSubscriptions`, on the two things they write: the
subscription rows and the `group` column of the users.

A purchase of a plan with an upgrade group moves the user to it and keeps the group they came
from in the new row.  The end of a subscription moves them back, in one of two ways: an
invalidation or a deletion looks at its own row only (`downgradeUserGroupForSubscriptionTx`), an
expiry looks at all rows that expire together
(`resolveExpiredSubscriptionDowngradeTarget`).
-/

namespace OneApi.Subscription.Lifecycle

open OneApi.Lib OneApi.Lib.Go OneApi.Subscription.Model

/-- The subscriptions and the group of every user there is. -/
structure Store where
  subs : Table UserSubscription UserSubscription.id
  users : ℤ → Option String

inductive LifecycleError
  | invalidPlan
  | invalidUserId
  | invalidGroupUserId
  | purchaseLimit
  | endTime (text : String)
  | invalidUserSubscriptionId
  | recordNotFound
  | database
  deriving Repr, DecidableEq

/-- The text of each error; the last two are those of the database. -/
def LifecycleError.message : LifecycleError → String
  | .invalidPlan => "invalid plan"
  | .invalidUserId => "invalid user id"
  | .invalidGroupUserId => "invalid userId"
  | .purchaseLimit => "已达到该套餐购买上限"
  | .endTime text => text
  | .invalidUserSubscriptionId => "invalid userSubscriptionId"
  | .recordNotFound => "record not found"
  | .database => "database error"

/-- `getUserGroupByIdTx`; a user that is not there reads as the empty group. -/
def getUserGroupByIdTx (users : ℤ → Option String) (userId : ℤ) : Except LifecycleError String :=
  if userId ≤ 0 then .error .invalidGroupUserId else .ok ((users userId).getD "")

/-- `UPDATE users SET group = ? WHERE id = ?`. -/
def setUserGroup (users : ℤ → Option String) (userId : ℤ) (group : String) : ℤ → Option String :=
  fun id => if id = userId then (users id).map fun _ => group else users id

/-! ## Purchase -/

/-- `CreateUserSubscriptionFromPlanTx` at database time `now`; `id` is the key the insert is given. -/
def createUserSubscriptionFromPlanTx (loc : Location) (now : ℤ) (st : Store) (id userId : ℤ)
    (plan : SubscriptionPlan) (source : String) : Except LifecycleError (Store × UserSubscription) :=
  if plan.id = 0 then .error .invalidPlan
  else if userId ≤ 0 then .error .invalidUserId
  else if 0 < plan.maxPurchasePerUser ∧ plan.maxPurchasePerUser ≤
      (st.subs.rows.countP fun s => s.userId = userId ∧ s.planId = plan.id) then
    .error .purchaseLimit
  else
    match calcPlanEndTime loc now plan with
    | .error text => .error (.endTime text)
    | .ok endUnix =>
      let nextReset := calcNextResetTime loc now plan endUnix
      let upgradeGroup := trimSpace plan.upgradeGroup
      let currentGroup := (st.users userId).getD ""
      let upgrades := upgradeGroup ≠ "" ∧ currentGroup ≠ upgradeGroup
      let sub : UserSubscription :=
        { id, userId, planId := plan.id, amountTotal := plan.totalAmount, amountUsed := 0,
          startTime := now, endTime := endUnix, status := .active, source,
          lastResetTime := if 0 < nextReset then now else 0, nextResetTime := nextReset,
          upgradeGroup, prevUserGroup := if upgrades then currentGroup else "",
          downgradeGroup := trimSpace plan.downgradeGroup,
          allowWalletOverflow := plan.allowWalletOverflow.getD true }
      match st.subs.insert sub with
      | none => .error .database
      | some subs =>
        .ok (⟨subs, if upgrades then setUserGroup st.users userId upgradeGroup else st.users⟩, sub)

/-! ## Invalidation and deletion -/

/-- A subscription of the user that still upgrades them, other than the one with id `except`. -/
def otherActiveUpgrade (st : Store) (userId now except : ℤ) : Bool :=
  st.subs.rows.any fun s => s.userId = userId ∧ s.status = .active ∧ now < s.endTime ∧
    s.id ≠ except ∧ s.upgradeGroup ≠ ""

/-- `downgradeUserGroupForSubscriptionTx`: the users as they are left. -/
def downgradeUserGroupForSubscriptionTx (st : Store) (sub : UserSubscription) (now : ℤ) :
    Except LifecycleError (ℤ → Option String) :=
  let downgradeGroup := trimSpace sub.downgradeGroup
  let upgradeGroup := trimSpace sub.upgradeGroup
  if downgradeGroup = "" ∧ upgradeGroup = "" then .ok st.users
  else
    match getUserGroupByIdTx st.users sub.userId with
    | .error e => .error e
    | .ok currentGroup =>
      if otherActiveUpgrade st sub.userId now sub.id then .ok st.users
      else if downgradeGroup = "" ∧ currentGroup ≠ upgradeGroup then .ok st.users
      else
        let target := if downgradeGroup = "" then trimSpace sub.prevUserGroup else downgradeGroup
        if target = "" ∨ target = currentGroup then .ok st.users
        else .ok (setUserGroup st.users sub.userId target)

def adminInvalidateUserSubscription (now : ℤ) (st : Store) (id : ℤ) : Except LifecycleError Store :=
  if id ≤ 0 then .error .invalidUserSubscriptionId
  else
    match st.subs.find id with
    | none => .error .recordNotFound
    | some sub =>
      let cancelled := { sub with status := .cancelled, endTime := now }
      let subs := st.subs.save cancelled
      match downgradeUserGroupForSubscriptionTx ⟨subs, st.users⟩ cancelled now with
      | .error e => .error e
      | .ok users => .ok ⟨subs, users⟩

def adminDeleteUserSubscription (now : ℤ) (st : Store) (id : ℤ) : Except LifecycleError Store :=
  if id ≤ 0 then .error .invalidUserSubscriptionId
  else
    match st.subs.find id with
    | none => .error .recordNotFound
    | some sub =>
      match downgradeUserGroupForSubscriptionTx st sub now with
      | .error e => .error e
      | .ok users => .ok ⟨st.subs.delete id, users⟩

/-! ## Expiry -/

/-- The explicit downgrade group of the subscription that ended last, if any has one. -/
def latestExplicit (subs : List UserSubscription) : Option (String × ℤ × ℤ) :=
  subs.foldl (fun latest sub =>
    let target := trimSpace sub.downgradeGroup
    if target = "" then latest
    else
      match latest with
      | none => some (target, sub.endTime, sub.id)
      | some (_, endTime, id) =>
        if endTime < sub.endTime ∨ (sub.endTime = endTime ∧ id < sub.id) then
          some (target, sub.endTime, sub.id)
        else latest) none

/-- The map `prevToUpgrade`, as its entries; `none` when one group leads to two others. -/
def collectUpgrades : List (String × String) → List UserSubscription →
    Option (List (String × String))
  | entries, [] => some entries
  | entries, sub :: subs =>
    let prev := trimSpace sub.prevUserGroup
    let upgrade := trimSpace sub.upgradeGroup
    if prev = "" ∨ upgrade = "" then collectUpgrades entries subs
    else
      match entries.lookup prev with
      | some existing => if existing ≠ upgrade then none else collectUpgrades entries subs
      | none => collectUpgrades (entries ++ [(prev, upgrade)]) subs

/-- The only element of a list, or the empty group. -/
def single : List String → String
  | [group] => group
  | _ => ""

/-- `resolveExpiredSubscriptionDowngradeTarget`; the empty group stands for no change. -/
def resolveExpiredSubscriptionDowngradeTarget (subs : List UserSubscription) (currentGroup : String) : String :=
  match latestExplicit subs with
  | some (group, _, _) => group
  | none =>
    match collectUpgrades [] subs with
    | none => ""
    | some entries =>
      let prevGroups := entries.map Prod.fst
      let upgradeGroups := entries.map Prod.snd
      let baseGroup := single (prevGroups.filter fun g => g ∉ upgradeGroups)
      let terminalGroup := single (upgradeGroups.dedup.filter fun g => g ∉ prevGroups)
      if baseGroup = "" ∨ terminalGroup = "" ∨ currentGroup ≠ terminalGroup then ""
      else baseGroup

/-- `status = 'active' AND end_time > 0 AND end_time <= now`. -/
def expiryDue (now : ℤ) (sub : UserSubscription) : Prop :=
  sub.status = .active ∧ 0 < sub.endTime ∧ sub.endTime ≤ now

instance (now : ℤ) (sub : UserSubscription) : Decidable (expiryDue now sub) :=
  inferInstanceAs (Decidable (_ ∧ _))

/-- The due subscriptions of a user. -/
def dueSubscriptions (st : Store) (userId now : ℤ) : List UserSubscription :=
  (st.subs.rows.filter fun s => s.userId = userId ∧ expiryDue now s).insertionSort endsBefore

def markExpired (sub : UserSubscription) : UserSubscription := { sub with status := .expired }

/-- The transaction of `ExpireDueSubscriptions` for one user, with the number of rows it
expires. -/
def expireUserTx (now : ℤ) (st : Store) (userId : ℤ) : Store × ℕ :=
  let dueSubs := dueSubscriptions st userId now
  if dueSubs = [] then (st, 0)
  else
    let subs := st.subs.updateWhere (fun s => s.userId = userId ∧ expiryDue now s) markExpired
      fun _ => rfl
    let activeLeft := subs.rows.any fun s => s.userId = userId ∧ s.status = .active ∧
      now < s.endTime ∧ s.upgradeGroup ≠ ""
    let currentGroup := (st.users userId).getD ""
    let target := resolveExpiredSubscriptionDowngradeTarget dueSubs currentGroup
    let users := if activeLeft ∨ target = "" ∨ target = currentGroup then st.users
      else setUserGroup st.users userId target
    (⟨subs, users⟩, dueSubs.length)

/-- The users of the first `limit` due rows. -/
def dueUsers (limit now : ℤ) (st : Store) : List ℤ :=
  let batch := if limit ≤ 0 then 200 else limit.toNat
  let due := ((st.subs.rows.filter fun s => expiryDue now s).insertionSort endsBefore).take batch
  ((due.map (·.userId)).filter fun u => 0 < u).dedup

/-- `ExpireDueSubscriptions` at database time `now`: one transaction for each of the users. -/
def expireDueSubscriptions (limit now : ℤ) (st : Store) : Store × ℕ :=
  (dueUsers limit now st).foldl (fun acc userId =>
    let r := expireUserTx now acc.1 userId
    (r.1, acc.2 + r.2)) (st, 0)

/-! ## What the transactions do -/

variable {users : ℤ → Option String} {userId : ℤ}

theorem setUserGroup_self {old group : String}
    (h : users userId = some old) : setUserGroup users userId group userId = some group := by
  simp [setUserGroup, h]

theorem setUserGroup_of_ne {other : ℤ} {group : String}
    (h : other ≠ userId) : setUserGroup users userId group other = users other := by
  simp [setUserGroup, h]

variable {now : ℤ} {st : Store} {sub : UserSubscription}

/-- **A successful purchase** inserts one active row, and either keeps the group and notes none,
or moves the user to the upgrade group and notes the one they had. -/
theorem createUserSubscriptionFromPlanTx_ok {loc : Location} {st' : Store}
    {id : ℤ} {plan : SubscriptionPlan} {source : String}
    (h : createUserSubscriptionFromPlanTx loc now st id userId plan source = .ok (st', sub)) :
    0 < userId ∧ st.subs.insert sub = some st'.subs ∧ sub.userId = userId ∧
      sub.planId = plan.id ∧ sub.status = .active ∧ sub.upgradeGroup = trimSpace plan.upgradeGroup ∧
      sub.downgradeGroup = trimSpace plan.downgradeGroup ∧
      ((sub.prevUserGroup = "" ∧ st'.users = st.users ∧
          (sub.upgradeGroup = "" ∨ (st.users userId).getD "" = sub.upgradeGroup)) ∨
        (sub.prevUserGroup = (st.users userId).getD "" ∧ sub.upgradeGroup ≠ "" ∧
          (st.users userId).getD "" ≠ sub.upgradeGroup ∧
          st'.users = setUserGroup st.users userId sub.upgradeGroup)) := by
  unfold createUserSubscriptionFromPlanTx at h
  split at h
  · cases h
  split at h
  · cases h
  rename_i huser
  split at h
  · cases h
  split at h
  · cases h
  simp only at h
  split at h
  · cases h
  rename_i subs hins
  simp only [Except.ok.injEq, Prod.mk.injEq] at h
  obtain ⟨rfl, rfl⟩ := h
  refine ⟨by omega, hins, rfl, rfl, rfl, rfl, rfl, ?_⟩
  by_cases hup : trimSpace plan.upgradeGroup ≠ "" ∧ (st.users userId).getD "" ≠ trimSpace plan.upgradeGroup
  · right
    dsimp only
    rw [if_pos hup, if_pos hup]
    exact ⟨rfl, hup.1, hup.2, rfl⟩
  · left
    dsimp only
    rw [if_neg hup, if_neg hup]
    refine ⟨rfl, rfl, ?_⟩
    by_cases hempty : trimSpace plan.upgradeGroup = ""
    · exact .inl hempty
    · exact .inr (not_not.mp fun hne => hup ⟨hempty, hne⟩)

/-- **The downgrade without an explicit group**: back to the noted group, if no other subscription
upgrades the user and they are still in the upgrade group of this one. -/
theorem downgradeUserGroupForSubscriptionTx_eq (hdown : trimSpace sub.downgradeGroup = "") (huser : 0 < sub.userId) :
    downgradeUserGroupForSubscriptionTx st sub now = .ok
      (if otherActiveUpgrade st sub.userId now sub.id = false ∧ trimSpace sub.upgradeGroup ≠ "" ∧
          (st.users sub.userId).getD "" = trimSpace sub.upgradeGroup ∧
          trimSpace sub.prevUserGroup ≠ "" ∧
          trimSpace sub.prevUserGroup ≠ (st.users sub.userId).getD "" then
        setUserGroup st.users sub.userId (trimSpace sub.prevUserGroup)
      else st.users) := by
  unfold downgradeUserGroupForSubscriptionTx getUserGroupByIdTx
  simp only [hdown, true_and, if_neg (show ¬ sub.userId ≤ 0 by omega), if_true]
  by_cases hup : trimSpace sub.upgradeGroup = ""
  · simp [hup]
  by_cases hother : otherActiveUpgrade st sub.userId now sub.id
  · simp [hup, hother]
  by_cases hcur : (st.users sub.userId).getD "" = trimSpace sub.upgradeGroup
  · by_cases htarget : trimSpace sub.prevUserGroup = "" ∨
        trimSpace sub.prevUserGroup = (st.users sub.userId).getD ""
    · rw [if_neg hup, if_neg hother, if_neg (not_not.mpr hcur), if_pos htarget, if_neg]
      rintro ⟨-, -, -, h₁, h₂⟩
      exact htarget.elim h₁ h₂
    · rw [if_neg hup, if_neg hother, if_neg (not_not.mpr hcur), if_neg htarget, if_pos]
      rw [not_or] at htarget
      exact ⟨by simpa using hother, hup, hcur, htarget⟩
  · rw [if_neg hup, if_neg hother, if_pos hcur, if_neg]
    exact fun h => hcur h.2.2.1

/-- A downgrade touches no user but the one of its subscription. -/
theorem downgradeUserGroupForSubscriptionTx_other {u : ℤ} (hu : u ≠ sub.userId)
    (h : downgradeUserGroupForSubscriptionTx st sub now = .ok users) : users u = st.users u := by
  unfold downgradeUserGroupForSubscriptionTx at h
  simp only at h
  split at h
  · cases h; rfl
  split at h
  · cases h
  split at h
  · cases h; rfl
  split at h
  · cases h; rfl
  generalize (if trimSpace sub.downgradeGroup = "" then _ else _) = target at h
  split at h
  · cases h; rfl
  · cases h
    exact setUserGroup_of_ne hu

/-- **The expiry of a user** marks their due rows, whether or not it changes their group. -/
theorem expireUserTx_rows : (expireUserTx now st userId).1.subs.rows = st.subs.rows.map fun s =>
      if s.userId = userId ∧ expiryDue now s then markExpired s else s := by
  unfold expireUserTx
  by_cases hdue : dueSubscriptions st userId now = []
  · have hnone : ∀ s ∈ st.subs.rows, ¬ (s.userId = userId ∧ expiryDue now s) := by
      intro s hs h
      have hmem : s ∈ dueSubscriptions st userId now :=
        (List.mem_insertionSort _).mpr (List.mem_filter.mpr ⟨hs, decide_eq_true h⟩)
      rw [hdue] at hmem
      cases hmem
    simp only [if_pos hdue]
    conv_lhs => rw [← List.map_id st.subs.rows]
    exact List.map_congr_left fun s hs => (if_neg (hnone s hs)).symm
  · simp only [if_neg hdue, Table.updateWhere, decide_eq_true_eq]

/-- The expiry of a user counts their due rows. -/
theorem expireUserTx_count :
    (expireUserTx now st userId).2 = st.subs.rows.countP fun s => s.userId = userId ∧ expiryDue now s := by
  have hlen : (dueSubscriptions st userId now).length =
      st.subs.rows.countP fun s => s.userId = userId ∧ expiryDue now s := by
    unfold dueSubscriptions
    rw [List.length_insertionSort, List.countP_eq_length_filter]
  unfold expireUserTx
  by_cases hdue : dueSubscriptions st userId now = []
  · rw [hdue] at hlen
    simp only [if_pos hdue]
    exact hlen
  · simp only [if_neg hdue]
    exact hlen

/-- The change of group a row notes. -/
def groupChange (sub : UserSubscription) : Option (String × String) :=
  if trimSpace sub.prevUserGroup = "" ∨ trimSpace sub.upgradeGroup = "" then none
  else some (trimSpace sub.prevUserGroup, trimSpace sub.upgradeGroup)

variable {subs : List UserSubscription}

theorem latestExplicit_none (h : ∀ sub ∈ subs, trimSpace sub.downgradeGroup = "") : latestExplicit subs = none := by
  unfold latestExplicit
  induction subs with
  | nil => rfl
  | cons sub subs ih =>
    rw [List.foldl_cons]
    simp only [h sub (by simp), if_true]
    exact ih fun s hs => h s (by simp [hs])

/-- What is collected of the noted changes: each of them once, unless a group leads to two others. -/
def Collected (changes : List (String × String)) : Option (List (String × String)) → Prop
  | none => ∃ e ∈ changes, ∃ e' ∈ changes, e.1 = e'.1 ∧ e ≠ e'
  | some es => (es.map Prod.fst).Nodup ∧ ∀ e, e ∈ es ↔ e ∈ changes

variable {changes es : List (String × String)} {r : Option (List (String × String))}

theorem Collected.congr {changes' : List (String × String)} (h : Collected changes r)
    (hmem : ∀ e, e ∈ changes ↔ e ∈ changes') : Collected changes' r := by
  cases r with
  | none =>
    obtain ⟨e, he, e', he', hsame⟩ := h
    exact ⟨e, (hmem e).mp he, e', (hmem e').mp he', hsame⟩
  | some es => exact ⟨h.1, fun e => (h.2 e).trans (hmem e)⟩

/-- The changes leave no choice but the order. -/
theorem Collected.unique (h : Collected changes r) (hes : Collected changes (some es)) :
    ∃ es', r = some es' ∧ es'.Perm es := by
  cases r with
  | none =>
    obtain ⟨e, he, e', he', hfst, hne⟩ := h
    exact absurd (List.inj_on_of_nodup_map hes.1 ((hes.2 e).mpr he) ((hes.2 e').mpr he') hfst) hne
  | some es' =>
    refine ⟨es', rfl, (List.perm_ext_iff_of_nodup h.1.of_map hes.1.of_map).mpr fun e => ?_⟩
    rw [h.2 e, hes.2 e]

theorem collected_from {entries : List (String × String)} (hnd : (entries.map Prod.fst).Nodup) :
    Collected (entries ++ subs.filterMap groupChange) (collectUpgrades entries subs) := by
  induction subs generalizing entries with
  | nil => exact ⟨hnd, by simp⟩
  | cons sub subs ih =>
    rw [collectUpgrades, List.filterMap_cons, groupChange]
    generalize trimSpace sub.prevUserGroup = prev
    generalize trimSpace sub.upgradeGroup = upgrade
    by_cases hskip : prev = "" ∨ upgrade = ""
    · simp only [if_pos hskip]
      exact ih hnd
    simp only [if_neg hskip]
    cases hlook : entries.lookup prev with
    | some existing =>
      obtain ⟨before, after, hentries, _⟩ := List.lookup_eq_some_iff.mp hlook
      have hmem : (prev, existing) ∈ entries := by simp [hentries]
      by_cases hsame : existing = upgrade
      · -- a second row with the same change adds nothing
        rw [hsame] at hmem
        simp only [hsame, ne_eq, not_true, if_false]
        refine (ih hnd).congr fun e => ?_
        rw [List.mem_append, List.mem_append, List.mem_cons]
        refine or_congr_right' fun hnot => (or_iff_right ?_).symm
        exact fun heq => hnot (heq ▸ hmem)
      · simp only [ne_eq, hsame, not_false_eq_true, if_true]
        exact ⟨_, List.mem_append_left _ hmem, (prev, upgrade), by simp, rfl, by simpa using hsame⟩
    | none =>
      have hnew : prev ∉ entries.map Prod.fst := by
        rw [List.mem_map]
        rintro ⟨e, he, rfl⟩
        simpa using List.lookup_eq_none_iff.mp hlook e he
      have hnd' : ((entries ++ [(prev, upgrade)]).map Prod.fst).Nodup := by
        rw [List.map_append, List.map_singleton, List.nodup_append_comm]
        exact List.nodup_cons.mpr ⟨hnew, hnd⟩
      simpa only [List.append_assoc, List.singleton_append] using ih hnd'

theorem collected (subs : List UserSubscription) :
    Collected (subs.filterMap groupChange) (collectUpgrades [] subs) :=
  @collected_from subs [] List.nodup_nil

theorem groupChange_ne {e : String × String} (h : e ∈ subs.filterMap groupChange) : e.1 ≠ "" ∧ e.2 ≠ "" := by
  obtain ⟨sub, _, hsub⟩ := List.mem_filterMap.mp h
  rw [groupChange, Option.ite_none_left_eq_some, not_or] at hsub
  rw [← Option.some.inj hsub.2]
  exact hsub.1

/-- **Rows that chain from a base to the current group lead back to the base**, whatever the order
they are in. -/
theorem resolve_path {base top : String} (hdown : ∀ sub ∈ subs, trimSpace sub.downgradeGroup = "")
    (hperm : (subs.filterMap groupChange).Perm es) (hpath : Path base es top)
    (hnd : (base :: es.map Prod.snd).Nodup) (hne : es ≠ []) :
    resolveExpiredSubscriptionDowngradeTarget subs top = base := by
  have hfst : ((subs.filterMap groupChange).map Prod.fst).Nodup :=
    (hperm.map Prod.fst).nodup_iff.mpr (hpath.fst_nodup hnd).1
  obtain ⟨es', hes', hsame⟩ := (collected subs).unique ⟨hfst, fun _ => Iff.rfl⟩
  obtain ⟨first, hfirst, hbase⟩ := List.mem_map.mp (hpath.base_mem hne)
  obtain ⟨last, hlast, htop⟩ := List.mem_map.mp ((hpath.mem_target_iff hnd hne top).mpr rfl).1
  have hbase : base ≠ "" := hbase ▸ (groupChange_ne (hperm.mem_iff.mpr hfirst)).1
  have htop : top ≠ "" := htop ▸ (groupChange_ne (hperm.mem_iff.mpr hlast)).2
  unfold resolveExpiredSubscriptionDowngradeTarget
  rw [latestExplicit_none hdown, hes']
  simp only [hpath.sources_filter hnd hne (hsame.trans hperm), hpath.targets_filter hnd hne (hsame.trans hperm),
    single, hbase, htop, ne_eq, not_true, or_self, if_false]

theorem resolve_nil {current : String} (hdown : ∀ sub ∈ subs, trimSpace sub.downgradeGroup = "")
    (hnone : subs.filterMap groupChange = []) : resolveExpiredSubscriptionDowngradeTarget subs current = "" := by
  have hempty : Collected (subs.filterMap groupChange) (some []) := by
    rw [hnone]
    exact ⟨List.nodup_nil, fun _ => Iff.rfl⟩
  obtain ⟨es', hes', hsame⟩ := (collected subs).unique hempty
  unfold resolveExpiredSubscriptionDowngradeTarget
  rw [latestExplicit_none hdown, hes', hsame.eq_nil]
  rfl

/-! ### The order of the rows -/

variable {subs' : List UserSubscription} (hids : (subs.map UserSubscription.id).Nodup) (hperm : subs'.Perm subs)

include hids hperm in
/-- Of two rows with different ids one ends later, whichever comes first. -/
theorem latestExplicit_perm : latestExplicit subs' = latestExplicit subs := by
  unfold latestExplicit
  refine (hperm.symm.foldl_eq' ?_ none).symm
  intro x hx y hy latest
  by_cases heq : x = y
  · rw [heq]
  -- different ids decide between rows that end together
  have hne : x.id ≠ y.id := fun h => heq (List.inj_on_of_nodup_map hids hx hy h)
  generalize trimSpace x.downgradeGroup = tx
  generalize trimSpace y.downgradeGroup = ty
  by_cases htx : tx = ""
  · simp only [if_pos htx]
  by_cases hty : ty = ""
  · simp only [if_pos hty]
  simp only [if_neg htx, if_neg hty]
  cases latest with
  | none => grind
  | some l => grind

theorem single_perm {l l' : List String} (h : l'.Perm l) : single l' = single l := by
  rcases l with _ | ⟨a, _ | ⟨b, l⟩⟩
  · rw [h.eq_nil]
  · rw [List.perm_singleton.mp h]
  · rcases l' with _ | ⟨a', _ | ⟨b', l'⟩⟩
    · rfl
    · exact absurd h.length_eq (by simp)
    · rfl

include hids hperm in
/-- Whether a group leads to two others, and what the sources and the targets of the changes are, does not depend
on the order. -/
theorem resolve_perm (currentGroup : String) : resolveExpiredSubscriptionDowngradeTarget subs' currentGroup
    = resolveExpiredSubscriptionDowngradeTarget subs currentGroup := by
  have hcollected : Collected (subs.filterMap groupChange) (collectUpgrades [] subs') :=
    (collected subs').congr fun e => (hperm.filterMap groupChange).mem_iff
  have hsubs := collected subs
  unfold resolveExpiredSubscriptionDowngradeTarget
  rw [latestExplicit_perm hids hperm]
  cases latestExplicit subs with
  | some latest => rfl
  | none =>
    cases hes : collectUpgrades [] subs with
    | none =>
      cases hes' : collectUpgrades [] subs' with
      | none => rfl
      | some es' =>
        rw [hes] at hsubs
        rw [hes'] at hcollected
        obtain ⟨es, hnone, _⟩ := hsubs.unique hcollected
        cases hnone
    | some es =>
      rw [hes] at hsubs
      obtain ⟨es', hes', hsame⟩ := hcollected.unique hsubs
      have hfst := hsame.map Prod.fst
      have hsnd := hsame.map Prod.snd
      simp only [hes', hfst.mem_iff, hsnd.mem_iff, single_perm (hfst.filter _), single_perm (hsnd.dedup.filter _)]

/-- **The target of an expiry.**  It does not depend on the order of the rows; and rows that note a chain of changes
through distinct groups, up to the current one, lead back to the group before the first, unless one of them has a
downgrade group of its own. -/
theorem expired_target_of_rows (subs subs' : List UserSubscription) (hids : (subs.map UserSubscription.id).Nodup)
    (hperm : subs'.Perm subs) (currentGroup : String) :
    resolveExpiredSubscriptionDowngradeTarget subs' currentGroup
        = resolveExpiredSubscriptionDowngradeTarget subs currentGroup ∧
      ∀ base, Path base (subs.filterMap groupChange) currentGroup → subs.filterMap groupChange ≠ [] →
        (base :: (subs.filterMap groupChange).map Prod.snd).Nodup →
        (∀ sub ∈ subs, trimSpace sub.downgradeGroup = "") →
        resolveExpiredSubscriptionDowngradeTarget subs' currentGroup = base := by
  have hsame := resolve_perm hids hperm currentGroup
  refine ⟨hsame, fun base hpath hne hnd hdown => ?_⟩
  rw [hsame]
  exact resolve_path hdown (.refl _) hpath hnd hne

/-- From `default` to `vip` and on to `pro`. -/
def upgradedTwice : List UserSubscription :=
  [{ id := 1, userId := 1, planId := 3, endTime := 100, prevUserGroup := "default", upgradeGroup := "vip" },
    { id := 2, userId := 1, planId := 4, endTime := 200, prevUserGroup := "vip", upgradeGroup := "pro" }]

theorem upgradedTwice_target :
    resolveExpiredSubscriptionDowngradeTarget upgradedTwice.reverse "pro" = "default" := by
  have hchanges : upgradedTwice.filterMap groupChange = [("default", "vip"), ("vip", "pro")] := by decide +kernel
  refine (expired_target_of_rows _ _ (by decide) upgradedTwice.reverse_perm "pro").2 "default" ?_ ?_ ?_
    (by decide +kernel)
  all_goals rw [hchanges]
  · exact ⟨rfl, rfl, rfl⟩
  · decide
  · decide

/-- A downgrade group is preferred to the group before the first link. -/
theorem explicit_target_preferred :
    let sub : UserSubscription :=
      { id := 1, userId := 1, planId := 3, prevUserGroup := "default", upgradeGroup := "vip",
        downgradeGroup := "basic" }
    [sub].filterMap groupChange = [("default", "vip")] ∧
      resolveExpiredSubscriptionDowngradeTarget [sub] "vip" = "basic" := by
  decide +kernel

end OneApi.Subscription.Lifecycle

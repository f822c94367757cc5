import OneApi.Lib.Run
import OneApi.Subscription.Lifecycle

/-!
# When the group of a user comes back

Each subscription notes the group its user had when it was bought, and only that one.  While one
upgrade subscription is active no end changes the group; the end that leaves none decides it, from
the rows it ends.  So the group the user had before all of them comes back when that last end is
also the end of every subscription that changed the group: the notes then chain from the first
group to the current one (`Inv.path`).

`Allowed` is that condition on a run, step by step, and `group_restored` the result.  Without it an
earlier end takes its note along, and the user is left in a group between, for ever and without a
subscription: also when the second purchase only renews the first (`group_left_between`).
-/

namespace OneApi.Subscription.GroupRestore

open OneApi.Lib OneApi.Lib.Run OneApi.Lib.Go
open OneApi.Subscription.Model OneApi.Subscription.Lifecycle

/-- The transactions, each with the time it reads; the ids of new rows come from the database. -/
inductive Action
  | purchase (loc : Location) (now id userId : ℤ) (plan : SubscriptionPlan) (source : String)
  | expire (now userId : ℤ)
  | invalidate (now id : ℤ)
  | delete (now id : ℤ)

/-- The store after a transaction; one that returns an error is rolled back. -/
def step (st : Store) : Action → Store
  | .purchase loc now id userId plan source =>
    match createUserSubscriptionFromPlanTx loc now st id userId plan source with
    | .ok (st', _) => st'
    | .error _ => st
  | .expire now userId => (expireUserTx now st userId).1
  | .invalidate now id => (adminInvalidateUserSubscription now st id).toOption.getD st
  | .delete now id => (adminDeleteUserSubscription now st id).toOption.getD st

/-- `ExpireDueSubscriptions` is a run of the transactions of its users. -/
theorem expireDueSubscriptions_eq_run (limit now : ℤ) (st : Store) :
    (expireDueSubscriptions limit now st).1 = run step st ((dueUsers limit now st).map (Action.expire now)) := by
  have hfold : ∀ (userIds : List ℤ) (acc : Store × ℕ), (userIds.foldl (fun acc userId =>
        ((expireUserTx now acc.1 userId).1, acc.2 + (expireUserTx now acc.1 userId).2)) acc).1 =
        run step acc.1 (userIds.map (Action.expire now)) := by
    intro userIds
    induction userIds with
    | nil => intro acc; rfl
    | cons userId userIds ih => intro acc; exact ih _
  exact hfold _ _

/-! ## The condition -/

/-- The transaction ends this subscription. -/
def ends : Action → UserSubscription → Prop
  | .purchase .., _ => False
  | .expire now userId, s => s.userId = userId ∧ expiryDue now s
  | .invalidate _ id, s => s.id = id
  | .delete _ id, s => s.id = id

instance : ∀ (a : Action) (s : UserSubscription), Decidable (ends a s)
  | .purchase .., _ => inferInstanceAs (Decidable False)
  | .expire _ _, _ => inferInstanceAs (Decidable (_ ∧ _))
  | .invalidate _ id, s => inferInstanceAs (Decidable (s.id = id))
  | .delete _ id, s => inferInstanceAs (Decidable (s.id = id))

def Action.time : Action → ℤ
  | .purchase _ now .. => now
  | .expire now _ => now
  | .invalidate now _ => now
  | .delete now _ => now

/-- The active subscriptions of the user that changed their group. -/
def changed (u : ℤ) (st : Store) : List UserSubscription :=
  st.subs.rows.filter fun s => s.userId = u ∧ s.status = .active ∧ s.prevUserGroup ≠ ""

/-- After the transaction some subscription still upgrades the user. -/
def upgradeLeft (u : ℤ) (st : Store) (a : Action) : Prop :=
  ∃ s ∈ st.subs.rows, s.userId = u ∧ s.status = .active ∧ a.time < s.endTime ∧ s.upgradeGroup ≠ "" ∧ ¬ ends a s

instance (u : ℤ) (st : Store) (a : Action) : Decidable (upgradeLeft u st a) :=
  inferInstanceAs (Decidable (∃ s ∈ st.subs.rows, s.userId = u ∧ s.status = .active ∧
    a.time < s.endTime ∧ s.upgradeGroup ≠ "" ∧ ¬ ends a s))

/-- A purchase moves the user to a group they have not come through since `g₀`, if it moves them at
all; a transaction that ends subscriptions of theirs ends the ones that changed their group exactly
when it leaves no upgrade. -/
def Allowed (u : ℤ) (g₀ : String) (st : Store) : Action → Prop
  | .purchase _ _ _ userId plan _ => userId = u → trimSpace plan.downgradeGroup = "" ∧
      (trimSpace plan.upgradeGroup = (st.users u).getD "" ∨
        (trimSpace plan.upgradeGroup ≠ g₀ ∧ ∀ c ∈ changed u st, c.upgradeGroup ≠ trimSpace plan.upgradeGroup))
  | a => (∃ s ∈ st.subs.rows, s.userId = u ∧ ends a s) →
      ∀ c ∈ changed u st, (ends a c ↔ ¬ upgradeLeft u st a)

instance (u : ℤ) (g₀ : String) (st : Store) : ∀ a, Decidable (Allowed u g₀ st a)
  | .purchase .. => inferInstanceAs (Decidable (_ → _))
  | .expire .. => inferInstanceAs (Decidable (_ → _))
  | .invalidate .. => inferInstanceAs (Decidable (_ → _))
  | .delete .. => inferInstanceAs (Decidable (_ → _))

/-! ## The invariant -/

/-- The change of group a row notes, as it is stored. -/
def note (s : UserSubscription) : String × String := (s.prevUserGroup, s.upgradeGroup)

/-- What purchases guarantee of the groups in a row. -/
structure RowOk (u : ℤ) (g₀ : String) (s : UserSubscription) : Prop where
  user_pos : 0 < u
  downgrade : trimSpace s.downgradeGroup = ""
  upgrade_trim : trimSpace s.upgradeGroup = s.upgradeGroup
  prev_trim : trimSpace s.prevUserGroup = s.prevUserGroup
  change : s.prevUserGroup ≠ "" → s.upgradeGroup ≠ "" ∧ s.upgradeGroup ≠ g₀

/-- **The invariant.**  The active notes chain from `g₀` to the current group, through distinct
groups. -/
structure Inv (u : ℤ) (g₀ : String) (st : Store) : Prop where
  rows : ∀ s ∈ st.subs.rows, s.userId = u → RowOk u g₀ s
  path : ∃ current es, st.users u = some current ∧ ((changed u st).map note).Perm es ∧
    Path g₀ es current ∧ (g₀ :: es.map Prod.snd).Nodup

variable {u : ℤ} {st : Store} {s : UserSubscription}

theorem mem_changed :
    s ∈ changed u st ↔
      s ∈ st.subs.rows ∧ s.userId = u ∧ s.status = .active ∧ s.prevUserGroup ≠ "" := by
  simp [changed]

variable {g₀ : String}

/-- A row that may be trusted and that changed the group is read as it is stored. -/
theorem groupChange_of_change (hs : RowOk u g₀ s) (hprev : s.prevUserGroup ≠ "") : groupChange s = some (note s) := by
  unfold groupChange note
  rw [hs.prev_trim, hs.upgrade_trim, if_neg]
  exact fun h => h.elim hprev (hs.change hprev).1

theorem groupChange_of_keep (hprev : s.prevUserGroup = "") : groupChange s = none := by
  unfold groupChange
  rw [hprev]
  exact if_pos (.inl (by decide))

variable {current : String} {es : List (String × String)}

/-- The current group is `g₀` or one a changed row leads to. -/
theorem current_mem (h : Path g₀ es current) : current = g₀ ∨ current ∈ es.map Prod.snd := by
  have hmem : current ∈ g₀ :: es.map Prod.snd := by
    rw [← h.nodes]
    exact List.mem_append_right _ (List.mem_singleton.mpr rfl)
  exact List.mem_cons.mp hmem

variable (hg : g₀ ≠ "" ∧ trimSpace g₀ = g₀)

include hg in
/-- The current group is a name the code reads back as it is. -/
theorem current_ok (hinv : Inv u g₀ st) (hperm : ((changed u st).map note).Perm es) (hpath : Path g₀ es current) :
    current ≠ "" ∧ trimSpace current = current := by
  rcases current_mem hpath with rfl | hmem
  · exact hg
  · rw [← (hperm.map Prod.snd).mem_iff, List.map_map] at hmem
    obtain ⟨c, hc, rfl⟩ := List.mem_map.mp hmem
    obtain ⟨hc, hcu, -, hprev⟩ := mem_changed.mp hc
    have hok := hinv.rows c hc hcu
    exact ⟨(hok.change hprev).1, hok.upgrade_trim⟩

/-! ## Purchases -/

variable {st' : Store} {sub : UserSubscription}

theorem rows_insert (hinv : Inv u g₀ st) (hrows : st'.subs.rows = st.subs.rows ++ [sub])
    (hsub : sub.userId = u → RowOk u g₀ sub) : ∀ s ∈ st'.subs.rows, s.userId = u → RowOk u g₀ s := by
  intro s hs hsu
  rw [hrows, List.mem_append, List.mem_singleton] at hs
  rcases hs with hs | rfl
  · exact hinv.rows s hs hsu
  · exact hsub hsu

/-- A new row that does not change the group of the user. -/
theorem inv_insert_keep (hinv : Inv u g₀ st) (hrows : st'.subs.rows = st.subs.rows ++ [sub])
    (hsub : sub.userId = u → RowOk u g₀ sub ∧ sub.prevUserGroup = "")
    (husers : st'.users u = st.users u) : Inv u g₀ st' := by
  obtain ⟨current, es, hcur, hperm, hpath, hnd⟩ := hinv.path
  have hchanged : changed u st' = changed u st := by
    have hnone : [sub].filter (fun s => decide (s.userId = u ∧ s.status = .active ∧ s.prevUserGroup ≠ "")) = [] := by
      rw [List.filter_eq_nil_iff]
      intro s hs
      rw [List.mem_singleton.mp hs, decide_eq_true_eq]
      exact fun h => h.2.2 (hsub h.1).2
    unfold changed
    rw [hrows, List.filter_append, hnone, List.append_nil]
  exact ⟨rows_insert hinv hrows fun h => (hsub h).1, current, es, husers.trans hcur,
    by rw [hchanged]; exact hperm, hpath, hnd⟩

/-- A new active row that moves the user on to a fresh group. -/
theorem inv_insert_upgrade (hinv : Inv u g₀ st) (hperm : ((changed u st).map note).Perm es) (hpath : Path g₀ es current)
    (hnd : (g₀ :: es.map Prod.snd).Nodup) (hrows : st'.subs.rows = st.subs.rows ++ [sub])
    (hsub : RowOk u g₀ sub) (huser : sub.userId = u) (hstatus : sub.status = .active)
    (hprev : sub.prevUserGroup = current) (hcur : current ≠ "") (hg₀ : sub.upgradeGroup ≠ g₀)
    (hfresh : ∀ c ∈ changed u st, c.upgradeGroup ≠ sub.upgradeGroup)
    (husers : st'.users u = some sub.upgradeGroup) : Inv u g₀ st' := by
  have hchanged : changed u st' = changed u st ++ [sub] := by
    have hself : [sub].filter (fun s => decide (s.userId = u ∧ s.status = .active ∧ s.prevUserGroup ≠ "")) = [sub] := by
      rw [List.filter_eq_self]
      intro s hs
      rw [List.mem_singleton.mp hs, decide_eq_true_eq]
      exact ⟨huser, hstatus, hprev ▸ hcur⟩
    unfold changed
    rw [hrows, List.filter_append, hself]
  have hnot : sub.upgradeGroup ∉ es.map Prod.snd := by
    rw [← (hperm.map Prod.snd).mem_iff, List.map_map]
    intro hmem
    obtain ⟨c, hc, he⟩ := List.mem_map.mp hmem
    exact hfresh c hc he
  refine ⟨rows_insert hinv hrows fun _ => hsub, sub.upgradeGroup,
    es ++ [(current, sub.upgradeGroup)], husers, ?_, hpath.snoc, ?_⟩
  · rw [hchanged, List.map_append, List.map_singleton, note, hprev]
    exact hperm.append (List.Perm.refl _)
  · rw [List.map_append, List.map_singleton, ← List.cons_append, List.nodup_append]
    refine ⟨hnd, List.nodup_singleton _, fun a ha b hb hab => ?_⟩
    rw [hab, List.mem_singleton.mp hb] at ha
    rcases List.mem_cons.mp ha with ha | ha
    · exact hg₀ ha
    · exact hnot ha

variable {now id userId : ℤ}

include hg in
theorem inv_purchase {loc : Location} {plan : SubscriptionPlan} {source : String} (hinv : Inv u g₀ st)
    (hall : Allowed u g₀ st (.purchase loc now id userId plan source))
    (h : createUserSubscriptionFromPlanTx loc now st id userId plan source = .ok (st', sub)) : Inv u g₀ st' := by
  obtain ⟨huser, hins, hsubuser, -, hstatus, hup, hdown, hcase⟩ :=
    createUserSubscriptionFromPlanTx_ok h
  obtain ⟨current, es, hcur, hperm, hpath, hnd⟩ := hinv.path
  have hrows := Table.insert_rows hins
  by_cases hu : userId = u
  · subst hu
    obtain ⟨hplan, hfresh⟩ := hall rfl
    have hgetD : (st.users userId).getD "" = current := by rw [hcur]; rfl
    rw [hgetD, ← hup] at hfresh
    rw [hgetD] at hcase
    have hdown' : trimSpace sub.downgradeGroup = "" := by rw [hdown, trimSpace_trimSpace, hplan]
    have hup' : trimSpace sub.upgradeGroup = sub.upgradeGroup := by rw [hup, trimSpace_trimSpace]
    have hcurOk := current_ok hg hinv hperm hpath
    rcases hcase with ⟨hprev, husers, -⟩ | ⟨hprev, hne, hnecur, husers⟩
    · have hok : RowOk userId g₀ sub :=
        ⟨huser, hdown', hup', by rw [hprev]; decide, fun hne => absurd hprev hne⟩
      exact inv_insert_keep hinv hrows (fun _ => ⟨hok, hprev⟩) (by rw [husers])
    · have hnew := hfresh.resolve_left fun he => hnecur he.symm
      have hok : RowOk userId g₀ sub :=
        ⟨huser, hdown', hup', by rw [hprev]; exact hcurOk.2, fun _ => ⟨hne, hnew.1⟩⟩
      exact inv_insert_upgrade hinv hperm hpath hnd hrows hok hsubuser hstatus hprev hcurOk.1
        hnew.1 hnew.2 (by rw [husers]; exact setUserGroup_self hcur)
  · -- another user's purchase
    have husers : st'.users u = st.users u := by
      rcases hcase with ⟨-, husers, -⟩ | ⟨-, -, -, husers⟩
      · rw [husers]
      · rw [husers]; exact setUserGroup_of_ne (Ne.symm hu)
    exact inv_insert_keep hinv hrows (fun hsu => absurd (hsubuser.symm.trans hsu) hu) husers

/-! ## Ends -/

/-- The groups a row carries. -/
def rowGroups (s : UserSubscription) : ℤ × String × String × String :=
  (s.userId, s.upgradeGroup, s.prevUserGroup, s.downgradeGroup)

variable {t : UserSubscription}

theorem rowOk_congr (h : rowGroups s = rowGroups t) (ht : RowOk u g₀ t) : RowOk u g₀ s := by
  simp only [rowGroups, Prod.mk.injEq] at h
  obtain ⟨-, hup, hprev, hdown⟩ := h
  exact ⟨ht.user_pos, hdown ▸ ht.downgrade, hup ▸ ht.upgrade_trim, hprev ▸ ht.prev_trim,
    by rw [hup, hprev]; exact ht.change⟩

variable {a : Action}

/-- **What an end has to do** to keep the invariant: take its rows out, leave the group alone while
an upgrade is left, and go back to `g₀` when it ends all the changes and leaves none. -/
theorem inv_end (hinv : Inv u g₀ st) (hall : (∃ s ∈ st.subs.rows, s.userId = u ∧ ends a s) →
      ∀ c ∈ changed u st, (ends a c ↔ ¬ upgradeLeft u st a))
    (hrows : ∀ s ∈ st'.subs.rows, ∃ t ∈ st.subs.rows, rowGroups s = rowGroups t)
    (hchanged : changed u st' = (changed u st).filter fun s => ¬ ends a s)
    (hkeep : (∀ s ∈ st.subs.rows, s.userId = u → ¬ ends a s) ∨ upgradeLeft u st a →
      st'.users u = st.users u) (hback : (∃ s ∈ st.subs.rows, s.userId = u ∧ ends a s) → ¬ upgradeLeft u st a →
      (∀ c ∈ changed u st, ends a c) → st'.users u = some g₀) : Inv u g₀ st' := by
  have hrows' : ∀ s ∈ st'.subs.rows, s.userId = u → RowOk u g₀ s := by
    intro s hs hsu
    obtain ⟨t, ht, he⟩ := hrows s hs
    have htu : t.userId = u := (congrArg Prod.fst he).symm.trans hsu
    exact rowOk_congr he (hinv.rows t ht htu)
  obtain ⟨current, es, hcur, hperm, hpath, hnd⟩ := hinv.path
  -- the group and the notes stay when no change is ended and an upgrade is left
  have hstay : (∀ c ∈ changed u st, ¬ ends a c) → st'.users u = st.users u → Inv u g₀ st' := by
    intro hnone husers
    refine ⟨hrows', current, es, husers.trans hcur, ?_, hpath, hnd⟩
    rw [hchanged, List.filter_eq_self.mpr fun c hc => by simpa using hnone c hc]
    exact hperm
  by_cases hmine : ∃ s ∈ st.subs.rows, s.userId = u ∧ ends a s
  · by_cases hleft : upgradeLeft u st a
    · exact hstay (fun c hc he => (hall hmine c hc).mp he hleft) (hkeep (.inr hleft))
    · have hallEnd : ∀ c ∈ changed u st, ends a c := fun c hc => (hall hmine c hc).mpr hleft
      refine ⟨hrows', g₀, [], hback hmine hleft hallEnd, ?_, rfl, by simp⟩
      rw [hchanged, List.filter_eq_nil_iff.mpr fun c hc => by simpa using hallEnd c hc]
      exact List.Perm.refl _
  · have hnone : ∀ s ∈ st.subs.rows, s.userId = u → ¬ ends a s := fun s hs hsu he =>
      hmine ⟨s, hs, hsu, he⟩
    exact hstay (fun c hc => hnone c (mem_changed.mp hc).1 (mem_changed.mp hc).2.1) (hkeep (.inl hnone))

/-- Rows that are ended in place drop out of the changes. -/
theorem changed_map {f : UserSubscription → UserSubscription}
    (hrows : st'.subs.rows = st.subs.rows.map fun s => if ends a s then f s else s)
    (hdead : ∀ s, (f s).status ≠ .active) : changed u st' = (changed u st).filter fun s => ¬ ends a s := by
  unfold changed
  rw [hrows, List.filter_map, List.filter_filter]
  have hcongr : ∀ s : UserSubscription, ((fun s : UserSubscription => decide
      (s.userId = u ∧ s.status = .active ∧ s.prevUserGroup ≠ "")) ∘
        fun s => if ends a s then f s else s) s =
      (decide (¬ ends a s) && decide (s.userId = u ∧ s.status = .active ∧ s.prevUserGroup ≠ "")) := by
    intro s
    by_cases he : ends a s
    · simp [he, hdead s]
    · simp [he]
  rw [List.filter_congr fun s _ => hcongr s]
  conv_rhs => rw [← List.map_id (List.filter _ _)]
  apply List.map_congr_left
  intro s hs
  have he : ¬ ends a s := by
    have hboth := (List.mem_filter.mp hs).2
    rw [Bool.and_eq_true, decide_eq_true_eq] at hboth
    exact hboth.1
  rw [if_neg he, id]

theorem mem_dueSubscriptions : s ∈ dueSubscriptions st userId now ↔ s ∈ st.subs.rows ∧ ends (.expire now userId) s := by
  simp [dueSubscriptions, List.mem_insertionSort, ends]

theorem expireUserTx_ends (now userId : ℤ) : (expireUserTx now st userId).1.subs.rows =
      st.subs.rows.map fun s => if ends (.expire now userId) s then markExpired s else s :=
  expireUserTx_rows

/-- The rows left active after an expiry are the ones that were active and are not due. -/
theorem expireUserTx_users (hdue : dueSubscriptions st userId now ≠ []) :
    (expireUserTx now st userId).1.users =
      if upgradeLeft userId st (.expire now userId) ∨
          resolveExpiredSubscriptionDowngradeTarget (dueSubscriptions st userId now) ((st.users userId).getD "") = "" ∨
          resolveExpiredSubscriptionDowngradeTarget (dueSubscriptions st userId now)
            ((st.users userId).getD "") = (st.users userId).getD "" then st.users
      else setUserGroup st.users userId (resolveExpiredSubscriptionDowngradeTarget
        (dueSubscriptions st userId now) ((st.users userId).getD "")) := by
  have hleft : ((expireUserTx now st userId).1.subs.rows.any fun s => decide (s.userId = userId ∧
      s.status = .active ∧ now < s.endTime ∧ s.upgradeGroup ≠ "")) = true ↔
      upgradeLeft userId st (.expire now userId) := by
    rw [expireUserTx_ends, List.any_map, List.any_eq_true]
    constructor
    · rintro ⟨s, hs, h⟩
      by_cases he : ends (.expire now userId) s
      · simp [he, markExpired] at h
      · simp only [Function.comp, he, if_false, decide_eq_true_eq] at h
        exact ⟨s, hs, h.1, h.2.1, h.2.2.1, h.2.2.2, he⟩
    · rintro ⟨s, hs, h₁, h₂, h₃, h₄, he⟩
      exact ⟨s, hs, by simpa [he, h₁, h₂, h₄] using (show now < s.endTime from h₃)⟩
  unfold expireUserTx at hleft ⊢
  simp only [if_neg hdue] at hleft ⊢
  simp only [hleft]

/-- When all the changes end at an expiry, they are what its due rows note. -/
theorem dueSubscriptions_groupChange (hinv : Inv u g₀ st) (hall : ∀ c ∈ changed u st, ends (.expire now u) c) :
    ((dueSubscriptions st u now).filterMap groupChange).Perm ((changed u st).map note) := by
  unfold dueSubscriptions
  refine ((List.perm_insertionSort _ _).filterMap _).trans ?_
  rw [← List.filterMap_eq_map, List.filterMap_filter]
  unfold changed
  rw [List.filterMap_filter]
  refine List.Perm.of_eq (List.filterMap_congr fun s hs => ?_)
  by_cases hend : s.userId = u ∧ expiryDue now s
  · by_cases hprev : s.prevUserGroup = ""
    · simp [hend, hprev, groupChange_of_keep hprev]
    · simp [hend, hprev, hend.2.1, groupChange_of_change (hinv.rows s hs hend.1) hprev]
  · have hnot : ¬ (s.userId = u ∧ s.status = .active ∧ s.prevUserGroup ≠ "") := fun h =>
      hend (hall s (mem_changed.mpr ⟨hs, h⟩))
    simp only [hend, hnot, decide_false, Bool.false_eq_true, if_false]

include hg in
/-- **The expiry that ends all the changes and leaves no upgrade goes back to `g₀`.** -/
theorem expire_back (hinv : Inv u g₀ st)
    (hdue : dueSubscriptions st u now ≠ []) (hleft : ¬ upgradeLeft u st (.expire now u))
    (hall : ∀ c ∈ changed u st, ends (.expire now u) c) : (expireUserTx now st u).1.users u = some g₀ := by
  obtain ⟨current, es, hcur, hperm, hpath, hnd⟩ := hinv.path
  have hnotes := (dueSubscriptions_groupChange hinv hall).trans hperm
  have hdown : ∀ s ∈ dueSubscriptions st u now, trimSpace s.downgradeGroup = "" := fun s hs =>
    let hmem := mem_dueSubscriptions.mp hs
    (hinv.rows s hmem.1 hmem.2.1).downgrade
  have hgetD : (st.users u).getD "" = current := by rw [hcur]; rfl
  rw [expireUserTx_users hdue, hgetD]
  by_cases hes : es = []
  · -- no change at all: the user never left `g₀`
    subst hes
    rw [resolve_nil hdown hnotes.eq_nil, if_pos (.inr (.inl rfl)), hcur]
    exact congrArg some (show g₀ = current from hpath).symm
  · rw [resolve_path hdown hnotes hpath hnd hes]
    by_cases he : g₀ = current
    · rw [if_pos (.inr (.inr he)), hcur, he]
    · rw [if_neg (by simp [hleft, hg.1, he])]
      exact setUserGroup_self hcur

include hg in
theorem inv_expire (hinv : Inv u g₀ st)
    (hall : Allowed u g₀ st (.expire now userId)) : Inv u g₀ (expireUserTx now st userId).1 := by
  by_cases hdue : dueSubscriptions st userId now = []
  · unfold expireUserTx
    simp only [if_pos hdue]
    exact hinv
  apply inv_end hinv hall
  · intro s hs
    rw [expireUserTx_ends] at hs
    obtain ⟨t, ht, rfl⟩ := List.mem_map.mp hs
    refine ⟨t, ht, ?_⟩
    split <;> rfl
  · exact changed_map (expireUserTx_ends now userId) (by simp [markExpired])
  · intro hkeep
    by_cases hu : u = userId
    · subst hu
      rcases hkeep with hnone | hleft
      · obtain ⟨s, hs⟩ := List.exists_mem_of_ne_nil _ hdue
        obtain ⟨hmem, he⟩ := mem_dueSubscriptions.mp hs
        exact absurd he (hnone s hmem he.1)
      · rw [expireUserTx_users hdue, if_pos (.inl hleft)]
    · rw [expireUserTx_users hdue]
      split
      · rfl
      · exact setUserGroup_of_ne hu
  · rintro ⟨s, hs, hsu, he⟩ hleft hends
    have hu : userId = u := he.1.symm.trans hsu
    subst hu
    exact expire_back hg hinv hdue hleft hends

/-! ### Invalidation and deletion

Both run the downgrade on one row.  What they have in common: the row is the only one that ends,
and the downgrade sees as active what is left. -/

/-- **The downgrade on the one row that ends.** -/
theorem downgrade_users {st₁ : Store} {users : ℤ → Option String} (hg : g₀ ≠ "") (hinv : Inv u g₀ st)
    (ht : t ∈ st.subs.rows) (htu : t.userId = u) (hgroups : rowGroups sub = rowGroups t)
    (hends : ∀ s ∈ st.subs.rows, ends a s ↔ s = t) (husers : st₁.users = st.users)
    (hother : otherActiveUpgrade st₁ u now sub.id = true ↔ upgradeLeft u st a)
    (h : downgradeUserGroupForSubscriptionTx st₁ sub now = .ok users) :
    (upgradeLeft u st a → users u = st.users u) ∧
      (¬ upgradeLeft u st a → (∀ c ∈ changed u st, ends a c) → users u = some g₀) := by
  have hok : RowOk u g₀ sub := rowOk_congr hgroups (hinv.rows t ht htu)
  have hsu : sub.userId = u := (congrArg Prod.fst hgroups).trans htu
  have hnote : note sub = note t := by
    simp only [rowGroups, Prod.mk.injEq] at hgroups
    rw [note, note, hgroups.2.1, hgroups.2.2.1]
  rw [downgradeUserGroupForSubscriptionTx_eq hok.downgrade (hsu ▸ hok.user_pos), hsu, husers,
    hok.upgrade_trim, hok.prev_trim] at h
  obtain ⟨current, es, hcur, hperm, hpath, hnd⟩ := hinv.path
  have hgetD : (st.users u).getD "" = current := by rw [hcur]; rfl
  rw [hgetD] at h
  simp only [Except.ok.injEq] at h
  subst h
  refine ⟨fun hleft => ?_, fun hleft hall => ?_⟩
  · rw [if_neg]
    rintro ⟨hno, -⟩
    rw [hother.mpr hleft] at hno
    cases hno
  · have hno : otherActiveUpgrade st₁ u now sub.id = false := by
      rw [← Bool.not_eq_true, hother]
      exact hleft
    -- the changes are this row or none
    have hsingle : ∀ c ∈ changed u st, c = t := fun c hc =>
      (hends c (mem_changed.mp hc).1).mp (hall c hc)
    by_cases hmem : t ∈ changed u st
    · have hchanged : changed u st = [t] := by
        have hnodup : (changed u st).Nodup := st.subs.keys_nodup.of_map.filter _
        rw [← List.perm_singleton, List.perm_ext_iff_of_nodup hnodup (List.nodup_singleton _)]
        intro c
        rw [List.mem_singleton]
        exact ⟨hsingle c, fun he => he ▸ hmem⟩
      rw [hchanged, List.map_singleton, List.singleton_perm] at hperm
      subst hperm
      obtain ⟨hprev, hup⟩ : t.prevUserGroup = g₀ ∧ t.upgradeGroup = current := hpath
      simp only [note, Prod.mk.injEq] at hnote
      have hne : g₀ ≠ current := by
        rw [← hup]
        exact fun he => (List.nodup_cons.mp hnd).1 (by simp [note, he])
      have hupNe : t.upgradeGroup ≠ "" := ((hinv.rows t ht htu).change (hprev ▸ hg)).1
      rw [hnote.1, hnote.2, hprev, hup, if_pos ⟨hno, hup ▸ hupNe, rfl, hg, hne⟩]
      exact setUserGroup_self hcur
    · -- no change ends, so there is none and the user is in `g₀`
      have hnil : changed u st = [] := by
        rw [List.eq_nil_iff_forall_not_mem]
        exact fun c hc => hmem (hsingle c hc ▸ hc)
      rw [hnil, List.map_nil, List.nil_perm] at hperm
      subst hperm
      have hcurrent : g₀ = current := hpath
      rw [if_neg, hcur, hcurrent]
      rintro ⟨-, -, hup, hprev, -⟩
      exact (hok.change hprev).2 (hup.symm.trans hcurrent.symm)

/-- The end of one row keeps the invariant, if the downgrade sees as active what is left. -/
theorem inv_end_one {st₁ : Store} (hg : g₀ ≠ "") (hinv : Inv u g₀ st)
    (hall : (∃ s ∈ st.subs.rows, s.userId = u ∧ ends a s) → ∀ c ∈ changed u st, (ends a c ↔ ¬ upgradeLeft u st a))
    (ht : t ∈ st.subs.rows) (hgroups : rowGroups sub = rowGroups t)
    (hends : ∀ s ∈ st.subs.rows, ends a s ↔ s = t) (husers : st₁.users = st.users)
    (hother : otherActiveUpgrade st₁ u now sub.id = true ↔ upgradeLeft u st a)
    (hrows : ∀ s ∈ st'.subs.rows, ∃ t ∈ st.subs.rows, rowGroups s = rowGroups t)
    (hchanged : changed u st' = (changed u st).filter fun s => ¬ ends a s)
    (h : downgradeUserGroupForSubscriptionTx st₁ sub now = .ok st'.users) : Inv u g₀ st' := by
  have hmine : ∀ s ∈ st.subs.rows, s.userId = u → ends a s → t.userId = u := fun s hs hsu he =>
    (hends s hs).mp he ▸ hsu
  apply inv_end hinv hall hrows hchanged
  · intro hkeep
    by_cases htu : t.userId = u
    · rcases hkeep with hnone | hleft
      · exact absurd ((hends t ht).mpr rfl) (hnone t ht htu)
      · exact (downgrade_users hg hinv ht htu hgroups hends husers hother h).1 hleft
    · have hne : u ≠ sub.userId := by
        rw [show sub.userId = t.userId from congrArg Prod.fst hgroups]
        exact fun he => htu he.symm
      rw [downgradeUserGroupForSubscriptionTx_other hne h, husers]
  · rintro ⟨s, hs, hsu, he⟩ hleft hends'
    have htu := hmine s hs hsu he
    exact (downgrade_users hg hinv ht htu hgroups hends husers hother h).2 hleft hends'

theorem inv_invalidate (hg : g₀ ≠ "") (hinv : Inv u g₀ st) (hall : Allowed u g₀ st (.invalidate now id))
    (h : adminInvalidateUserSubscription now st id = .ok st') : Inv u g₀ st' := by
  unfold adminInvalidateUserSubscription at h
  split at h
  · cases h
  split at h
  · cases h
  rename_i t hfind
  simp only at h
  split at h
  · cases h
  rename_i users hdown
  cases h
  have ht := Table.find_mem hfind
  have hid : t.id = id := Table.find_key hfind
  have hends : ∀ s ∈ st.subs.rows, ends (.invalidate now id) s ↔ s = t := fun s hs =>
    ⟨fun he => Table.eq_of_key_eq hs ht (he.trans hid.symm), fun he => he ▸ hid⟩
  set cancelled : UserSubscription := { t with status := .cancelled, endTime := now } with hcan
  have hrows : (st.subs.save cancelled).rows =
      st.subs.rows.map fun s => if ends (.invalidate now id) s then cancelled else s := by
    apply List.map_congr_left
    intro s _
    simp only [hcan, hid, ends]
  -- the rows with other ids are the ones there were
  have hother : otherActiveUpgrade ⟨st.subs.save cancelled, st.users⟩ u now cancelled.id = true ↔
      upgradeLeft u st (.invalidate now id) := by
    unfold otherActiveUpgrade upgradeLeft
    rw [hrows, List.any_map, List.any_eq_true]
    refine exists_congr fun s => and_congr_right fun _ => ?_
    by_cases he : s.id = id
    · simp [ends, he, hcan]
    · simp [ends, he, hcan, hid, Action.time]
  have hgroups : rowGroups cancelled = rowGroups t := rfl
  have husers : (⟨st.subs.save cancelled, st.users⟩ : Store).users = st.users := rfl
  refine inv_end_one hg hinv hall ht hgroups hends husers hother ?_ ?_ hdown
  · intro s hs
    rcases Table.mem_save hs with rfl | ⟨hs, -⟩
    · exact ⟨t, ht, rfl⟩
    · exact ⟨s, hs, rfl⟩
  · exact changed_map (f := fun _ => cancelled) hrows (fun _ => by simp [hcan])

theorem inv_delete (hg : g₀ ≠ "") (hinv : Inv u g₀ st) (hall : Allowed u g₀ st (.delete now id))
    (h : adminDeleteUserSubscription now st id = .ok st') : Inv u g₀ st' := by
  unfold adminDeleteUserSubscription at h
  split at h
  · cases h
  split at h
  · cases h
  rename_i t hfind
  split at h
  · cases h
  rename_i users hdown
  cases h
  have ht := Table.find_mem hfind
  have hid : t.id = id := Table.find_key hfind
  have hends : ∀ s ∈ st.subs.rows, ends (.delete now id) s ↔ s = t := fun s hs =>
    ⟨fun he => Table.eq_of_key_eq hs ht (he.trans hid.symm), fun he => he ▸ hid⟩
  have hother : otherActiveUpgrade st u now t.id = true ↔ upgradeLeft u st (.delete now id) := by
    unfold otherActiveUpgrade upgradeLeft
    rw [List.any_eq_true]
    refine exists_congr fun s => and_congr_right fun _ => ?_
    simp only [decide_eq_true_eq, hid, ends, Action.time]
    exact and_congr_right fun _ => and_congr_right fun _ => and_congr_right fun _ => and_comm
  refine inv_end_one hg hinv hall ht rfl hends rfl hother ?_ ?_ hdown
  · intro s hs
    exact ⟨s, (Table.mem_delete.mp hs).1, rfl⟩
  · unfold changed Table.delete
    rw [List.filter_filter, List.filter_filter]
    apply List.filter_congr
    intro s _
    rw [Bool.and_comm]
    rfl

/-! ## Every run -/

include hg in
/-- **Step lemma.**  Every allowed transaction keeps the invariant. -/
theorem inv_step (st : Store) (a : Action) (hall : Allowed u g₀ st a) (hinv : Inv u g₀ st) : Inv u g₀ (step st a) := by
  cases a with
  | purchase loc now id userId plan source =>
    simp only [step]
    split
    · rename_i st' sub h
      exact inv_purchase hg hinv hall h
    · exact hinv
  | expire now userId => exact inv_expire hg hinv hall
  | invalidate now id =>
    simp only [step]
    cases h : adminInvalidateUserSubscription now st id with
    | error e => exact hinv
    | ok st' => exact inv_invalidate hg.1 hinv hall h
  | delete now id =>
    simp only [step]
    cases h : adminDeleteUserSubscription now st id with
    | error e => exact hinv
    | ok st' => exact inv_delete hg.1 hinv hall h

/-- **Group restoration.**  For every user, every group `g₀` they start in that the code reads back
as it is, and every sequence of purchases, expiries, invalidations and deletions in which the
subscriptions that changed the group go through distinct groups and all end in the step that
leaves no upgrade: once no active upgrade subscription is left, the user is in `g₀` again. -/
theorem group_restored (u : ℤ) (g₀ : String) (hg : g₀ ≠ "" ∧ trimSpace g₀ = g₀) (st : Store)
    (hstart : st.users u = some g₀) (hnone : ∀ s ∈ st.subs.rows, s.userId ≠ u)
    (acts : List Action) (hall : Respects step (Allowed u g₀) st acts)
    (hleft : ∀ s ∈ (run step st acts).subs.rows, s.userId = u → s.status = .active →
      s.upgradeGroup = "") : (run step st acts).users u = some g₀ := by
  have hinit : Inv u g₀ st := by
    have hnil : changed u st = [] := by
      rw [List.eq_nil_iff_forall_not_mem]
      exact fun c hc => hnone c (mem_changed.mp hc).1 (mem_changed.mp hc).2.1
    exact ⟨fun s hs hsu => absurd hsu (hnone s hs), g₀, [], hstart, by rw [hnil]; exact .refl _,
      rfl, by simp⟩
  have hinv : Inv u g₀ (run step st acts) := run_preserves_of_respects (inv_step hg) hall hinit
  obtain ⟨current, es, hcur, hperm, hpath, -⟩ := hinv.path
  have hnil : changed u (run step st acts) = [] := by
    rw [List.eq_nil_iff_forall_not_mem]
    intro c hc
    obtain ⟨hc, hcu, hst, hprev⟩ := mem_changed.mp hc
    exact ((hinv.rows c hc hcu).change hprev).1 (hleft c hc hcu hst)
  rw [hnil, List.map_nil, List.nil_perm] at hperm
  subst hperm
  rw [hcur, show g₀ = current from hpath]

/-! ### Two upgrades -/

/-- A plan of one or more hours that upgrades to a group. -/
def upgradePlan (id hours : ℤ) (group : String) : SubscriptionPlan :=
  { id, durationUnit := .hour, durationValue := hours, upgradeGroup := group }

/-- One user in the group `default`. -/
def oneUser : Store := ⟨.empty, fun id => if id = 1 then some "default" else none⟩

/-- Buy an upgrade to `vip` for `hours`, then one to `svip` for two hours. -/
def buyBoth (hours : ℤ) : List Action :=
  [.purchase (Location.fixed 0) 0 1 1 (upgradePlan 1 hours "vip") "order",
    .purchase (Location.fixed 0) 0 2 1 (upgradePlan 2 2 "svip") "order"]

/-- Buy an upgrade to `vip` for an hour, and the same again half an hour later. -/
def buyTwice : List Action :=
  [.purchase (Location.fixed 0) 0 1 1 (upgradePlan 1 1 "vip") "order",
    .purchase (Location.fixed 0) 1800 2 1 (upgradePlan 1 1 "vip") "order"]

/-- The first subscription expires an hour before the second: the user is left in `vip`.  So they are
when the second is a renewal of the first, which notes no group. -/
theorem group_left_between :
    ((∀ s ∈ (run step oneUser (buyBoth 1 ++ [.expire 3600 1, .expire 7200 1])).subs.rows,
        s.status = .expired) ∧
      (run step oneUser (buyBoth 1 ++ [.expire 3600 1, .expire 7200 1])).users 1 = some "vip") ∧
    (∀ s ∈ (run step oneUser (buyTwice ++ [.expire 3600 1, .expire 5400 1])).subs.rows,
        s.status = .expired) ∧
      (run step oneUser (buyTwice ++ [.expire 3600 1, .expire 5400 1])).users 1 = some "vip" := by
  decide

/-- When both expire together the notes chain back to `default`. -/
theorem group_restored_together :
    oneUser.users 1 = some "default" ∧ (run step oneUser (buyBoth 2 ++ [.expire 7200 1])).users 1 = some "default" :=
  ⟨by decide, group_restored 1 "default" (by decide) oneUser (by decide) (by decide)
    (buyBoth 2 ++ [.expire 7200 1]) (by decide) (by decide)⟩

end OneApi.Subscription.GroupRestore

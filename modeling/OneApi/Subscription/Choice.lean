import OneApi.Subscription.PreConsume

/-!
# Which subscription is charged

`PreConsumeUserSubscription` tries the candidates in the order of their end times and charges the first one that
has room after its lazy reset.  The candidates are the packages of the scope, if it has any, and otherwise the
subscriptions that are no packages.  `scan_eq` says it of the loop: it comes to the first candidate with room,
provided that the plan of every candidate before it is found and its catch-up loop ends within the rounds granted.
-/

namespace OneApi.Subscription.Choice

open OneApi.Lib OneApi.Lib.Go OneApi.Subscription.Model OneApi.Subscription.PreConsume

/-- A candidate after its lazy reset; `none` if its plan is not found or the rounds do not suffice. -/
def resetRow (env : Env) (c : UserSubscription) : Option UserSubscription :=
  (env.plans c.planId).bind fun plan => maybeResetUserSubscriptionWithPlanTx env.fuel env.loc c plan env.now

variable {env : Env} {db : DB} {userId amount : ℤ} {modelName usingGroup requestId : String}

variable (fits : UserSubscription → Bool)

theorem hasRoom_eq (c : UserSubscription) : hasRoom env fits c = (resetRow env c).any fits := by
  rw [hasRoom, resetRow]
  cases env.plans c.planId with
  | none => rfl
  | some plan =>
    simp only [Option.bind_some]
    cases maybeResetUserSubscriptionWithPlanTx env.fuel env.loc c plan env.now <;> rfl

theorem hasRoom_iff {c : UserSubscription} :
    hasRoom env fits c = true ↔ ∃ sub, resetRow env c = some sub ∧ fits sub = true := by
  rw [hasRoom_eq, Option.any_eq_true]

/-- **The loop comes to the first candidate with room.** -/
theorem scan_eq {cands : List UserSubscription}
    (hreset : ∀ c ∈ cands.takeWhile fun c => !hasRoom env fits c, (resetRow env c).isSome = true)
    (t : Table UserSubscription UserSubscription.id) :
    ∃ t', scan env fits t cands = some (.ok (t', (cands.find? (hasRoom env fits)).bind (resetRow env))) := by
  induction cands generalizing t with
  | nil => exact ⟨t, rfl⟩
  | cons c cands ih =>
    by_cases hroom : hasRoom env fits c = true
    · obtain ⟨sub, hsub, hfits⟩ := (hasRoom_iff fits).mp hroom
      obtain ⟨plan, hplan, hmaybe⟩ := Option.bind_eq_some_iff.mp hsub
      refine ⟨t.save sub, ?_⟩
      simp [scan, hplan, hmaybe, hfits, hroom, hsub]
    · rw [List.takeWhile_cons_of_pos (by simp [hroom])] at hreset
      obtain ⟨sub, hsub⟩ := Option.isSome_iff_exists.mp (hreset c List.mem_cons_self)
      obtain ⟨plan, hplan, hmaybe⟩ := Option.bind_eq_some_iff.mp hsub
      have hfits : fits sub ≠ true := by rwa [hasRoom_eq, hsub, Option.any_some] at hroom
      obtain ⟨t', ht'⟩ := ih (fun c hc => hreset c (List.mem_cons_of_mem _ hc)) (t.save sub)
      exact ⟨t', by simp [scan, hplan, hmaybe, hfits, hroom, ht']⟩

/-- The candidates of a request, and when one of them has room. -/
def candidatesOf (env : Env) (db : DB) (userId : ℤ) (modelName usingGroup : String) : List UserSubscription :=
  candidates db (activeSubscriptions db userId env.now) modelName usingGroup

def hasRoomFor (env : Env) (db : DB) (userId : ℤ) (modelName usingGroup : String) (amount : ℤ) :
    UserSubscription → Bool :=
  hasRoom env (candidateFits db (activeSubscriptions db userId env.now) modelName usingGroup amount)

theorem candidatesOf_sorted : (candidatesOf env db userId modelName usingGroup).Pairwise endsBefore := by
  have htotal : ∀ a b, endsBefore a b ∨ endsBefore b a := by
    intro a b
    simp only [endsBefore]
    omega
  have htrans : ∀ a b c, endsBefore a b → endsBefore b c → endsBefore a c := by
    intro a b c
    simp only [endsBefore]
    omega
  have hsorted : (activeSubscriptions db userId env.now).Pairwise endsBefore :=
    haveI : Std.Total endsBefore := ⟨htotal⟩
    haveI : IsTrans UserSubscription endsBefore := ⟨htrans⟩
    List.pairwise_insertionSort endsBefore _
  rw [candidatesOf, candidates]
  split
  · exact hsorted.filter _
  · exact hsorted.filter _

theorem checkRequest_new (huser : 0 < userId) (hrequest : trimSpace requestId ≠ "") (hamount : 0 < amount)
    (hnew : db.records.find requestId = none) : checkRequest true db requestId userId amount = none := by
  rw [checkRequest, if_neg (by omega), if_neg hrequest, if_neg (by omega), if_neg (by decide), hnew]
  rfl

/-- The packages of the scope among the active subscriptions of the user. -/
theorem mem_packages_iff {c : UserSubscription} :
    c ∈ agentPlanPackageSubscriptionsForScopeTx db (activeSubscriptions db userId env.now) usingGroup modelName ↔
      (c ∈ db.subs.rows ∧ c.userId = userId ∧ c.status = .active ∧ env.now < c.endTime) ∧
        ∃ a ∈ db.allocations, a.userSubscriptionId = c.id ∧ a.scopeGroup = trimSpace usingGroup ∧
          modelName ∈ a.scopeModels.getD [] := by
  simp [agentPlanPackageSubscriptionsForScopeTx, mem_activeSubscriptions]

theorem isPackageSubscription_eq_false_iff {c : UserSubscription} :
    isPackageSubscription db c = false ↔ ∀ a ∈ db.allocations, a.userSubscriptionId ≠ c.id := by
  simp [isPackageSubscription]

variable (hreset : ∀ c ∈ (candidatesOf env db userId modelName usingGroup).takeWhile
  fun c => !hasRoomFor env db userId modelName usingGroup amount c, (resetRow env c).isSome = true)

include hreset in
/-- With nothing to choose from, or no candidate with room, there is no selection. -/
theorem selectSubscription_none (hnone : (candidatesOf env db userId modelName usingGroup).find?
      (hasRoomFor env db userId modelName usingGroup amount) = none) :
    ∃ e, selectSubscription env db userId modelName usingGroup amount = some (.error e) := by
  obtain ⟨t, hscan⟩ := scan_eq (candidateFits db (activeSubscriptions db userId env.now) modelName
    usingGroup amount) hreset db.subs
  rw [candidatesOf, hasRoomFor] at hnone
  rw [candidatesOf, hnone, Option.bind_none] at hscan
  simp only [selectSubscription, selectFrom, hscan]
  split
  · exact ⟨_, rfl⟩
  · split
    · exact ⟨_, rfl⟩
    · exact ⟨_, rfl⟩

include hreset in
theorem selectSubscription_some {c : UserSubscription} (hsome : (candidatesOf env db userId modelName usingGroup).find?
      (hasRoomFor env db userId modelName usingGroup amount) = some c) :
    ∃ t sub, resetRow env c = some sub ∧
      selectSubscription env db userId modelName usingGroup amount = some (.ok (t, sub)) := by
  obtain ⟨t, hscan⟩ := scan_eq (candidateFits db (activeSubscriptions db userId env.now) modelName
    usingGroup amount) hreset db.subs
  have hmem := List.mem_of_find?_eq_some hsome
  obtain ⟨sub, hsub, -⟩ := (hasRoom_iff _).mp (List.find?_some hsome)
  have hactive : activeSubscriptions db userId env.now ≠ [] := List.ne_nil_of_mem (mem_candidates hmem)
  rw [candidatesOf, hasRoomFor] at hsome
  rw [candidatesOf, hsome, Option.bind_some, hsub] at hscan
  exact ⟨t, sub, hsub, by simp only [selectSubscription, selectFrom, hscan, if_neg hactive]⟩

/-- A selection changes the quota used by lazy resets only. -/
theorem selectSubscription_used {t : Table UserSubscription UserSubscription.id} {sub : UserSubscription}
    (h : selectSubscription env db userId modelName usingGroup amount = some (.ok (t, sub))) (id : ℤ) :
    usedOf t id = usedOf db.subs id ∨ usedOf t id = 0 := by
  obtain ⟨fits, cands, hmem, -, hscan⟩ := selectSubscription_ok h
  exact (scan_used (Q := fun id used => used = usedOf db.subs id ∨ used = 0)
    (fun c hc plan sub hsub => maybeReset_used hc hsub) rfl
    (fun c hc => (mem_activeSubscriptions.mp (hmem c hc)).1) (fun _ => .inl rfl) hscan).2 id

/-- **The charged subscription is the first candidate with room.**  For a request that is valid and new: the
candidates are active subscriptions of the user, in the order of their end times; if an allocation puts one of them
into the scope, those of the scope, and otherwise those without an allocation.  The first one with room after its
lazy reset is charged, and no other subscription, whose quota used may only be reset; and the request fails if no
candidate has room.  A package has room only under a limit, any other subscription also without one. -/
theorem preConsume_charges_first (huser : 0 < userId) (hrequest : trimSpace requestId ≠ "")
    (hamount : 0 < amount) (hnew : db.records.find requestId = none)
    (hreset : ∀ c ∈ (candidatesOf env db userId modelName usingGroup).takeWhile
      fun c => !hasRoomFor env db userId modelName usingGroup amount c, (resetRow env c).isSome = true) :
    let active (c : UserSubscription) := c ∈ db.subs.rows ∧ c.userId = userId ∧ c.status = .active ∧
      env.now < c.endTime
    let inScope (c : UserSubscription) := ∃ a ∈ db.allocations, a.userSubscriptionId = c.id ∧
      a.scopeGroup = trimSpace usingGroup ∧ modelName ∈ a.scopeModels.getD []
    let packages := ∃ c, active c ∧ inScope c
    (candidatesOf env db userId modelName usingGroup).Pairwise endsBefore ∧
      (∀ c, c ∈ candidatesOf env db userId modelName usingGroup ↔ active c ∧ (packages → inScope c) ∧
        (¬ packages → ∀ a ∈ db.allocations, a.userSubscriptionId ≠ c.id)) ∧
      (∀ c, hasRoomFor env db userId modelName usingGroup amount c = true ↔ ∃ sub, resetRow env c = some sub ∧
        (0 < sub.amountTotal → amount ≤ sub.amountTotal - sub.amountUsed) ∧ (packages → 0 < sub.amountTotal)) ∧
      match (candidatesOf env db userId modelName usingGroup).find?
        (hasRoomFor env db userId modelName usingGroup amount) with
      | some c => ∃ db' res sub, resetRow env c = some sub ∧
          preConsumeUserSubscription env true db requestId userId modelName usingGroup amount = some (.ok (db', res)) ∧
          res.userSubscriptionId = c.id ∧ usedOf db'.subs c.id = sub.amountUsed + amount ∧
          ∀ id ≠ c.id, usedOf db'.subs id = usedOf db.subs id ∨ usedOf db'.subs id = 0
      | none => ∃ e, preConsumeUserSubscription env true db requestId userId modelName usingGroup amount =
          some (.error e) := by
  intro active inScope packages
  have hpackages : packages ↔ agentPlanPackageSubscriptionsForScopeTx db (activeSubscriptions db userId env.now)
      usingGroup modelName ≠ [] :=
    ⟨fun ⟨_, h⟩ => List.ne_nil_of_mem (mem_packages_iff.mpr h),
      fun h => (List.exists_mem_of_ne_nil _ h).imp fun _ => mem_packages_iff.mp⟩
  refine ⟨candidatesOf_sorted, fun c => ?_, fun c => ?_, ?_⟩
  · rw [candidatesOf, candidates]
    by_cases hsome : packages
    · rw [if_neg (hpackages.mp hsome), mem_packages_iff]
      exact and_congr_right fun _ => ⟨fun h => ⟨fun _ => h, fun hnone => absurd hsome hnone⟩, fun h => h.1 hsome⟩
    · rw [if_pos (not_not.mp (mt hpackages.mpr hsome)), List.mem_filter, mem_activeSubscriptions, Bool.not_eq_true',
        isPackageSubscription_eq_false_iff]
      exact and_congr_right fun _ => ⟨fun h => ⟨fun h => absurd h hsome, fun _ => h⟩, fun h => h.2 hsome⟩
  · rw [hasRoomFor, hasRoom_iff]
    refine exists_congr fun sub => and_congr_right fun _ => ?_
    by_cases hsome : packages
    · simp only [candidateFits, if_neg (hpackages.mp hsome), packageFits, decide_eq_true_eq]
      exact ⟨fun h => ⟨fun _ => h.2, fun _ => h.1⟩, fun h => ⟨h.2 hsome, h.1 (h.2 hsome)⟩⟩
    · simp only [candidateFits, if_pos (not_not.mp (mt hpackages.mpr hsome)), subscriptionFits, decide_eq_true_eq]
      exact ⟨fun h => ⟨fun hlimit => by omega, fun h => absurd h hsome⟩, fun h => by omega⟩
  have hcheck := checkRequest_new huser hrequest hamount hnew
  split
  · next c hsome =>
    obtain ⟨t, sub, hsub, hselect⟩ := selectSubscription_some hreset hsome
    obtain ⟨plan, -, hmaybe⟩ := Option.bind_eq_some_iff.mp hsub
    have hid : sub.id = c.id := maybeReset_id hmaybe
    have hfind := selectSubscription_find hselect
    have hcharge := usedOf_charge hfind amount
    cases hinsert : db.records.insert ⟨requestId, userId, sub.id, amount, .consumed⟩ with
    | none => exact absurd hnew (Table.insert_eq_none_iff.mp hinsert)
    | some records =>
      have hresult : preConsumeUserSubscription env true db requestId userId modelName usingGroup amount =
          some (.ok ({ db with subs := t.save { sub with amountUsed := sub.amountUsed + amount }, records },
            ⟨sub.id, amount, sub.amountTotal, sub.amountUsed, sub.amountUsed + amount⟩)) := by
        simp only [preConsumeUserSubscription, hcheck, hselect, preConsumeSubscriptionTx, hinsert]
      refine ⟨_, _, sub, hsub, hresult, hid, ?_, fun id hne => ?_⟩
      · rw [← hid, hcharge, if_pos rfl, usedOf, hfind]
        rfl
      · rw [hcharge, if_neg (by rw [hid]; exact hne.symm), add_zero]
        exact selectSubscription_used hselect id
  · next hnone =>
    obtain ⟨e, he⟩ := selectSubscription_none hreset hnone
    exact ⟨e, by simp only [preConsumeUserSubscription, hcheck, he]⟩

/-- A user with one subscription, of which 4 of 10 are used. -/
def choiceDB : DB where
  subs := Table.single { id := 1, userId := 1, planId := 1, amountTotal := 10, amountUsed := 4, endTime := 100 }
  records := Table.single ⟨"old", 1, 1, 5, .consumed⟩
  allocations := []

def choiceEnv : Env where
  now := 0
  loc := .fixed 0
  plans id := some { id }
  fuel := 1

theorem choice_sample : ∃ db' res, preConsumeUserSubscription choiceEnv true choiceDB "new" 1 "m" "g" 5 =
    some (.ok (db', res)) ∧ res.userSubscriptionId = 1 ∧ usedOf db'.subs 1 = 9 := by
  have hfirst := (@preConsume_charges_first choiceEnv choiceDB 1 5 "m" "g" "new" (by decide) (by decide +kernel)
    (by decide) (by decide +kernel) (by decide +kernel)).2.2.2
  have hfind : (candidatesOf choiceEnv choiceDB 1 "m" "g").find? (hasRoomFor choiceEnv choiceDB 1 "m" "g" 5) =
      choiceDB.subs.find 1 := by
    decide +kernel
  rw [hfind] at hfirst
  obtain ⟨db', res, sub, hsub, hres, hid, hused, -⟩ := hfirst
  cases hsub
  exact ⟨db', res, hres, hid, hused⟩

/-- A request with a record succeeds although no candidate has room for it. -/
theorem recorded_request_answered :
    (candidatesOf choiceEnv choiceDB 1 "m" "g").find? (hasRoomFor choiceEnv choiceDB 1 "m" "g" 7) = none ∧
      ((preConsumeUserSubscription choiceEnv true choiceDB "old" 1 "m" "g" 7).map fun r =>
        r.toOption.map fun r => r.2.preConsumed) = some (some 5) := by
  decide +kernel

end OneApi.Subscription.Choice

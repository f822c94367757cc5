import OneApi.Lib.Guard
import OneApi.Payment.TopUp

/-!
# A top-up order is credited at most once

Every call does one of three things: nothing, close a pending order, or complete a pending order and
credit it.  What holds over any run of calls is read off this.
-/

namespace OneApi.Payment

open OneApi.Lib OneApi.Lib.Guard OneApi.Lib.Run OneApi.Billing.Quota

variable {quotaPerUnit : ℚ} {x x' : Store} {a : Request × Call}

/-! ## What a call does -/

/-- The row that a completion writes is that of a pending order, for its user and its provider. -/
structure Completes (completer : Completer) (topUp : TopUp) (c : Completion) : Prop where
  pending : topUp.status = .pending
  success : c.topUp.status = .success
  tradeNo : c.topUp.tradeNo = topUp.tradeNo
  userId : c.topUp.userId = topUp.userId
  paymentProvider : c.topUp.paymentProvider = topUp.paymentProvider
  completer : ∀ provider, completer = .callback provider → topUp.paymentProvider = provider

inductive Effect (x : Store) : Store → Prop
  | same : Effect x x
  | closes (topUp : TopUp) (target : Closing) (hfind : x.topUps.find topUp.tradeNo = some topUp)
      (hpending : topUp.status = .pending) :
      Effect x { x with topUps := x.topUps.save { topUp with status := target.status } }
  | completes (topUp : TopUp) (completer : Completer) (c : Completion)
      (hfind : x.topUps.find topUp.tradeNo = some topUp) (hc : Completes completer topUp c) :
      Effect x (x.commit completer c)

/-- All that `settle` writes is a completion. -/
def Settles (completer : Completer) (settle : TopUp → Except String (Option Completion)) : Prop :=
  ∀ topUp c, settle topUp = .ok (some c) → Completes completer topUp c

theorem transaction_effect {completer : Completer} {tradeNo notFound : String} {fault : Option String}
    {settle : TopUp → Except String (Option Completion)} (hsettle : Settles completer settle)
    (h : transaction x completer tradeNo notFound fault settle = .ok x') : Effect x x' := by
  rw [transaction] at h
  split at h
  next => cases h
  next topUp hfind =>
    have hkey : topUp.tradeNo = tradeNo := Table.find_key hfind
    split at h
    next => cases h
    next =>
      cases h
      exact .same
    next c hc =>
      split at h
      next => cases h
      next =>
        cases h
        exact .completes topUp completer c (hkey.symm ▸ hfind) (hsettle topUp c hc)

theorem rechargeFailed_ok {r : Except String Store} (h : rechargeFailed r = .ok x') : r = .ok x' := by
  cases r with
  | error e => cases h
  | ok x => exact h

theorem settleStripe_settles (customerId : String) (now : ℤ) :
    Settles (.callback .stripe) (settleStripe quotaPerUnit customerId now) := by
  intro topUp c h
  simp only [settleStripe, ite_error_eq_ok] at h
  obtain ⟨hprovider, hpending, h⟩ := h
  cases h
  exact ⟨not_not.mp hpending, rfl, rfl, rfl, rfl, fun _ h => by cases h; exact not_not.mp hprovider⟩

theorem settleManual_settles (now : ℤ) : Settles .manual (settleManual quotaPerUnit now) := by
  intro topUp c h
  simp only [settleManual, ite_error_eq_ok, ite_ok_none_eq] at h
  obtain ⟨-, hpending, -, h⟩ := h
  cases h
  exact ⟨not_not.mp hpending, rfl, rfl, rfl, rfl, nofun⟩

theorem settleCreem_settles (users : Table User User.id) (customerEmail : String) (now : ℤ) :
    Settles (.callback .creem) (settleCreem users customerEmail now) := by
  intro topUp c h
  simp only [settleCreem, ite_error_eq_ok] at h
  obtain ⟨hprovider, hpending, h⟩ := h
  have hcallback : ∀ provider, Completer.callback .creem = .callback provider →
      topUp.paymentProvider = provider := fun _ h => by cases h; exact not_not.mp hprovider
  split at h
  next =>
    cases h
    exact ⟨not_not.mp hpending, rfl, rfl, rfl, rfl, hcallback⟩
  next =>
    split at h
    next => cases h
    next =>
      cases h
      exact ⟨not_not.mp hpending, rfl, rfl, rfl, rfl, hcallback⟩

theorem settleWaffo_settles (provider : PaymentProvider) (now : ℤ) :
    Settles (.callback provider) (settleWaffo quotaPerUnit provider now) := by
  intro topUp c h
  simp only [settleWaffo, ite_error_eq_ok, ite_ok_none_eq] at h
  obtain ⟨hprovider, -, hpending, -, h⟩ := h
  cases h
  exact ⟨not_not.mp hpending, rfl, rfl, rfl, rfl, fun _ h => by cases h; exact not_not.mp hprovider⟩

theorem settleEpay_settles (paymentMethod : String) (paidAmount : Option ℚ) (now : ℤ) :
    Settles (.callback .epay) (settleEpay quotaPerUnit paymentMethod paidAmount now) := by
  intro topUp c h
  simp only [settleEpay, ite_error_eq_ok, ite_ok_none_eq] at h
  obtain ⟨hprovider, -, hpending, -, h⟩ := h
  split at h
  next => cases h
  next =>
    cases h
    exact ⟨not_not.mp hpending, rfl, rfl, rfl, rfl, fun _ h => by cases h; exact not_not.mp hprovider⟩

theorem settleOfficialPayment_settles (provider : PaymentProvider) (method providerTradeNo : String)
    (cents now : ℤ) : Settles (.callback provider)
      (settleOfficialPayment quotaPerUnit provider method providerTradeNo cents now) := by
  intro topUp c h
  simp only [settleOfficialPayment, ite_error_eq_ok, ite_ok_none_eq] at h
  obtain ⟨hprovider, -, -, -, hpending, h⟩ := h
  split at h
  next => cases h
  next =>
    cases h
    exact ⟨not_not.mp hpending, rfl, rfl, rfl, rfl,
      fun _ h => by cases h; exact not_not.mp (not_or.mp hprovider).1⟩

theorem updatePendingTopUpStatus_effect {r : Request} {expected : PaymentProvider} {target : Closing}
    (h : updatePendingTopUpStatus x r expected target.status = .ok x') : Effect x x' := by
  rw [updatePendingTopUpStatus, ite_error_eq_ok] at h
  replace h := h.2
  split at h
  next => cases h
  next topUp hfind =>
    have hkey : topUp.tradeNo = r.tradeNo := Table.find_key hfind
    rw [ite_error_eq_ok, ite_error_eq_ok] at h
    obtain ⟨-, hpending, h⟩ := h
    split at h
    next => cases h
    next =>
      cases h
      exact .closes topUp target (hkey.symm ▸ hfind) (not_not.mp hpending)

theorem call_effect {r : Request} {c : Call} (h : call quotaPerUnit x r c = .ok x') : Effect x x' := by
  cases c with
  | updatePending expected target => exact updatePendingTopUpStatus_effect h
  | manual =>
    rw [call, manualCompleteTopUp, ite_error_eq_ok] at h
    exact transaction_effect (settleManual_settles r.now) h.2
  | stripe customerId =>
    rw [call, recharge, ite_error_eq_ok] at h
    exact transaction_effect (settleStripe_settles customerId r.now) (rechargeFailed_ok h.2)
  | creem customerEmail =>
    rw [call, rechargeCreem, ite_error_eq_ok] at h
    exact transaction_effect (settleCreem_settles x.users customerEmail r.now) (rechargeFailed_ok h.2)
  | waffo =>
    rw [call, rechargeWaffo, ite_error_eq_ok] at h
    exact transaction_effect (settleWaffo_settles .waffo r.now) (rechargeFailed_ok h.2)
  | waffoPancake =>
    rw [call, rechargeWaffoPancake, ite_error_eq_ok] at h
    exact transaction_effect (settleWaffo_settles .waffoPancake r.now) (rechargeFailed_ok h.2)
  | epay paymentMethod paidAmount =>
    rw [call, rechargeEpay, ite_error_eq_ok] at h
    exact transaction_effect (settleEpay_settles paymentMethod paidAmount r.now) h.2
  | official provider providerTradeNo cents =>
    rw [call, rechargeOfficialPayment, ite_error_eq_ok] at h
    replace h := h.2
    split at h
    next => cases h
    next method _ =>
      exact transaction_effect
        (settleOfficialPayment_settles provider method providerTradeNo cents r.now) h

theorem step_effect (quotaPerUnit : ℚ) (x : Store) (a : Request × Call) : Effect x (step quotaPerUnit x a) := by
  rw [step]
  split
  next => exact .same
  next x' h => exact call_effect h

/-! ## One order -/

def creditsOf (x : Store) (tradeNo : String) : List Credit := x.credits.filter fun c => c.tradeNo = tradeNo

def statusOf (x : Store) (tradeNo : String) : Option TopUpStatus := (x.topUps.find tradeNo).map TopUp.status

theorem creditsOf_commit (completer : Completer) (c : Completion) (tradeNo : String) :
    creditsOf (x.commit completer c) tradeNo
      = creditsOf x tradeNo ++
        if c.topUp.tradeNo = tradeNo then [⟨c.topUp.tradeNo, c.topUp.userId, c.quota, completer⟩] else [] := by
  rw [creditsOf, creditsOf, Store.commit, List.filter_append, List.filter_singleton, cond_eq_ite]
  simp only [decide_eq_true_eq]

/-- Whose order it is, and at which provider. -/
def ownerOf (x : Store) (tradeNo : String) : Option (ℤ × PaymentProvider) :=
  (x.topUps.find tradeNo).map fun topUp => (topUp.userId, topUp.paymentProvider)

/-- A credit made for an order of this owner. -/
def Credit.isFor (c : Credit) (owner : Option (ℤ × PaymentProvider)) : Prop :=
  ∃ userId provider, owner = some (userId, provider) ∧ c.userId = userId ∧
    ∀ callback, c.completer = .callback callback → callback = provider

/-- The order as a call leaves it: untouched by a credit, or completed with one. -/
structure OrderStep (x x' : Store) (tradeNo : String) : Prop where
  owner : ownerOf x' tradeNo = ownerOf x tradeNo
  moved : (creditsOf x' tradeNo = creditsOf x tradeNo ∧
      (statusOf x' tradeNo = statusOf x tradeNo ∨
        statusOf x tradeNo = some .pending ∧ ∃ target : Closing, statusOf x' tradeNo = some target.status)) ∨
    (statusOf x tradeNo = some .pending ∧ statusOf x' tradeNo = some .success ∧
      ∃ c, creditsOf x' tradeNo = creditsOf x tradeNo ++ [c] ∧ c.isFor (ownerOf x tradeNo))

theorem OrderStep.same (h : x'.topUps.find tradeNo = x.topUps.find tradeNo)
    (hcredits : creditsOf x' tradeNo = creditsOf x tradeNo) : OrderStep x x' tradeNo := by
  refine ⟨?_, .inl ⟨hcredits, .inl ?_⟩⟩
  · rw [ownerOf, ownerOf, h]
  · rw [statusOf, statusOf, h]

theorem Effect.order (h : Effect x x') (tradeNo : String) : OrderStep x x' tradeNo := by
  cases h with
  | same => exact .same rfl rfl
  | closes topUp target hfind hpending =>
    by_cases heq : tradeNo = topUp.tradeNo
    · subst heq
      have hsaved : (x.topUps.save { topUp with status := target.status }).find topUp.tradeNo
          = some { topUp with status := target.status } := Table.find_save_self hfind
      refine ⟨?_, .inl ⟨rfl, .inr ⟨?_, target, ?_⟩⟩⟩
      · rw [ownerOf, ownerOf, hsaved, hfind]
        rfl
      · rw [statusOf, hfind, Option.map_some, hpending]
      · rw [statusOf, hsaved]
        rfl
    · exact .same (Table.find_save_of_ne heq) rfl
  | completes topUp completer c hfind hc =>
    by_cases heq : tradeNo = topUp.tradeNo
    · subst heq
      have hold : x.topUps.find c.topUp.tradeNo = some topUp := hc.tradeNo.symm ▸ hfind
      have hsaved : (x.topUps.save c.topUp).find topUp.tradeNo = some c.topUp :=
        hc.tradeNo ▸ Table.find_save_self hold
      refine ⟨?_, .inr ⟨?_, ?_, _, (creditsOf_commit ..).trans (by rw [if_pos hc.tradeNo]), topUp.userId, topUp.paymentProvider, ?_, hc.userId, ?_⟩⟩
      · rw [ownerOf, ownerOf, Store.commit, hsaved, hfind, Option.map_some, Option.map_some, hc.userId,
          hc.paymentProvider]
      · rw [statusOf, hfind, Option.map_some, hc.pending]
      · rw [statusOf, Store.commit, hsaved, Option.map_some, hc.success]
      · rw [ownerOf, hfind]
        rfl
      · intro callback hcallback
        exact (hc.completer callback hcallback).symm
    · have hne : tradeNo ≠ c.topUp.tradeNo := fun h => heq (h.trans hc.tradeNo)
      refine .same (Table.find_save_of_ne hne) ?_
      rw [creditsOf_commit, if_neg hne.symm, List.append_nil]

/-- What the calls of a run have done to an order. -/
structure Account (x : Store) (tradeNo : String) : Prop where
  credited : creditsOf x tradeNo = [] ∨
    statusOf x tradeNo = some .success ∧ ∃ c, creditsOf x tradeNo = [c] ∧ c.isFor (ownerOf x tradeNo)

theorem Account.step (h : Account x tradeNo) (hstep : OrderStep x x' tradeNo) : Account x' tradeNo := by
  refine ⟨?_⟩
  rcases hstep.moved with ⟨hcredits, hstatus⟩ | ⟨hpending, hsuccess, c, hcredits, hc⟩
  · rw [hcredits, hstep.owner]
    rcases h.credited with hnone | ⟨hsuccess, hone⟩
    · exact .inl hnone
    · refine .inr ⟨?_, hone⟩
      rcases hstatus with hsame | ⟨hpending, _⟩
      · exact hsame.trans hsuccess
      · rw [hpending] at hsuccess
        cases hsuccess
  · rw [hcredits, hstep.owner]
    rcases h.credited with hnone | ⟨hsuccess', _⟩
    · rw [hnone]
      exact .inr ⟨hsuccess, c, rfl, hc⟩
    · rw [hpending] at hsuccess'
      cases hsuccess'

/-- An order that is not pending stays as it is. -/
theorem OrderStep.closed (hstep : OrderStep x x' tradeNo) (h : statusOf x tradeNo ≠ some .pending) :
    creditsOf x' tradeNo = creditsOf x tradeNo ∧ statusOf x' tradeNo = statusOf x tradeNo := by
  rcases hstep.moved with ⟨hcredits, hsame | ⟨hpending, _⟩⟩ | ⟨hpending, _⟩
  · exact ⟨hcredits, hsame⟩
  · exact absurd hpending h
  · exact absurd hpending h

/-! ## The users -/

/-- What has been credited to a user. -/
def creditedTo (credits : List Credit) (id : ℤ) : ℚ :=
  ((credits.filter fun c => c.userId = id).map Credit.quota).sum

theorem Effect.users (h : Effect x x') :
    ∃ credits, x'.credits = x.credits ++ credits ∧ ∀ id,
      (x'.users.find id).map User.quota = (x.users.find id).map fun user => user.quota + creditedTo credits id := by
  cases h with
  | same | closes topUp target =>
    refine ⟨[], (List.append_nil _).symm, fun id => ?_⟩
    simp [creditedTo]
  | completes topUp completer c =>
    refine ⟨_, rfl, fun id => ?_⟩
    have husers : (x.commit completer c).users.find id
        = (x.users.find id).map fun user => if user.id = c.topUp.userId then user.apply c else user := by
      rw [Store.commit, Table.find_updateWhere]
      simp only [decide_eq_true_eq]
    rw [husers, Option.map_map]
    cases hfind : x.users.find id with
    | none => rfl
    | some user =>
      have hid : user.id = id := Table.find_key hfind
      by_cases heq : c.topUp.userId = id
      · simp [creditedTo, hid, heq, User.apply]
      · have hne : ¬ id = c.topUp.userId := fun h => heq h.symm
        simp [creditedTo, hid, heq, hne]

theorem creditedTo_append (credits credits' : List Credit) (id : ℤ) :
    creditedTo (credits ++ credits') id = creditedTo credits id + creditedTo credits' id := by
  rw [creditedTo, List.filter_append, List.map_append, List.sum_append]
  rfl

/-! ## Every run -/

/-- The store after calls, with the credits they have made. -/
def afterCalls (quotaPerUnit : ℚ) (topUps : Table TopUp TopUp.tradeNo) (users : Table User User.id)
    (calls : List (Request × Call)) : Store :=
  run (step quotaPerUnit) { topUps, users } calls

variable {topUps : Table TopUp TopUp.tradeNo} {users : Table User User.id} {tradeNo : String}

theorem account_afterCalls (quotaPerUnit : ℚ) (topUps : Table TopUp TopUp.tradeNo)
    (users : Table User User.id) (tradeNo : String) (calls : List (Request × Call)) :
    Account (afterCalls quotaPerUnit topUps users calls) tradeNo :=
  run_preserves (I := fun x => Account x tradeNo) (fun x a h => h.step ((step_effect quotaPerUnit x a).order tradeNo))
    calls ⟨.inl rfl⟩

theorem ownerOf_run (calls : List (Request × Call)) :
    ownerOf (run (step quotaPerUnit) x calls) tradeNo = ownerOf x tradeNo :=
  run_preserves (I := fun y => ownerOf y tradeNo = ownerOf x tradeNo)
    (fun y a h => ((step_effect quotaPerUnit y a).order tradeNo).owner.trans h) calls rfl

/-- An order that has been closed is not credited any more. -/
theorem creditsOf_run_of_closed (h : statusOf x tradeNo ≠ some .pending) (calls : List (Request × Call)) :
    creditsOf (run (step quotaPerUnit) x calls) tradeNo = creditsOf x tradeNo := by
  have hrun : creditsOf (run (step quotaPerUnit) x calls) tradeNo = creditsOf x tradeNo ∧
      statusOf (run (step quotaPerUnit) x calls) tradeNo = statusOf x tradeNo := by
    refine run_preserves (I := fun y => creditsOf y tradeNo = creditsOf x tradeNo ∧
      statusOf y tradeNo = statusOf x tradeNo) (fun y a hy => ?_) calls ⟨rfl, rfl⟩
    have hclosed := ((step_effect quotaPerUnit y a).order tradeNo).closed (hy.2 ▸ h)
    exact ⟨hclosed.1.trans hy.1, hclosed.2.trans hy.2⟩
  exact hrun.1

theorem users_afterCalls (calls : List (Request × Call)) (id : ℤ) :
    ((afterCalls quotaPerUnit topUps users calls).users.find id).map User.quota = (users.find id).map fun user =>
        user.quota + creditedTo (afterCalls quotaPerUnit topUps users calls).credits id := by
  refine run_preserves (I := fun y : Store => (y.users.find id).map User.quota
    = (users.find id).map fun user => user.quota + creditedTo y.credits id) (fun y a hy => ?_) calls ?_
  · obtain ⟨credits, hcredits, husers⟩ := (step_effect quotaPerUnit y a).users
    have hmap : ((y.users.find id).map fun user => user.quota + creditedTo credits id)
        = ((y.users.find id).map User.quota).map fun quota => quota + creditedTo credits id := by
      rw [Option.map_map]
      rfl
    rw [husers id, hcredits, hmap, hy, Option.map_map]
    refine congrArg (fun f => (users.find id).map f) (funext fun user => ?_)
    rw [creditedTo_append, ← add_assoc]
    rfl
  · simp [creditedTo]

/-- **An order is credited at most once.**  In any run of callbacks of every kind, manual completions and
status updates, an order has at most one credit, and only if its status is success; the credit is for
the order's user and, if a callback made it, a callback of the order's provider.  A call credits the order
exactly if it makes its status success, and an order that has failed or expired is never credited.  The
quotas of the users are what they were plus the credits. -/
theorem topUp_credited_once (quotaPerUnit : ℚ) (topUps : Table TopUp TopUp.tradeNo)
    (users : Table User User.id) (calls : List (Request × Call)) (tradeNo : String) :
    (creditsOf (afterCalls quotaPerUnit topUps users calls) tradeNo).length ≤ 1 ∧
      (∀ c ∈ creditsOf (afterCalls quotaPerUnit topUps users calls) tradeNo,
        statusOf (afterCalls quotaPerUnit topUps users calls) tradeNo = some .success ∧
          ∃ topUp, topUps.find tradeNo = some topUp ∧ c.userId = topUp.userId ∧
            ∀ callback, c.completer = .callback callback → callback = topUp.paymentProvider) ∧
      (∀ a, (statusOf (afterCalls quotaPerUnit topUps users calls) tradeNo ≠ some .success ∧
            statusOf (afterCalls quotaPerUnit topUps users (calls ++ [a])) tradeNo = some .success →
          ∃ c, creditsOf (afterCalls quotaPerUnit topUps users (calls ++ [a])) tradeNo
            = creditsOf (afterCalls quotaPerUnit topUps users calls) tradeNo ++ [c]) ∧
        (¬(statusOf (afterCalls quotaPerUnit topUps users calls) tradeNo ≠ some .success ∧
            statusOf (afterCalls quotaPerUnit topUps users (calls ++ [a])) tradeNo = some .success) →
          creditsOf (afterCalls quotaPerUnit topUps users (calls ++ [a])) tradeNo
            = creditsOf (afterCalls quotaPerUnit topUps users calls) tradeNo)) ∧
      (statusOf (afterCalls quotaPerUnit topUps users calls) tradeNo = some .failed ∨
          statusOf (afterCalls quotaPerUnit topUps users calls) tradeNo = some .expired →
        ∀ later, creditsOf (afterCalls quotaPerUnit topUps users (calls ++ later)) tradeNo = []) ∧
      ∀ id, ((afterCalls quotaPerUnit topUps users calls).users.find id).map User.quota
        = (users.find id).map fun user =>
          user.quota + creditedTo (afterCalls quotaPerUnit topUps users calls).credits id := by
  have haccount := account_afterCalls quotaPerUnit topUps users tradeNo calls
  have howner : ownerOf (afterCalls quotaPerUnit topUps users calls) tradeNo
      = (topUps.find tradeNo).map fun topUp => (topUp.userId, topUp.paymentProvider) := ownerOf_run calls
  refine ⟨?_, fun c hc => ?_, fun a => ?_, fun hclosed later => ?_, users_afterCalls calls⟩
  · rcases haccount.credited with hnone | ⟨_, c, hone, _⟩
    · rw [hnone]
      exact Nat.zero_le 1
    · rw [hone]
      exact le_refl 1
  · rcases haccount.credited with hnone | ⟨hsuccess, c', hone, userId, provider, hfor, huser, hcallback⟩
    · rw [hnone] at hc
      cases hc
    · rw [hone, List.mem_singleton] at hc
      subst hc
      rw [howner, Option.map_eq_some_iff] at hfor
      obtain ⟨topUp, hfind, hpair⟩ := hfor
      cases hpair
      exact ⟨hsuccess, topUp, hfind, huser, hcallback⟩
  · have hstep : OrderStep (afterCalls quotaPerUnit topUps users calls)
        (afterCalls quotaPerUnit topUps users (calls ++ [a])) tradeNo := by
      rw [afterCalls, afterCalls, run_append]
      exact (step_effect quotaPerUnit _ a).order tradeNo
    rcases hstep.moved with ⟨hcredits, hstatus⟩ | ⟨hpending, hsuccess, c, hcredits, _⟩
    · refine ⟨fun ⟨hbefore, hafter⟩ => ?_, fun _ => hcredits⟩
      rcases hstatus with hsame | ⟨_, target, htarget⟩
      · exact absurd (hsame.symm.trans hafter) hbefore
      · rw [htarget] at hafter
        cases target <;> cases hafter
    · refine ⟨fun _ => ⟨c, hcredits⟩, fun hnot => absurd ⟨?_, hsuccess⟩ hnot⟩
      rw [hpending]
      exact nofun
  · have hnone : creditsOf (afterCalls quotaPerUnit topUps users calls) tradeNo = [] := by
      rcases haccount.credited with hnone | ⟨hsuccess, _⟩
      · exact hnone
      · rw [hsuccess] at hclosed
        rcases hclosed with hclosed | hclosed <;> cases hclosed
    rw [afterCalls, run_append]
    refine (creditsOf_run_of_closed ?_ later).trans hnone
    rcases hclosed with hclosed | hclosed
    · exact fun hpending => by cases hclosed.symm.trans hpending
    · exact fun hpending => by cases hclosed.symm.trans hpending

/-- Ten units at ePay, for 9.99. -/
def epayTopUp : TopUp :=
  { tradeNo := "t", userId := 7, amount := 10, money := 999 / 100, paymentMethod := "alipay"
    paymentProvider := .epay }

/-- A callback with another amount, the callback twice, a manual completion and an update. -/
def epayCalls : List (Request × Call) :=
  [(⟨"t", 1, none⟩, .epay "alipay" (some 10)), (⟨"t", 2, none⟩, .epay "wxpay" (some (999 / 100))),
    (⟨"t", 3, none⟩, .epay "wxpay" (some (999 / 100))), (⟨"t", 4, none⟩, .manual),
    (⟨"t", 5, none⟩, .updatePending .epay .failed)]

theorem epayCalls_credited :
    creditsOf (afterCalls 500000 (.single epayTopUp) (.single { id := 7 }) epayCalls) "t"
        = [⟨"t", 7, 5000000, .callback .epay⟩] ∧
      statusOf (afterCalls 500000 (.single epayTopUp) (.single { id := 7 }) epayCalls) "t"
        = some .success :=
  have hcredits : creditsOf (afterCalls 500000 (.single epayTopUp) (.single { id := 7 }) epayCalls) "t"
      = [⟨"t", 7, 5000000, .callback .epay⟩] := by decide +kernel
  ⟨hcredits, ((topUp_credited_once 500000 (.single epayTopUp) (.single { id := 7 }) epayCalls "t").2.1
    ⟨"t", 7, 5000000, .callback .epay⟩ (by rw [hcredits]; exact List.mem_singleton.mpr rfl)).1⟩

end OneApi.Payment

import OneApi.Subscription.QuotaBound

/-!
# How often a pre-consume is given back

`RefundSubscriptionPreConsume` locks the record of a request, gives the quota back and marks the
record.  The quota goes back through `PostConsumeUserSubscriptionDelta`, a transaction on a
connection of its own, so it is committed before the mark is.  An attempt whose mark fails has
given the quota back and left the record as it was, and `refundWithRetry` then tries again.

The result is exact.  Over any sequence of attempts the amount given back is the smaller of the
quota used and `k` times the recorded amount, where `k` (`giveBacks`) counts the attempts whose
quota transaction commits, up to the first one that is also marked.
-/

namespace OneApi.Subscription.RefundOnce

open OneApi.Lib OneApi.Lib.Run OneApi.Lib.Go
open OneApi.Subscription.Model OneApi.Subscription.PreConsume OneApi.Subscription.QuotaBound

/-! ## Retries -/

section Retry

variable {σ φ ε : Type*}

/-- The loop of `refundWithRetry` on a tape of faults, one for each attempt it may make. -/
def retryLoop (fn : φ → σ → σ × Except ε Unit) :
    List φ → σ → Except ε Unit → σ × Except ε Unit
  | [], s, last => (s, last)
  | f :: tape, s, _ =>
    match fn f s with
    | (s', .ok ()) => (s', .ok ())
    | (s', .error e) => retryLoop fn tape s' (.error e)

/-- `refundWithRetry`: three attempts at most. -/
def refundWithRetry (fn : φ → σ → σ × Except ε Unit) (f₁ f₂ f₃ : φ) (s : σ) : σ × Except ε Unit :=
  retryLoop fn [f₁, f₂, f₃] s (.ok ())

/-- If nothing happens any more after a success, stopping at it is the same as going on. -/
theorem retryLoop_state {fn : φ → σ → σ × Except ε Unit}
    (habsorb : ∀ f g s, (fn f s).2 = .ok () → (fn g (fn f s).1).1 = (fn f s).1)
    (tape : List φ) (s : σ) (last : Except ε Unit) :
    (retryLoop fn tape s last).1 = run (fun s f => (fn f s).1) s tape := by
  induction tape generalizing s last with
  | nil => rfl
  | cons f tape ih =>
    rw [run_cons, retryLoop]
    cases hf : fn f s with
    | mk s' r =>
      cases r with
      | error e => exact ih s' _
      | ok u =>
        -- the rest of the tape leaves the state alone
        have hstay : ∀ tape : List φ, run (fun s f => (fn f s).1) s' tape = s' := by
          intro tape
          induction tape with
          | nil => rfl
          | cons g tape ihg =>
            have hg := habsorb f g s (by rw [hf])
            rw [hf] at hg
            rw [run_cons, hg]
            exact ihg
        exact (hstay tape).symm

end Retry

/-! ## One attempt -/

/-- The closure `SubscriptionFunding.Refund` passes to `refundWithRetry`. -/
def refundRequest (requestId : String) (faults : RefundFaults) (db : DB) : DB × Except SubscriptionError Unit :=
  refundSubscriptionPreConsume faults db requestId

/-- The tables after one attempt. -/
def attempt (requestId : String) (db : DB) (faults : RefundFaults) : DB :=
  (refundRequest requestId faults db).1

/-- What `PreConsumeUserSubscription` guarantees of the records it inserts. -/
def ValidRecord (record : PreConsumeRecord) : Prop :=
  trimSpace record.requestId ≠ "" ∧ 0 < record.preConsumed ∧ 0 < record.userSubscriptionId

instance (record : PreConsumeRecord) : Decidable (ValidRecord record) :=
  inferInstanceAs (Decidable (_ ∧ _))

variable {db : DB} {requestId : String} {amount : ℤ}

/-- Every record a pre-consume inserts is valid, ids being positive. -/
theorem validRecord_preConsume {env : Env} {ok : Bool} {db' : DB}
    {userId : ℤ} {modelName usingGroup : String} {res : SubscriptionPreConsumeResult}
    (hids : ∀ sub ∈ db.subs.rows, 0 < sub.id) (hall : ∀ r ∈ db.records.rows, ValidRecord r)
    (h : preConsumeUserSubscription env ok db requestId userId modelName usingGroup amount =
      some (.ok (db', res))) : ∀ r ∈ db'.records.rows, ValidRecord r := by
  obtain ⟨hpos, ⟨_, _, _, rfl⟩ | ⟨hreq, _, t, sub, records, hsel, hins, rfl, _⟩⟩ :=
    preConsumeUserSubscription_ok h
  · exact hall
  · obtain ⟨_, _, hc, _, hscan⟩ := selectSubscription_ok hsel
    have hcands := fun c hmem => hids c (mem_activeSubscriptions.mp (hc c hmem)).1
    have hsub : 0 < sub.id :=
      ((scan_preserves (P := fun s => 0 < s.id)
        (fun c plan s hP hs => (maybeReset_id hs).symm ▸ hP) hids hcands hscan).2 sub rfl).1
    intro r hr
    simp only [Table.insert_rows hins, List.mem_append, List.mem_singleton] at hr
    rcases hr with hr | rfl
    · exact hall r hr
    · exact ⟨hreq, hpos, hsub⟩

/-! ### What an attempt does -/

variable {record : PreConsumeRecord}

/-- A marked record makes an attempt a success that writes nothing. -/
theorem refund_of_refunded (faults : RefundFaults) (hreq : trimSpace requestId ≠ "")
    (hfind : db.records.find requestId = some record) (hst : record.status = .refunded) :
    refundSubscriptionPreConsume faults db requestId = (db, .ok ()) := by
  unfold refundSubscriptionPreConsume
  rw [if_neg hreq, hfind]
  simp [hst]

/-- The mark that commits leaves a marked record of the same request. -/
theorem markRefunded_find {ok : Bool} (hfind : db.records.find record.requestId = some record)
    (h : (markRefunded ok db record).2 = .ok ()) :
    (markRefunded ok db record).1.records.find record.requestId = some { record with status := .refunded } := by
  cases ok with
  | false => cases h
  | true => exact Table.find_save_self (r := { record with status := .refunded }) hfind

/-- After a success the record is there and is marked. -/
theorem refund_ok_marked {faults : RefundFaults} (h : (refundSubscriptionPreConsume faults db requestId).2 = .ok ()) :
    trimSpace requestId ≠ "" ∧ ∃ record, record.status = .refunded ∧
      (refundSubscriptionPreConsume faults db requestId).1.records.find requestId = some record := by
  unfold refundSubscriptionPreConsume at h ⊢
  split at h
  · cases h
  rename_i hreq
  rw [if_neg hreq]
  refine ⟨hreq, ?_⟩
  split at h
  · cases h
  rename_i record hfind
  have hkey : record.requestId = requestId := Table.find_key hfind
  subst hkey
  split at h
  · rename_i hst
    exact ⟨record, hst, by simpa [hst] using hfind⟩
  rename_i hst
  split at h
  · rename_i hpre
    refine ⟨{ record with status := .refunded }, rfl, ?_⟩
    simpa [hst, hpre] using markRefunded_find hfind h
  rename_i hpre
  split at h
  · cases h
  · rename_i db' hdelta
    have hrec : db'.records = db.records := by
      obtain ⟨_, rfl⟩ | ⟨sub, _, _, rfl⟩ := postConsumeUserSubscriptionDelta_ok hdelta
      · rfl
      · rfl
    refine ⟨{ record with status := .refunded }, rfl, ?_⟩
    simpa [hst, hpre, hdelta] using markRefunded_find (hrec ▸ hfind) h

theorem refundRequest_absorbs (requestId : String) (f g : RefundFaults) (db : DB)
    (h : (refundRequest requestId f db).2 = .ok ()) :
    (refundRequest requestId g (refundRequest requestId f db).1).1 = (refundRequest requestId f db).1 := by
  unfold refundRequest at h ⊢
  obtain ⟨hreq, record, hst, hfind⟩ := refund_ok_marked h
  rw [refund_of_refunded g hreq hfind hst]

variable {sub : UserSubscription}

/-- A row within its bounds can always be given an amount back. -/
theorem postConsume_giveBack (hfind : db.subs.find sub.id = some sub) (hid : 0 < sub.id) (hb : Bounded sub)
    (hpos : 0 < amount) :
    postConsumeUserSubscriptionDelta true db sub.id (-amount) =
      .ok (db.saveSub { sub with amountUsed := clampedUsed sub.amountUsed (-amount) }) := by
  have htotal : ¬ (0 < sub.amountTotal ∧ sub.amountTotal < clampedUsed sub.amountUsed (-amount)) := by
    obtain ⟨h₀, h₁⟩ := hb
    unfold clampedUsed
    intro h
    have := h₁ h.1
    omega
  unfold postConsumeUserSubscriptionDelta
  rw [if_neg (by omega), if_neg (by omega), hfind]
  simp only [ite_eq_clampedUsed, if_neg htotal, if_true]

variable (hfind : db.records.find record.requestId = some record) (hvalid : ValidRecord record)
  (hst : record.status = .consumed)

include hfind hvalid hst in
/-- **One attempt on a record that is not marked.**  A failed quota transaction leaves the tables
alone; a failed mark leaves the quota given back and the record as it was. -/
theorem attempt_consumed (faults : RefundFaults)
    (hsub : db.subs.find sub.id = some sub) (hid : sub.id = record.userSubscriptionId) (hb : Bounded sub) :
    attempt record.requestId db faults =
      if faults.quotaOk then
        (markRefunded faults.markOk (db.saveSub
          { sub with amountUsed := clampedUsed sub.amountUsed (-record.preConsumed) }) record).1
      else db := by
  obtain ⟨hreq, hpos, hidpos⟩ := hvalid
  unfold attempt refundRequest refundSubscriptionPreConsume
  rw [if_neg hreq, hfind]
  simp only [hst, reduceCtorEq, if_false, if_neg (show ¬ record.preConsumed ≤ 0 by omega)]
  obtain ⟨quotaOk, markOk⟩ := faults
  cases quotaOk with
  | true => rw [← hid, postConsume_giveBack hsub (hid ▸ hidpos) hb hpos]; rfl
  | false =>
    cases hd : postConsumeUserSubscriptionDelta false db record.userSubscriptionId (-record.preConsumed) with
    | error e => rfl
    | ok db' => exact absurd hd (postConsumeUserSubscriptionDelta_failed (by omega))

/-! ## Every sequence of attempts -/

/-- The attempts whose quota transaction commits, up to the first that is marked as well. -/
def giveBacks : List RefundFaults → ℕ
  | [] => 0
  | f :: tape => if f.quotaOk then if f.markOk then 1 else giveBacks tape + 1 else giveBacks tape

variable (tape : List RefundFaults)

theorem attempts_of_refunded (hreq : trimSpace requestId ≠ "")
    (hfind : db.records.find requestId = some record) (hst : record.status = .refunded) :
    run (attempt requestId) db tape = db := by
  induction tape with
  | nil => rfl
  | cons f tape ih =>
    have hf : attempt requestId db f = db := by
      unfold attempt refundRequest
      rw [refund_of_refunded f hreq hfind hst]
    rw [run_cons, hf]
    exact ih

include hfind hvalid hst in
theorem attempts_of_gone (hgone : db.subs.find record.userSubscriptionId = none) :
    run (attempt record.requestId) db tape = db := by
  obtain ⟨hreq, hpos, hidpos⟩ := hvalid
  induction tape with
  | nil => rfl
  | cons f tape ih =>
    have hf : attempt record.requestId db f = db := by
      unfold attempt refundRequest refundSubscriptionPreConsume postConsumeUserSubscriptionDelta
      rw [if_neg hreq, hfind]
      simp only [hst, reduceCtorEq, if_false, if_neg (show ¬ record.preConsumed ≤ 0 by omega)]
      rw [if_neg (by omega), if_neg (by omega), hgone]
    rw [run_cons, hf]
    exact ih

/-- Giving an amount back keeps a row within its bounds. -/
theorem bounded_giveBack (hb : Bounded sub)
    (hpos : 0 < amount) : Bounded { sub with amountUsed := clampedUsed sub.amountUsed (-amount) } := by
  refine ⟨le_max_left _ _, fun htotal => ?_⟩
  have h₀ := hb.1
  have h₁ := hb.2 htotal
  show max 0 (sub.amountUsed + -amount) ≤ sub.amountTotal
  omega

include hfind hvalid hst in
/-- **The row after a sequence of attempts**: its quota used is lowered by the recorded amount once
for each attempt that gives back, down to zero. -/
theorem find_attempts (hsub : db.subs.find sub.id = some sub) (hid : sub.id = record.userSubscriptionId)
    (hb : Bounded sub) :
    (run (attempt record.requestId) db tape).subs.find sub.id = some { sub with
      amountUsed := max 0 (sub.amountUsed - giveBacks tape * record.preConsumed) } := by
  have hpos := hvalid.2.1
  induction tape generalizing db sub with
  | nil =>
    have hsame : max 0 (sub.amountUsed - giveBacks [] * record.preConsumed) = sub.amountUsed := by
      have := hb.1
      simp only [giveBacks]
      omega
    rw [run_nil, hsame, hsub]
  | cons f tape ih =>
    rw [run_cons, attempt_consumed hfind hvalid hst f hsub hid hb, giveBacks]
    obtain ⟨quotaOk, markOk⟩ := f
    cases quotaOk with
    | false => exact ih hfind hsub hid hb
    | true =>
      set sub' := { sub with amountUsed := clampedUsed sub.amountUsed (-record.preConsumed) }
        with hsub'
      have hfind' : (db.saveSub sub').subs.find sub'.id = some sub' :=
        Table.find_save_self hsub
      cases markOk with
      | false =>
        have hk : 0 ≤ (giveBacks tape : ℤ) * record.preConsumed :=
          mul_nonneg (Int.natCast_nonneg _) hpos.le
        have hrest : (run (attempt record.requestId) (db.saveSub sub') tape).subs.find sub'.id = some { sub' with
              amountUsed := max 0 (sub'.amountUsed - giveBacks tape * record.preConsumed) } :=
          ih hfind hfind' hid (bounded_giveBack hb hpos)
        refine hrest.trans ?_
        simp only [hsub', Bool.false_eq_true, if_false, if_true, Nat.cast_add, Nat.cast_one,
          add_mul, one_mul, clampedUsed, Option.some.injEq, UserSubscription.mk.injEq,
          true_and, and_true]
        omega
      | true =>
        -- marked: the rest of the tape does nothing
        set db' := (markRefunded true (db.saveSub sub') record).1 with hdb'
        have hmarked : db'.records.find record.requestId =
            some { record with status := .refunded } := markRefunded_find hfind rfl
        have hrest : run (attempt record.requestId) db' tape = db' :=
          attempts_of_refunded tape hvalid.1 hmarked rfl
        simp only [if_true, hrest, Nat.cast_one, one_mul]
        rw [hdb', markRefunded_subs, show sub.id = sub'.id from rfl, hfind']
        rfl

/-! ## Callers -/

/-- Who asks for the refund of a request: one attempt, or `SubscriptionFunding.Refund` with its
retries. -/
inductive RefundCall
  | once (f : RefundFaults)
  | withRetry (f₁ f₂ f₃ : RefundFaults)
  deriving Repr, DecidableEq

/-- The faults the attempts of a call meet. -/
def RefundCall.faults : RefundCall → List RefundFaults
  | .once f => [f]
  | .withRetry f₁ f₂ f₃ => [f₁, f₂, f₃]

/-- The tables after a call. -/
def applyCall (requestId : String) (db : DB) : RefundCall → DB
  | .once f => attempt requestId db f
  | .withRetry f₁ f₂ f₃ => (refundWithRetry (refundRequest requestId) f₁ f₂ f₃ db).1

theorem applyCall_eq_run (requestId : String) (db : DB) (call : RefundCall) :
    applyCall requestId db call = run (attempt requestId) db call.faults := by
  cases call with
  | once f => rfl
  | withRetry f₁ f₂ f₃ =>
    rw [applyCall, refundWithRetry, retryLoop_state (refundRequest_absorbs requestId)]
    rfl

/-- A sequence of calls is the sequence of all their attempts. -/
theorem run_applyCall (calls : List RefundCall) :
    run (applyCall requestId) db calls = run (attempt requestId) db (calls.flatMap RefundCall.faults) := by
  induction calls generalizing db with
  | nil => rfl
  | cons call calls ih =>
    rw [run_cons, ih, applyCall_eq_run, List.flatMap_cons, run_append]

/-- What went back to the subscription of a record between two states. -/
def givenBack (record : PreConsumeRecord) (db db' : DB) : ℤ :=
  usedOf db.subs record.userSubscriptionId - usedOf db'.subs record.userSubscriptionId

include hfind hvalid hst in
/-- **The amount given back, exactly.** -/
theorem givenBack_attempts (hb : AllBounded db) :
    givenBack record db (run (attempt record.requestId) db tape) =
      min (usedOf db.subs record.userSubscriptionId) (giveBacks tape * record.preConsumed) := by
  have hk : 0 ≤ (giveBacks tape : ℤ) * record.preConsumed :=
    mul_nonneg (Int.natCast_nonneg _) hvalid.2.1.le
  unfold givenBack
  cases hsub : db.subs.find record.userSubscriptionId with
  | none =>
    rw [attempts_of_gone hfind hvalid hst tape hsub, sub_self]
    simp only [usedOf, hsub, Option.map_none, Option.getD_none]
    omega
  | some sub =>
    have hid : sub.id = record.userSubscriptionId := Table.find_key hsub
    have hbs : Bounded sub := hb sub (Table.find_mem hsub)
    have h₀ := hbs.1
    have hused : usedOf db.subs record.userSubscriptionId = sub.amountUsed := by
      simp only [usedOf, hsub, Option.map_some, Option.getD_some]
    rw [hused, ← hid, usedOf, find_attempts hfind hvalid hst tape (hid ▸ hsub) hid hbs,
      Option.map_some, Option.getD_some]
    dsimp only
    omega

/-- **When a pre-consume is given back at most once.**  For every recorded pre-consume, every
state of the subscriptions within their bounds and every sequence of calls with any faults, the
total given back stays within the recorded amount exactly when the record was already refunded,
or the quota used was no more than the recorded amount, or no two quota transactions commit
before the record is marked. -/
theorem refund_within_recorded_iff (db : DB) (record : PreConsumeRecord)
    (hfind : db.records.find record.requestId = some record) (hvalid : ValidRecord record)
    (hb : AllBounded db) (calls : List RefundCall) :
    givenBack record db (run (applyCall record.requestId) db calls) ≤ record.preConsumed ↔
      record.status = .refunded ∨ usedOf db.subs record.userSubscriptionId ≤ record.preConsumed ∨
        giveBacks (calls.flatMap RefundCall.faults) ≤ 1 := by
  have hpos := hvalid.2.1
  rw [run_applyCall]
  generalize calls.flatMap RefundCall.faults = tape
  cases hst : record.status with
  | refunded =>
    rw [attempts_of_refunded tape hvalid.1 hfind hst]
    simp only [givenBack, sub_self, true_or, iff_true]
    exact hpos.le
  | consumed =>
    have hmul : (giveBacks tape : ℤ) * record.preConsumed ≤ record.preConsumed ↔ giveBacks tape ≤ 1 := by
      rw [mul_le_iff_le_one_left hpos]
      exact_mod_cast Iff.rfl
    rw [givenBack_attempts hfind hvalid hst tape hb, min_le_iff, hmul]
    simp

/-- A record of 10 on a subscription that has used 30. -/
def recordedDB : DB where
  subs := .single { id := 7, userId := 1, planId := 1, amountTotal := 100, amountUsed := 30,
                    endTime := 500 }
  records := .single ⟨"req", 1, 7, 10, .consumed⟩
  allocations := []

/-- The first attempt gives back and fails to mark, the retry gives back again: 20 for 10. -/
theorem refund_given_back_twice :
    givenBack ⟨"req", 1, 7, 10, .consumed⟩ recordedDB
      (run (applyCall "req") recordedDB [.withRetry ⟨true, false⟩ ⟨true, true⟩ ⟨true, true⟩]) = 20 := by
  decide

/-- With the first quota transaction rolled back, the retry is the one that gives back. -/
theorem refund_within_recorded_retry :
    recordedDB.records.find "req" = some ⟨"req", 1, 7, 10, .consumed⟩ ∧
      givenBack ⟨"req", 1, 7, 10, .consumed⟩ recordedDB
        (run (applyCall "req") recordedDB [.withRetry ⟨false, true⟩ ⟨true, true⟩ ⟨true, true⟩]) ≤ 10 :=
  ⟨by decide, (refund_within_recorded_iff recordedDB ⟨"req", 1, 7, 10, .consumed⟩ (by decide)
    (by decide) (by decide) [.withRetry ⟨false, true⟩ ⟨true, true⟩ ⟨true, true⟩]).mpr (.inr (.inr (by decide)))⟩

end OneApi.Subscription.RefundOnce

import OneApi.Lib.Run
import OneApi.Subscription.PreConsume
import Mathlib.Data.Fintype.Basic

/-!
# Concurrent pre-consumes of one request

`PreConsumeUserSubscription` reads the record of its request without a lock, then locks the active
subscriptions of the user, then picks one, inserts the record and charges.  Calls of one request
interleave between these three steps:

* `check`: look for the record; a record that is there is the answer;
* `lock`: `SELECT .. FOR UPDATE`, which waits while another call holds one of the rows;
* `finish`: the loop over the locked rows, the insert under the unique index, the charge and the
  commit.  Other calls only see what is committed, so these are one step.

A call whose check came before the commit of another one finds the record at its insert only, and
by then may have picked another subscription.  The charge happens once in every interleaving
(`ledger_run`); what such a call reports is right exactly as long as the recorded subscription is
still its first choice (`stillFirst`).
-/

namespace OneApi.Subscription.PreConsumeRace

open OneApi.Lib OneApi.Lib.Run OneApi.Lib.Go Function
open OneApi.Subscription.Model OneApi.Subscription.PreConsume

/-- What the calls share: one request of one user for one amount. -/
structure Request where
  requestId : String
  userId : ℤ
  amount : ℤ
  deriving Repr, DecidableEq

/-- What a call has of its own: the time it read, its view of the plans, and its scope. -/
structure Call where
  env : Env
  modelName : String
  usingGroup : String

/-- Where a call stands. -/
inductive Phase
  | start
  | checked
  | locked (rows : List UserSubscription)
  | done (result : Except SubscriptionError SubscriptionPreConsumeResult)

/-- The rows a call holds locks on. -/
def Phase.rows : Phase → List UserSubscription
  | .locked rows => rows
  | _ => []

/-- The committed tables, the calls, and how much lazy resets have cleared from each row. -/
structure State (n : ℕ) where
  db : DB
  phase : Fin n → Phase
  cleared : ℤ → ℤ

def initial (n : ℕ) (db : DB) : State n := ⟨db, fun _ => .start, fun _ => 0⟩

/-- The next step of call `i`.  `ok = false` is a query, a write or a commit that fails; `visible`
is whether the transaction can read a record another call committed after its own check. -/
inductive Action (n : ℕ)
  | check (i : Fin n) (ok : Bool)
  | lock (i : Fin n) (ok : Bool)
  | finish (i : Fin n) (ok visible : Bool)

section Steps

variable {n : ℕ} (r : Request) (calls : Fin n → Call)

def State.setPhase (s : State n) (i : Fin n) (p : Phase) : State n :=
  { s with phase := update s.phase i p }

/-- The arguments and the first query. -/
def checkPhase (ok : Bool) (db : DB) : Phase :=
  match checkRequest ok db r.requestId r.userId r.amount with
  | some answer => .done answer
  | none => .checked

/-- Another call holds one of the rows. -/
def blocked (s : State n) (i : Fin n) (rows : List UserSubscription) : Prop :=
  ∃ j, j ≠ i ∧ ∃ a ∈ rows, ∃ b ∈ (s.phase j).rows, a.id = b.id

instance (s : State n) (i : Fin n) (rows : List UserSubscription) : Decidable (blocked s i rows) :=
  inferInstanceAs (Decidable (∃ j, j ≠ i ∧ ∃ a ∈ rows, ∃ b ∈ (s.phase j).rows, a.id = b.id))

/-- The rest of the transaction once the rows are locked: the subscriptions after the lazy
resets, the tables it commits, and its result. -/
def finishTx (call : Call) (ok visible : Bool) (db : DB) (rows : List UserSubscription) :
    Option (Except SubscriptionError
      (Table UserSubscription UserSubscription.id × DB × SubscriptionPreConsumeResult)) :=
  match selectFrom call.env db rows call.modelName call.usingGroup r.amount with
  | none => none
  | some (.error e) => some (.error e)
  | some (.ok (t, sub)) =>
    if !ok then some (.error .database)
    else some ((preConsumeSubscriptionTx visible { db with subs := t } r.requestId r.userId sub
      r.amount).map fun p => (t, p.1, p.2))

/-- What a row held before it was reset to zero. -/
def clearedBy (before after : Table UserSubscription UserSubscription.id) (id : ℤ) : ℤ :=
  if usedOf after id = 0 then usedOf before id else 0

/-- One step.  An action its call is not ready for does nothing; neither does a `finish` whose
catch-up loop has not ended. -/
def step (s : State n) : Action n → State n
  | .check i ok =>
    match s.phase i with
    | .start => s.setPhase i (checkPhase r ok s.db)
    | _ => s
  | .lock i ok =>
    match s.phase i with
    | .checked =>
      let rows := activeSubscriptions s.db r.userId (calls i).env.now
      if blocked s i rows then s
      else if !ok ∨ rows = [] then s.setPhase i (.done (.error .noActiveSubscription))
      else s.setPhase i (.locked rows)
    | _ => s
  | .finish i ok visible =>
    match s.phase i with
    | .locked rows =>
      match finishTx r (calls i) ok visible s.db rows with
      | none => s
      | some (.error e) => s.setPhase i (.done (.error e))
      | some (.ok (t, db, result)) =>
        { db, phase := update s.phase i (.done (.ok result)),
          cleared := fun id => s.cleared id + clearedBy s.db.subs t id }
    | _ => s

/-- A call about to finish, for whose request a record is there that it can read, has as its first
candidate with room the recorded subscription. -/
def stillFirst (s : State n) : Action n → Bool
  | .finish i _ visible =>
    match s.phase i with
    | .locked rows =>
      let call := calls i
      let fits := candidateFits s.db rows call.modelName call.usingGroup r.amount
      match s.db.records.find r.requestId,
          (candidates s.db rows call.modelName call.usingGroup).find? (hasRoom call.env fits) with
      | some record, some c => !visible || c.id = record.userSubscriptionId
      | _, _ => true
    | _ => true
  | _ => true

/-! ## What one step does -/

variable {r calls}

theorem checkPhase_cases (ok : Bool) (db : DB) :
    checkPhase r ok db = .checked ∨ (∃ e, checkPhase r ok db = .done (.error e)) ∨
      ∃ existing result, db.records.find r.requestId = some existing ∧
        existingResult db existing = .ok result ∧ checkPhase r ok db = .done (.ok result) := by
  unfold checkPhase
  split
  · rename_i answer hcheck
    cases answer with
    | error e => exact .inr (.inl ⟨e, rfl⟩)
    | ok result =>
      obtain ⟨-, existing, hfind, hres⟩ := checkRequest_ok hcheck
      exact .inr (.inr ⟨existing, result, hfind, hres, rfl⟩)
  · exact .inl rfl

variable {db : DB} {result : SubscriptionPreConsumeResult}

/-- The answer from a record names the recorded subscription. -/
theorem existingResult_id {existing : PreConsumeRecord} (h : existingResult db existing = .ok result) :
    result.userSubscriptionId = existing.userSubscriptionId := by
  unfold existingResult at h
  split at h
  · cases h
  split at h
  · cases h
  · rename_i sub hfind
    cases h
    exact (Table.find_key hfind : sub.id = _)

variable {rows : List UserSubscription}

/-- **A successful finish** charges the picked row and inserts the record, or finds the record of
another call and writes nothing but its lazy resets. -/
theorem finishTx_ok {call : Call} {ok visible : Bool} {db' : DB} {t : Table UserSubscription UserSubscription.id}
    (h : finishTx r call ok visible db rows = some (.ok (t, db', result))) :
    ∃ sub, scan call.env (candidateFits db rows call.modelName call.usingGroup r.amount) db.subs
        (candidates db rows call.modelName call.usingGroup) = some (.ok (t, some sub)) ∧
      result.userSubscriptionId = sub.id ∧
      ((db.records.find r.requestId = none ∧ ∃ records,
          db.records.insert ⟨r.requestId, r.userId, sub.id, r.amount, .consumed⟩ = some records ∧
          db' = { db with subs := t.save { sub with amountUsed := sub.amountUsed + r.amount }, records }) ∨
        (visible = true ∧ db.records.find r.requestId ≠ none ∧ db' = { db with subs := t })) := by
  unfold finishTx at h
  split at h
  · cases h
  · cases h
  rename_i t₁ sub hsel
  split at h
  · cases h
  unfold preConsumeSubscriptionTx at h
  simp only at h
  split at h
  · rename_i records hins
    simp only [Except.map, Option.some.injEq, Except.ok.injEq, Prod.mk.injEq] at h
    obtain ⟨rfl, rfl, rfl⟩ := h
    have hnone : db.records.find r.requestId = none := by
      by_contra hfind
      rw [Table.insert_eq_none_iff.mpr hfind] at hins
      cases hins
    exact ⟨sub, selectFrom_ok hsel, rfl, .inl ⟨hnone, records, hins, rfl⟩⟩
  · rename_i hins
    cases visible with
    | false => cases h
    | true =>
      simp only [if_true] at h
      split at h
      · cases h
      · rename_i duplicate hfind
        split at h
        · cases h
        · simp only [Except.map, Option.some.injEq, Except.ok.injEq, Prod.mk.injEq] at h
          obtain ⟨rfl, rfl, rfl⟩ := h
          exact ⟨sub, selectFrom_ok hsel, rfl, .inr ⟨rfl, by rw [hfind]; simp, rfl⟩⟩

/-- **Everything a step can do.** -/
theorem step_cases (s : State n) (a : Action n) : step r calls s a = s ∨
    (∃ i ok, step r calls s a = s.setPhase i (checkPhase r ok s.db)) ∨
    (∃ i, ¬ blocked s i (activeSubscriptions s.db r.userId (calls i).env.now) ∧
      activeSubscriptions s.db r.userId (calls i).env.now ≠ [] ∧
      step r calls s a =
        s.setPhase i (.locked (activeSubscriptions s.db r.userId (calls i).env.now))) ∨
    (∃ i e, step r calls s a = s.setPhase i (.done (.error e))) ∨
    (∃ i ok visible rows t db result, a = .finish i ok visible ∧ s.phase i = .locked rows ∧
      finishTx r (calls i) ok visible s.db rows = some (.ok (t, db, result)) ∧
      step r calls s a = ⟨db, update s.phase i (.done (.ok result)),
        fun id => s.cleared id + clearedBy s.db.subs t id⟩) := by
  cases a with
  | check i ok =>
    simp only [step]
    split
    · exact .inr (.inl ⟨i, ok, rfl⟩)
    · exact .inl rfl
  | lock i ok =>
    simp only [step]
    split
    · split
      · exact .inl rfl
      rename_i hfree
      split
      · exact .inr (.inr (.inr (.inl ⟨i, _, rfl⟩)))
      · rename_i hne
        exact .inr (.inr (.inl ⟨i, hfree, fun he => hne (.inr he), rfl⟩))
    · exact .inl rfl
  | finish i ok visible =>
    simp only [step]
    split
    · rename_i rows hphase
      split
      · exact .inl rfl
      · exact .inr (.inr (.inr (.inl ⟨i, _, rfl⟩)))
      · rename_i t db result hfin
        exact .inr (.inr (.inr (.inr ⟨i, ok, visible, rows, t, db, result, rfl, hphase, hfin, rfl⟩)))
    · exact .inl rfl

/-! ## Locks

Two calls of one user can never hold locks at the same time: of two non-empty sets of active
rows, the one read at the later time is contained in the other. -/

variable {s : State n} {i : Fin n}

/-- The rows a call holds are the active ones, and only one call holds any. -/
structure Locks (r : Request) (calls : Fin n → Call) (s : State n) : Prop where
  rows_eq : ∀ i rows, s.phase i = .locked rows → rows = activeSubscriptions s.db r.userId (calls i).env.now ∧ rows ≠ []
  unique : ∀ i j rows rows', s.phase i = .locked rows → s.phase j = .locked rows' → i = j

theorem activeSubscriptions_mono {userId now later : ℤ} (h : now ≤ later)
    {sub : UserSubscription} (hsub : sub ∈ activeSubscriptions db userId later) :
    sub ∈ activeSubscriptions db userId now := by
  rw [mem_activeSubscriptions] at hsub ⊢
  obtain ⟨hmem, huser, hst, hend⟩ := hsub
  exact ⟨hmem, huser, hst, by omega⟩

theorem activeSubscriptions_meet {userId now now' : ℤ}
    (h : activeSubscriptions db userId now ≠ []) (h' : activeSubscriptions db userId now' ≠ []) :
    ∃ a ∈ activeSubscriptions db userId now, a ∈ activeSubscriptions db userId now' := by
  rcases le_total now now' with hle | hle
  · obtain ⟨a, ha⟩ := List.exists_mem_of_ne_nil _ h'
    exact ⟨a, activeSubscriptions_mono hle ha, ha⟩
  · obtain ⟨a, ha⟩ := List.exists_mem_of_ne_nil _ h
    exact ⟨a, ha, activeSubscriptions_mono hle ha⟩

theorem locks_setPhase {p : Phase} (hl : Locks r calls s)
    (hp : ∀ rows, p ≠ .locked rows) : Locks r calls (s.setPhase i p) := by
  have hother : ∀ j rows, (s.setPhase i p).phase j = .locked rows → s.phase j = .locked rows := by
    intro j rows h
    by_cases hj : j = i
    · subst hj
      simp only [State.setPhase, update_self] at h
      exact absurd h (hp rows)
    · simpa only [State.setPhase, update_of_ne hj] using h
  exact ⟨fun j rows h => hl.rows_eq j rows (hother j rows h),
    fun j k rows rows' h h' => hl.unique j k rows rows' (hother j rows h) (hother k rows' h')⟩

theorem locks_step (a : Action n) (hl : Locks r calls s) : Locks r calls (step r calls s a) := by
  rcases step_cases s a with h | ⟨i, ok, h⟩ | ⟨i, hfree, hne, h⟩ | ⟨i, e, h⟩ |
    ⟨i, ok, visible, rows, t, db, result, -, hphase, -, h⟩
  · rw [h]; exact hl
  · rw [h]
    apply locks_setPhase hl
    intro rows hp
    rcases checkPhase_cases ok s.db with hc | ⟨e, hc⟩ | ⟨_, _, _, _, hc⟩ <;>
      · rw [hc] at hp; cases hp
  · -- a second holder would have a row in common with this one, and would have blocked it
    have halone : ∀ j rows, j ≠ i → s.phase j ≠ .locked rows := by
      intro j rows hj hphase
      obtain ⟨hrows, hrne⟩ := hl.rows_eq j rows hphase
      obtain ⟨a, ha, ha'⟩ := activeSubscriptions_meet hne (hrows ▸ hrne)
      exact hfree ⟨j, hj, a, ha, a, by rw [hphase]; exact hrows ▸ ha', rfl⟩
    have hphase : ∀ j rows, (step r calls s a).phase j = .locked rows →
        j = i ∧ rows = activeSubscriptions s.db r.userId (calls i).env.now := by
      intro j rows hj
      by_cases hji : j = i
      · subst hji
        simp only [h, State.setPhase, update_self, Phase.locked.injEq] at hj
        exact ⟨rfl, hj.symm⟩
      · simp only [h, State.setPhase, update_of_ne hji] at hj
        exact absurd hj (halone j rows hji)
    refine ⟨fun j rows hj => ?_, fun j k rows rows' hj hk => ?_⟩
    · obtain ⟨rfl, rfl⟩ := hphase j rows hj
      rw [h]
      exact ⟨rfl, hne⟩
    · rw [(hphase j rows hj).1, (hphase k rows' hk).1]
  · rw [h]
    exact locks_setPhase hl (by simp)
  · -- the holder has let go, and there was no other
    have hnone : ∀ j rows', (step r calls s a).phase j ≠ .locked rows' := by
      intro j rows' hj
      by_cases hji : j = i
      · subst hji
        simp [h] at hj
      · simp only [h, update_of_ne hji] at hj
        exact hji (hl.unique j i rows' rows hj hphase)
    exact ⟨fun j rows' hj => absurd hj (hnone j rows'),
      fun j _ rows' _ hj _ => absurd hj (hnone j rows')⟩

theorem locks_initial : Locks r calls (initial n db) :=
  ⟨fun _ _ h => (nomatch h), fun _ _ _ _ h => (nomatch h)⟩

/-! ## The ledger -/

/-- The subscription the record of the request names. -/
def charged (r : Request) (s : State n) : Option ℤ :=
  (s.db.records.find r.requestId).map (·.userSubscriptionId)

/-- **The ledger of a run from `db₀`.**  Row by row, the quota used and the quota cleared make up
what was used at the start, plus the amount on the charged row. -/
structure Ledger (r : Request) (db₀ : DB) (s : State n) : Prop where
  keys : s.db.subs.rows.map (·.id) = db₀.subs.rows.map (·.id)
  charged_mem : ∀ id, charged r s = some id → id ∈ db₀.subs.rows.map (·.id)
  used : ∀ id, usedOf s.db.subs id + s.cleared id = usedOf db₀.subs id + if charged r s = some id then r.amount else 0

theorem usedOf_add_clearedBy {before after : Table UserSubscription UserSubscription.id} {id : ℤ}
    (h : usedOf after id = usedOf before id ∨ usedOf after id = 0) :
    usedOf after id + clearedBy before after id = usedOf before id := by
  unfold clearedBy
  split <;> omega

variable {db₀ : DB}

theorem ledger_setPhase (hl : Ledger r db₀ s) (p : Phase) : Ledger r db₀ (s.setPhase i p) :=
  ⟨hl.keys, hl.charged_mem, hl.used⟩

/-- The rows picked from and the table they are written to, for a call that holds its locks. -/
theorem scan_of_finish (hl : Locks r calls s) (hphase : s.phase i = .locked rows) (c : UserSubscription)
    (hc : c ∈ candidates s.db rows (calls i).modelName (calls i).usingGroup) : c ∈ s.db.subs.rows := by
  obtain ⟨rfl, -⟩ := hl.rows_eq i rows hphase
  exact (mem_activeSubscriptions.mp (mem_candidates hc)).1

theorem ledger_step (a : Action n) (hlocks : Locks r calls s) (hl : Ledger r db₀ s) :
    Ledger r db₀ (step r calls s a) := by
  rcases step_cases s a with h | ⟨i, ok, h⟩ | ⟨i, -, -, h⟩ | ⟨i, e, h⟩ |
    ⟨i, ok, visible, rows, t, db, result, -, hphase, hfin, h⟩
  · rw [h]; exact hl
  · rw [h]; exact ledger_setPhase hl _
  · rw [h]; exact ledger_setPhase hl _
  · rw [h]; exact ledger_setPhase hl _
  · obtain ⟨sub, hscan, -, hcase⟩ := finishTx_ok hfin
    have hcands := scan_of_finish hlocks hphase
    obtain ⟨hkeys, hused⟩ := scan_used (Q := fun id x => x = usedOf s.db.subs id ∨ x = 0)
      (fun c hc _ _ hs => maybeReset_used hc hs) rfl hcands (fun id => .inl rfl) hscan
    have hclear := fun id => usedOf_add_clearedBy (hused id)
    have hfind : t.find sub.id = some sub :=
      scan_find (fun c hc => List.mem_map_of_mem (hcands c hc)) hscan
    have hmem : sub.id ∈ db₀.subs.rows.map (·.id) := by
      rw [← hl.keys, ← hkeys]
      exact List.mem_map_of_mem (Table.find_mem hfind)
    rw [h]
    rcases hcase with ⟨hnone, records, hins, rfl⟩ | ⟨-, hsome, rfl⟩
    · -- the record is new: this call charges
      have hrec : records.find r.requestId =
          some ⟨r.requestId, r.userId, sub.id, r.amount, .consumed⟩ := Table.find_insert_self hins
      have hbefore : charged r s = none := by simp [charged, hnone]
      refine ⟨?_, ?_, ?_⟩
      · exact ((Table.save_keys t _).trans hkeys).trans hl.keys
      · intro id hid
        simp only [charged, hrec, Option.map_some, Option.some.injEq] at hid
        exact hid ▸ hmem
      · intro id
        have hid := hl.used id
        have hcl := hclear id
        simp only [hbefore, reduceCtorEq, if_false] at hid
        simp only [charged, hrec, Option.map_some, Option.some.injEq]
        rw [usedOf_charge hfind]
        omega
    · refine ⟨hkeys.trans hl.keys, hl.charged_mem, ?_⟩
      intro id
      have hid := hl.used id
      have hcl := hclear id
      show usedOf t id + (s.cleared id + clearedBy s.db.subs t id) =
        usedOf db₀.subs id + if charged r s = some id then r.amount else 0
      omega

theorem ledger_initial (hfresh : db.records.find r.requestId = none) : Ledger r db (initial n db) where
  keys := rfl
  charged_mem := by simp [charged, initial, hfresh]
  used := by simp [charged, initial, hfresh]

/-- **The ledger balances in every interleaving**, whatever the calls report. -/
theorem ledger_run (hfresh : db.records.find r.requestId = none) (acts : List (Action n)) :
    Locks r calls (run (step r calls) (initial n db) acts) ∧ Ledger r db (run (step r calls) (initial n db) acts) :=
  run_preserves (I := fun s => Locks r calls s ∧ Ledger r db s)
    (fun _ a h => ⟨locks_step a h.1, ledger_step a h.1 h.2⟩) acts
    ⟨locks_initial, ledger_initial hfresh⟩

/-- The quota used over all subscriptions. -/
def totalUsed (subs : Table UserSubscription UserSubscription.id) : ℤ :=
  (subs.rows.map (·.amountUsed)).sum

/-- What lazy resets have cleared over all subscriptions. -/
def totalCleared (s : State n) : ℤ := ((s.db.subs.rows.map (·.id)).map s.cleared).sum

/-- The total over the ledger: the amount is in it once if the request has a record. -/
theorem ledger_total (hl : Ledger r db₀ s) :
    totalUsed s.db.subs + totalCleared s = totalUsed db₀.subs + if (charged r s).isSome then r.amount else 0 := by
  unfold totalUsed totalCleared
  rw [Table.sum_eq_sum_keys, Table.sum_eq_sum_keys, hl.keys, ← List.sum_map_add]
  set ids := db₀.subs.rows.map (·.id) with hids
  have hnd : ids.Nodup := db₀.subs.keys_nodup
  calc (ids.map fun id => usedOf s.db.subs id + s.cleared id).sum
      = (ids.map fun id => usedOf db₀.subs id +
          if charged r s = some id then r.amount else 0).sum := by
        simp only [hl.used]
    _ = (ids.map (usedOf db₀.subs)).sum + (ids.map fun id => if charged r s = some id then r.amount else 0).sum :=
        List.sum_map_add
    _ = _ := by
        congr 1
        cases hc : charged r s with
        | none => simp
        | some id₀ =>
          have hcount : ids.count id₀ = 1 :=
            List.count_eq_one_of_mem hnd (hl.charged_mem id₀ hc)
          have h := List.sum_map_ite_eq ids (fun _ => r.amount) (fun _ => 0) id₀
          simp only [hcount, one_nsmul, List.map_const', List.sum_replicate, nsmul_zero, sub_zero] at h
          simpa [eq_comm] using h

/-! ## What the calls report -/

/-- Every call that succeeded reports the charged subscription. -/
def Reported (r : Request) (s : State n) : Prop :=
  ∀ i result, s.phase i = .done (.ok result) → charged r s = some result.userSubscriptionId

theorem reported_setPhase {p : Phase} (hr : Reported r s)
    (hp : ∀ result, p = .done (.ok result) → charged r s = some result.userSubscriptionId) :
    Reported r (s.setPhase i p) := by
  intro j result hj
  by_cases hji : j = i
  · subst hji
    simp only [State.setPhase, update_self] at hj
    exact hp result hj
  · simp only [State.setPhase, update_of_ne hji] at hj
    exact hr j result hj

theorem charged_of_find {record : PreConsumeRecord} (h : s.db.records.find r.requestId = some record) :
    charged r s = some record.userSubscriptionId := by
  simp [charged, h]

theorem reported_step (a : Action n) (hfirst : stillFirst r calls s a = true) (hr : Reported r s) :
    Reported r (step r calls s a) := by
  rcases step_cases s a with h | ⟨i, ok, h⟩ | ⟨i, -, -, h⟩ | ⟨i, e, h⟩ |
    ⟨i, ok, visible, rows, t, db, result, rfl, hphase, hfin, h⟩
  · rw [h]; exact hr
  · rw [h]
    apply reported_setPhase hr
    intro result hres
    rcases checkPhase_cases ok s.db with hc | ⟨e, hc⟩ | ⟨existing, res, hfind, hex, hc⟩
    · rw [hc] at hres; cases hres
    · rw [hc] at hres; cases hres
    · rw [hc] at hres
      cases hres
      rw [charged_of_find hfind, existingResult_id hex]
  · rw [h]; exact reported_setPhase hr (by simp)
  · rw [h]; exact reported_setPhase hr (by simp)
  · obtain ⟨sub, hscan, hid, hcase⟩ := finishTx_ok hfin
    -- the call that finishes, and the calls that succeeded before it
    suffices hself : charged r (step r calls s (.finish i ok visible)) = some sub.id ∧
        ∀ id, charged r s = some id → charged r (step r calls s (.finish i ok visible)) = some id by
      intro j res hj
      by_cases hji : j = i
      · subst hji
        simp only [h, update_self, Phase.done.injEq, Except.ok.injEq] at hj
        rw [hself.1, ← hj, hid]
      · simp only [h, update_of_ne hji] at hj
        exact hself.2 _ (hr j res hj)
    rw [h]
    rcases hcase with ⟨hnone, records, hins, rfl⟩ | ⟨rfl, hsome, rfl⟩
    · have hrec : records.find r.requestId = some _ := Table.find_insert_self hins
      refine ⟨by simp [charged, hrec], fun id hid => ?_⟩
      simp [charged, hnone] at hid
    · obtain ⟨record, hrec⟩ := Option.ne_none_iff_exists'.mp hsome
      obtain ⟨c, hc, hcid⟩ := scan_first hscan
      simp only [stillFirst, hphase, hrec, hc, Bool.not_true, Bool.false_or,
        decide_eq_true_eq] at hfirst
      exact ⟨by simp [charged, hrec, ← hcid, hfirst], fun id hid => hid⟩

/-- The state after the calls have interleaved in a given way. -/
def outcome (r : Request) (calls : Fin n → Call) (db : DB) (acts : List (Action n)) : State n :=
  run (step r calls) (initial n db) acts

/-- **One charge, and every success names it.**  For every request with no record yet, every set of
subscriptions and every interleaving of any number of calls in which a call that can read a record
committed since its check still has the recorded subscription as its first choice: the quota used
grows by the amount on the charged subscription and nowhere else, so the total grows by it exactly
once if the request was recorded at all, and every successful call reports that subscription.
What lazy resets took off is on the side of the quota used as `cleared`. -/
theorem preConsume_charged_once (r : Request) (calls : Fin n → Call) (db : DB)
    (hfresh : db.records.find r.requestId = none) (acts : List (Action n))
    (hfirst : Respects (step r calls) (fun s a => stillFirst r calls s a = true) (initial n db) acts) :
    (∀ id, usedOf (outcome r calls db acts).db.subs id + (outcome r calls db acts).cleared id =
        usedOf db.subs id +
          if charged r (outcome r calls db acts) = some id then r.amount else 0) ∧
      totalUsed (outcome r calls db acts).db.subs + totalCleared (outcome r calls db acts) =
        totalUsed db.subs +
          (if (charged r (outcome r calls db acts)).isSome then r.amount else 0) ∧
      ∀ i result, (outcome r calls db acts).phase i = .done (.ok result) →
        charged r (outcome r calls db acts) = some result.userSubscriptionId := by
  obtain ⟨-, hledger⟩ := ledger_run hfresh acts
  refine ⟨hledger.used, ledger_total hledger, ?_⟩
  exact run_preserves_of_respects (I := Reported r)
    (fun s a hC hr => reported_step a hC hr) hfirst (fun i result h => nomatch h)

end Steps

/-! ### Two calls, two subscriptions -/

/-- Two subscriptions of a user, each with room for one request of 10 but not for two. -/
def twoSubscriptions : DB where
  subs := ⟨[{ id := 7, userId := 1, planId := 1, amountTotal := 10, endTime := 500 },
            { id := 8, userId := 1, planId := 1, amountTotal := 10, endTime := 600 }], by decide⟩
  records := .empty
  allocations := []

def tenUnits : Request := ⟨"req", 1, 10⟩

def twoCalls : Fin 2 → Call := fun _ =>
  ⟨⟨100, Location.fixed 0, fun _ => some { id := 1 }, 4⟩, "gpt", "default"⟩

/-- Both calls check, the first charges subscription 7 and fills it, the second then picks 8. -/
def raceTo (visible : Bool) : List (Action 2) :=
  [.check 0 true, .check 1 true, .lock 0 true, .finish 0 true true, .lock 1 true, .finish 1 true visible]

/-- The second call reports subscription 8, on which nothing was charged. -/
theorem preConsume_reports_uncharged :
    charged tenUnits (outcome tenUnits twoCalls twoSubscriptions (raceTo true)) = some 7 ∧
      usedOf (outcome tenUnits twoCalls twoSubscriptions (raceTo true)).db.subs 8 = 0 ∧
      (outcome tenUnits twoCalls twoSubscriptions (raceTo true)).phase 1 = .done (.ok ⟨8, 10, 10, 0, 0⟩) :=
  ⟨by decide, by decide, rfl⟩

/-- When the second call cannot read the record it fails, and the one success is right. -/
theorem preConsume_charged_once_unseen :
    twoSubscriptions.records.find "req" = none ∧
      (outcome tenUnits twoCalls twoSubscriptions (raceTo false)).phase 0 = .done (.ok ⟨7, 10, 10, 0, 10⟩) ∧
      charged tenUnits (outcome tenUnits twoCalls twoSubscriptions (raceTo false)) = some 7 :=
  ⟨by decide, rfl, (preConsume_charged_once tenUnits twoCalls twoSubscriptions (by decide)
    (raceTo false) (by decide)).2.2 0 ⟨7, 10, 10, 0, 10⟩ rfl⟩

end OneApi.Subscription.PreConsumeRace

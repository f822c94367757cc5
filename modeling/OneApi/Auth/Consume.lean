import OneApi.Auth.Flow
import OneApi.Lib.Procs

/-!
# Consumption of authentication flows

A consumption reads the flow, marks it as consumed by a conditional update and runs its action, all in
one transaction.  Any number of them run at the same time.  The read takes no lock and may be of an
earlier snapshot; all that is asked of the database is that a single update is atomic: it sees the
committed row, and the row it has changed is not changed by another transaction before it commits or
rolls back (an update that meets such a row waits, or fails).

A consumption inside the action of another one is a transaction of its own here; which of them commit is
left open.
-/

namespace OneApi.Auth.Consume

open OneApi.Lib OneApi.Lib.Run OneApi.Lib.Procs Function

structure AuthFlowMatch where
  purpose : String
  provider : String := ""
  intent : String := ""
  userId : ℤ := 0
  sessionId : String := ""
  deriving Repr, DecidableEq

/-- The optional fields are enforced when they are not zero. -/
def applyAuthFlowMatchConstraints (fields : AuthFlowMatch) (flow : AuthFlow) : Bool :=
  (fields.provider = "" || flow.provider = fields.provider) &&
    (fields.intent = "" || flow.intent = fields.intent) &&
    (fields.userId = 0 || flow.userId = fields.userId) &&
    (fields.sessionId = "" || flow.sessionId = fields.sessionId)

/-- How a flow is found: `ConsumeAuthFlowWithTx` or `ConsumeAuthFlowByIDWithTx`. -/
inductive Selector
  | token (raw : String)
  | flowID (id : ℤ)
  deriving Repr, DecidableEq

/-- A consumption, with what its action writes. -/
structure Consumption (ε : Type) where
  selector : Selector
  fields : AuthFlowMatch
  action : Option ε

abbrev Flows := Table AuthFlow AuthFlow.id

section Steps

variable {ε : Type} (authFlowTokenHash : String → String)

def Selector.valid : Selector → Bool
  | .token raw => raw ≠ ""
  | .flowID id => id > 0

def Selector.finds : Selector → AuthFlow → Bool
  | .token raw, flow => flow.tokenHash = authFlowTokenHash raw
  | .flowID id, flow => flow.id = id

/-- The condition of the query. -/
def Consumption.query (call : Consumption ε) (flow : AuthFlow) : Bool :=
  call.selector.finds authFlowTokenHash flow && flow.purpose = call.fields.purpose &&
    applyAuthFlowMatchConstraints call.fields flow

/-- Where a consumption stands.  Since its update it holds the row; its action has written, and what it
wrote is committed with the flow. -/
inductive Phase
  | start
  | read (flow : AuthFlow) (now : ℤ)
  | updated (flow : AuthFlow) (now : ℤ)
  | acted (flow : AuthFlow) (now : ℤ)
  | committed (flow : AuthFlow) (now : ℤ)
  | failed (error : AuthFlowError)
  deriving Repr, DecidableEq

structure Proc (ε : Type) where
  call : Consumption ε
  phase : Phase := .start

/-- The committed rows, the rows that a transaction has changed, and what actions have written. -/
structure Store (ε : Type) where
  flows : Flows
  changed : ℤ → Bool := fun _ => false
  written : List ε := []

/-- The next step of a consumption.  `ok = false` is a statement, an action or a commit that fails;
`visible` is whether the read sees a consumption that is committed. -/
inductive Action
  | read (now : ℤ) (visible ok : Bool)
  | update (ok : Bool)
  | act (ok : Bool)
  | commit (ok : Bool)
  deriving Repr, DecidableEq

/-- The checks on the row that was read. -/
def checkFlow (now : ℤ) (flow : AuthFlow) : Phase :=
  if flow.consumedAt ≠ none then .failed .consumed
  else if ¬ flow.expiresAt > now then .failed .expired
  else .read flow now

def readFlow (call : Consumption ε) (now : ℤ) (visible ok : Bool) (flows : Flows) : Phase :=
  if !call.selector.valid || call.fields.purpose = "" then .failed .invalid
  else if !ok then .failed .database
  else
    match flows.rows.find? (call.query authFlowTokenHash) with
    | none => .failed .invalid
    | some flow => checkFlow now (if visible then flow else { flow with consumedAt := none })

/-- The condition of the update, beside the id. -/
def isOpen (now : ℤ) (flow : AuthFlow) : Bool := flow.consumedAt = none && flow.expiresAt > now

def setChanged (changed : ℤ → Bool) (id : ℤ) (b : Bool) : ℤ → Bool := update changed id b

/-- One step.  An action the consumption is not ready for does nothing, and neither does an update that
waits for another transaction. -/
def act (x : Store ε) (p : Proc ε) : Action → Store ε × Proc ε
  | .read now visible ok =>
    match p.phase with
    | .start => (x, { p with phase := readFlow authFlowTokenHash p.call now visible ok x.flows })
    | _ => (x, p)
  | .update ok =>
    match p.phase with
    | .read flow now =>
      if !ok then (x, { p with phase := .failed .database })
      else if x.changed flow.id then (x, p)
      else if (x.flows.find flow.id).any (isOpen now) then
        ({ x with changed := setChanged x.changed flow.id true },
          { p with phase := .updated flow now })
      else (x, { p with phase := .failed .consumed })
    | _ => (x, p)
  | .act ok =>
    match p.phase with
    | .updated flow now =>
      if p.call.action = none ∨ ok then (x, { p with phase := .acted flow now })
      else
        ({ x with changed := setChanged x.changed flow.id false },
          { p with phase := .failed .action })
    | _ => (x, p)
  | .commit ok =>
    match p.phase with
    | .acted flow now =>
      if ok then
        ({ flows := x.flows.updateWhere (fun row => row.id = flow.id)
            (fun row => { row with consumedAt := some now }) fun _ => rfl
           changed := setChanged x.changed flow.id false
           written := x.written ++ p.call.action.toList },
          { p with phase := .committed flow now })
      else
        ({ x with changed := setChanged x.changed flow.id false },
          { p with phase := .failed .database })
    | _ => (x, p)

end Steps

variable {ε : Type} {authFlowTokenHash : String → String} {x : Store ε} {p : Proc ε}

/-! ## What a step does -/

/-- The row that a transaction has changed. -/
def Proc.held (p : Proc ε) : Option ℤ :=
  match p.phase with
  | .updated flow _ => some flow.id
  | .acted flow _ => some flow.id
  | _ => none

/-- The flow that a consumption has consumed. -/
def Proc.consumed (p : Proc ε) : Option ℤ :=
  match p.phase with
  | .committed flow _ => some flow.id
  | _ => none

/-- The consumption was told of this row, up to whether it is consumed. -/
def Found (authFlowTokenHash : String → String) (call : Consumption ε) (flows : Flows) (flow : AuthFlow) : Prop :=
  ∃ row, flows.find flow.id = some row ∧ call.query authFlowTokenHash row = true ∧
    { flow with consumedAt := none } = { row with consumedAt := none }

/-- The steps, with what is known when they are taken. -/
inductive Moves (authFlowTokenHash : String → String) (x : Store ε) (p : Proc ε) :
    Store ε → Proc ε → Prop
  | stay : Moves authFlowTokenHash x p x p
  | fail (e : AuthFlowError) (hconsumed : p.consumed = none) :
      Moves authFlowTokenHash x p x { p with phase := .failed e }
  | read (flow : AuthFlow) (now : ℤ) (h : p.phase = .start)
      (hfound : Found authFlowTokenHash p.call x.flows flow) :
      Moves authFlowTokenHash x p x { p with phase := .read flow now }
  | update (flow : AuthFlow) (now : ℤ) (h : p.phase = .read flow now)
      (hfree : x.changed flow.id = false) (hopen : (x.flows.find flow.id).any (isOpen now) = true) :
      Moves authFlowTokenHash x p { x with changed := setChanged x.changed flow.id true }
        { p with phase := .updated flow now }
  | act (flow : AuthFlow) (now : ℤ) (h : p.phase = .updated flow now) :
      Moves authFlowTokenHash x p x { p with phase := .acted flow now }
  | rollback (flow : AuthFlow) (now : ℤ) (e : AuthFlowError)
      (h : p.phase = .updated flow now ∨ p.phase = .acted flow now) :
      Moves authFlowTokenHash x p { x with changed := setChanged x.changed flow.id false }
        { p with phase := .failed e }
  | commit (flow : AuthFlow) (now : ℤ) (h : p.phase = .acted flow now) :
      Moves authFlowTokenHash x p
        { flows := x.flows.updateWhere (fun row => row.id = flow.id)
            (fun row => { row with consumedAt := some now }) fun _ => rfl
          changed := setChanged x.changed flow.id false
          written := x.written ++ p.call.action.toList }
        { p with phase := .committed flow now }

theorem checkFlow_cases (now : ℤ) (flow : AuthFlow) :
    (∃ e, checkFlow now flow = .failed e) ∨ checkFlow now flow = .read flow now := by
  rw [checkFlow]
  split
  · exact .inl ⟨_, rfl⟩
  split
  · exact .inl ⟨_, rfl⟩
  · exact .inr rfl

/-- The read fails, or gives a row of the table. -/
theorem readFlow_cases (call : Consumption ε) (now : ℤ) (visible ok : Bool) (flows : Flows) :
    (∃ e, readFlow authFlowTokenHash call now visible ok flows = .failed e) ∨
      ∃ flow, readFlow authFlowTokenHash call now visible ok flows = .read flow now ∧
        Found authFlowTokenHash call flows flow := by
  rw [readFlow]
  split
  · exact .inl ⟨_, rfl⟩
  split
  · exact .inl ⟨_, rfl⟩
  split
  · exact .inl ⟨_, rfl⟩
  next row hrow =>
    have hfind : flows.find row.id = some row := Table.find_of_mem (List.mem_of_find?_eq_some hrow)
    have hquery : call.query authFlowTokenHash row = true := List.find?_some hrow
    have hcore : ∀ visible : Bool, Found authFlowTokenHash call flows
        (if visible then row else { row with consumedAt := none }) := by
      intro visible
      cases visible <;> exact ⟨row, hfind, hquery, rfl⟩
    rcases checkFlow_cases now (if visible then row else { row with consumedAt := none }) with
      ⟨e, he⟩ | hread
    · exact .inl ⟨e, he⟩
    · exact .inr ⟨_, hread, hcore visible⟩

theorem act_moves (a : Action) :
    Moves authFlowTokenHash x p (act authFlowTokenHash x p a).1 (act authFlowTokenHash x p a).2 := by
  cases a with
  | read now visible ok =>
    rw [act]
    split
    next hphase =>
      have hconsumed : p.consumed = none := by rw [Proc.consumed, hphase]
      rcases readFlow_cases p.call now visible ok x.flows with
        ⟨e, he⟩ | ⟨flow, hflow, hfound⟩
      · rw [he]
        exact .fail e hconsumed
      · rw [hflow]
        exact .read flow now hphase hfound
    next => exact .stay
  | update ok =>
    rw [act]
    split
    next flow now hphase =>
      have hconsumed : p.consumed = none := by rw [Proc.consumed, hphase]
      split
      · exact .fail .database hconsumed
      split
      · exact .stay
      next hfree =>
        split
        next hopen => exact .update flow now hphase (Bool.eq_false_iff.mpr hfree) hopen
        next => exact .fail .consumed hconsumed
    next => exact .stay
  | act ok =>
    rw [act]
    split
    next flow now hphase =>
      split
      · exact .act flow now hphase
      · exact .rollback flow now .action (.inl hphase)
    next => exact .stay
  | commit ok =>
    rw [act]
    split
    next flow now hphase =>
      split
      · exact .commit flow now hphase
      · exact .rollback flow now .database (.inr hphase)
    next => exact .stay

/-! ## The invariant -/

/-- A row is as it was, or it was open and has been consumed. -/
def Evolves (row row' : Option AuthFlow) : Prop :=
  row' = row ∨ ∃ flow now, row = some flow ∧ flow.consumedAt = none ∧ row' = some { flow with consumedAt := some now }

def Evolved (flows flows' : Flows) : Prop := ∀ id, Evolves (flows.find id) (flows'.find id)

/-- What is known of a consumption, when the table was `flows` at the start. -/
def Stands (authFlowTokenHash : String → String) (flows : Flows) (x : Store ε) (p : Proc ε) : Prop :=
  match p.phase with
  | .start => True
  | .failed _ => True
  | .read flow _ => Found authFlowTokenHash p.call flows flow
  | .updated flow _ => Found authFlowTokenHash p.call flows flow ∧
      ∃ row, x.flows.find flow.id = some row ∧ flows.find flow.id = some row ∧ row.consumedAt = none
  | .acted flow _ => Found authFlowTokenHash p.call flows flow ∧
      ∃ row, x.flows.find flow.id = some row ∧ flows.find flow.id = some row ∧ row.consumedAt = none
  | .committed flow now => Found authFlowTokenHash p.call flows flow ∧
      ∃ row, flows.find flow.id = some row ∧ row.consumedAt = none ∧
        x.flows.find flow.id = some { row with consumedAt := some now }

variable {flows : Flows} {x' : Store ε} {p' q : Proc ε}

/-- The query does not ask whether the flow is consumed. -/
theorem query_consumedAt (call : Consumption ε) (flow : AuthFlow) (consumedAt : Option ℤ) :
    call.query authFlowTokenHash { flow with consumedAt } = call.query authFlowTokenHash flow := by
  rw [Consumption.query, Consumption.query]
  cases call.selector <;> rfl

/-- What a consumption reads is a row of the first table, up to whether it is consumed. -/
theorem Found.of_evolved {call : Consumption ε} {flow : AuthFlow} {flows' : Flows}
    (h : Found authFlowTokenHash call flows' flow) (hevolved : Evolved flows flows') :
    Found authFlowTokenHash call flows flow := by
  obtain ⟨row, hfind, hquery, hcore⟩ := h
  rcases hevolved flow.id with hsame | ⟨row₀, now, hrow₀, _, hrow⟩
  · exact ⟨row, hsame.symm.trans hfind, hquery, hcore⟩
  · rw [hfind] at hrow
    cases hrow
    rw [query_consumedAt] at hquery
    exact ⟨row₀, hrow₀, hquery, hcore⟩

/-- The row after a commit. -/
theorem find_commit (flow : AuthFlow) (now : ℤ) (id : ℤ) :
    (x.flows.updateWhere (fun row => row.id = flow.id)
      (fun row => { row with consumedAt := some now }) fun _ => rfl).find id
      = if id = flow.id then (x.flows.find id).map fun row => { row with consumedAt := some now }
        else x.flows.find id := by
  rw [Table.find_updateWhere]
  cases hfind : x.flows.find id with
  | none =>
    split
    · rfl
    · rfl
  | some row =>
    have hid : row.id = id := Table.find_key hfind
    rw [Option.map_some, Option.map_some]
    by_cases heq : id = flow.id
    · rw [if_pos heq, if_pos (decide_eq_true (hid.trans heq))]
    · rw [if_neg heq, if_neg]
      rw [decide_eq_true_eq, hid]
      exact heq

/-- An open row of the current table is the row of the first one. -/
theorem Evolved.find_of_open (h : Evolved flows x.flows) {id now : ℤ}
    (hopen : (x.flows.find id).any (isOpen now) = true) :
    ∃ row, x.flows.find id = some row ∧ flows.find id = some row ∧ row.consumedAt = none := by
  cases hfind : x.flows.find id with
  | none =>
    rw [hfind] at hopen
    cases hopen
  | some row =>
    rw [hfind, Option.any_some, isOpen, Bool.and_eq_true, decide_eq_true_eq] at hopen
    refine ⟨row, rfl, ?_, hopen.1⟩
    rcases h id with hsame | ⟨row₀, now', _, _, hrow⟩
    · exact hsame.symm.trans hfind
    · rw [hfind] at hrow
      cases hrow
      cases hopen.1

section

variable (h : Moves authFlowTokenHash x p x' p')

include h

theorem Moves.evolved (hevolved : Evolved flows x.flows)
    (hp : Stands authFlowTokenHash flows x p) : Evolved flows x'.flows := by
  cases h with
  | commit flow now hphase =>
    rw [Stands, hphase] at hp
    obtain ⟨_, row, hfind, hfirst, hopen⟩ := hp
    intro id
    rw [find_commit]
    by_cases hid : id = flow.id
    · rw [if_pos hid, hid, hfind, hfirst]
      exact .inr ⟨row, now, rfl, hopen, rfl⟩
    · rw [if_neg hid]
      exact hevolved id
  | _ => exact hevolved

theorem Moves.stands_self (hevolved : Evolved flows x.flows)
    (hp : Stands authFlowTokenHash flows x p) : Stands authFlowTokenHash flows x' p' := by
  cases h with
  | stay => exact hp
  | fail e | rollback flow now e hphase => trivial
  | read flow now hphase hfound => exact hfound.of_evolved hevolved
  | update flow now hphase hfree hopen =>
    rw [Stands, hphase] at hp
    exact ⟨hp, hevolved.find_of_open hopen⟩
  | act flow now hphase =>
    rw [Stands, hphase] at hp
    exact hp
  | commit flow now hphase =>
    rw [Stands, hphase] at hp
    obtain ⟨hfound, row, hfind, hfirst, hopen⟩ := hp
    refine ⟨hfound, row, hfirst, hopen, ?_⟩
    rw [find_commit, if_pos rfl, hfind]
    rfl

/-- A consumption is not touched by the move of another one, which holds another row. -/
theorem Moves.stands_other (hp : Stands authFlowTokenHash flows x p) (hq : Stands authFlowTokenHash flows x q)
    (hdisjoint : ∀ k, p.held = some k → q.held ≠ some k) : Stands authFlowTokenHash flows x' q := by
  cases h with
  | commit flow now hphase =>
    rw [Stands, hphase] at hp
    obtain ⟨_, row, hfind, _, hopen⟩ := hp
    have hheld : p.held = some flow.id := by rw [Proc.held, hphase]
    have hq' := hdisjoint flow.id hheld
    rw [Proc.held] at hq'
    rw [Stands] at hq ⊢
    -- the row of the commit is open, and `q` does not hold it
    have hkept : ∀ id, id ≠ flow.id → (x.flows.updateWhere (fun row => row.id = flow.id)
        (fun row => { row with consumedAt := some now }) fun _ => rfl).find id = x.flows.find id := by
      intro id hid
      rw [find_commit, if_neg hid]
    cases hphase' : q.phase with
    | start | failed e => trivial
    | read flow' now' =>
      rw [hphase'] at hq
      exact hq
    | updated flow' now' | acted flow' now' =>
      rw [hphase'] at hq hq'
      obtain ⟨hfound, row', hfind', hrest⟩ := hq
      have hne : flow'.id ≠ flow.id := fun heq => hq' (congrArg some heq)
      exact ⟨hfound, row', (hkept flow'.id hne).trans hfind', hrest⟩
    | committed flow' now' =>
      rw [hphase'] at hq
      obtain ⟨hfound, row', hfirst', hopen', hfind'⟩ := hq
      have hne : flow'.id ≠ flow.id := by
        intro heq
        rw [heq, hfind] at hfind'
        cases hfind'
        cases hopen
      exact ⟨hfound, row', hfirst', hopen', (hkept flow'.id hne).trans hfind'⟩
  | _ => exact hq

theorem Moves.call : p'.call = p.call := by
  cases h <;> rfl

theorem Moves.takes (hlocked : ∀ k, p.held = some k → x.changed k = true) {k : ℤ} (hk : p'.held = some k) :
    x'.changed k = true ∧ (p.held = some k ∨ x.changed k = false) := by
  cases h with
  | stay => exact ⟨hlocked k hk, .inl hk⟩
  | fail e | read flow now | rollback flow now e | commit flow now => cases hk
  | update flow now hphase hfree =>
    cases hk
    exact ⟨update_self .., .inr hfree⟩
  | act flow now hphase =>
    cases hk
    have hheld : p.held = some flow.id := by rw [Proc.held, hphase]
    exact ⟨hlocked flow.id hheld, .inl hheld⟩

theorem Moves.frees {k : ℤ} (hk : x.changed k = true) (hnot : p.held ≠ some k) : x'.changed k = true := by
  have hfree : ∀ flow : AuthFlow, p.held = some flow.id → setChanged x.changed flow.id false k = true := by
    intro flow hheld
    have hne : k ≠ flow.id := fun heq => hnot (hheld.trans (congrArg some heq.symm))
    rw [setChanged, update_of_ne hne]
    exact hk
  cases h with
  | update flow now =>
    show setChanged x.changed flow.id true k = true
    rw [setChanged, update_apply]
    split
    · rfl
    · exact hk
  | rollback flow now e hphase =>
    refine hfree flow ?_
    rcases hphase with hphase | hphase <;> rw [Proc.held, hphase]
  | commit flow now hphase => exact hfree flow (by rw [Proc.held, hphase])
  | _ => exact hk

end

/-- What the action of a consumption has written for good. -/
def Proc.effect (p : Proc ε) : Multiset ε := if p.consumed.isSome then p.call.action.toList else 0

/-- Whether the row of a flow is not the one it was. -/
def isChanged (flows : Flows) (x : Store ε) (id : ℤ) : Bool := x.flows.find id ≠ flows.find id

/-- The rows change at a commit only, which consumes the row that changes. -/
theorem Moves.rows (h : Moves authFlowTokenHash x p x' p') (hp : Stands authFlowTokenHash flows x p) :
    (x'.flows = x.flows ∧ x'.written = x.written ∧ p'.consumed = p.consumed) ∨
      ∃ id, p.consumed = none ∧ p'.consumed = some id ∧ isChanged flows x id = false ∧
        isChanged flows x' id = true ∧ (∀ k, k ≠ id → x'.flows.find k = x.flows.find k) ∧
        x'.written = x.written ++ p.call.action.toList := by
  cases h with
  | stay => exact .inl ⟨rfl, rfl, rfl⟩
  | fail e hconsumed => exact .inl ⟨rfl, rfl, hconsumed.symm⟩
  | read flow now hphase | update flow now hphase | act flow now hphase =>
    exact .inl ⟨rfl, rfl, by rw [Proc.consumed, Proc.consumed, hphase]⟩
  | rollback flow now e hphase =>
    refine .inl ⟨rfl, rfl, ?_⟩
    rcases hphase with hphase | hphase <;> rw [Proc.consumed, Proc.consumed, hphase]
  | commit flow now hphase =>
    rw [Stands, hphase] at hp
    obtain ⟨_, row, hfind, hfirst, hopen⟩ := hp
    refine .inr ⟨flow.id, by rw [Proc.consumed, hphase], rfl, ?_, ?_, fun k hk => ?_, rfl⟩
    · rw [isChanged, hfind, hfirst]
      exact decide_eq_false fun h => h rfl
    · rw [isChanged, decide_eq_true_eq, find_commit, if_pos rfl, hfind, hfirst]
      intro heq
      rw [← Option.some.inj heq] at hopen
      cases hopen
    · exact (find_commit flow now k).trans (if_neg hk)

/-! ## Every run -/

section Runs

variable {ι : Type} [DecidableEq ι] [Fintype ι]

def initial (calls : ι → Consumption ε) (flows : Flows) : System ι (Store ε) (Proc ε) :=
  ⟨{ flows }, fun i => { call := calls i }⟩

structure Consistent (authFlowTokenHash : String → String) (calls : ι → Consumption ε) (flows : Flows)
    (s : System ι (Store ε) (Proc ε)) : Prop where
  called : ∀ i, (s.proc i).call = calls i
  holds : Holds (fun x => Evolved flows x.flows) (Stands authFlowTokenHash flows) s
  held : Exclusive Proc.held Store.changed s
  consumed : Exclusive Proc.consumed (isChanged flows) s
  consumer : ∀ id, isChanged flows s.shared id = true → ∃ i, (s.proc i).consumed = some id
  written : (s.shared.written : Multiset ε) = total Proc.effect s

variable {calls : ι → Consumption ε} {s : System ι (Store ε) (Proc ε)}

omit [DecidableEq ι] in
theorem consistent_initial : Consistent authFlowTokenHash calls flows (initial calls flows) where
  called _ := rfl
  holds := ⟨fun _ => .inl rfl, fun _ => trivial⟩
  held := .of_none fun _ => rfl
  consumed := .of_none fun _ => rfl
  consumer _ h := absurd rfl (of_decide_eq_true h)
  written := (Finset.sum_eq_zero fun _ _ => rfl).symm

/-- One step. -/
theorem Consistent.move (h : Consistent authFlowTokenHash calls flows s) (a : ι × Action) :
    Consistent authFlowTokenHash calls flows (move (act authFlowTokenHash) s a) := by
  have hmoves : Moves authFlowTokenHash s.shared (s.proc a.1) _ _ := act_moves a.2
  have hself := h.holds.proc a.1
  have hrows := hmoves.rows hself
  refine ⟨fun i => ?_, h.holds.move (fun hI hJ => ⟨hmoves.evolved hI hJ, hmoves.stands_self hI hJ⟩)
    fun j hj hJ => ?_, h.held.move (fun k hk => hmoves.takes (h.held.locked a.1) hk)
    fun k hk hnot => hmoves.frees hk hnot, h.consumed.move (fun k hk => ?_) fun k hk hnot => ?_,
    fun k hk => ?_, ?_⟩
  · by_cases hi : i = a.1
    · rw [hi, move_self, hmoves.call, h.called]
    · rw [move_other _ _ _ hi, h.called]
  · exact hmoves.stands_other hself hJ fun k hk hk' => hj (h.held.single j a.1 k hk' hk)
  · rcases hrows with ⟨hflows, _, hsame⟩ | ⟨id, _, hid, hfree, hchanged, _, _⟩
    · rw [hsame] at hk
      rw [isChanged, hflows]
      exact ⟨h.consumed.locked a.1 k hk, .inl hk⟩
    · obtain rfl : id = k := Option.some.inj (hid.symm.trans hk)
      exact ⟨hchanged, .inr hfree⟩
  · rcases hrows with ⟨hflows, _⟩ | ⟨id, _, _, _, hchanged, hkept, _⟩
    · rw [isChanged, hflows]
      exact hk
    · by_cases heq : k = id
      · rw [heq]
        exact hchanged
      · rw [isChanged, hkept k heq]
        exact hk
  · -- who consumed the row before the step has still done so
    have hold : isChanged flows s.shared k = true →
        ((act authFlowTokenHash s.shared (s.proc a.1) a.2).2.consumed = (s.proc a.1).consumed ∨
          (s.proc a.1).consumed = none) →
        ∃ i, ((Procs.move (act authFlowTokenHash) s a).proc i).consumed = some k := by
      intro hbefore hconsumed
      obtain ⟨i, hi⟩ := h.consumer k hbefore
      refine ⟨i, ?_⟩
      by_cases hia : i = a.1
      · subst hia
        rw [move_self]
        rcases hconsumed with hsame | hnone
        · exact hsame.trans hi
        · rw [hnone] at hi
          cases hi
      · rw [move_other _ _ _ hia]
        exact hi
    rw [move_shared] at hk
    rcases hrows with ⟨hflows, _, hsame⟩ | ⟨id, hnone, hid, _, _, hkept, _⟩
    · rw [isChanged, hflows] at hk
      exact hold hk (.inl hsame)
    · by_cases heq : k = id
      · refine ⟨a.1, ?_⟩
        rw [move_self, hid, heq]
      · rw [isChanged, hkept k heq] at hk
        exact hold hk (.inr hnone)
  · have htotal := total_move_add (act authFlowTokenHash) Proc.effect s a
    rw [← h.written] at htotal
    rw [move_shared]
    rcases hrows with ⟨_, hwritten, hsame⟩ | ⟨id, hnone, hid, _, _, _, hwritten⟩
    · rw [Proc.effect, Proc.effect, hsame, hmoves.call] at htotal
      rw [hwritten]
      exact (add_right_cancel htotal).symm
    · rw [Proc.effect, Proc.effect, hnone, hid, hmoves.call] at htotal
      rw [hwritten, ← Multiset.coe_add]
      exact ((add_zero _).symm.trans htotal).symm

theorem consistent_run (authFlowTokenHash : String → String) (calls : ι → Consumption ε)
    (flows : Flows) (acts : List (ι × Action)) :
    Consistent authFlowTokenHash calls flows (run (move (act authFlowTokenHash)) (initial calls flows) acts) :=
  run_preserves (I := Consistent authFlowTokenHash calls flows) (fun _ a h => h.move a) acts
    consistent_initial

/-- **A flow is consumed at most once.**  Of any number of consumptions, in any interleaving, at most
one commits for a flow; a flow for which none has committed, whatever has failed, is as it was.  The flow
of a consumption that commits was open, is found by its token or id, and has its purpose and the
optional fields that it asked for; and what is written is what the actions of the committed ones write,
each once. -/
theorem authFlow_consumed_once (authFlowTokenHash : String → String) (calls : ι → Consumption ε)
    (flows : Flows) (acts : List (ι × Action)) :
    (∀ id i j,
        ((run (move (act authFlowTokenHash)) (initial calls flows) acts).proc i).consumed = some id →
        ((run (move (act authFlowTokenHash)) (initial calls flows) acts).proc j).consumed = some id →
        i = j) ∧
      (∀ id, (∀ i,
          ((run (move (act authFlowTokenHash)) (initial calls flows) acts).proc i).consumed ≠ some id) →
        (run (move (act authFlowTokenHash)) (initial calls flows) acts).shared.flows.find id = flows.find id) ∧
      (∀ i flow now,
        ((run (move (act authFlowTokenHash)) (initial calls flows) acts).proc i).phase = .committed flow now →
        ∃ row, flows.find flow.id = some row ∧ row.consumedAt = none ∧
          (run (move (act authFlowTokenHash)) (initial calls flows) acts).shared.flows.find flow.id
            = some { row with consumedAt := some now } ∧
          (calls i).selector.finds authFlowTokenHash row = true ∧
          row.purpose = (calls i).fields.purpose ∧
          ((calls i).fields.provider ≠ "" → row.provider = (calls i).fields.provider) ∧
          ((calls i).fields.intent ≠ "" → row.intent = (calls i).fields.intent) ∧
          ((calls i).fields.userId ≠ 0 → row.userId = (calls i).fields.userId) ∧
          ((calls i).fields.sessionId ≠ "" → row.sessionId = (calls i).fields.sessionId)) ∧
      ((run (move (act authFlowTokenHash)) (initial calls flows) acts).shared.written : Multiset ε)
        = ∑ i, if ((run (move (act authFlowTokenHash)) (initial calls flows) acts).proc i).consumed.isSome
            then ((calls i).action.toList : Multiset ε) else 0 := by
  have h := consistent_run authFlowTokenHash calls flows acts
  generalize run (move (act authFlowTokenHash)) (initial calls flows) acts = s at h ⊢
  refine ⟨fun id i j => h.consumed.single i j id, fun id hnone => ?_, fun i flow now hphase => ?_, ?_⟩
  · by_contra hne
    obtain ⟨i, hi⟩ := h.consumer id (decide_eq_true hne)
    exact hnone i hi
  · have hi := h.holds.proc i
    rw [Stands, hphase] at hi
    obtain ⟨⟨row, hfind, hquery, _⟩, row', hfirst, hopen, hnow⟩ := hi
    obtain rfl : row = row' := Option.some.inj (hfind.symm.trans hfirst)
    rw [h.called] at hquery
    refine ⟨row, hfind, hopen, hnow, ?_⟩
    simpa [Consumption.query, applyAuthFlowMatchConstraints, or_iff_not_imp_left, and_assoc] using hquery
  · rw [h.written, total]
    refine Finset.sum_congr rfl fun i _ => ?_
    rw [Proc.effect, h.called]

end Runs

def loginFlow : AuthFlow :=
  { id := 1, tokenHash := "t", purpose := "oauth", provider := "github", intent := "login", userId := 0,
    sessionId := "", expiresAt := 600, consumedAt := none }

/-- Two requests with the same token. -/
def loginCalls : Two → Consumption String
  | .first => ⟨.token "t", { purpose := "oauth", provider := "github" }, some "first"⟩
  | .second => ⟨.token "t", { purpose := "oauth" }, some "second"⟩

/-- Both read the open flow, and the second updates the row before the first, but its action fails. -/
def loginActions : List (Two × Action) :=
  [(.first, .read 10 true true), (.second, .read 10 true true), (.second, .update true),
    (.first, .update true), (.second, .act false), (.first, .update true), (.first, .act true),
    (.first, .commit true)]

theorem loginActions_consumed :
    ((run (move (act id)) (initial loginCalls (.single loginFlow)) loginActions).proc .first).consumed
        = some 1 ∧
      (run (move (act id)) (initial loginCalls (.single loginFlow)) loginActions).shared.written = ["first"] ∧
      ((run (move (act id)) (initial loginCalls (.single loginFlow)) loginActions).proc .second).consumed ≠ some 1 :=
  have hfirst : ((run (move (act id)) (initial loginCalls (.single loginFlow)) loginActions).proc
      .first).consumed = some 1 := by decide +kernel
  ⟨hfirst, by decide +kernel, fun hsecond =>
    Two.noConfusion ((authFlow_consumed_once id loginCalls (.single loginFlow) loginActions).1
      1 .first .second hfirst hsecond)⟩

end OneApi.Auth.Consume

import OneApi.Auth.Flow
import OneApi.Lib.Run

/-!
# Assertions of external providers

`ClaimExternalAuthAssertion` inserts a row under the hash of the assertion; the unique index refuses a
second one.  `DeleteExpiredAuthFlows` deletes rows a day after they expired or were consumed, so a
claimed assertion can be forgotten, and claimed again, a day after its claim.  By then it has expired,
if its expiry time was at most a day ahead.
-/

namespace OneApi.Auth.Assertion

open OneApi.Lib OneApi.Lib.Run

/-- A call of `ClaimExternalAuthAssertion`, with the time it reads. -/
structure Claim where
  now : ℤ
  purpose : String
  assertion : String
  expiresAt : ℤ
  deriving Repr, DecidableEq

abbrev Flows := Table AuthFlow AuthFlow.tokenHash

section Steps

-- the keyed hash
variable (authFlowTokenHash : String → String)

def Claim.tokenHash (c : Claim) : String :=
  authFlowTokenHash ("external:" ++ Go.trimSpace c.purpose ++ ":" ++ Go.trimSpace c.assertion)

/-- The row of a claim, under the id that the database gives it. -/
def Claim.row (c : Claim) (id : ℤ) : AuthFlow where
  id := id
  tokenHash := c.tokenHash authFlowTokenHash
  purpose := Go.trimSpace c.purpose
  expiresAt := c.expiresAt
  consumedAt := some c.now

/-- `ClaimExternalAuthAssertion`, when its statements do not fail. -/
def claimExternalAuthAssertion (c : Claim) (id : ℤ) (flows : Flows) : Except AuthFlowError Flows :=
  if Go.trimSpace c.purpose = "" ∨ Go.trimSpace c.assertion = "" ∨ ¬ c.expiresAt > c.now then
    .error .invalid
  else
    match flows.insert (c.row authFlowTokenHash id) with
    | none => .error .consumed
    | some flows => .ok flows

/-- The condition of the `DELETE`. -/
def isStale (cutoff : ℤ) (flow : AuthFlow) : Bool :=
  flow.expiresAt < cutoff || flow.consumedAt.any fun consumedAt => consumedAt < cutoff

def deleteExpiredAuthFlows (now : ℤ) (flows : Flows) : Flows :=
  flows.deleteWhere (isStale (now - authFlowDefaultCleanupRetention))

inductive Action
  | claim (c : Claim) (id : ℤ) (ok : Bool)
  | cleanup (now : ℤ) (ok : Bool)
  deriving Repr, DecidableEq

def Action.now : Action → ℤ
  | .claim c _ _ => c.now
  | .cleanup now _ => now

/-- The table, and the claims that succeeded. -/
structure State where
  flows : Flows
  accepted : List Claim := []

/-- One call; `ok = false` is a statement that fails, and nothing is committed. -/
def step (s : State) : Action → State
  | .claim c id ok =>
    if ok then
      match claimExternalAuthAssertion authFlowTokenHash c id s.flows with
      | .ok flows => { flows, accepted := s.accepted ++ [c] }
      | .error _ => s
    else s
  | .cleanup now ok => if ok then { s with flows := deleteExpiredAuthFlows now s.flows } else s

end Steps

/-- The two claims are of one assertion. -/
def SameAssertion (c c' : Claim) : Prop :=
  Go.trimSpace c.purpose = Go.trimSpace c'.purpose ∧ Go.trimSpace c.assertion = Go.trimSpace c'.assertion

instance (c c' : Claim) : Decidable (SameAssertion c c') := inferInstanceAs (Decidable (_ ∧ _))

/-- The expiry time is at most a day ahead. -/
def AtMostADayAhead : Action → Prop
  | .claim c _ _ => c.expiresAt ≤ c.now + 24 * Go.hour
  | .cleanup _ _ => True

instance : ∀ a, Decidable (AtMostADayAhead a)
  | .claim c _ _ => inferInstanceAs (Decidable (c.expiresAt ≤ c.now + 24 * Go.hour))
  | .cleanup _ _ => isTrue trivial

variable {authFlowTokenHash : String → String} {s : State} {t : ℤ}

theorem tokenHash_eq {c c' : Claim} (h : SameAssertion c c') :
    c.tokenHash authFlowTokenHash = c'.tokenHash authFlowTokenHash := by
  rw [Claim.tokenHash, Claim.tokenHash, h.1, h.2]

variable {c : Claim}

/-- What a successful claim has done. -/
theorem claim_ok {id : ℤ} {flows flows' : Flows}
    (h : claimExternalAuthAssertion authFlowTokenHash c id flows = .ok flows') :
    c.now < c.expiresAt ∧ flows.insert (c.row authFlowTokenHash id) = some flows' := by
  rw [claimExternalAuthAssertion] at h
  split at h
  next => cases h
  next hvalid =>
    rw [not_or, not_or, not_not] at hvalid
    split at h
    next => cases h
    next hinsert =>
      cases h
      exact ⟨hvalid.2.2, hinsert⟩

/-- What holds of the claims that succeeded, at a time `t`: their rows are there, or they have expired. -/
structure Remembered (authFlowTokenHash : String → String) (t : ℤ) (s : State) : Prop where
  ahead : ∀ c ∈ s.accepted, c.expiresAt ≤ c.now + 24 * Go.hour
  live : ∀ c ∈ s.accepted, c.now < c.expiresAt
  kept : ∀ c ∈ s.accepted, (∃ id, s.flows.find (c.tokenHash authFlowTokenHash)
    = some (c.row authFlowTokenHash id)) ∨ c.expiresAt ≤ t
  spaced : s.accepted.Pairwise fun c c' => SameAssertion c c' → c.expiresAt ≤ c'.now

variable (h : Remembered authFlowTokenHash t s)

include h in
theorem Remembered.claim {id : ℤ} {flows : Flows} (ht : t ≤ c.now) (hahead : c.expiresAt ≤ c.now + 24 * Go.hour)
    (hok : claimExternalAuthAssertion authFlowTokenHash c id s.flows = .ok flows) :
    Remembered authFlowTokenHash c.now { flows, accepted := s.accepted ++ [c] } := by
  obtain ⟨hlive, hinsert⟩ := claim_ok hok
  -- a claim with the same hash has no row any more, so it has expired
  have hold : ∀ c' ∈ s.accepted, c'.tokenHash authFlowTokenHash = c.tokenHash authFlowTokenHash →
      c'.expiresAt ≤ c.now := by
    intro c' hc' hhash
    rcases h.kept c' hc' with ⟨id', hfind⟩ | hexpired
    · have hnone : s.flows.find (c.tokenHash authFlowTokenHash) = none :=
        Table.find_eq_none_of_insert hinsert
      rw [hhash, hnone] at hfind
      cases hfind
    · exact hexpired.trans ht
  have hlast : ∀ {P : Claim → Prop}, (∀ c' ∈ s.accepted, P c') → P c → ∀ c' ∈ s.accepted ++ [c], P c' := by
    intro P hall hc c' hc'
    rcases List.mem_append.mp hc' with hmem | hmem
    · exact hall c' hmem
    · rw [List.mem_singleton.mp hmem]
      exact hc
  refine ⟨hlast h.ahead hahead, hlast h.live hlive, hlast (fun c' hc' => ?_) ?_, ?_⟩
  · by_cases hhash : c'.tokenHash authFlowTokenHash = c.tokenHash authFlowTokenHash
    · exact .inr (hold c' hc' hhash)
    · refine (h.kept c' hc').imp (fun ⟨id', hfind⟩ => ⟨id', ?_⟩) fun hexpired => hexpired.trans ht
      rw [Table.find_insert_of_ne hinsert hhash]
      exact hfind
  · exact .inl ⟨id, Table.find_insert_self hinsert⟩
  · refine List.pairwise_append.mpr ⟨h.spaced, List.pairwise_singleton _ c, fun c' hc' c'' hc'' hsame => ?_⟩
    rw [List.mem_singleton.mp hc''] at hsame ⊢
    exact hold c' hc' (tokenHash_eq hsame)

include h in
/-- A row that is deleted has expired. -/
theorem Remembered.cleanup {now : ℤ} (ht : t ≤ now) :
    Remembered authFlowTokenHash now { s with flows := deleteExpiredAuthFlows now s.flows } := by
  refine ⟨h.ahead, h.live, fun c hc => ?_, h.spaced⟩
  rcases h.kept c hc with ⟨id, hfind⟩ | hexpired
  · cases hstale : isStale (now - authFlowDefaultCleanupRetention) (c.row authFlowTokenHash id) with
    | false => exact .inl ⟨id, Table.find_deleteWhere hfind hstale⟩
    | true =>
      refine .inr ?_
      have hahead := h.ahead c hc
      rw [isStale, Bool.or_eq_true, decide_eq_true_eq] at hstale
      rcases hstale with hbefore | hbefore
      · have hexpires : c.expiresAt < now - 24 * Go.hour := hbefore
        rw [Go.hour] at hexpires
        omega
      · have hconsumed : c.now < now - 24 * Go.hour := of_decide_eq_true hbefore
        omega
  · exact .inr (hexpired.trans ht)

include h in
/-- **One call.** -/
theorem Remembered.step {a : Action} (ht : t ≤ a.now) (hahead : AtMostADayAhead a) :
    Remembered authFlowTokenHash a.now (Assertion.step authFlowTokenHash s a) := by
  have hlater : Remembered authFlowTokenHash a.now s :=
    ⟨h.ahead, h.live, fun c hc => (h.kept c hc).imp_right fun hexpired => hexpired.trans ht, h.spaced⟩
  cases a with
  | claim c id ok =>
    cases ok with
    | false => exact hlater
    | true =>
      rw [Assertion.step, if_pos rfl]
      cases hclaim : claimExternalAuthAssertion authFlowTokenHash c id s.flows with
      | ok flows => exact h.claim ht hahead hclaim
      | error e => exact hlater
  | cleanup now ok =>
    cases ok with
    | true => exact h.cleanup ht
    | false => exact hlater

include h in
/-- **A run at non-decreasing times.** -/
theorem Remembered.run {acts : List Action}
    (hfrom : ∀ a ∈ acts, t ≤ a.now) (hsorted : (acts.map Action.now).Pairwise (· ≤ ·))
    (hahead : ∀ a ∈ acts, AtMostADayAhead a) :
    ∃ t', Remembered authFlowTokenHash t' (Run.run (Assertion.step authFlowTokenHash) s acts) := by
  induction acts generalizing s t with
  | nil => exact ⟨t, h⟩
  | cons a acts ih =>
    rw [List.map_cons, List.pairwise_cons] at hsorted
    refine ih (h.step (hfrom a List.mem_cons_self) (hahead a List.mem_cons_self)) (fun a' ha' => ?_)
      hsorted.2 fun a' ha' => hahead a' (List.mem_cons_of_mem a ha')
    exact hsorted.1 a'.now (List.mem_map_of_mem ha')

/-- The claims of one assertion that succeeded. -/
def acceptedOf (c : Claim) (s : State) : List Claim := s.accepted.filter fun c' => SameAssertion c c'

theorem remembered_start (authFlowTokenHash : String → String) (flows : Flows) (t : ℤ) :
    Remembered authFlowTokenHash t { flows := flows } := by
  refine ⟨?_, ?_, ?_, List.Pairwise.nil⟩
  all_goals
    intro c hc
    exact absurd hc List.not_mem_nil

/-- The claims that succeed are among the actions. -/
theorem accepted_claims (authFlowTokenHash : String → String) (flows : Flows) (acts : List Action)
    (hc : c ∈ (run (step authFlowTokenHash) { flows := flows } acts).accepted) :
    ∃ id ok, Action.claim c id ok ∈ acts := by
  have hall : ∀ (s : State) (acts : List Action),
      c ∈ (run (step authFlowTokenHash) s acts).accepted → c ∈ s.accepted ∨ ∃ id ok, Action.claim c id ok ∈ acts := by
    intro s acts
    induction acts generalizing s with
    | nil => exact fun h => .inl h
    | cons a acts ih =>
      intro h
      rcases ih (step authFlowTokenHash s a) h with hmem | ⟨id, ok, hmem⟩
      · cases a with
        | claim c' id ok =>
          rw [step] at hmem
          split at hmem
          · split at hmem
            · rcases List.mem_append.mp hmem with hold | hnew
              · exact .inl hold
              · rw [List.mem_singleton.mp hnew]
                exact .inr ⟨id, ok, List.mem_cons_self⟩
            · exact .inl hmem
          · exact .inl hmem
        | cleanup now ok =>
          rw [step] at hmem
          split at hmem
          · exact .inl hmem
          · exact .inl hmem
      · exact .inr ⟨id, ok, List.mem_cons_of_mem a hmem⟩
  exact (hall _ acts hc).resolve_left List.not_mem_nil

/-- **Replay protection.**  At non-decreasing times, with expiry times at most a day ahead, an assertion
is not accepted a second time before the expiry time of the first; if all its claims have one expiry time,
it is accepted at most once. -/
theorem assertion_accepted_once (authFlowTokenHash : String → String) (flows : Flows)
    (acts : List Action) (hsorted : (acts.map Action.now).Pairwise (· ≤ ·))
    (hahead : ∀ a ∈ acts, AtMostADayAhead a) (assertion : Claim) :
    (acceptedOf assertion (run (step authFlowTokenHash) { flows := flows } acts)).Pairwise
        (fun c c' => c.expiresAt ≤ c'.now) ∧
      ∀ expiresAt, (∀ c id ok, Action.claim c id ok ∈ acts → SameAssertion assertion c →
          c.expiresAt = expiresAt) →
        (acceptedOf assertion (run (step authFlowTokenHash) { flows := flows } acts)).length ≤ 1 := by
  obtain ⟨t, hfrom⟩ : ∃ t, ∀ a ∈ acts, t ≤ a.now := by
    cases acts with
    | nil => exact ⟨0, fun a ha => absurd ha List.not_mem_nil⟩
    | cons a acts =>
      rw [List.map_cons, List.pairwise_cons] at hsorted
      refine ⟨a.now, fun a' ha' => ?_⟩
      rcases List.mem_cons.mp ha' with rfl | hmem
      · exact le_refl _
      · exact hsorted.1 a'.now (List.mem_map_of_mem hmem)
  obtain ⟨t', h⟩ := (remembered_start authFlowTokenHash flows t).run hfrom hsorted hahead
  have hclaims := fun c hc => accepted_claims authFlowTokenHash flows acts (c := c) hc
  generalize run (step authFlowTokenHash) { flows := flows } acts = s at h hclaims ⊢
  have hspaced : (acceptedOf assertion s).Pairwise fun c c' => c.expiresAt ≤ c'.now := by
    have hsub : (acceptedOf assertion s).Pairwise fun c c' => SameAssertion c c' → c.expiresAt ≤ c'.now :=
      h.spaced.sublist List.filter_sublist
    refine hsub.imp_of_mem fun {c c'} hc hc' himp => himp ?_
    have hsame : SameAssertion assertion c := of_decide_eq_true (List.mem_filter.mp hc).2
    have hsame' : SameAssertion assertion c' := of_decide_eq_true (List.mem_filter.mp hc').2
    exact ⟨hsame.1.symm.trans hsame'.1, hsame.2.symm.trans hsame'.2⟩
  refine ⟨hspaced, fun expiresAt hexpires => ?_⟩
  have hexpiry : ∀ c ∈ acceptedOf assertion s, c.expiresAt = expiresAt ∧ c.now < c.expiresAt := by
    intro c hc
    obtain ⟨hmem, hsame⟩ := List.mem_filter.mp hc
    obtain ⟨id, ok, haction⟩ := hclaims c hmem
    exact ⟨hexpires c id ok haction (of_decide_eq_true hsame), h.live c hmem⟩
  match hlist : acceptedOf assertion s with
  | [] => exact Nat.zero_le 1
  | [_] => exact le_refl 1
  | c :: c' :: rest =>
    rw [hlist] at hspaced hexpiry
    have hle := (List.pairwise_cons.mp hspaced).1 c' List.mem_cons_self
    obtain ⟨hc, _⟩ := hexpiry c List.mem_cons_self
    obtain ⟨hc', hlive⟩ := hexpiry c' (List.mem_cons_of_mem c List.mem_cons_self)
    omega

/-- A claim of an assertion that expires in a day. -/
def dayClaim (now : ℤ) : Claim := ⟨now, "telegram_assertion", "a", 24 * Go.hour⟩

/-- The assertion is claimed twice, cleaned up and claimed again. -/
def dayActions : List Action :=
  [.claim (dayClaim 0) 1 true, .claim (dayClaim 5) 2 true, .cleanup (24 * Go.hour) true,
    .claim (dayClaim (24 * Go.hour)) 3 true]

theorem dayActions_accepted :
    (acceptedOf (dayClaim 0) (run (step id) { flows := Table.empty } dayActions)).length ≤ 1 :=
  (assertion_accepted_once id Table.empty dayActions (by decide) (by decide) (dayClaim 0)).2 (24 * Go.hour) (by
      intro c i ok hmem _
      simp only [dayActions, List.mem_cons, Action.claim.injEq, reduceCtorEq, false_or,
        List.not_mem_nil, or_false] at hmem
      rcases hmem with ⟨rfl, _⟩ | ⟨rfl, _⟩ | ⟨rfl, _⟩ <;> rfl)

end OneApi.Auth.Assertion

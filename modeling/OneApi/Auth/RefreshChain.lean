import OneApi.Auth.Refresh

/-!
# The chain of refresh tokens

All refresh tokens of a session lie on one chain: its first secret, the one derived from it, and so on.
After `n` rotations the row holds the digest of link `n` and that of the link before.  Every rotation
belongs to one call, and a call that answers either made the rotation from the secret it was given, which
was the newest then, or was given the secret before the newest within the grace of the rotation that
replaced it, and hands out the newest (`refresh_one_chain`).

The argument is about the count, the digests and the deeds of the calls only (`OneChain`); a step of the
system is one of three steps of these (`act_does`).
-/

namespace OneApi.Auth.Refresh

open OneApi.Lib OneApi.Lib.Run OneApi.Lib.Procs OneApi.Lib.Go

section Chain

variable (setup : Setup) (sid first : String)

/-- Link `n` of the chain. -/
def link (n : ℕ) : String := (deriveNextRefreshSecret setup sid)^[n] first

theorem link_succ (n : ℕ) : link setup sid first (n + 1) = deriveNextRefreshSecret setup sid (link setup sid first n) :=
  Function.iterate_succ_apply' ..

/-- The digest before: none as long as nothing was rotated. -/
def previousDigest : ℕ → String
  | 0 => ""
  | n + 1 => hashRefreshSecret setup (link setup sid first n)

theorem trimSpace_previousDigest (n : ℕ) :
    trimSpace (previousDigest setup sid first n) = previousDigest setup sid first n := by
  cases n with
  | zero =>
    show trimSpace "" = ""
    decide
  | succ n => exact trimSpace_hexEncode _

end Chain

/-! ## Count, digests and deeds -/

structure Digests where
  refreshHash : String
  previousRefreshHash : String
  previousValidUntil : ℤ
  deriving Repr, DecidableEq

def UserSession.digests (session : UserSession) : Digests :=
  ⟨session.refreshHash, session.previousRefreshHash, session.previousValidUntil⟩

def Store.digests (x : Store) (sid : String) : Option Digests :=
  (x.sessions.find sid).map UserSession.digests

/-- After `count` rotations of a session. -/
structure OneChain {ι : Type*} (setup : Setup) (sid first : String) (count : ℕ)
    (digests : Option Digests) (deed : ι → Option Deed) : Prop where
  /-- The row holds the newest digest and the one before, which is answered until the grace of the last
  rotation is over. -/
  stored : ∃ validUntil,
    digests = some ⟨hashRefreshSecret setup (link setup sid first count),
      previousDigest setup sid first count, validUntil⟩ ∧
    ∀ step, count = step + 1 →
      ∃ i now, deed i = some (.rotation step now) ∧ validUntil = now + graceSeconds
  performed : ∀ step < count, ∃! i, ∃ now, deed i = some (.rotation step now)
  bounded : ∀ i step now, deed i = some (.rotation step now) → step < count
  replayed : ∀ i k now, deed i = some (.replay k now) →
    ∃ step j rotatedAt, k = step + 1 ∧ deed j = some (.rotation step rotatedAt) ∧ now ≤ rotatedAt + graceSeconds

section Ledger

variable {ι : Type*} {setup : Setup} {sid first : String} {count : ℕ}
  {digests : Option Digests} {deed : ι → Option Deed}

variable [DecidableEq ι]

variable {i : ι}

/-- A deed that is done stays when a call without one comes to its own. -/
theorem update_deed {j : ι} {d e : Deed} (hi : deed i = none) (hj : deed j = some e) :
    Function.update deed i (some d) j = some e := by
  have hne : j ≠ i := by
    intro h
    rw [h, hi] at hj
    cases hj
  rw [Function.update_of_ne hne, hj]

/-- And the others' deeds are those of before. -/
theorem deed_of_update {j : ι} {d e : Deed} (h : Function.update deed i (some d) j = some e) :
    (j = i ∧ e = d) ∨ deed j = some e := by
  by_cases hj : j = i
  · subst hj
    rw [Function.update_self] at h
    cases h
    exact .inl ⟨rfl, rfl⟩
  · rw [Function.update_of_ne hj] at h
    exact .inr h

theorem OneChain.rotate (h : OneChain setup sid first count digests deed) (now : ℤ)
    (hi : deed i = none) :
    OneChain setup sid first (count + 1)
      (some ⟨hashRefreshSecret setup (link setup sid first (count + 1)),
        hashRefreshSecret setup (link setup sid first count), now + graceSeconds⟩)
      (Function.update deed i (some (.rotation count now))) where
  stored := by
    refine ⟨now + graceSeconds, rfl, fun step hstep => ⟨i, now, ?_, rfl⟩⟩
    rw [Function.update_self, Nat.succ.inj hstep]
  performed step hstep := by
    rcases Nat.lt_succ_iff_lt_or_eq.mp hstep with hlt | rfl
    · obtain ⟨j, ⟨t, hj⟩, hunique⟩ := h.performed step hlt
      refine ⟨j, ⟨t, update_deed hi hj⟩, ?_⟩
      rintro k ⟨t', hk⟩
      rcases deed_of_update hk with ⟨-, hdeed⟩ | hk
      · cases hdeed
        exact (lt_irrefl _ hlt).elim
      · exact hunique k ⟨t', hk⟩
    · refine ⟨i, ⟨now, Function.update_self ..⟩, ?_⟩
      rintro k ⟨t, hk⟩
      rcases deed_of_update hk with ⟨hki, -⟩ | hk
      · exact hki
      · exact (lt_irrefl _ (h.bounded k step t hk)).elim
  bounded j step t hj := by
    rcases deed_of_update hj with ⟨-, hdeed⟩ | hj
    · cases hdeed
      exact Nat.lt_succ_self _
    · exact Nat.lt_succ_of_lt (h.bounded j step t hj)
  replayed j k t hj := by
    rcases deed_of_update hj with ⟨-, hdeed⟩ | hj
    · cases hdeed
    · obtain ⟨step, l, rotatedAt, hk, hl, ht⟩ := h.replayed j k t hj
      exact ⟨step, l, rotatedAt, hk, update_deed hi hl, ht⟩

theorem OneChain.replay (h : OneChain setup sid first count digests deed) {now : ℤ}
    {d : Digests} (hi : deed i = none) (hdigests : digests = some d)
    (hprevious : d.previousRefreshHash ≠ "") (hnow : now ≤ d.previousValidUntil) :
    OneChain setup sid first count digests (Function.update deed i (some (.replay count now))) := by
  obtain ⟨validUntil, hstored, hlast⟩ := h.stored
  rw [hstored] at hdigests
  cases hdigests
  -- there is a digest before only after a rotation
  obtain ⟨last, rfl⟩ : ∃ last, count = last + 1 := by
    cases count with
    | zero => exact (hprevious rfl).elim
    | succ last => exact ⟨last, rfl⟩
  obtain ⟨j, rotatedAt, hj, hvalid⟩ := hlast last rfl
  refine ⟨⟨validUntil, hstored, ?_⟩, ?_, ?_, ?_⟩
  · intro step hstep
    obtain ⟨l, t, hl, ht⟩ := hlast step hstep
    exact ⟨l, t, update_deed hi hl, ht⟩
  · intro step hstep
    obtain ⟨l, ⟨t, hl⟩, hunique⟩ := h.performed step hstep
    refine ⟨l, ⟨t, update_deed hi hl⟩, ?_⟩
    rintro k ⟨t', hk⟩
    rcases deed_of_update hk with ⟨-, hdeed⟩ | hk
    · cases hdeed
    · exact hunique k ⟨t', hk⟩
  · intro k step t hk
    rcases deed_of_update hk with ⟨-, hdeed⟩ | hk
    · cases hdeed
    · exact h.bounded k step t hk
  · intro k m t hk
    rcases deed_of_update hk with ⟨-, hdeed⟩ | hk
    · cases hdeed
      exact ⟨last, j, rotatedAt, rfl, update_deed hi hj, hvalid ▸ hnow⟩
    · obtain ⟨step, l, t', hm, hl, ht⟩ := h.replayed k m t hk
      exact ⟨step, l, t', hm, update_deed hi hl, ht⟩

end Ledger

/-! ## What a step does -/

section Effects

variable (setup : Setup)

/-- The call has not come to its deed yet. -/
def Phase.isOpen : Phase → Bool
  | .rotated | .raced _ | .done _ | .failed _ => false
  | _ => true

/-- The call has come to its deed and may answer. -/
def Phase.isDecided : Phase → Bool
  | .rotated | .raced _ | .done _ => true
  | _ => false

def Phase.matchedHash? : Phase → Option String
  | .matched _ _ _ session => some session.refreshHash
  | _ => none

def Phase.token? : Phase → Option String
  | .done token => some token
  | _ => none

/-- What holds of a call by itself: it finds the digest of its secret before it updates, comes to one deed
only, and answers with the secret derived from its own. -/
structure Steady (p : Proc) : Prop where
  undecided : p.phase.isOpen = true → p.deed = none
  decided : p.phase.isDecided = true → p.deed ≠ none
  matched : ∀ hash, p.phase.matchedHash? = some hash → ∀ sid secret,
    splitRefreshToken setup p.call.rawRefreshToken = some (sid, secret) →
    hash = hashRefreshSecret setup secret
  answered : ∀ token, p.phase.token? = some token →
    ∃ sid secret, splitRefreshToken setup p.call.rawRefreshToken = some (sid, secret) ∧
      token = refreshToken sid (deriveNextRefreshSecret setup sid secret)

/-- A step does nothing to digests and deeds, or makes the next rotation, or repeats the last one. -/
inductive Effect (x : Store) (p : Proc) : Store × Proc → Prop
  | same {y : Store} {q : Proc} : y.rotations = x.rotations →
      (∀ sid, y.digests sid = x.digests sid) → q.deed = p.deed → Effect x p (y, q)
  | rotate {y : Store} {q : Proc} {sid secret : String} {row : UserSession} (now : ℤ) :
      splitRefreshToken setup p.call.rawRefreshToken = some (sid, secret) → p.deed = none →
      x.sessions.find sid = some row → row.refreshHash = hashRefreshSecret setup secret →
      y.rotations = Function.update x.rotations sid (x.rotations sid + 1) →
      (∀ sid', sid' ≠ sid → y.digests sid' = x.digests sid') →
      y.digests sid = some
        ⟨hashRefreshSecret setup (deriveNextRefreshSecret setup sid secret),
          hashRefreshSecret setup secret, now + graceSeconds⟩ →
      q.deed = some (.rotation (x.rotations sid) now) → Effect x p (y, q)
  | replay {q : Proc} {sid secret : String} {row : UserSession} (now : ℤ) :
      splitRefreshToken setup p.call.rawRefreshToken = some (sid, secret) → p.deed = none →
      x.sessions.find sid = some row →
      trimSpace row.previousRefreshHash = hashRefreshSecret setup secret →
      trimSpace row.previousRefreshHash ≠ "" → now ≤ row.previousValidUntil →
      q.deed = some (.replay (x.rotations sid) now) → Effect x p (x, q)

variable {setup} {x : Store} {p : Proc} {sid secret : String}

theorem Effect.of_deed {q : Proc} (h : q.deed = p.deed) : Effect setup x p (x, q) :=
  .same rfl (fun _ => rfl) h

variable {session : UserSession}

theorem findSession_some {sessions : Sessions} {userId : ℤ} (h : findSession sessions sid userId = some session) :
    ∃ row, sessions.find sid = some row ∧ session = afterFind row := by
  obtain ⟨row, hrow, rfl⟩ := Option.map_eq_some_iff.mp h
  exact ⟨row, (Option.filter_eq_some_iff.mp hrow).1, rfl⟩

/-- Revoking a session leaves every digest. -/
theorem digests_revokeSession (userId : ℤ) (now : ℤ) (reason sid' : String) :
    Store.digests { x with sessions := revokeSession x.sessions userId sid now reason } sid' = x.digests sid' := by
  rw [Store.digests, Store.digests, revokeSession, Table.find_updateWhere, Option.map_map]
  congr 1
  funext row
  rw [Function.comp_apply]
  split <;> rfl

/-- A rotation changes the digests of one session. -/
theorem digests_rotate {cond : UserSession → Bool} (now : ℤ)
    (presentedHash nextHash : String) (rotations : String → ℕ)
    (hfind : x.sessions.find sid = some session) (hcond : cond session = true) :
    let y : Store :=
      ⟨x.sessions.updateWhere (fun s => s.sid = sid && cond s) (setRotated now graceSeconds presentedHash nextHash)
        (setRotated_sid now graceSeconds presentedHash nextHash), rotations⟩
    y.digests sid = some ⟨nextHash, presentedHash, now + graceSeconds⟩ ∧
      ∀ sid', sid' ≠ sid → y.digests sid' = x.digests sid' := by
  have hsid : session.sid = sid := Table.find_key hfind
  refine ⟨?_, fun sid' hne => ?_⟩
  · rw [Store.digests, Table.find_updateWhere, hfind, Option.map_some, Option.map_some, hsid, hcond]
    simp [UserSession.digests, setRotated]
  · rw [Store.digests, Store.digests, Table.find_updateWhere]
    cases hfind' : x.sessions.find sid' with
    | none => rfl
    | some row =>
      have hrow : row.sid ≠ sid := by
        rw [Table.find_key hfind']
        exact hne
      simp [hrow]

/-! ## What a step leaves of a call -/

theorem Steady.failed (p : Proc) (e : SessionError) : Steady setup (p.to (.failed e)) where
  undecided h := by cases h
  decided h := by cases h
  matched := forall_of_eq_none rfl
  answered := forall_of_eq_none rfl

/-- A call that has come to its deed. -/
theorem Steady.decide (p : Proc) {phase : Phase} (deed : Deed) (hopen : phase.isOpen = false)
    (hmatched : phase.matchedHash? = none) (htoken : phase.token? = none) :
    Steady setup { p with phase := phase, deed := some deed } where
  undecided h := by
    have h' : phase.isOpen = true := h
    rw [hopen] at h'
    cases h'
  decided _ := nofun
  matched := forall_of_eq_none hmatched
  answered := forall_of_eq_none htoken

/-- What a step of a call does. -/
structure Does (setup : Setup) (x : Store) (p : Proc) (r : Store × Proc) : Prop where
  effect : Effect setup x p r
  steady : Steady setup r.2
  call : r.2.call = p.call

theorem Does.fail (e : SessionError) : Does setup x p (x, p.to (.failed e)) := ⟨.of_deed rfl, .failed p e, rfl⟩

section

variable (hp : Steady setup p)

include hp

theorem Does.rest : Does setup x p (x, p) := ⟨.of_deed rfl, hp, rfl⟩

/-- A call that goes on without a deed. -/
theorem Does.open {phase : Phase} (hbefore : p.phase.isOpen = true) (hdecided : phase.isDecided = false)
    (htoken : phase.token? = none)
    (hmatched : ∀ hash, phase.matchedHash? = some hash → ∀ sid secret,
      splitRefreshToken setup p.call.rawRefreshToken = some (sid, secret) →
      hash = hashRefreshSecret setup secret) : Does setup x p (x, p.to phase) where
  effect := .of_deed rfl
  steady :=
    { undecided := fun _ => hp.undecided hbefore
      decided := fun h => absurd (hdecided.symm.trans h) (by simp)
      matched := hmatched
      answered := forall_of_eq_none htoken }
  call := rfl

/-- A call that answers after its deed. -/
theorem Does.answer (hdecided : p.phase.isDecided = true)
    (hsplit : splitRefreshToken setup p.call.rawRefreshToken = some (sid, secret)) :
    Does setup x p (x, p.to (.done (refreshToken sid (deriveNextRefreshSecret setup sid secret)))) where
  effect := .of_deed rfl
  steady :=
    { undecided := fun h => by cases h
      decided := fun _ => hp.decided hdecided
      matched := forall_of_eq_none rfl
      answered := forall_of_eq_some rfl ⟨sid, secret, hsplit, rfl⟩ }
  call := rfl

theorem precheck_does (entry : Entry) : Does setup x p (x, precheck setup p entry) := by
  rw [precheck.eq_def]
  split
  · next hphase =>
    have hopen : p.phase.isOpen = true := by
      rw [hphase]
      rfl
    split
    · exact .fail _
    split
    · exact .fail _
    split
    · exact .fail _
    · exact .open hp hopen rfl rfl (forall_of_eq_none rfl)
    · exact .open hp hopen rfl rfl (forall_of_eq_none rfl)
  · exact .rest hp

theorem enter_does (sid secret : String) (now clock : ℤ) : Does setup x p (x, enter setup p sid secret now clock) := by
  rw [enter]
  split
  · next userId hphase =>
    split
    · exact .fail _
    · exact .open hp (by rw [hphase]; rfl) rfl rfl (forall_of_eq_none rfl)
  · exact .rest hp

variable (hsplit : splitRefreshToken setup p.call.rawRefreshToken = some (sid, secret))

include hsplit in
theorem read_does (ok : Bool) : Does setup x p (x, read setup x p sid secret ok) := by
  rw [read]
  split
  · exact .fail _
  · next userId now attempts hphase =>
    have hopen : p.phase.isOpen = true := by
      rw [hphase]
      rfl
    split
    · exact .fail _
    split
    · exact .fail _
    · next session hfound =>
      obtain ⟨row, hrow, rfl⟩ := findSession_some hfound
      have hspec := (afterFind row).readRotation_spec (hashRefreshSecret setup secret) now
      cases hread : (afterFind row).readRotation (hashRefreshSecret setup secret) now with
      | inactive | unknown => exact .fail _
      | matched =>
        rw [hread] at hspec
        refine .open hp hopen rfl rfl (forall_of_eq_some rfl ?_)
        intro sid' secret' hsplit'
        rw [hsplit] at hsplit'
        cases hsplit'
        exact hspec.2
      | raced =>
        rw [hread] at hspec
        exact ⟨.replay now hsplit (hp.undecided hopen) hrow hspec.2.1 hspec.1 hspec.2.2 rfl,
          .decide p _ rfl rfl rfl, rfl⟩
      | reused => exact .open hp hopen rfl rfl (forall_of_eq_none rfl)
  · exact .rest hp

include hsplit in
theorem update_does (ok : Bool) : Does setup x p (update setup x p sid secret ok) := by
  rw [update]
  split
  · next userId now attempts session hphase =>
    have hopen : p.phase.isOpen = true := by
      rw [hphase]
      rfl
    have hsession := hp.matched session.refreshHash (by rw [hphase]; rfl) sid secret hsplit
    split
    · exact .fail _
    split
    · next hany =>
      obtain ⟨row, hrow, hrotatable⟩ := (Option.any_eq_true _ _).mp hany
      have hrowHash : row.refreshHash = hashRefreshSecret setup secret := by
        simp only [isRotatable, Bool.and_eq_true, decide_eq_true_eq] at hrotatable
        exact hrotatable.2
      have hdigests := digests_rotate now session.refreshHash
        (hashRefreshSecret setup (deriveNextRefreshSecret setup sid secret))
        (Function.update x.rotations sid (x.rotations sid + 1)) hrow hrotatable
      rw [hsession] at hdigests
      rw [hsession]
      exact ⟨.rotate now hsplit (hp.undecided hopen) hrow hrowHash rfl hdigests.2 hdigests.1 rfl,
        .decide p _ rfl rfl rfl, rfl⟩
    · exact .open hp hopen rfl rfl (forall_of_eq_none rfl)
  · exact .rest hp

include hsplit in
theorem finish_does (ok : Bool) : Does setup x p (x, finish setup p sid secret ok) := by
  rw [finish]
  split
  · next hphase =>
    split
    · exact .answer hp (by rw [hphase]; rfl) hsplit
    · exact .fail _
  · next session hphase =>
    split
    · split
      · exact .answer hp (by rw [hphase]; rfl) hsplit
      · exact .fail _
    · exact .fail _
  · exact .rest hp

theorem revoke_does (now : ℤ) (ok : Bool) : Does setup x p (revoke x p sid now ok) := by
  have hrevokes : ∀ userId now reason e, Does setup x p
      ({ x with sessions := revokeSession x.sessions userId sid now reason }, p.to (.failed e)) :=
    fun _ _ _ e => ⟨.same rfl (digests_revokeSession _ _ _) rfl, .failed p e, rfl⟩
  rw [revoke]
  split
  · split
    · exact hrevokes _ _ _ _
    · exact .fail _
  · split
    · exact .fail _
    split
    · exact hrevokes _ _ _ _
    · exact .fail _
  · exact .rest hp

theorem act_does (a : Action) : Does setup x p (act setup x p a) := by
  rw [act]
  split
  · next sid secret hsplit =>
    cases a with
    | precheck entry => exact precheck_does hp entry
    | enter now clock => exact enter_does hp sid secret now clock
    | read ok => exact read_does hp hsplit ok
    | update ok => exact update_does hp hsplit ok
    | finish ok => exact finish_does hp hsplit ok
    | revoke now ok => exact revoke_does hp now ok
  · exact precheck_does hp (.refused .refreshInvalid)

end

end Effects

/-! ## Whole runs -/

section Runs

variable {ι : Type*} (setup : Setup) (sid first : String)

/-- The deed of a call, if it is about the session. -/
def deedOf (p : Proc) : Option Deed :=
  match splitRefreshToken setup p.call.rawRefreshToken with
  | some (sid', _) => if sid' = sid then p.deed else none
  | none => none

/-- A call with a deed had the secret that the deed is about. -/
structure Placed (p : Proc) : Prop where
  rotation : ∀ secret step now,
    splitRefreshToken setup p.call.rawRefreshToken = some (sid, secret) →
    p.deed = some (.rotation step now) → secret = link setup sid first step
  replay : ∀ secret step now,
    splitRefreshToken setup p.call.rawRefreshToken = some (sid, secret) →
    p.deed = some (.replay (step + 1) now) → secret = link setup sid first step

structure Good (s : System ι Store Proc) : Prop where
  steady : ∀ i, Steady setup (s.proc i)
  placed : ∀ i, Placed setup sid first (s.proc i)
  chain : OneChain setup sid first (s.shared.rotations sid) (s.shared.digests sid)
    fun i => deedOf setup sid (s.proc i)

variable {setup sid first}

variable {p : Proc} {secret : String}

theorem deedOf_self (h : splitRefreshToken setup p.call.rawRefreshToken = some (sid, secret)) :
    deedOf setup sid p = p.deed := by
  rw [deedOf, h]
  exact if_pos rfl

theorem deedOf_ne {sid' : String}
    (h : splitRefreshToken setup p.call.rawRefreshToken = some (sid', secret)) (hne : sid' ≠ sid) :
    deedOf setup sid p = none := by
  rw [deedOf, h]
  exact if_neg hne

variable {q : Proc}

theorem deedOf_congr (hcall : q.call = p.call) (hdeed : q.deed = p.deed) : deedOf setup sid q = deedOf setup sid p := by
  rw [deedOf, deedOf, hcall, hdeed]

theorem Placed.congr (h : Placed setup sid first p) (hcall : q.call = p.call)
    (hdeed : q.deed = p.deed) : Placed setup sid first q := by
  refine ⟨?_, ?_⟩
  · rw [hcall, hdeed]
    exact h.rotation
  · rw [hcall, hdeed]
    exact h.replay

/-- A call about another session is placed whatever it does. -/
theorem Placed.of_ne {sid' : String}
    (h : splitRefreshToken setup p.call.rawRefreshToken = some (sid', secret)) (hne : sid' ≠ sid) :
    Placed setup sid first p := by
  refine ⟨?_, ?_⟩ <;>
  · intro secret' step now hsplit
    rw [h] at hsplit
    cases hsplit
    exact (hne rfl).elim

variable {s : System ι Store Proc}

/-- The digests the row of the session has. -/
theorem Good.digests_row (h : Good setup sid first s) {row : UserSession}
    (hrow : s.shared.sessions.find sid = some row) :
    row.refreshHash = hashRefreshSecret setup (link setup sid first (s.shared.rotations sid)) ∧
      row.previousRefreshHash = previousDigest setup sid first (s.shared.rotations sid) := by
  obtain ⟨validUntil, hstored, -⟩ := h.chain.stored
  rw [Store.digests, hrow, Option.map_some, Option.some_inj] at hstored
  exact ⟨congrArg Digests.refreshHash hstored, congrArg Digests.previousRefreshHash hstored⟩

variable [DecidableEq ι]

variable {i : ι}

/-- The system after one call has moved to `q` and the store to `y`. -/
theorem Good.of_parts (h : Good setup sid first s) {y : Store}
    (hsteady : Steady setup q) (hplaced : Placed setup sid first q)
    (hchain : OneChain setup sid first (y.rotations sid) (y.digests sid)
      (Function.update (fun j => deedOf setup sid (s.proc j)) i (deedOf setup sid q))) :
    Good setup sid first ⟨y, Function.update s.proc i q⟩ where
  steady := (Function.forall_update_iff s.proc fun _ => Steady setup).mpr ⟨hsteady, fun j _ => h.steady j⟩
  placed := (Function.forall_update_iff s.proc fun _ => Placed setup sid first).mpr ⟨hplaced, fun j _ => h.placed j⟩
  chain := by
    have hdeeds : (fun j => deedOf setup sid (Function.update s.proc i q j)) =
        Function.update (fun j => deedOf setup sid (s.proc j)) i (deedOf setup sid q) := by
      funext j
      exact Function.apply_update (fun _ => deedOf setup sid) s.proc i q j
    rw [hdeeds]
    exact hchain

/-- What does not touch the session leaves its chain. -/
theorem Good.chain_same (h : Good setup sid first s) {y : Store}
    (hrotations : y.rotations sid = s.shared.rotations sid) (hdigests : y.digests sid = s.shared.digests sid)
    (hdeed : deedOf setup sid q = deedOf setup sid (s.proc i)) :
    OneChain setup sid first (y.rotations sid) (y.digests sid)
      (Function.update (fun j => deedOf setup sid (s.proc j)) i (deedOf setup sid q)) := by
  rw [hrotations, hdigests, hdeed]
  exact (Function.update_eq_self i fun j => deedOf setup sid (s.proc j)).symm ▸ h.chain

theorem Good.does (hinj : Function.Injective (hashRefreshSecret setup))
    (h : Good setup sid first s) {r : Store × Proc} (hdoes : Does setup s.shared (s.proc i) r) :
    Good setup sid first ⟨r.1, Function.update s.proc i r.2⟩ := by
  obtain ⟨heffect, hsteady, hcall⟩ := hdoes
  cases heffect with
  | @same y q hrotations hdigests hdeed =>
    exact h.of_parts hsteady ((h.placed i).congr hcall hdeed)
      (h.chain_same (congrFun hrotations sid) (hdigests sid) (deedOf_congr hcall hdeed))
  | @rotate y q sid' secret row now hsplit hnone hrow hhash hrotations hothers hdigests hdeed =>
    have hsplit' : splitRefreshToken setup q.call.rawRefreshToken = some (sid', secret) :=
      hcall ▸ hsplit
    by_cases hsid : sid' = sid
    · subst hsid
      -- the secret is the newest one, for its digest is stored
      have hsecret : secret = link setup sid' first (s.shared.rotations sid') :=
        hinj (hhash.symm.trans (h.digests_row hrow).1)
      have hplaced : Placed setup sid' first q := by
        refine ⟨fun secret' step t hs hd => ?_, fun secret' step t _ hd => ?_⟩
        · rw [hsplit'] at hs
          rw [hdeed] at hd
          cases hs
          cases hd
          exact hsecret
        · rw [hdeed] at hd
          cases hd
      apply h.of_parts hsteady hplaced
      have hrotate := h.chain.rotate (i := i) now (by rw [deedOf_self hsplit, hnone])
      rw [deedOf_self hsplit', hdeed, hdigests, hrotations, Function.update_self, hsecret, ← link_succ]
      exact hrotate
    · apply h.of_parts hsteady (.of_ne hsplit' hsid)
      apply h.chain_same
      · rw [hrotations, Function.update_of_ne (Ne.symm hsid)]
      · exact hothers sid (Ne.symm hsid)
      · rw [deedOf_ne hsplit' hsid, deedOf_ne hsplit hsid]
  | @replay q sid' secret row now hsplit hnone hrow hprevious hne hnow hdeed =>
    have hsplit' : splitRefreshToken setup q.call.rawRefreshToken = some (sid', secret) :=
      hcall ▸ hsplit
    by_cases hsid : sid' = sid
    · subst hsid
      have hstored := (h.digests_row hrow).2
      rw [hstored, trimSpace_previousDigest] at hprevious hne
      have hplaced : Placed setup sid' first q := by
        refine ⟨fun secret' step t _ hd => ?_, fun secret' step t hs hd => ?_⟩
        · rw [hdeed] at hd
          cases hd
        · rw [hsplit'] at hs
          rw [hdeed] at hd
          cases hs
          have hcount : s.shared.rotations sid' = step + 1 :=
            (Deed.replay.inj (Option.some.inj hd)).1
          rw [hcount] at hprevious
          exact (hinj hprevious).symm
      apply h.of_parts hsteady hplaced
      rw [deedOf_self hsplit', hdeed]
      have hrowDigests : s.shared.digests sid' = some (UserSession.digests row) := by
        rw [Store.digests, hrow, Option.map_some]
      exact h.chain.replay (by rw [deedOf_self hsplit, hnone]) hrowDigests
        (by rw [UserSession.digests, hstored]; exact hne) hnow
    · apply h.of_parts hsteady (.of_ne hsplit' hsid)
      apply h.chain_same rfl rfl
      rw [deedOf_ne hsplit' hsid, deedOf_ne hsplit hsid]

theorem Good.move (hinj : Function.Injective (hashRefreshSecret setup))
    (h : Good setup sid first s) (a : ι × Action) : Good setup sid first (move (act setup) s a) :=
  h.does hinj (act_does (h.steady a.1) a.2)

/-- Refreshes that have not begun. -/
def opening (x : Store) (calls : ι → Call) : System ι Store Proc := ⟨x, fun i => ⟨calls i, .start, none⟩⟩

end Runs

end OneApi.Auth.Refresh

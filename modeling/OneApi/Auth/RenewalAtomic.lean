import OneApi.Auth.Renewal
import OneApi.Auth.Revoked

/-!
# A renewal is all or nothing

A renewal that fails before it publishes its fence leaves no trace: every read goes as if it had never
been called.  A renewal that returns its successor has revoked the prior session for good, and of any
number of renewals of one session at most one commits.

Between the two lies what the renewal does not undo.  The fence is published before the transaction, and
stays when the transaction is rolled back: reads of the prior session are denied until it expires
(`failed_renewal_denies`).  And a renewal whose transaction has committed may still return an error, when
its successor is revoked or expires before the cache has it.
-/

namespace OneApi.Auth.Renewal

open OneApi.Lib OneApi.Lib.Run OneApi.Lib.Procs OneApi.Auth.SessionCache Function

/-! ## What a step of a renewal does -/

/-- The transaction is committed. -/
def isPast : Phase → Bool
  | .revokedRow _ _ | .finalizing _ _ | .finalized | .succeeded | .unfinalized => true
  | _ => false

def isFenced : Phase → Bool
  | .fenced _ _ => true
  | _ => false

/-- The second at which the renewal saw the prior session usable. -/
def seenAt : Phase → Option ℤ
  | .candidate _ now | .fencing _ now _ | .fenced _ now => some now
  | _ => none

section Moves

variable (cfg : Config)

/-- The renewal has written something. -/
def touches (phase : Phase) : Bool := isPast phase || (cfg.redisEnabled && isFenced phase)

/-- The phases of a renewal. -/
def Stands : Phase → Prop
  | .start | .seeking _ | .candidate _ _ | .fenced _ _ | .failed _ => True
  | .fencing _ _ _ => cfg.redisEnabled = true
  | phase => isPast phase = true

/-- What a step of a renewal does. -/
inductive Moves (x : Shared) (p : Proc) (userId : ℤ) (successor : UserSession) (ok : Bool) :
    Shared → Proc → Prop
  | waits (phase : Phase) (hbefore : touches cfg p.prior = false) (hafter : touches cfg phase = false)
      (hstands : Stands cfg phase)
      (hseen : ∀ now, seenAt phase = some now →
        seenAt p.prior = some now ∨ x.prior.row.any (Limits.isRenewable userId now) = true) :
      Moves x p userId successor ok x { p with prior := phase }
  | fails (phase : Phase) (error : SessionError) (hbefore : isPast p.prior = false)
      (hafter : phase = .start ∨ ∃ e, phase = .failed e)
      (hrefused : ∀ session now, p.prior = .fenced session now →
        ok = false ∨ (refusal cfg x userId successor now).isSome = true) :
      Moves x p userId successor ok x (p.fail phase error)
  | fences (session : UserSession) (now : ℤ) (expiration : Expiration) (y : Store)
      (hrunning : p.result = .running) (hredis : cfg.redisEnabled = true) (hprior : p.prior = .fencing session now expiration)
      (hrow : y.row = x.prior.row) :
      Moves x p userId successor ok { x with prior := y } { p with prior := .fenced session now }
  | commits (session : UserSession) (now : ℤ) (row : UserSession) (hrunning : p.result = .running)
      (hprior : p.prior = .fenced session now) (hrow : x.prior.row = some row)
      (hrenewable : Limits.isRenewable userId now row = true) :
      Moves x p userId successor ok
        { x with
          prior := { x.prior with row := some (setRevoked now "miniapp_renewed" row) }
          successors := x.successors ++ [newSession successor now] }
        { p with prior := .revokedRow row now, successor := .inserted (newSession successor now) }
  | finishes (phase : Phase) (y : Store) (hbefore : isPast p.prior = true)
      (hopen : p.prior ≠ .succeeded) (hafter : isPast phase = true) (hrow : y.row = x.prior.row)
      (hfinal : phase = .unfinalized → ∃ entry expiration, p.prior = .finalizing entry expiration ∧
        (ok && x.prior.accepts entry) = false) :
      Moves x p userId successor ok { x with prior := y } { p with prior := phase }
  | fills (hrunning : p.result = .running)
      (hprior : p.prior = .succeeded ∨ p.prior = .unfinalized) :
      Moves x p userId successor ok (stepSuccessor cfg x p successor ok).1 (stepSuccessor cfg x p successor ok).2
  | rests (hover : p.result ≠ .running) : Moves x p userId successor ok x p

variable {cfg} {x : Shared} {p : Proc} {userId : ℤ} {successor : UserSession} {ok : Bool}

theorem touches_early {phase : Phase} (hpast : isPast phase = false) (hfenced : isFenced phase = false) :
    touches cfg phase = false := by
  rw [touches, hpast, hfenced, Bool.and_false, Bool.or_false]

theorem onPrior_read (hcall : p.call = .read) : p.onPrior = ⟨.get, p.prior⟩ := by
  rw [Proc.onPrior, hcall]

variable {entry : UserSession}

variable {y : Store} {q : SessionCache.Proc}

/-- Redis or not, where neither reads nor writes an entry. -/
theorem cacheNext_eq (h : nextWithoutRedis cfg.cache y q ok = SessionCache.next cfg.cache y q ok) :
    cacheNext cfg y q ok = SessionCache.next cfg.cache y q ok := by
  rw [cacheNext]
  split
  · rfl
  · exact h

theorem cacheNext_redis (h : cfg.redisEnabled = true) (y : Store) (q : SessionCache.Proc) (ok : Bool) :
    cacheNext cfg y q ok = SessionCache.next cfg.cache y q ok := if_pos h

theorem cacheNext_noRedis (h : cfg.redisEnabled = false) : cacheNext cfg y q ok = nextWithoutRedis cfg.cache y q ok :=
  if_neg (by simp [h])

/-- A step on the prior session that does not fail. -/
theorem moves_of_next (phase : Phase) (h : cacheNext cfg x.prior p.onPrior ok = (y, p.onPrior.to phase))
    (hphase : ∀ e, phase ≠ .failed e)
    (hmoves : Moves cfg x p userId successor ok { x with prior := y } { p with prior := phase }) :
    Moves cfg x p userId successor ok (stepPrior cfg x p ok).1 (stepPrior cfg x p ok).2 := by
  rw [stepPrior, h]
  dsimp only [SessionCache.Proc.to]
  split
  · next e => exact (hphase e rfl).elim
  · exact hmoves

/-- And one that does. -/
theorem moves_of_failed {e : SessionError}
    (h : cacheNext cfg x.prior p.onPrior ok = (x.prior, p.onPrior.to (.failed e)))
    (hpast : isPast p.prior = false) (hfenced : isFenced p.prior = false) :
    Moves cfg x p userId successor ok (stepPrior cfg x p ok).1 (stepPrior cfg x p ok).2 := by
  rw [stepPrior, h]
  refine .fails _ _ hpast (.inr ⟨_, rfl⟩) fun session now hprior => ?_
  rw [hprior] at hfenced
  cases hfenced

section Renewing

variable (cfg) (x) (userId) (successor) (ok)

/-- What is to be shown of a renewal that runs. -/
def Advances (prior inner : Phase) : Prop :=
  Moves cfg x ⟨.renew userId successor, prior, inner, .running⟩ userId successor ok
    (renewNext cfg x ⟨.renew userId successor, prior, inner, .running⟩ userId successor ok).1
    (renewNext cfg x ⟨.renew userId successor, prior, inner, .running⟩ userId successor ok).2

variable {cfg} {x} {userId} {successor} {ok} {now : ℤ} {session : UserSession} {inner : Phase}
  {expiration : Expiration}

theorem advances_start : Advances cfg x userId successor ok .start inner := by
  rw [Advances, renewNext]
  dsimp only
  split
  · exact moves_of_next (.seeking _) (cacheNext_eq rfl) nofun
      (.waits _ (touches_early rfl rfl) (touches_early rfl rfl) trivial nofun)
  · exact .fails _ _ rfl (.inl rfl) nofun

/-- A renewal reads the prior session. -/
theorem advances_seeking : Advances cfg x userId successor ok (.seeking now) inner := by
  have hnext := @cacheNext_eq cfg ok x.prior ⟨.renewPrior userId, .seeking now⟩ rfl
  rw [SessionCache.next] at hnext
  dsimp only at hnext
  cases hrow : x.prior.row with
  | none =>
    rw [hrow] at hnext
    exact moves_of_failed hnext rfl rfl
  | some row =>
    rw [hrow] at hnext
    dsimp only at hnext
    split at hnext
    · next hselects =>
      refine moves_of_next (.candidate row now) hnext nofun
        (.waits _ (touches_early rfl rfl) (touches_early rfl rfl) trivial fun t ht => .inr ?_)
      cases ht
      rw [hrow]
      exact (Bool.and_eq_true_iff.mp hselects).2
    · exact moves_of_failed hnext rfl rfl

/-- A renewal prepares its fence, or has none to publish. -/
theorem advances_candidate : Advances cfg x userId successor ok (.candidate session now) inner := by
  have hbefore : touches cfg (.candidate session now) = false := touches_early rfl rfl
  cases hredis : cfg.redisEnabled with
  | true =>
    exact moves_of_next (.fencing session now _) (cacheNext_redis hredis _ _ _) nofun
      (.waits _ hbefore (touches_early rfl rfl) hredis fun t ht => .inl ht)
  | false =>
    exact moves_of_next (.fenced session now) (cacheNext_noRedis hredis) nofun
      (.waits _ hbefore (by simp [touches, isPast, hredis]) trivial fun t ht => .inl ht)

/-- A renewal publishes its fence. -/
theorem advances_fencing (hredis : cfg.redisEnabled = true) :
    Advances cfg x userId successor ok (.fencing session now expiration) inner := by
  have hnext := cacheNext_redis hredis x.prior ⟨.renewPrior userId, .fencing session now expiration⟩ ok
  rw [SessionCache.next] at hnext
  dsimp only [Call.reason] at hnext
  by_cases haccepts :
      (ok && x.prior.accepts (tombstone .revoking now "miniapp_renewed" session)) = true
  · rw [deny_true haccepts expiration] at hnext
    exact moves_of_next (.fenced session now) hnext nofun
      (.fences session now expiration _ rfl hredis rfl (put_row _ _ _))
  · rw [deny_false (Bool.eq_false_iff.mpr haccepts) expiration] at hnext
    exact moves_of_failed hnext rfl rfl

/-- The prior session is still there when the transaction goes through. -/
theorem renewable_of_refusal (h : refusal cfg x userId successor now = none) :
    ∃ row, x.prior.row = some row ∧ Limits.isRenewable userId now row = true := by
  rw [refusal] at h
  split at h
  · cases h
  · next hany =>
    rw [Bool.not_eq_true, Bool.not_eq_false'] at hany
    exact (Option.any_eq_true _ _).mp hany

theorem advances_fenced : Advances cfg x userId successor ok (.fenced session now) inner := by
  rw [Advances, renewNext]
  dsimp only
  rw [transaction]
  split
  · next hok => exact .fails _ _ rfl (.inr ⟨_, rfl⟩) fun _ _ _ => .inl (by simpa using hok)
  split
  · next error hrefusal =>
    refine .fails _ _ rfl (.inr ⟨_, rfl⟩) fun session' now' h => .inr ?_
    cases h
    rw [hrefusal]
    rfl
  · next hrefusal =>
    obtain ⟨row, hrow, hrenewable⟩ := renewable_of_refusal hrefusal
    rw [revokeRow, hrow]
    dsimp only
    rw [if_neg (by simp)]
    split
    · exact .commits session now row rfl rfl hrow hrenewable
    · next hnot => exact (hnot hrenewable).elim

theorem advances_revokedRow : Advances cfg x userId successor ok (.revokedRow session now) inner := by
  cases hredis : cfg.redisEnabled with
  | true =>
    exact moves_of_next (.finalizing _ _) (cacheNext_redis hredis _ _ _) nofun
      (.finishes _ x.prior rfl (by simp) rfl rfl nofun)
  | false =>
    exact moves_of_next .finalized (cacheNext_noRedis hredis) nofun
      (.finishes _ x.prior rfl (by simp) rfl rfl nofun)

/-- A renewal publishes its tombstone; that it could not is only logged. -/
theorem advances_finalizing : Advances cfg x userId successor ok (.finalizing entry expiration) inner := by
  have hnext := @cacheNext_eq cfg ok x.prior ⟨.renewPrior userId, .finalizing entry expiration⟩ rfl
  rw [SessionCache.next] at hnext
  dsimp only at hnext
  by_cases haccepts : (ok && x.prior.accepts entry) = true
  · rw [deny_true haccepts expiration] at hnext
    exact moves_of_next .finalized hnext nofun
      (.finishes _ _ rfl (by simp) rfl (put_row _ _ _) nofun)
  · have hrefused := Bool.eq_false_iff.mpr haccepts
    rw [deny_false hrefused expiration] at hnext
    exact moves_of_next .unfinalized hnext nofun
      (.finishes _ _ rfl (by simp) rfl rfl fun _ => ⟨entry, expiration, rfl, hrefused⟩)

end Renewing

/-- **What a step of a renewal does.** -/
theorem renew_moves (hcall : p.call = .renew userId successor) (hstands : Stands cfg p.prior) (x : Shared) (ok : Bool) :
    Moves cfg x p userId successor ok (renewNext cfg x p userId successor ok).1
      (renewNext cfg x p userId successor ok).2 := by
  obtain ⟨call, prior, inner, result⟩ := p
  obtain rfl : call = .renew userId successor := hcall
  cases result with
  | failed e | succeeded session => exact .rests (by simp)
  | running =>
    cases prior with
    | start => exact advances_start
    | seeking now => exact advances_seeking
    | candidate session now => exact advances_candidate
    | fencing session now expiration => exact advances_fencing hstands
    | fenced session now => exact advances_fenced
    | revokedRow session now => exact advances_revokedRow
    | finalizing entry expiration => exact advances_finalizing
    | finalized =>
      exact moves_of_next .succeeded (cacheNext_eq rfl) nofun
        (.finishes _ x.prior rfl (by simp) rfl rfl nofun)
    | succeeded => exact .fills rfl (.inl rfl)
    | unfinalized => exact .fills rfl (.inr rfl)
    | failed error => exact moves_of_failed (cacheNext_eq rfl) rfl rfl
    | _ => cases hstands

end Moves

/-! ## What a read does -/

/-- The phases of a read. -/
def onRead : Phase → Bool
  | .start | .hit _ | .missed | .reading _ | .observed _ _ | .filling _ _ _ | .filled _ _
  | .confirming _ | .returned _ | .denied _ | .denying _ _ | .failed _ => true
  | _ => false

section Reads

variable (cfg : Config) {x : Store} {phase : Phase}

theorem onRead_readEntry (clock : ℤ) (entry : UserSession) : onRead (readEntry clock entry) = true := by
  rw [readEntry]
  repeat' split
  all_goals rfl

theorem onRead_begin (ok : Bool) :
    (begin x ⟨.get, phase⟩ ok).1.row = x.row ∧ onRead (begin x ⟨.get, phase⟩ ok).2.phase = true := by
  dsimp only [begin]
  repeat' split
  all_goals exact ⟨rfl, rfl⟩

theorem onRead_observe (captured : ℤ) (ok : Bool) : (observe x ⟨.get, phase⟩ captured ok).1.row = x.row ∧
      onRead (observe x ⟨.get, phase⟩ captured ok).2.phase = true := by
  rw [observe.eq_def]
  split
  · repeat' split
    all_goals exact ⟨rfl, rfl⟩
  · next hget _ => cases hget
  · exact ⟨rfl, rfl⟩

theorem onRead_fill (p : SessionCache.Proc) (captured : ℤ) (session : UserSession) (expiration : Expiration)
    (ok : Bool) : (fill x p captured session expiration ok).1.row = x.row ∧
      onRead (fill x p captured session expiration ok).2.phase = true := by
  rw [fill]
  split
  · split <;> exact ⟨rfl, rfl⟩
  split
  · exact ⟨put_row _ _ _, rfl⟩
  · exact ⟨rfl, rfl⟩

theorem deny_row (entry : UserSession) (expiration : Expiration) (ok : Bool) :
    (deny x entry expiration ok).1.row = x.row := by
  rw [deny]
  split
  · exact put_row x expiration entry
  · rfl

/-- A read leaves the row alone. -/
theorem next_read (hphase : onRead phase = true) (ok : Bool) :
    (SessionCache.next cfg.cache x ⟨.get, phase⟩ ok).1.row = x.row ∧
      onRead (SessionCache.next cfg.cache x ⟨.get, phase⟩ ok).2.phase = true := by
  cases phase with
  | start => exact onRead_begin ok
  | hit entry => exact ⟨rfl, onRead_readEntry _ _⟩
  | missed | denied session | returned session | failed error => exact ⟨rfl, rfl⟩
  | reading captured => exact onRead_observe captured ok
  | observed captured session =>
    dsimp only [SessionCache.next]
    split <;> exact ⟨rfl, rfl⟩
  | filling captured session expiration => exact onRead_fill _ captured session expiration ok
  | filled captured session =>
    dsimp only [SessionCache.next]
    split
    · exact ⟨rfl, rfl⟩
    split <;> exact ⟨rfl, rfl⟩
  | confirming session =>
    refine ⟨rfl, ?_⟩
    dsimp only [SessionCache.next, confirm]
    repeat' split
    all_goals rfl
  | denying entry expiration => exact ⟨deny_row entry expiration ok, rfl⟩
  | _ => cases hphase

theorem cacheNext_read (hphase : onRead phase = true) (ok : Bool) :
    (cacheNext cfg x ⟨.get, phase⟩ ok).1.row = x.row ∧ onRead (cacheNext cfg x ⟨.get, phase⟩ ok).2.phase = true := by
  rw [cacheNext]
  split
  · exact next_read cfg hphase ok
  · cases phase with
    | start => exact onRead_begin false
    | observed | denied => exact ⟨rfl, rfl⟩
    | inserted | candidate | revokedRow => cases hphase
    | _ => exact next_read cfg hphase ok

end Reads

/-! ## The conditions of a renewal -/

section Conditions

variable (cfg : Config)

/-- Nothing happens to the successor of a renewal before the renewal returns: it does not expire, Redis does
not refuse its entry, and where the renewal asks for it, the row is still there and active. -/
def intact (y : Store) (ok : Bool) : Phase → Bool
  | .observed _ session | .filled _ session => session.expiresAt > unix y.clock
  | .filling _ session _ => !ok || y.accepts (cacheEntry session)
  | .confirming session =>
    ok && y.row.any fun row => row.userId = session.userId && row.isUsable (unix y.clock) &&
      row.version = session.version && row.userAuthVersion = session.userAuthVersion
  | _ => true

/-- Once its fence is published, a renewal goes through: its transaction commits unless another one has,
its tombstone is written, and nothing happens to its successor. -/
def goesThrough (x : Shared) (p : Proc) : Action → Bool
  | .next ok =>
    match p.call, p.result, p.prior with
    | .renew userId successor, .running, .fenced _ now =>
      !cfg.redisEnabled ||
        (ok && x.hasUser userId successor.userAuthVersion && !limitReached cfg x userId now &&
          !x.isTaken successor.sid) ||
        !x.prior.row.any fun row => row.status = .active
    | .renew _ _, .running, .finalizing entry _ => ok && x.prior.accepts entry
    | .renew _ successor, .running, .succeeded => intact (x.storeOf successor.sid) ok p.successor
    | _, _, _ => true
  | _ => true

variable {cfg} {x : Shared} {p : Proc} {userId : ℤ} {successor : UserSession} {ok : Bool}

/-- The transaction of a renewal that goes through commits, unless the session is revoked already. -/
theorem refusal_of_goesThrough (hcall : p.call = .renew userId successor)
    (hrunning : p.result = .running) {session : UserSession} {now : ℤ}
    (hprior : p.prior = .fenced session now) (hredis : cfg.redisEnabled = true)
    (h : goesThrough cfg x p (.next ok) = true) (hrow : x.prior.row.any (Limits.isRenewable userId now) = true) :
    ok = true ∧ refusal cfg x userId successor now = none := by
  rw [goesThrough, hcall, hrunning, hprior] at h
  have hactive : x.prior.row.any (fun row => row.status = .active) = true := by
    obtain ⟨row, hsome, hrenewable⟩ := (Option.any_eq_true _ _).mp hrow
    rw [hsome]
    simp only [Limits.isRenewable, Bool.and_eq_true] at hrenewable
    exact decide_eq_true (isUsable_status hrenewable.2)
  simp only [hredis, hactive, Bool.not_true, Bool.false_or, Bool.or_false, Bool.and_eq_true, Bool.not_eq_true'] at h
  obtain ⟨⟨⟨hok, huser⟩, hlimit⟩, htaken⟩ := h
  refine ⟨hok, ?_⟩
  have hsome : x.users userId ≠ none := by
    intro hnone
    rw [Shared.hasUser, hnone] at huser
    cases huser
  rw [refusal, if_neg (by simp [hrow]), if_neg hsome, if_neg (by simp [huser]),
    if_neg (by simp [hlimit]), if_neg (by simp [htaken])]

/-- The phases of a renewal's successor, once its row is written. -/
def onSuccessor : Phase → Bool
  | .inserted _ | .observed _ _ | .filling _ _ _ | .filled _ _ | .confirming _ | .returned _ => true
  | _ => false

theorem expiry_of_unix {expiresAt clock : ℤ} (h : expiresAt > unix clock) : clock < expiresAt * second := by
  rw [unix] at h
  exact (Int.ediv_lt_iff_lt_mul (by decide)).mp h

/-- A snapshot of a session that has not expired can be filled, unless it is too late for it. -/
theorem prepare_of_open {settings : SessionCache.Settings} {clock : ℤ} {entry : UserSession}
    (h : entry.expiresAt > unix clock) (cacheDeadline : ℤ) :
    (∃ expiration, prepare settings clock entry (some cacheDeadline) = .ok expiration) ∨
      prepare settings clock entry (some cacheDeadline) = .error .stale := by
  have hexpires := expiry_of_unix h
  rw [prepare]
  split
  · split
    · exact .inr rfl
    rw [if_neg (by omega)]
    split
    · exact .inr rfl
    · exact .inl ⟨_, rfl⟩
  · exact .inl ⟨_, rfl⟩

variable {y : Store} {phase : Phase}

/-- A successor that is left alone gets to its end. -/
theorem next_intact (hphase : onSuccessor phase = true) (h : intact y ok phase = true) :
    onSuccessor (SessionCache.next cfg.cache y ⟨.renewSuccessor successor, phase⟩ ok).2.phase = true := by
  cases phase with
  | inserted session | returned session => rfl
  | observed captured session =>
    have hopen : (cacheEntry session).expiresAt > unix y.clock := of_decide_eq_true h
    dsimp only [SessionCache.next]
    rcases prepare_of_open hopen (deadline cfg.cache captured) with ⟨expiration, hprepare⟩ | hprepare
    · rw [hprepare]
      rfl
    · rw [hprepare]
      rfl
  | filling captured session expiration =>
    dsimp only [SessionCache.next]
    rw [fill]
    split
    · rfl
    · next hok =>
      have haccepts : y.accepts (cacheEntry session) = true := by
        simpa [intact, Bool.eq_false_of_not_eq_true hok] using h
      rw [if_pos haccepts]
      rfl
  | filled captured session =>
    have hexpires := expiry_of_unix (of_decide_eq_true h)
    dsimp only [SessionCache.next]
    split
    · rfl
    rw [if_neg (by omega)]
    rfl
  | confirming session =>
    obtain ⟨hok, hany⟩ := Bool.and_eq_true_iff.mp h
    dsimp only [SessionCache.next]
    rw [confirm, if_neg (by simp [hok]), if_pos hany]
    rfl
  | _ => cases hphase

theorem cacheNext_intact (hphase : onSuccessor phase = true) (h : intact y ok phase = true) :
    onSuccessor (cacheNext cfg y ⟨.renewSuccessor successor, phase⟩ ok).2.phase = true := by
  rw [cacheNext]
  split
  · exact next_intact hphase h
  · cases phase with
    | inserted | observed => rfl
    | start | denied | candidate | revokedRow => cases hphase
    | _ => exact next_intact hphase h

/-- What is true of a renewal that goes through. -/
structure Fine (cfg : Config) (p : Proc) : Prop where
  stands : Stands cfg p.prior
  final : p.prior ≠ .unfinalized
  early : isPast p.prior = false → ∀ session, p.result ≠ .succeeded session
  fenced : touches cfg p.prior = true → isPast p.prior = false → p.result = .running
  past : isPast p.prior = true → onSuccessor p.successor = true ∧ p.result = resultOf p.successor
  inserted : isPast p.prior = true → p.prior ≠ .succeeded → p.result = .running

theorem isPast_of_touches (h : touches cfg phase = false) : isPast phase = false :=
  (Bool.or_eq_false_iff.mp h).1

theorem resultOf_ne_failed (h : onSuccessor phase = true) (e : SessionError) : resultOf phase ≠ .failed e := by
  cases phase with
  | failed => cases h
  | _ => simp [resultOf]

/-- A renewal that has written something has not failed. -/
theorem Fine.not_failed (h : Fine cfg p) (htouches : touches cfg p.prior = true) (e : SessionError) :
    p.result ≠ .failed e := by
  cases hpast : isPast p.prior with
  | true =>
    obtain ⟨hphase, hresult⟩ := h.past hpast
    rw [hresult]
    exact resultOf_ne_failed hphase e
  | false =>
    rw [h.fenced htouches hpast]
    simp

/-- A renewal that has succeeded has written its tombstone. -/
theorem Fine.succeeded (h : Fine cfg p) {session : UserSession} (hresult : p.result = .succeeded session) :
    p.prior = .succeeded := by
  cases hpast : isPast p.prior with
  | true =>
    by_contra hne
    rw [h.inserted hpast hne] at hresult
    cases hresult
  | false => exact (h.early hpast session hresult).elim

theorem stands_of_isPast (h : isPast phase = true) : Stands cfg phase := by
  cases phase with
  | start | seeking | candidate | fenced | failed => trivial
  | fencing => cases h
  | _ => exact h

/-- A renewal that has written nothing. -/
theorem Fine.of_early (hstands : Stands cfg p.prior) (h : touches cfg p.prior = false)
    (hresult : ∀ session, p.result ≠ .succeeded session) : Fine cfg p := by
  have hpast := isPast_of_touches h
  refine ⟨hstands, fun hprior => ?_, fun _ => hresult, ?_, ?_, ?_⟩
  · rw [hprior] at hpast
    cases hpast
  all_goals simp [h, hpast]

/-- A renewal that has committed. -/
theorem Fine.of_past (hpast : isPast p.prior = true) (hfinal : p.prior ≠ .unfinalized)
    (hsuccessor : onSuccessor p.successor = true ∧ p.result = resultOf p.successor)
    (hrunning : p.prior ≠ .succeeded → p.result = .running) : Fine cfg p :=
  ⟨stands_of_isPast hpast, hfinal, by simp [hpast], by simp [hpast], fun _ => hsuccessor, fun _ => hrunning⟩

theorem Fine.fill (h : Fine cfg p) (hprior : p.prior = .succeeded)
    (hintact : intact (x.storeOf successor.sid) ok p.successor = true) :
    Fine cfg (stepSuccessor cfg x p successor ok).2 := by
  have hpast : isPast p.prior = true := by rw [hprior]; rfl
  exact .of_past hpast h.final ⟨cacheNext_intact (h.past hpast).1 hintact, rfl⟩ fun hne => (hne hprior).elim

/-- A renewal that goes through stays fine. -/
theorem Fine.moves {x' : Shared} {p' : Proc} (h : Fine cfg p)
    (hmoves : Moves cfg x p userId successor ok x' p') (hcall : p.call = .renew userId successor)
    (hthrough : goesThrough cfg x p (.next ok) = true) : Fine cfg p' := by
  cases hmoves with
  | waits phase hbefore hafter hstands _ => exact .of_early hstands hafter (h.early (isPast_of_touches hbefore))
  | fails phase error hbefore hafter _ =>
    refine .of_early ?_ ?_ nofun
    · rcases hafter with rfl | ⟨e, rfl⟩ <;> trivial
    · rcases hafter with rfl | ⟨e, rfl⟩ <;> exact touches_early rfl rfl
  | fences session now expiration y hrunning hredis hprior hrow =>
    exact ⟨trivial, nofun, fun _ s => by simp [hrunning], fun _ _ => hrunning, nofun, nofun⟩
  | commits session now row hrunning hprior hrow hrenewable =>
    exact .of_past rfl nofun ⟨rfl, hrunning⟩ fun _ => hrunning
  | finishes phase y hbefore hopen hafter hrow hfinal =>
    have hrunning := h.inserted hbefore hopen
    refine .of_past hafter (fun hphase => ?_) (h.past hbefore) fun _ => hrunning
    obtain ⟨entry, expiration, hprior, hrefused⟩ := hfinal hphase
    rw [goesThrough, hcall, hrunning, hprior] at hthrough
    exact absurd (hrefused.symm.trans hthrough) (by simp)
  | fills hrunning hprior =>
    rcases hprior with hprior | hprior
    · rw [goesThrough, hcall, hrunning, hprior] at hthrough
      exact h.fill hprior hthrough
    · exact (h.final hprior).elim
  | rests hover => exact h

end Conditions

/-! ## One commit -/

section Commit

/-- A renewal has replaced the session. -/
def committed (p : Proc) : Bool :=
  match p.call with
  | .read => false
  | .renew _ _ => isPast p.prior

/-- A call is where such a call can be. -/
def Placed (cfg : Config) (p : Proc) : Prop :=
  match p.call with
  | .read => onRead p.prior = true
  | .renew _ _ => Fine cfg p

/-- What a step does to the rows. -/
inductive Effect (x : Shared) (p : Proc) (x' : Shared) (p' : Proc) : Prop
  | keeps (hrow : x'.prior.row = x.prior.row)
      (hsids : x'.successors.map UserSession.sid = x.successors.map UserSession.sid)
      (hcommitted : committed p' = committed p)
  | replaces (userId : ℤ) (successor : UserSession) (row : UserSession)
      (hcall : p.call = .renew userId successor) (hbefore : committed p = false)
      (hafter : committed p' = true) (hrow : x.prior.row = some row) (hactive : row.status = .active)
      (hrevoked : RowRevoked x'.prior)
      (hsids : x'.successors.map UserSession.sid = x.successors.map UserSession.sid ++ [successor.sid])

variable {cfg : Config} {x x' : Shared} {p p' : Proc} {userId : ℤ} {successor : UserSession} {ok : Bool}

theorem committed_renew (hcall : p.call = .renew userId successor) : committed p = isPast p.prior := by
  rw [committed, hcall]

theorem committed_read (hcall : p.call = .read) : committed p = false := by
  rw [committed, hcall]

theorem placed_renew (hcall : p.call = .renew userId successor) : Placed cfg p ↔ Fine cfg p := by
  rw [Placed, hcall]

theorem placed_read (hcall : p.call = .read) : Placed cfg p ↔ onRead p.prior = true := by
  rw [Placed, hcall]

theorem newSession_sid (now : ℤ) : (newSession successor now).sid = successor.sid := rfl

theorem Moves.call (h : Moves cfg x p userId successor ok x' p') : p'.call = p.call := by
  cases h <;> rfl

theorem Moves.effect (h : Moves cfg x p userId successor ok x' p')
    (hcall : p.call = .renew userId successor) : Effect x p x' p' := by
  have hcall' := h.call.trans hcall
  have hkeeps : isPast p'.prior = isPast p.prior → committed p' = committed p := by
    intro h
    rw [committed_renew hcall, committed_renew hcall', h]
  cases h with
  | waits phase hbefore hafter hstands hseen =>
    exact .keeps rfl rfl (hkeeps ((isPast_of_touches hafter).trans (isPast_of_touches hbefore).symm))
  | fails phase error hbefore hafter hrefused =>
    refine .keeps rfl rfl (hkeeps ?_)
    rw [hbefore]
    rcases hafter with rfl | ⟨e, rfl⟩ <;> rfl
  | fences session now expiration y hrunning hredis hprior hrow =>
    exact .keeps hrow rfl (hkeeps (by rw [hprior]; rfl))
  | commits session now row hrunning hprior hrow hrenewable =>
    have hactive : row.status = .active := by
      simp only [Limits.isRenewable, Bool.and_eq_true] at hrenewable
      exact isUsable_status hrenewable.2
    refine .replaces userId successor row hcall ?_ ?_ hrow hactive ⟨_, rfl, by simp [setRevoked]⟩ ?_
    · rw [committed_renew hcall, hprior]
      rfl
    · rw [committed_renew hcall']
      rfl
    · rw [List.map_append, List.map_singleton, newSession_sid]
  | finishes phase y hbefore hopen hafter hrow hfinal =>
    exact .keeps hrow rfl (hkeeps (hafter.trans hbefore.symm))
  | fills hrunning hprior => exact .keeps rfl rfl (hkeeps rfl)
  | rests hover => exact .keeps rfl rfl rfl

theorem readNext_placed (hcall : p.call = .read) (hphase : onRead p.prior = true) :
    (readNext cfg x p ok).1.prior.row = x.prior.row ∧ onRead (readNext cfg x p ok).2.prior = true := by
  rw [readNext, onPrior_read hcall]
  exact cacheNext_read cfg hphase ok

/-- Nothing in a step changes which call it is. -/
theorem act_call (hp : Placed cfg p) (x : Shared) (a : Action) : (act cfg x p a).2.call = p.call := by
  cases a with
  | next ok =>
    rw [act, next]
    cases hcall : p.call with
    | read => exact hcall
    | renew userId successor =>
      exact (renew_moves hcall ((placed_renew hcall).mp hp).stands x ok).call.trans hcall
  | tick | outside | revoke => rfl

theorem act_placed (hp : Placed cfg p) {x : Shared} {a : Action}
    (hthrough : goesThrough cfg x p a = true) : Placed cfg (act cfg x p a).2 := by
  have hcall' := act_call hp x a
  cases a with
  | next ok =>
    cases hcall : p.call with
    | read =>
      rw [hcall] at hcall'
      rw [placed_read hcall']
      rw [act, next, hcall]
      exact (readNext_placed hcall ((placed_read hcall).mp hp)).2
    | renew userId successor =>
      rw [hcall] at hcall'
      rw [placed_renew hcall']
      rw [act, next, hcall]
      have hfine := (placed_renew hcall).mp hp
      exact hfine.moves (renew_moves hcall hfine.stands x ok) hcall hthrough
  | tick | outside | revoke => exact hp

theorem act_effect (hp : Placed cfg p) (x : Shared) (a : Action) : Effect x p (act cfg x p a).1 (act cfg x p a).2 := by
  cases a with
  | next ok =>
    rw [act, next]
    cases hcall : p.call with
    | read =>
      exact .keeps (readNext_placed hcall ((placed_read hcall).mp hp)).1 rfl
        ((committed_read (p := (readNext cfg x p ok).2) hcall).trans (committed_read hcall).symm)
    | renew userId successor =>
      exact (renew_moves hcall ((placed_renew hcall).mp hp).stands x ok).effect hcall
  | tick | outside => exact .keeps rfl rfl rfl
  | revoke sid now reason =>
    refine .keeps rfl ?_ rfl
    rw [act, List.map_map]
    refine List.map_congr_left fun s _ => ?_
    show (if s.sid = sid then setRevoked now reason s else s).sid = s.sid
    split <;> rfl

end Commit

/-! ## Whole runs -/

section Runs

variable {ι : Type*} (cfg : Config)

/-- No renewal has committed and there is no successor, or one has and there is its successor. -/
inductive Once (s : System ι Shared Proc) : Prop
  | none (hsuccessors : s.shared.successors = []) (hcommitted : ∀ i, committed (s.proc i) = false)
  | one (i : ι) (userId : ℤ) (successor : UserSession) (hcall : (s.proc i).call = .renew userId successor)
      (hcommitted : ∀ j, committed (s.proc j) = true ↔ j = i)
      (hsids : s.shared.successors.map UserSession.sid = [successor.sid])
      (hrevoked : RowRevoked s.shared.prior)

structure Orderly (s : System ι Shared Proc) : Prop where
  placed : ∀ i, Placed cfg (s.proc i)
  once : Once s
  seen : ∀ i userId successor now, (s.proc i).call = .renew userId successor →
    seenAt (s.proc i).prior = some now →
    s.shared.prior.row.any (Limits.isRenewable userId now) = true ∨ ∃ k, committed (s.proc k) = true

variable {cfg} {s : System ι Shared Proc}

theorem orderly_opening (x : Shared) (calls : ι → Call) : Orderly cfg (opening x calls) where
  placed i := by
    cases hcall : calls i with
    | read => exact (placed_read (p := (opening x calls).proc i) hcall).mpr rfl
    | renew userId successor =>
      exact (placed_renew (p := (opening x calls).proc i) hcall).mpr (.of_early trivial (touches_early rfl rfl) nofun)
  once := by
    refine .none rfl fun i => ?_
    rw [committed]
    split <;> rfl
  seen i userId successor now hcall hseen := by cases hseen

variable [DecidableEq ι] {a : ι × Action} (hthrough : goesThrough cfg s.shared (s.proc a.1) a.2 = true)

include hthrough in
theorem placed_move (h : ∀ i, Placed cfg (s.proc i)) (i : ι) : Placed cfg ((move (act cfg) s a).proc i) :=
  move_proc (P := fun _ => Placed cfg) (act_placed (h a.1) hthrough) (fun j _ => h j) i

theorem call_move (h : ∀ i, Placed cfg (s.proc i)) (i : ι) : ((move (act cfg) s a).proc i).call = (s.proc i).call :=
  move_proc (P := fun i (p : Proc) => p.call = (s.proc i).call) (act_call (h a.1) s.shared a.2) (fun _ _ => rfl) i

/-- Whether the others have committed does not depend on the call that moves. -/
theorem committed_move {b : Bool} (hself : committed (act cfg s.shared (s.proc a.1) a.2).2 = b) (i : ι) :
    committed ((move (act cfg) s a).proc i) = if i = a.1 then b else committed (s.proc i) := by
  split
  · next hi =>
    subst hi
    rw [move_self]
    exact hself
  · next hi => rw [move_other _ s a hi]

theorem once_move (hplaced : ∀ i, Placed cfg (s.proc i)) (h : Once s) : Once (move (act cfg) s a) := by
  cases act_effect (hplaced a.1) s.shared a.2 with
  | keeps hrow hsids hcommitted =>
    have hsame : ∀ i, committed ((move (act cfg) s a).proc i) = committed (s.proc i) := by
      intro i
      rw [committed_move hcommitted]
      split
      · next hi => rw [hi]
      · rfl
    cases h with
    | none hsuccessors hnone =>
      rw [hsuccessors] at hsids
      exact .none (List.map_eq_nil_iff.mp hsids) fun i => (hsame i).trans (hnone i)
    | one i userId successor hcall hone hsids' hrevoked =>
      refine .one i userId successor ((call_move hplaced i).trans hcall) (fun j => ?_) (hsids.trans hsids') ?_
      · rw [hsame]
        exact hone j
      · obtain ⟨row, hsome, hstatus⟩ := hrevoked
        exact ⟨row, hrow.trans hsome, hstatus⟩
  | replaces userId successor row hcall hbefore hafter hrow hactive hrevoked hsids =>
    cases h with
    | none hsuccessors hnone =>
      rw [hsuccessors] at hsids
      refine .one a.1 userId successor ((call_move hplaced a.1).trans hcall) (fun j => ?_) hsids hrevoked
      rw [committed_move hafter]
      split
      · next hj => exact iff_of_true rfl hj
      · next hj => exact iff_of_false (by simp [hnone j]) hj
    | one i userId' successor' hcall' hone hsids' hrevoked' =>
      -- the row of a session that was replaced is not active
      obtain ⟨row', hsome, hstatus⟩ := hrevoked'
      rw [hrow, Option.some_inj] at hsome
      exact (hstatus (hsome ▸ hactive)).elim

variable {x x' : Shared} {p p' : Proc} {userId now : ℤ} {successor : UserSession} {ok : Bool}

variable (hmoves : Moves cfg x p userId successor ok x' p')

include hmoves in
theorem Moves.seen (h : seenAt p'.prior = some now) :
    seenAt p.prior = some now ∨ x.prior.row.any (Limits.isRenewable userId now) = true := by
  cases hmoves with
  | waits phase _ _ _ hseen => exact hseen now h
  | fails phase error _ hafter _ => rcases hafter with rfl | ⟨e, rfl⟩ <;> cases h
  | fences session t expiration y _ _ hprior _ =>
    left
    rw [hprior]
    exact h
  | commits => cases h
  | finishes phase y _ _ hafter _ _ => cases phase <;> cases hafter <;> cases h
  | fills | rests => exact .inl h

theorem act_seen {a : Action} (hp : Placed cfg p) (hcall : p.call = .renew userId successor)
    (h : seenAt (act cfg x p a).2.prior = some now) :
    seenAt p.prior = some now ∨ x.prior.row.any (Limits.isRenewable userId now) = true := by
  cases a with
  | next ok =>
    rw [act, next, hcall] at h
    exact (renew_moves hcall ((placed_renew hcall).mp hp).stands x ok).seen h
  | tick | outside | revoke => exact .inl h

include hthrough in
theorem orderly_move (h : Orderly cfg s) : Orderly cfg (move (act cfg) s a) where
  placed := placed_move hthrough h.placed
  once := once_move h.placed h.once
  seen i userId successor now hcall hseen := by
    rw [call_move h.placed] at hcall
    have hbefore : s.shared.prior.row.any (Limits.isRenewable userId now) = true ∨
        ∃ k, committed (s.proc k) = true := by
      by_cases hi : i = a.1
      · subst hi
        rw [move_self] at hseen
        rcases act_seen (h.placed a.1) hcall hseen with hold | hrenewable
        · exact h.seen a.1 userId successor now hcall hold
        · exact .inl hrenewable
      · rw [move_other _ s a hi] at hseen
        exact h.seen i userId successor now hcall hseen
    cases act_effect (h.placed a.1) s.shared a.2 with
    | keeps hrow hsids hcommitted =>
      rcases hbefore with hrenewable | ⟨k, hk⟩
      · left
        rw [move_shared, hrow]
        exact hrenewable
      · refine .inr ⟨k, ?_⟩
        rw [committed_move hcommitted]
        split
        · next hka => rw [← hka, hk]
        · exact hk
    | replaces _ _ _ _ _ hafter =>
      refine .inr ⟨a.1, ?_⟩
      rw [committed_move hafter, if_pos rfl]

/-! ### Renewals that fail -/

/-- A renewal that has written something. -/
def wrote (cfg : Config) (p : Proc) : Bool :=
  match p.call with
  | .read => false
  | .renew _ _ => touches cfg p.prior

omit [DecidableEq ι] in
theorem wrote_renew (hcall : p.call = .renew userId successor) : wrote cfg p = touches cfg p.prior := by
  rw [wrote, hcall]

include hmoves in
/-- A renewal that has written nothing writes nothing, or has then written. -/
theorem Moves.writes
    (hcall : p.call = .renew userId successor) (h : wrote cfg p = false) : x' = x ∨ wrote cfg p' = true := by
  rw [wrote_renew hcall] at h
  rw [wrote_renew (hmoves.call.trans hcall)]
  have hearly := isPast_of_touches h
  cases hmoves with
  | waits | fails | rests => exact .inl rfl
  | fences session now expiration y _ hredis _ _ => exact .inr (by simp [touches, isFenced, hredis])
  | commits => exact .inr rfl
  | finishes phase y hbefore => exact absurd (hearly.symm.trans hbefore) (by simp)
  | fills _ hprior => rcases hprior with hprior | hprior <;> rw [hprior] at hearly <;> cases hearly

include hmoves in
/-- A renewal that has written something goes through, or another one has committed. -/
theorem Moves.still_wrote (hcall : p.call = .renew userId successor) (hp : Fine cfg p)
    (hthrough : goesThrough cfg x p (.next ok) = true) (h : wrote cfg p = true)
    (hseen : ∀ now, seenAt p.prior = some now →
      x.prior.row.any (Limits.isRenewable userId now) = true) : wrote cfg p' = true := by
  have hwrote := h
  rw [wrote_renew hcall] at h
  rw [wrote_renew (hmoves.call.trans hcall)]
  cases hmoves with
  | waits phase hbefore => exact absurd (hbefore.symm.trans h) (by simp)
  | fails phase error hbefore hafter hrefused =>
    -- it is fenced, and then its transaction commits
    rw [touches, hbefore, Bool.false_or, Bool.and_eq_true] at h
    cases hprior : p.prior with
    | fenced session now =>
      have hrunning := hp.fenced (by rw [← wrote_renew hcall]; exact hwrote) hbefore
      obtain ⟨hok, hnone⟩ := refusal_of_goesThrough hcall hrunning hprior h.1 hthrough (hseen now (by rw [hprior]; rfl))
      rcases hrefused session now hprior with hfalse | hsome
      · rw [hok] at hfalse
        cases hfalse
      · rw [hnone] at hsome
        cases hsome
    | _ =>
      rw [hprior] at h
      cases h.2
  | fences session now expiration y _ hredis _ _ => simp [touches, isFenced, hredis]
  | commits => rfl
  | finishes phase y _ _ hafter => simp [touches, hafter]
  | fills _ hprior | rests => exact h

/-- Beside the run without the renewals: nothing differs, or a renewal has written something. -/
def Beside (cfg : Config) (calls : ι → Call) (s t : System ι Shared Proc) : Prop :=
  (s.shared = t.shared ∧ (∀ i, calls i = .read → s.proc i = t.proc i) ∧
    ∀ i, wrote cfg (s.proc i) = false) ∨ ∃ i, wrote cfg (s.proc i) = true

/-- The steps that renewals do not take. -/
def isOther (calls : ι → Call) (a : ι × Action) : Bool :=
  match a.2 with
  | .next _ => calls a.1 = .read
  | _ => true

theorem wrote_of_committed (h : committed p = true) : wrote cfg p = true := by
  cases hcall : p.call with
  | read =>
    rw [committed_read hcall] at h
    cases h
  | renew userId successor =>
    rw [committed_renew hcall] at h
    rw [wrote_renew hcall, touches, h, Bool.true_or]

theorem call_of_wrote (h : wrote cfg p = true) : ∃ userId successor, p.call = .renew userId successor := by
  cases hcall : p.call with
  | read =>
    rw [wrote, hcall] at h
    cases h
  | renew userId successor => exact ⟨userId, successor, rfl⟩

variable {calls : ι → Call} {t : System ι Shared Proc}

omit [DecidableEq ι] in
/-- A step that no renewal takes does the same beside any other renewals. -/
theorem act_isOther (cfg : Config) (ha : isOther calls a = true) (hcall : p.call = calls a.1) {q : Proc}
    (hq : calls a.1 = .read → p = q) (x : Shared) :
    (act cfg x p a.2).1 = (act cfg x q a.2).1 ∧ wrote cfg (act cfg x p a.2).2 = wrote cfg p := by
  rw [isOther] at ha
  cases hnext : a.2 with
  | next ok =>
    rw [hnext] at ha
    have hread := of_decide_eq_true ha
    rw [hread] at hcall
    refine ⟨by rw [hq hread], ?_⟩
    rw [act, next, hcall]
    simp only [wrote, readNext, hcall]
  | tick | outside | revoke => exact ⟨rfl, rfl⟩

/-- A step that no renewal takes is taken on both sides. -/
theorem beside_keep (hcalls : ∀ i, (s.proc i).call = calls i) (ha : isOther calls a = true)
    (h : Beside cfg calls s t) : Beside cfg calls (move (act cfg) s a) (move (act cfg) t a) := by
  rcases h with ⟨hshared, hreads, hnone⟩ | ⟨i, hi⟩
  · obtain ⟨hsame, hwrote⟩ := act_isOther cfg ha (hcalls a.1) (hreads a.1) s.shared
    refine .inl ⟨?_, fun i hi => ?_, move_proc (P := fun _ p => wrote cfg p = false) ?_ fun i _ => hnone i⟩
    · rw [move_shared, move_shared, ← hshared]
      exact hsame
    · by_cases hia : i = a.1
      · subst hia
        rw [move_self, move_self, hshared, hreads a.1 hi]
      · rw [move_other _ s a hia, move_other _ t a hia]
        exact hreads i hi
    · exact hwrote.trans (hnone a.1)
  · have hwrote := (act_isOther cfg ha (hcalls a.1) (fun _ => rfl) s.shared).2
    refine .inr ⟨i, ?_⟩
    rw [move_proc (P := fun i p => wrote cfg p = wrote cfg (s.proc i)) hwrote (fun _ _ => rfl) i]
    exact hi

include hthrough in
/-- A step of a renewal is taken on one side only. -/
theorem beside_drop (hs : Orderly cfg s) (hcalls : ∀ i, (s.proc i).call = calls i) (ha : isOther calls a = false)
    (h : Beside cfg calls s t) : Beside cfg calls (move (act cfg) s a) t := by
  obtain ⟨hnot, ok, hok⟩ : calls a.1 ≠ .read ∧ ∃ ok, a.2 = .next ok := by
    rw [isOther] at ha
    split at ha
    · next ok hok => exact ⟨of_decide_eq_false ha, ok, hok⟩
    · cases ha
  obtain ⟨userId, successor, hcall⟩ : ∃ userId successor, (s.proc a.1).call = .renew userId successor := by
    rw [hcalls]
    cases hc : calls a.1 with
    | read => exact (hnot hc).elim
    | renew userId successor => exact ⟨userId, successor, rfl⟩
  have hact : act cfg s.shared (s.proc a.1) a.2 = renewNext cfg s.shared (s.proc a.1) userId successor ok := by
    rw [hok, act, next, hcall]
  have hfine := (placed_renew hcall).mp (hs.placed a.1)
  have hmoves := renew_moves hcall hfine.stands s.shared ok
  rw [hok] at hthrough
  rcases h with ⟨hshared, hreads, hnone⟩ | ⟨i, hi⟩
  · by_cases hwrote : wrote cfg (act cfg s.shared (s.proc a.1) a.2).2 = true
    · exact .inr ⟨a.1, by rw [move_self]; exact hwrote⟩
    · have hsame : (act cfg s.shared (s.proc a.1) a.2).1 = s.shared := by
        rw [hact] at hwrote ⊢
        exact (hmoves.writes hcall (hnone a.1)).resolve_right hwrote
      refine .inl ⟨by rw [move_shared, hsame, hshared], fun i hi => ?_,
        move_proc (P := fun _ p => wrote cfg p = false) (Bool.eq_false_iff.mpr hwrote) fun i _ => hnone i⟩
      have hia : i ≠ a.1 := by
        rintro rfl
        exact hnot hi
      rw [move_other _ s a hia]
      exact hreads i hi
  · by_cases hother : ∃ k, k ≠ a.1 ∧ wrote cfg (s.proc k) = true
    · obtain ⟨k, hk, hwrote⟩ := hother
      exact .inr ⟨k, by rw [move_other _ s a hk]; exact hwrote⟩
    -- the renewal that moves is the only one that has written
    have honly : ∀ k, wrote cfg (s.proc k) = true → k = a.1 := by
      intro k hk
      by_contra hne
      exact hother ⟨k, hne, hk⟩
    have hself : wrote cfg (s.proc a.1) = true := honly i hi ▸ hi
    have hseen : ∀ now, seenAt (s.proc a.1).prior = some now →
        s.shared.prior.row.any (Limits.isRenewable userId now) = true := by
      intro now hnow
      rcases hs.seen a.1 userId successor now hcall hnow with hrenewable | ⟨k, hk⟩
      · exact hrenewable
      · have hka := honly k (wrote_of_committed hk)
        subst hka
        rw [committed_renew hcall] at hk
        cases hprior : (s.proc a.1).prior <;> rw [hprior] at hk hnow <;> cases hk <;> cases hnow
    refine .inr ⟨a.1, ?_⟩
    rw [move_self, hact]
    exact hmoves.still_wrote hcall hfine hthrough hself hseen

/-! ### Renewals that succeed -/

omit [DecidableEq ι] in
theorem next_call (settings : SessionCache.Settings) (x : Store) (p : SessionCache.Proc) (ok : Bool) :
    (SessionCache.next settings x p ok).2.call = p.call := by
  -- in every branch the call is the one that is passed on
  unfold SessionCache.next begin observe insertRow readRotation rotateRow fill confirm revokeRow
  repeat' split
  all_goals rfl

/-- With Redis, what the calls do to the prior session is a run of the session cache. -/
def view (s : System ι Shared Proc) : System ι Store SessionCache.Proc :=
  ⟨s.shared.prior, fun i => (s.proc i).onPrior⟩

/-- A step is one of the session cache on the prior session. -/
def Follows (cfg : Config) (x : Shared) (p : Proc) (r : Shared × Proc) : Prop :=
  ∃ b, (r.1.prior, r.2.onPrior) = SessionCache.act cfg.cache x.prior p.onPrior b

/-- A step that leaves the prior session alone. -/
theorem follows_stay (hprior : x'.prior = x.prior) (hproc : p'.onPrior = p.onPrior) : Follows cfg x p (x', p') := by
  refine ⟨.tick 0, ?_⟩
  rw [hprior, hproc, SessionCache.act]
  simp

theorem onPrior_with (hcall : p'.call = p.call) : p'.onPrior = ⟨p.onPrior.call, p'.prior⟩ := by
  rw [Proc.onPrior, Proc.onPrior, hcall]
  cases p.call <;> rfl

theorem onPrior_phase : p.onPrior.phase = p.prior := by
  rw [Proc.onPrior]
  split <;> rfl

/-- A step of the session cache. -/
theorem follows_next (hcall : p'.call = p.call)
    (hstore : x'.prior = (SessionCache.next cfg.cache x.prior p.onPrior ok).1)
    (hphase : p'.prior = (SessionCache.next cfg.cache x.prior p.onPrior ok).2.phase) : Follows cfg x p (x', p') := by
  refine ⟨.next ok, ?_⟩
  have hsame := next_call cfg.cache x.prior p.onPrior ok
  rw [onPrior_with hcall, hstore, hphase, ← hsame]
  rfl

theorem stepPrior_follows (hredis : cfg.redisEnabled = true) : Follows cfg x p (stepPrior cfg x p ok) := by
  have hnext := cacheNext_redis hredis x.prior p.onPrior ok
  rw [stepPrior]
  split
  · exact follows_next rfl (congrArg Prod.fst hnext) (congrArg (fun r => r.2.phase) hnext)
  · exact follows_next rfl (congrArg Prod.fst hnext) (congrArg (fun r => r.2.phase) hnext)

/-- The transaction revokes the row of the prior session, or leaves it as it is. -/
theorem transaction_follows {session : UserSession} (hprior : p.prior = .fenced session now) :
    Follows cfg x p (transaction cfg x p userId successor session now ok) := by
  have hnext : ∀ ok', SessionCache.next cfg.cache x.prior p.onPrior ok' =
      revokeRow x.prior p.onPrior session now ok' := by
    intro ok'
    rw [SessionCache.next.eq_def, onPrior_phase, hprior]
  have hrolledBack : revokeRow x.prior p.onPrior session now false = (x.prior, p.onPrior.to (.failed .database)) := by
    rw [revokeRow]
    split
    · rfl
    · rfl
  have hfails : ∀ e, Follows cfg x p (x, p.fail (.failed .database) e) := by
    intro e
    refine ⟨.next false, ?_⟩
    rw [SessionCache.act, hnext, hrolledBack]
    exact congrArg (Prod.mk x.prior) (onPrior_with (p := p) rfl)
  rw [transaction]
  split
  · exact hfails .database
  split
  · next error _ => exact hfails error
  · exact follows_next rfl (congrArg Prod.fst (hnext true)).symm (congrArg (fun r => r.2.phase) (hnext true)).symm

theorem renewNext_follows (hredis : cfg.redisEnabled = true) :
    Follows cfg x p (renewNext cfg x p userId successor ok) := by
  rw [renewNext.eq_def]
  split
  · next hprior =>
    split
    · exact stepPrior_follows hredis
    · refine follows_stay rfl ?_
      have hfail : (p.fail .start .invalid).onPrior = ⟨p.onPrior.call, .start⟩ := onPrior_with rfl
      rw [hfail, ← hprior, ← onPrior_phase]
  · next hprior => exact transaction_follows hprior
  · exact follows_stay rfl rfl
  · exact follows_stay rfl rfl
  · exact stepPrior_follows hredis
  · exact follows_stay rfl rfl

theorem act_follows (hredis : cfg.redisEnabled = true) (a : Action) : Follows cfg x p (act cfg x p a) := by
  cases a with
  | next ok =>
    rw [act, next]
    split
    · exact follows_next rfl (congrArg Prod.fst (cacheNext_redis hredis x.prior p.onPrior ok))
        (congrArg (fun r => r.2.phase) (cacheNext_redis hredis x.prior p.onPrior ok))
    · exact renewNext_follows hredis
  | tick nanoseconds => exact ⟨.tick nanoseconds, rfl⟩
  | outside | revoke => exact follows_stay rfl rfl

/-- No call inserts the prior session, and the tombstone of none was refused. -/
theorem placed_prior (h : Placed cfg p) : p.prior.isInserted = false ∧ p.prior ≠ .unfinalized := by
  cases hcall : p.call with
  | read =>
    rw [placed_read hcall] at h
    cases hprior : p.prior with
    | inserted | unfinalized =>
      rw [hprior] at h
      cases h
    | _ => exact ⟨rfl, nofun⟩
  | renew userId successor =>
    rw [placed_renew hcall] at h
    refine ⟨?_, h.final⟩
    have hstands := h.stands
    cases hprior : p.prior with
    | inserted =>
      rw [hprior] at hstands
      cases hstands
    | _ => rfl

/-- A step of the system is a step of the session cache, and one that is in time. -/
theorem view_move (hredis : cfg.redisEnabled = true) (hplaced : ∀ i, Placed cfg (s.proc i))
    (hthrough : goesThrough cfg s.shared (s.proc a.1) a.2 = true) : ∃ b : ι × SessionCache.Action,
      view (move (act cfg) s a) = move (SessionCache.act cfg.cache) (view s) b ∧
        Timely (view s).shared ((view s).proc b.1) b.2 := by
  obtain ⟨b, hb⟩ := act_follows hredis a.2
  have htimely : Timely (view s).shared ((view s).proc a.1) b := by
    cases b with
    | tick => trivial
    | next ok =>
      have hphase : ((view s).proc a.1).phase = (s.proc a.1).prior := onPrior_phase
      rw [Timely, hphase, (placed_prior (hplaced a.1)).1]
      refine ⟨nofun, ?_⟩
      cases hprior : (s.proc a.1).prior with
      | finalizing entry expiration =>
        by_contra hrefused
        -- a tombstone that is refused would leave the renewal unfinalized
        apply (placed_prior (act_placed (hplaced a.1) hthrough)).2
        have hnext : (act cfg s.shared (s.proc a.1) a.2).2.onPrior = _ := congrArg Prod.snd hb
        rw [← onPrior_phase, hnext, SessionCache.act, SessionCache.next.eq_def, onPrior_phase, hprior]
        dsimp only
        rw [deny_false (x := s.shared.prior) (Bool.eq_false_iff.mpr hrefused)]
        rfl
      | _ => rfl
  refine ⟨(a.1, b), ?_, htimely⟩
  have hproc : (fun j => ((move (act cfg) s a).proc j).onPrior) =
      update (fun j => (s.proc j).onPrior) a.1 (act cfg s.shared (s.proc a.1) a.2).2.onPrior := by
    funext j
    exact apply_update (fun _ => Proc.onPrior) s.proc a.1 _ j
  have hstep : _ = SessionCache.act cfg.cache (view s).shared ((view s).proc (a.1, b).1) (a.1, b).2 := hb
  rw [move.eq_def (SessionCache.act cfg.cache), ← hstep]
  exact congrArg (System.mk _) hproc

/-- Without Redis a read looks at the row alone. -/
theorem nextWithoutRedis_late {x : Store} {phase : Phase} (h : RowRevoked x) (hlate : Late phase) :
    Late (nextWithoutRedis cfg.cache x ⟨.get, phase⟩ ok).2.phase := by
  cases phase with
  | start =>
    dsimp only [nextWithoutRedis, begin]
    split <;> trivial
  | denied => trivial
  | inserted | observed | candidate | revokedRow => exact hlate.elim
  | _ => exact (next_late h rfl hlate (fun hstart => by cases hstart) ok).2

/-- The session is revoked for good, and the read `j` has begun since. -/
structure Rejecting (cfg : Config) (j : ι) (s : System ι Shared Proc) : Prop where
  orderly : Orderly cfg s
  call : (s.proc j).call = .read
  redis : cfg.redisEnabled = true → ∃ sealedAt, After cfg.cache sealedAt j (view s)
  noRedis : cfg.redisEnabled = false → RowRevoked s.shared.prior ∧ Late (s.proc j).prior

theorem rowRevoked_move (hplaced : ∀ i, Placed cfg (s.proc i)) (h : RowRevoked s.shared.prior) :
    RowRevoked (move (act cfg) s a).shared.prior := by
  obtain ⟨row, hrow, hstatus⟩ := h
  cases act_effect (hplaced a.1) s.shared a.2 with
  | keeps hsame => exact ⟨row, hsame.trans hrow, hstatus⟩
  | replaces _ _ _ _ _ _ _ _ hrevoked => exact hrevoked

variable {j : ι}

theorem late_move (hredis : cfg.redisEnabled = false) (h : RowRevoked s.shared.prior)
    (hcall : (s.proc j).call = .read) (hlate : Late (s.proc j).prior) : Late ((move (act cfg) s a).proc j).prior := by
  by_cases hj : j = a.1
  · subst hj
    rw [move_self]
    cases ha : a.2 with
    | next ok =>
      rw [act, next, hcall]
      show Late (cacheNext cfg s.shared.prior (s.proc a.1).onPrior ok).2.phase
      rw [cacheNext_noRedis hredis, onPrior_read hcall]
      exact nextWithoutRedis_late h hlate
    | tick | outside | revoke => exact hlate
  · rw [move_other _ s a hj]
    exact hlate

include hthrough in
theorem rejecting_move (h : Rejecting cfg j s) : Rejecting cfg j (move (act cfg) s a) where
  orderly := orderly_move hthrough h.orderly
  call := (call_move h.orderly.placed j).trans h.call
  redis hredis := by
    obtain ⟨sealedAt, hafter⟩ := h.redis hredis
    obtain ⟨b, hview, htimely⟩ := view_move hredis h.orderly.placed hthrough
    rw [hview]
    exact ⟨sealedAt, after_move hafter htimely⟩
  noRedis hredis := by
    obtain ⟨hrevoked, hlate⟩ := h.noRedis hredis
    exact ⟨rowRevoked_move h.orderly.placed hrevoked, late_move hredis hrevoked h.call hlate⟩

/-- With Redis the calls are sound towards the cache all along. -/
structure Kept (cfg : Config) (s : System ι Shared Proc) : Prop where
  orderly : Orderly cfg s
  cache : cfg.redisEnabled = true → SessionCache.Inv cfg.cache (view s)

include hthrough in
theorem kept_move (h : Kept cfg s) : Kept cfg (move (act cfg) s a) where
  orderly := orderly_move hthrough h.orderly
  cache hredis := by
    obtain ⟨b, hview, htimely⟩ := view_move hredis h.orderly.placed hthrough
    rw [hview]
    exact inv_move (h.cache hredis) htimely

omit [DecidableEq ι] in
theorem kept_opening : Kept cfg (opening x calls) where
  orderly := orderly_opening x calls
  cache _ := by
    have hphase : ∀ i, ((view (opening x calls)).proc i).phase = .start := fun i => onPrior_phase
    refine ⟨fun i => ?_, fun i hfinal => ?_⟩
    · rw [hphase]
      trivial
    · rw [hphase] at hfinal
      cases hfinal

variable {i : ι}

omit [DecidableEq ι] in
/-- A renewal that has succeeded has revoked the session for good. -/
theorem rejecting_of_succeeded (h : Kept cfg s) {session : UserSession}
    (hcall : (s.proc i).call = .renew userId successor)
    (hi : (s.proc i).result = .succeeded session) (hj : s.proc j = { call := .read }) : Rejecting cfg j s := by
  have hprior := ((placed_renew hcall).mp (h.orderly.placed i)).succeeded hi
  have hcommitted : committed (s.proc i) = true := by
    rw [committed_renew hcall, hprior]
    rfl
  refine ⟨h.orderly, by rw [hj], fun hredis => ?_, fun _ => ⟨?_, by rw [hj]; trivial⟩⟩
  · have hinv := h.cache hredis
    have hfinal : ((view s).proc i).phase.isFinal = true := by
      have hphase : ((view s).proc i).phase = (s.proc i).prior := onPrior_phase
      rw [hphase, hprior]
      rfl
    obtain ⟨sealedAt, hsealed, hbefore⟩ := hinv.sealed i hfinal
    have hread : (view s).proc j = ⟨.get, .start⟩ := by
      show (s.proc j).onPrior = _
      rw [hj]
      rfl
    exact ⟨sealedAt, hinv.sound, hsealed, hbefore, by rw [hread], by rw [hread]; trivial⟩
  · cases h.orderly.once with
    | none _ hnone =>
      rw [hnone] at hcommitted
      cases hcommitted
    | one _ _ _ _ _ _ hrevoked => exact hrevoked

omit [DecidableEq ι] in
theorem Rejecting.not_returned (h : Rejecting cfg j s) (entry : UserSession) : (s.proc j).prior ≠ .returned entry := by
  intro hreturned
  cases hredis : cfg.redisEnabled with
  | true =>
    obtain ⟨sealedAt, hafter⟩ := h.redis hredis
    have hlate := hafter.late
    have hphase : ((view s).proc j).phase = (s.proc j).prior := onPrior_phase
    rw [hphase, hreturned] at hlate
    exact hlate
  | false =>
    have hlate := (h.noRedis hredis).2
    rw [hreturned] at hlate
    exact hlate

theorem committed_persists (hplaced : ∀ i, Placed cfg (s.proc i)) (h : committed (s.proc i) = true) :
    committed ((move (act cfg) s a).proc i) = true := by
  cases act_effect (hplaced a.1) s.shared a.2 with
  | keeps _ _ hcommitted =>
    rw [committed_move hcommitted]
    split
    · next hi => rw [← hi, h]
    · exact h
  | replaces _ _ _ _ _ hafter =>
    rw [committed_move hafter]
    split
    · rfl
    · exact h

omit [DecidableEq ι] in
/-- One successor, that of the renewal that has committed. -/
theorem Once.only (h : Once s) (hcall : (s.proc i).call = .renew userId successor) (hi : committed (s.proc i) = true) :
    ∃ row, s.shared.successors = [row] ∧ row.sid = successor.sid := by
  cases h with
  | none _ hnone =>
    rw [hnone] at hi
    cases hi
  | one k userId' successor' hcall' hone hsids _ =>
    have hik := (hone i).mp hi
    subst hik
    rw [hcall, Call.renew.injEq] at hcall'
    obtain ⟨row, hrow, hsid⟩ := List.map_eq_singleton_iff.mp hsids
    exact ⟨row, hrow, hsid.trans (congrArg UserSession.sid hcall'.2.symm)⟩

/-- **A renewal is all or nothing.**  Take any renewals and reads of one session, in any interleaving and
with any failures, in which a renewal that has published its fence goes through.  As long as every renewal
that has begun has failed, everything is as if none had been called.  Once one has succeeded, no read that
starts later returns the session, and there is one successor, its own. -/
theorem renewal_all_or_nothing (cfg : Config) (x : Shared) (calls : ι → Call) (acts later : List (ι × Action))
    (hthrough : Respects (move (act cfg))
      (fun s a => goesThrough cfg s.shared (s.proc a.1) a.2 = true) (opening x calls) (acts ++ later)) :
    ((∀ i, calls i ≠ .read →
        (run (move (act cfg)) (opening x calls) acts).proc i = { call := calls i } ∨
          ∃ e, ((run (move (act cfg)) (opening x calls) acts).proc i).result = .failed e) →
      (run (move (act cfg)) (opening x calls) acts).shared =
          (run (move (act cfg)) (opening x calls) (acts.filter (isOther calls))).shared ∧
        ∀ i, calls i = .read →
          (run (move (act cfg)) (opening x calls) acts).proc i =
            (run (move (act cfg)) (opening x calls) (acts.filter (isOther calls))).proc i) ∧
    ∀ i userId successor session, calls i = .renew userId successor →
      ((run (move (act cfg)) (opening x calls) acts).proc i).result = .succeeded session →
      (∀ j, (run (move (act cfg)) (opening x calls) acts).proc j = { call := .read } →
        ∀ entry, ((run (move (act cfg)) (opening x calls) (acts ++ later)).proc j).prior ≠
          .returned entry) ∧
      ∃ row, (run (move (act cfg)) (opening x calls) (acts ++ later)).shared.successors = [row] ∧
        row.sid = successor.sid := by
  obtain ⟨hacts, hlater⟩ := respects_append.mp hthrough
  -- the calls are those of the opening
  have hstep : ∀ s a, goesThrough cfg s.shared (s.proc a.1) a.2 = true →
      (Kept cfg s ∧ ∀ i, (s.proc i).call = calls i) →
        Kept cfg (move (act cfg) s a) ∧ ∀ i, ((move (act cfg) s a).proc i).call = calls i :=
    fun s a hC h => ⟨kept_move hC h.1, fun i => (call_move h.1.orderly.placed i).trans (h.2 i)⟩
  have hopening : Kept cfg (opening x calls) ∧ ∀ i, ((opening x calls).proc i).call = calls i :=
    ⟨kept_opening, fun _ => rfl⟩
  obtain ⟨hkept, hcalls⟩ := run_preserves_of_respects hstep hacts hopening
  constructor
  · intro hfailed
    have hbeside := (run_filter_of_respects
      (R := fun s t => (Kept cfg s ∧ ∀ i, (s.proc i).call = calls i) ∧ Beside cfg calls s t)
      (fun s t a hC ha h => ⟨hstep s a hC h.1, beside_keep h.1.2 ha h.2⟩)
      (fun s t a hC ha h => ⟨hstep s a hC h.1, beside_drop hC h.1.1.orderly h.1.2 ha h.2⟩)
      hacts ⟨hopening, .inl ⟨rfl, fun _ _ => rfl, fun i => by
        rw [wrote]
        split
        · rfl
        · exact touches_early rfl rfl⟩⟩).2
    rcases hbeside with ⟨hshared, hreads, -⟩ | ⟨i, hi⟩
    · exact ⟨hshared, hreads⟩
    · obtain ⟨userId, successor, hcall⟩ := call_of_wrote hi
      have hfine := (placed_renew hcall).mp (hkept.orderly.placed i)
      rw [wrote_renew hcall] at hi
      have hnotRead : calls i ≠ .read := by
        rw [← hcalls i, hcall]
        simp
      rcases hfailed i hnotRead with hstart | ⟨e, he⟩
      · rw [hstart] at hi
        simp [touches, isPast, isFenced] at hi
      · exact (hfine.not_failed hi e he).elim
  · intro i userId successor session hi hsucceeded
    have hcall := (hcalls i).trans hi
    refine ⟨fun j hj entry => ?_, ?_⟩
    · have hend := run_preserves_of_respects (I := Rejecting cfg j)
        (fun _ _ hC h => rejecting_move hC h) hlater (rejecting_of_succeeded hkept hcall hsucceeded hj)
      rw [run_append]
      exact hend.not_returned entry
    · have hprior := ((placed_renew hcall).mp (hkept.orderly.placed i)).succeeded hsucceeded
      have hcommitted : committed ((run (move (act cfg)) (opening x calls) acts).proc i) = true := by
        rw [committed_renew hcall, hprior]
        rfl
      have hend := run_preserves_of_respects
        (I := fun s => (Kept cfg s ∧ ∀ i, (s.proc i).call = calls i) ∧ committed (s.proc i) = true)
        (fun s a hC h => ⟨hstep s a hC h.1, committed_persists h.1.1.orderly.placed h.2⟩)
        hlater ⟨⟨hkept, hcalls⟩, hcommitted⟩
      rw [run_append]
      exact hend.1.1.orderly.once.only ((hend.1.2 i).trans hi) hend.2

end Runs

/-- A Mini Program session, and the one that is to replace it. -/
def priorSession : UserSession where
  sid := "s1"
  userId := 1
  userAuthVersion := 1
  refreshHash := "h1"
  loginMethod := miniAppLoginMethod
  createdAt := 90
  lastActiveAt := 90
  expiresAt := 1000

def nextSession : UserSession :=
  { priorSession with sid := "s2", refreshHash := "h2", createdAt := 100, lastActiveAt := 100 }

/-- At second 100. -/
def beforeRenewals : Shared where
  prior := ⟨100 * second, some priorSession, none⟩
  others := []
  users := fun _ => some ⟨true, 1⟩
  keys := fun _ => none

def settings (issuanceLimit : ℕ) : Config :=
  ⟨true, minute, issuanceLimit, 3600, "s1"⟩

inductive Client
  | tab
  | otherTab
  | reader
  deriving Repr, DecidableEq

def clients : Client → Call
  | .tab => .renew 1 nextSession
  | .otherTab => .renew 1 { nextSession with sid := "s3" }
  | .reader => .read

/-- Both tabs publish their fences, and the first commits. -/
def bothTabs : List (Client × Action) :=
  List.replicate 4 (.tab, .next true) ++ List.replicate 4 (.otherTab, .next true) ++
    List.replicate 10 (.tab, .next true) ++ [(.otherTab, .next true)]

def readAfterwards : List (Client × Action) :=
  (.reader, .tick (61 * 10 ^ 9)) :: List.replicate 5 (.reader, .next true)

theorem bothTabs_all_or_nothing :
    ((run (move (act (settings 10))) (opening beforeRenewals clients) bothTabs).proc .otherTab).result =
        .failed .inactive ∧
      ((run (move (act (settings 10))) (opening beforeRenewals clients)
        (bothTabs ++ readAfterwards)).proc .reader).prior ≠ .returned priorSession ∧
      ∃ row, (run (move (act (settings 10))) (opening beforeRenewals clients)
        (bothTabs ++ readAfterwards)).shared.successors = [row] ∧ row.sid = "s2" := by
  have hrenewed := (renewal_all_or_nothing (settings 10) beforeRenewals clients bothTabs readAfterwards
    (by decide +kernel)).2 .tab 1 nextSession nextSession rfl (by decide +kernel)
  exact ⟨by decide +kernel, hrenewed.1 .reader (by decide +kernel) priorSession, hrenewed.2⟩

/-- The limit of issued sessions is reached. -/
def renewThenRead : List (Client × Action) :=
  List.replicate 5 (.tab, .next true) ++ List.replicate 6 (.reader, .next true)

/-- The renewal fails, and reads of the prior session, which is active, are denied. -/
theorem failed_renewal_denies :
    ((run (move (act (settings 1))) (opening beforeRenewals clients) renewThenRead).proc .tab).result =
        .failed .issuanceLimit ∧
      ((run (move (act (settings 1))) (opening beforeRenewals clients) renewThenRead).proc
        .reader).prior = .failed .inactive ∧
      ((run (move (act (settings 1))) (opening beforeRenewals clients)
        (renewThenRead.filter (isOther clients))).proc .reader).prior = .returned priorSession := by
  decide +kernel

end OneApi.Auth.Renewal

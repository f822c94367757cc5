import OneApi.Auth.SessionCache

/-!
# Revoked sessions stay revoked

Once the last tombstone of a revocation is written, at a time `g`, the row is revoked for good.  Snapshots
that were taken before say active, and their scripts may run at any time.  As long as a tombstone stands
they are refused; it stands until the time to live has passed since `g`, or until the session expires
(`horizon`).  After that they are too late: their deadline counts from before `g`.

The deadline of a successor that a renewal made counts from after its row was written.  If the session is
revoked in between, it may come back (`renewed_session_comes_back`).  It may also if the last tombstone is
refused, which a revocation only logs: an entry of a later version is there, and it says active.
-/

namespace OneApi.Auth.SessionCache

open OneApi.Lib OneApi.Lib.Run OneApi.Lib.Procs

section Times

theorem ms_mono {s t : ℤ} (h : s ≤ t) : ms s ≤ ms t :=
  Int.ediv_le_ediv (by decide) h

theorem ms_deadline (cfg : Settings) (captured : ℤ) :
    ms (deadline cfg captured) = ms captured + cfg.cacheTTL * 1000 := by
  have hsplit : cfg.cacheTTL * second = cfg.cacheTTL * 1000 * millisecond := by
    rw [mul_assoc]
    rfl
  rw [deadline, ms, ms, hsplit, Int.add_mul_ediv_right _ _ (by decide)]

theorem ms_mul_second (t : ℤ) : ms (t * second) = t * 1000 := by
  have hsplit : t * second = t * 1000 * millisecond := by
    rw [mul_assoc]
    rfl
  rw [ms, hsplit, Int.mul_ediv_cancel _ (by decide)]

end Times

/-! ## What a call relies on -/

variable {phase : Phase}

section Calls

variable (cfg : Settings)

/-- The expiry of a session is that of its row. -/
def Same (x : Store) (session : UserSession) : Prop :=
  x.row.map UserSession.expiresAt = some session.expiresAt

def RowRevoked (x : Store) : Prop := ∃ row, x.row = some row ∧ row.status ≠ .active

/-- An active snapshot expires with its deadline and with the session. -/
def FillOk (captured : ℤ) (session : UserSession) : Expiration → Prop
  | .pexpireAt t => t ≤ ms captured + cfg.cacheTTL * 1000 ∧ t ≤ session.expiresAt * 1000
  | .pexpire _ => False

/-- A tombstone stands for the whole time to live, or until the session expires. -/
def DenyOk (x : Store) (session : UserSession) : Expiration → Prop
  | .pexpireAt _ => False
  | .pexpire d => cfg.cacheTTL * 1000 ≤ d ∨ session.expiresAt * 1000 - 1 ≤ ms x.clock + d

/-- What holds of a call beside the store. -/
def Sound (x : Store) : Phase → Prop
  | .reading captured | .rotating captured _ => captured ≤ x.clock
  | .creating captured session => captured ≤ x.clock ∧ session.status = .active
  | .matched captured _ session | .observed captured session =>
    captured ≤ x.clock ∧ Same x session ∧ session.status = .active
  | .inserted session => Same x session ∧ session.status = .active
  | .filling captured session expiration =>
    captured ≤ x.clock ∧ Same x session ∧ session.status = .active ∧ FillOk cfg captured session expiration
  | .candidate session _ | .fenced session _ | .denied session => Same x session
  | .fencing session _ expiration => Same x session ∧ DenyOk cfg x session expiration
  | .revokedRow session _ => Same x session ∧ RowRevoked x
  | .finalizing entry expiration =>
    (Same x entry ∧ entry.status ≠ .active ∧ DenyOk cfg x entry expiration) ∧ RowRevoked x
  | .denying entry expiration =>
    Same x entry ∧ entry.status ≠ .active ∧ DenyOk cfg x entry expiration
  | .finalized | .unfinalized | .succeeded => RowRevoked x
  | _ => True

/-- What no step undoes: the clock goes on, the row keeps its expiry, and a revoked row stays revoked. -/
structure Grows (x y : Store) : Prop where
  clock : x.clock ≤ y.clock
  row : ∀ r, x.row = some r → ∃ r', y.row = some r' ∧ r'.expiresAt = r.expiresAt ∧
    (r.status ≠ .active → r'.status ≠ .active)

variable {cfg} {x y : Store}

theorem Grows.refl (x : Store) : Grows x x :=
  ⟨le_rfl, fun r h => ⟨r, h, rfl, id⟩⟩

variable {session : UserSession}

theorem Same.grows (h : Grows x y) (hx : Same x session) : Same y session := by
  obtain ⟨r, hr, hexp⟩ := Option.map_eq_some_iff.mp hx
  obtain ⟨r', hr', hexp', -⟩ := h.row r hr
  rw [Same, hr', Option.map_some, hexp', hexp]

theorem RowRevoked.grows (h : Grows x y) (hx : RowRevoked x) : RowRevoked y := by
  obtain ⟨r, hr, hstatus⟩ := hx
  obtain ⟨r', hr', -, hstatus'⟩ := h.row r hr
  exact ⟨r', hr', hstatus' hstatus⟩

variable {expiration : Expiration}

theorem DenyOk.grows (h : Grows x y) (hx : DenyOk cfg x session expiration) : DenyOk cfg y session expiration := by
  cases expiration with
  | pexpireAt t => exact hx
  | pexpire d =>
    have hms := ms_mono h.clock
    rcases hx with hfull | hexp
    · exact .inl hfull
    · exact .inr (hexp.trans (add_le_add_left hms d))

theorem Sound.grows (h : Grows x y) (hx : Sound cfg x phase) : Sound cfg y phase := by
  have hclock := h.clock
  cases phase with
  | reading | rotating => exact le_trans hx hclock
  | creating => exact ⟨hx.1.trans hclock, hx.2⟩
  | matched | observed | filling => exact ⟨hx.1.trans hclock, hx.2.1.grows h, hx.2.2⟩
  | inserted => exact ⟨hx.1.grows h, hx.2⟩
  | candidate | fenced | denied => exact Same.grows h hx
  | fencing | revokedRow => exact ⟨hx.1.grows h, hx.2.grows h⟩
  | finalizing => exact ⟨⟨hx.1.1.grows h, hx.1.2.1, hx.1.2.2.grows h⟩, hx.2.grows h⟩
  | denying => exact ⟨hx.1.grows h, hx.2.1, hx.2.2.grows h⟩
  | finalized | unfinalized | succeeded => exact RowRevoked.grows h hx
  | start | hit | missed | filled | confirming | returned | seeking | failed => trivial

/-! ### One step -/

theorem Grows.of_eq (hclock : y.clock = x.clock) (hrow : y.row = x.row) : Grows x y :=
  ⟨hclock.ge, fun r h => ⟨r, hrow.trans h, rfl, id⟩⟩

variable {row : UserSession}

/-- The row is written. -/
theorem Grows.of_row {row' : UserSession} (hrow : x.row = some row)
    (hexp : row'.expiresAt = row.expiresAt) (hstatus : row.status ≠ .active → row'.status ≠ .active) :
    Grows x { x with row := some row' } := by
  refine ⟨le_rfl, fun r hr => ?_⟩
  rw [hrow, Option.some_inj] at hr
  subst hr
  exact ⟨row', rfl, hexp, hstatus⟩

theorem Grows.of_none (hrow : x.row = none) : Grows x { x with row := some row } := by
  refine ⟨le_rfl, fun r hr => ?_⟩
  rw [hrow] at hr
  cases hr

variable (x) (entry : UserSession) (expiration)

theorem put_clock : (x.put entry expiration).clock = x.clock := by
  cases expiration <;> rfl

theorem put_row : (x.put entry expiration).row = x.row := by
  cases expiration <;> rfl

theorem grows_put : Grows x (x.put entry expiration) :=
  .of_eq (put_clock x expiration entry) (put_row x expiration entry)

variable {x} {expiration}

theorem isUsable_status {now : ℤ} (h : session.isUsable now = true) : session.status = .active := by
  simp only [UserSession.isUsable, Bool.and_eq_true, decide_eq_true_eq] at h
  exact h.1.1

theorem same_of_row (hrow : x.row = some row) (hexp : session.expiresAt = row.expiresAt) : Same x session := by
  rw [Same, hrow, Option.map_some, hexp]

/-- What a step leaves: a store that grew, and a call that is sound beside it. -/
def Good (cfg : Settings) (x : Store) (r : Store × Proc) : Prop :=
  Grows x r.1 ∧ Sound cfg r.1 r.2.phase

theorem Good.stay {q : Proc} (h : Sound cfg x q.phase) : Good cfg x (x, q) := ⟨.refl x, h⟩

variable {captured : ℤ}

theorem denyMilliseconds_ge (now expiresAt : ℤ) :
    cfg.cacheTTL * 1000 ≤ denyMilliseconds cfg now expiresAt ∨
      expiresAt * 1000 - 1 ≤ ms now + denyMilliseconds cfg now expiresAt := by
  have hpos := cfg.cacheTTL_pos
  have hsecond : second = 1000000000 := rfl
  have hmillisecond : millisecond = 1000000 := rfl
  rw [denyMilliseconds, ms]
  generalize httl : min (expiresAt * second - now) (cfg.cacheTTL * second) = ttl
  rw [hsecond] at httl
  by_cases hexpired : ttl ≤ 0
  · rw [if_pos hexpired, hsecond, hmillisecond]
    right
    split <;> omega
  · rw [if_neg hexpired, hmillisecond]
    split <;> omega

/-- A tombstone stands long enough, whenever its script runs. -/
theorem denyOk_denyExpiration : DenyOk cfg x session (denyExpiration cfg x.clock session) :=
  denyMilliseconds_ge x.clock session.expiresAt

theorem denyOk_congr {entry : UserSession} (hexp : entry.expiresAt = session.expiresAt)
    (h : DenyOk cfg x session expiration) : DenyOk cfg x entry expiration := by
  cases expiration with
  | pexpireAt t => exact h
  | pexpire d =>
    rw [DenyOk, hexp]
    exact h

/-- What `prepare` makes of an active snapshot. -/
theorem fillOk_prepare {now : ℤ} (hactive : session.status = .active)
    (h : prepare cfg now (cacheEntry session) (some (deadline cfg captured)) = .ok expiration) :
    FillOk cfg captured session expiration := by
  have hstatus : (cacheEntry session).status = .active := hactive
  have hexp : (cacheEntry session).expiresAt = session.expiresAt := rfl
  rw [prepare, if_pos hstatus, hexp] at h
  split at h
  · cases h
  split at h
  · cases h
  split at h
  · cases h
  · cases h
    refine ⟨?_, ?_⟩
    · rw [← ms_deadline]
      exact ms_mono (min_le_left _ _)
    · rw [← ms_mul_second]
      exact ms_mono (min_le_right _ _)

end Calls

/-! ## After the last tombstone -/

section Seal

variable (cfg : Settings)

/-- The last millisecond that a tombstone written at `sealedAt` stands for sure. -/
def horizon (sealedAt expiresAt : ℤ) : ℤ :=
  min (ms sealedAt + cfg.cacheTTL * 1000) (expiresAt * 1000 - 1)

/-- The last tombstone of a revocation was written at `sealedAt`. -/
structure Sealed (sealedAt : ℤ) (x : Store) : Prop where
  time : sealedAt ≤ x.clock
  row : RowRevoked x
  quiet : ∀ entry, x.live = some entry → entry.status ≠ .active
  stands : ∀ row, x.row = some row → horizon cfg sealedAt row.expiresAt < ms x.clock ∨
    ∃ k, x.key = some k ∧ k.entry.status ≠ .active ∧ horizon cfg sealedAt row.expiresAt ≤ k.expiresAtMs

/-- A snapshot that is still to be written was captured before. -/
def FilledBefore (sealedAt : ℤ) : Phase → Prop
  | .observed captured _ | .filling captured _ _ => captured ≤ sealedAt
  | _ => True

/-- A renewal has written the row of its successor and captures its deadline next. -/
def Phase.isInserted : Phase → Bool
  | .inserted _ => true
  | _ => false

/-- The last tombstone that a revocation is about to write. -/
def Phase.lastEntry : Phase → Option UserSession
  | .finalizing entry _ => some entry
  | _ => none

/-- The deadline of the successor of a renewal is captured while the session is still active, and the last
tombstone of a revocation is accepted. -/
def Timely (x : Store) (p : Proc) : Action → Prop
  | .next ok => (p.phase.isInserted = true → x.row.any (fun row => row.status = .active) = true) ∧
      p.phase.lastEntry.all (fun entry => ok && x.accepts entry) = true
  | .tick _ => True

instance (x : Store) (p : Proc) : (a : Action) → Decidable (Timely x p a)
  | .next _ => inferInstanceAs (Decidable (_ ∧ _))
  | .tick _ => inferInstanceAs (Decidable True)

variable {cfg} {x y : Store} {p : Proc} {sealedAt : ℤ}

variable {entry : UserSession}

theorem live_eq_some : x.live = some entry ↔ ∃ k, x.key = some k ∧ ms x.clock ≤ k.expiresAtMs ∧ k.entry = entry := by
  rw [Store.live, Option.map_eq_some_iff]
  constructor
  · rintro ⟨k, hk, hentry⟩
    obtain ⟨hkey, hlive⟩ := Option.filter_eq_some_iff.mp hk
    exact ⟨k, hkey, by simpa using hlive, hentry⟩
  · rintro ⟨k, hkey, hlive, hentry⟩
    exact ⟨k, Option.filter_eq_some_iff.mpr ⟨hkey, by simpa using hlive⟩, hentry⟩

theorem Grows.row_expiresAt (h : Grows x y) {r r' : UserSession} (hr : x.row = some r)
    (hr' : y.row = some r') : r'.expiresAt = r.expiresAt := by
  obtain ⟨r'', hr'', hexp, -⟩ := h.row r hr
  rw [hr', Option.some_inj] at hr''
  rw [hr'', hexp]

/-- A step that leaves the key alone. -/
theorem Sealed.grows (h : Sealed cfg sealedAt x) (hgrows : Grows x y) (hkey : y.key = x.key) :
    Sealed cfg sealedAt y where
  time := h.time.trans hgrows.clock
  row := h.row.grows hgrows
  quiet entry hlive := by
    obtain ⟨k, hk, hms, hentry⟩ := live_eq_some.mp hlive
    rw [hkey] at hk
    exact h.quiet entry (live_eq_some.mpr ⟨k, hk, (ms_mono hgrows.clock).trans hms, hentry⟩)
  stands row hrow := by
    obtain ⟨r, hr, -⟩ := h.row
    rw [hgrows.row_expiresAt hr hrow, hkey]
    rcases h.stands r hr with hpast | hstands
    · exact .inl (hpast.trans_le (ms_mono hgrows.clock))
    · exact .inr hstands

/-- An active snapshot is only accepted once no tombstone stands. -/
theorem Sealed.horizon_lt (h : Sealed cfg sealedAt x) {row : UserSession}
    (hactive : entry.status = .active) (haccepts : x.accepts entry = true)
    (hrow : x.row = some row) : horizon cfg sealedAt row.expiresAt < ms x.clock := by
  rcases h.stands row hrow with hpast | ⟨k, hk, hstatus, hhorizon⟩
  · exact hpast
  by_contra hnot
  have hlive : x.live = some k.entry :=
    live_eq_some.mpr ⟨k, hk, (not_lt.mp hnot).trans hhorizon, rfl⟩
  rw [Store.accepts, hlive] at haccepts
  simp [hactive, hstatus] at haccepts

variable {expiration : Expiration}

/-- And then it is too late: Redis deletes what it writes. -/
theorem Sealed.fill (h : Sealed cfg sealedAt x) {captured : ℤ} {session : UserSession}
    (hsame : Same x session) (hfill : FillOk cfg captured session expiration)
    (hcaptured : captured ≤ sealedAt) (hactive : entry.status = .active)
    (haccepts : x.accepts entry = true) : Sealed cfg sealedAt (x.put entry expiration) := by
  obtain ⟨row, hrow, hexp⟩ := Option.map_eq_some_iff.mp hsame
  have hpast := h.horizon_lt hactive haccepts hrow
  cases expiration with
  | pexpire d => exact hfill.elim
  | pexpireAt t =>
    obtain ⟨hdeadline, hexpires⟩ := hfill
    have hms := ms_mono hcaptured
    have hlate : t ≤ ms x.clock := by
      rw [horizon, hexp] at hpast
      omega
    have hput : x.put entry (.pexpireAt t) = { x with key := none } := by
      rw [Store.put, if_pos hlate]
    rw [hput]
    refine ⟨h.time, h.row, fun e he => ?_, fun r hr => .inl ?_⟩
    · obtain ⟨k, hk, -⟩ := live_eq_some.mp he
      cases hk
    · have hrow' : x.row = some r := hr
      rw [hrow, Option.some_inj] at hrow'
      exact hrow' ▸ hpast

/-- A tombstone only prolongs the seal, and the first one sets it. -/
theorem sealed_put_deny (htime : sealedAt ≤ x.clock)
    (hrevoked : RowRevoked x) (hsame : Same x entry) (hstatus : entry.status ≠ .active)
    (hdeny : DenyOk cfg x entry expiration) : Sealed cfg sealedAt (x.put entry expiration) := by
  obtain ⟨row, hrow, hexp⟩ := Option.map_eq_some_iff.mp hsame
  cases expiration with
  | pexpireAt t => exact hdeny.elim
  | pexpire d =>
    refine ⟨htime, hrevoked, fun e he => ?_, fun r hr => .inr ⟨⟨entry, ms x.clock + d⟩, rfl, hstatus, ?_⟩⟩
    · obtain ⟨k, hk, -, hentry⟩ := live_eq_some.mp he
      cases hk
      exact hentry ▸ hstatus
    · have hrow' : x.row = some r := hr
      rw [hrow, Option.some_inj] at hrow'
      have hms := ms_mono htime
      rw [horizon, ← hrow', hexp]
      show min (ms sealedAt + cfg.cacheTTL * 1000) (entry.expiresAt * 1000 - 1) ≤ ms x.clock + d
      rcases hdeny with hfull | hexpires <;> omega

theorem deny_false {ok : Bool} (h : (ok && x.accepts entry) = false) (expiration : Expiration) :
    deny x entry expiration ok = (x, false) := by
  rw [deny, if_neg (by simp [h])]

theorem deny_true {ok : Bool} (h : (ok && x.accepts entry) = true) (expiration : Expiration) :
    deny x entry expiration ok = (x.put entry expiration, true) := by
  rw [deny, if_pos h]

theorem RowRevoked.not_active (h : RowRevoked x) {row : UserSession} (hrow : x.row = some row) :
    row.status ≠ .active := by
  obtain ⟨r, hr, hstatus⟩ := h
  rw [hrow, Option.some_inj] at hr
  exact hr ▸ hstatus

/-- No call observes a revoked row as active. -/
theorem RowRevoked.not_usable (h : RowRevoked x) {row : UserSession} (hrow : x.row = some row)
    (now : ℤ) : ¬ row.isUsable now = true :=
  fun husable => h.not_active hrow (isUsable_status husable)

/-! ### Steps without a script -/

/-- The revocation is through with its last tombstone. -/
def Phase.isFinal : Phase → Bool
  | .finalized | .unfinalized | .succeeded => true
  | _ => false

/-- What is in flight at some moment was captured before it. -/
theorem Sound.before (h : Sound cfg x phase) : FilledBefore x.clock phase := by
  cases phase with
  | observed | filling => exact h.1
  | _ => trivial

/-- A step that leaves the key alone: once the row is revoked it captures no snapshot, and it does not end a
revocation. -/
structure Plain (cfg : Settings) (x : Store) (p : Proc) (r : Store × Proc) : Prop where
  good : Good cfg x r
  key : r.1.key = x.key
  before : RowRevoked x → (p.phase.isInserted = true → x.row.any (fun row => row.status = .active) = true) →
    ∀ sealedAt, FilledBefore sealedAt p.phase → FilledBefore sealedAt r.2.phase
  final : p.phase.isFinal = false → r.2.phase.isFinal = false

/-- A phase without a snapshot, before the end of a revocation. -/
def Phase.isIdle : Phase → Bool
  | .observed _ _ | .filling _ _ _ | .finalized | .unfinalized | .succeeded => false
  | _ => true

theorem Plain.write (hgrows : Grows x y) (hkey : y.key = x.key) (hsound : Sound cfg y phase)
    (hidle : phase.isIdle = true) : Plain cfg x p (y, p.to phase) := by
  refine ⟨⟨hgrows, hsound⟩, hkey, fun _ _ _ _ => ?_, fun _ => ?_⟩
  all_goals cases phase <;> trivial

theorem Plain.stay (hsound : Sound cfg x phase) (hidle : phase.isIdle = true) : Plain cfg x p (x, p.to phase) :=
  .write (.refl x) rfl hsound hidle

variable (ok : Bool)

theorem begin_plain : Plain cfg x p (begin x p ok) := by
  rw [begin.eq_def]
  split
  · split
    · split <;> exact .stay trivial rfl
    · exact .stay trivial rfl
  · split
    · exact .stay trivial rfl
    · exact .stay le_rfl rfl
  · split
    · next h => exact .stay ⟨le_rfl, h.1⟩ rfl
    · exact .stay trivial rfl
  · split
    · exact .stay trivial rfl
    · next hrow =>
      split
      · exact .stay trivial rfl
      · exact .write (.of_none hrow) rfl ⟨rfl, rfl⟩ rfl
  · exact .stay le_rfl rfl
  · exact .stay trivial rfl
  · exact .stay trivial rfl
  · exact .stay trivial rfl
  · exact .stay trivial rfl

variable {captured : ℤ}

theorem observe_plain (hcaptured : captured ≤ x.clock) : Plain cfg x p (observe x p captured ok) := by
  rw [observe.eq_def]
  split
  · next session _ hrow =>
    split
    · exact .stay trivial rfl
    split
    · next husable =>
      refine ⟨.stay ⟨hcaptured, same_of_row hrow rfl, isUsable_status husable⟩, rfl, ?_, fun _ => rfl⟩
      exact fun hrevoked => (hrevoked.not_usable hrow _ husable).elim
    · exact .stay (same_of_row hrow rfl) rfl
  · next session _ hrow =>
    split
    · next h =>
      refine ⟨⟨.of_row hrow rfl id, hcaptured, rfl, h.2.2.1⟩, rfl, ?_, fun _ => rfl⟩
      exact fun hrevoked => (hrevoked.not_active hrow h.2.2.1).elim
    · exact .stay trivial rfl
  · exact .stay trivial rfl

variable {session : UserSession}

theorem insertRow_plain (hcaptured : captured ≤ x.clock) (hactive : session.status = .active) :
    Plain cfg x p (insertRow x p captured session ok) := by
  rw [insertRow]
  split
  · exact .stay trivial rfl
  · next hrow =>
    split
    · refine ⟨⟨.of_none hrow, hcaptured, rfl, hactive⟩, rfl, ?_, fun _ => rfl⟩
      rintro ⟨r, hr, -⟩
      rw [hrow] at hr
      cases hr
    · exact .stay trivial rfl

theorem readRotation_plain (hcaptured : captured ≤ x.clock) (attempts : ℕ) :
    Plain cfg x p (x, readRotation x p captured attempts ok) := by
  rw [readRotation.eq_def]
  split
  · exact .stay trivial rfl
  · next presentedHash _ now _ session _ _ hrow =>
    split
    · exact .stay trivial rfl
    have hspec := (afterFind session).readRotation_spec presentedHash now
    cases hread : (afterFind session).readRotation presentedHash now with
    | inactive | unknown | raced => exact .stay trivial rfl
    | matched =>
      rw [hread] at hspec
      exact .stay ⟨hcaptured, same_of_row hrow rfl, @isUsable_status (afterFind session) now hspec.1⟩ rfl
    | reused => exact .stay (same_of_row hrow rfl) rfl
  · exact .stay trivial rfl

theorem rotateRow_plain {attempts : ℕ} (hp : Sound cfg x (.matched captured attempts session)) :
    Plain cfg x p (rotateRow x p captured attempts session ok) := by
  rw [rotateRow.eq_def]
  split
  · next _ _ nextHash now graceSeconds row _ hrow =>
    split
    · exact .stay trivial rfl
    split
    · next hrotates =>
      have husable := (Bool.and_eq_true_iff.mp (Bool.and_eq_true_iff.mp hrotates).1).2
      have hgrows : Grows x { x with row := some (setRotated now graceSeconds session.refreshHash nextHash row) } :=
        .of_row hrow rfl id
      refine ⟨⟨hgrows, hp.1, Same.grows hgrows hp.2.1, hp.2.2⟩, rfl, ?_, fun _ => rfl⟩
      exact fun hrevoked => (hrevoked.not_usable hrow _ husable).elim
    · exact .stay le_rfl rfl
  · exact .stay trivial rfl

theorem confirm_plain : Plain cfg x p (x, confirm x p session ok) := by
  rw [confirm]
  split
  · exact .stay trivial rfl
  split <;> exact .stay trivial rfl

theorem revokeRow_plain (hsession : Same x session) (now : ℤ) : Plain cfg x p (revokeRow x p session now ok) := by
  rw [revokeRow]
  split
  · exact .stay trivial rfl
  · next row hrow =>
    split
    · exact .stay trivial rfl
    split
    · have hgrows : Grows x { x with row := some (setRevoked now p.call.reason row) } :=
        .of_row hrow rfl fun _ => nofun
      refine .write hgrows rfl ⟨?_, setRevoked now p.call.reason row, rfl, nofun⟩ rfl
      split
      · exact rfl
      · exact hsession.grows hgrows
    · exact .stay trivial rfl

/-- The scripts that write the key. -/
def Phase.runsScript : Phase → Bool
  | .filling _ _ _ | .fencing _ _ _ | .finalizing _ _ | .denying _ _ => true
  | _ => false

theorem next_plain (hp : Sound cfg x p.phase) (hscript : p.phase.runsScript = false) :
    Plain cfg x p (next cfg x p ok) := by
  obtain ⟨call, phase⟩ := p
  cases phase with
  | start => exact begin_plain ok
  | hit entry =>
    rw [next.eq_def]
    dsimp only [readEntry]
    split
    · exact .stay trivial rfl
    split <;> exact .stay trivial rfl
  | missed => exact .stay le_rfl rfl
  | reading => exact observe_plain ok hp
  | creating => exact insertRow_plain ok hp.1 hp.2
  | rotating => exact readRotation_plain ok hp _
  | matched => exact rotateRow_plain ok hp
  | inserted session =>
    refine ⟨.stay ⟨le_rfl, hp⟩, rfl, fun hrevoked htimely => ?_, fun _ => rfl⟩
    obtain ⟨row, hrow, hstatus⟩ := (Option.any_eq_true _ _).mp (htimely rfl)
    exact (hrevoked.not_active hrow (of_decide_eq_true hstatus)).elim
  | observed captured session =>
    rw [next.eq_def]
    dsimp only
    split
    · next hprepare =>
      exact ⟨.stay ⟨hp.1, hp.2.1, hp.2.2, fillOk_prepare hp.2.2 hprepare⟩, rfl, fun _ _ _ h => h, fun _ => rfl⟩
    · exact .stay trivial rfl
    · exact .stay trivial rfl
    · exact .stay trivial rfl
  | filled captured session =>
    rw [next.eq_def]
    dsimp only
    split
    · exact .stay trivial rfl
    split <;> exact .stay trivial rfl
  | confirming => exact confirm_plain ok
  | seeking now =>
    rw [next.eq_def]
    dsimp only
    split
    · exact .stay trivial rfl
    · next hrow =>
      split
      · exact .stay (same_of_row hrow rfl) rfl
      · exact .stay trivial rfl
  | candidate session => exact .stay ⟨hp, denyOk_denyExpiration⟩ rfl
  | fenced => exact revokeRow_plain ok hp _
  | revokedRow session =>
    exact .stay ⟨⟨hp.1, nofun, denyOk_congr rfl denyOk_denyExpiration⟩, hp.2⟩ rfl
  | denied session => exact .stay ⟨hp, nofun, denyOk_congr rfl denyOk_denyExpiration⟩ rfl
  | finalized | unfinalized => exact ⟨.stay hp, rfl, fun _ _ _ _ => trivial, id⟩
  | succeeded | returned | failed => exact ⟨.stay hp, rfl, fun _ _ _ h => h, id⟩
  | filling | fencing | finalizing | denying => cases hscript

/-! ### One step -/

/-- What a step does: it leaves the key alone, or it writes a snapshot or a tombstone. -/
inductive Writes (cfg : Settings) (x : Store) (p : Proc) : Store × Proc → Prop
  | plain {r : Store × Proc} (h : Plain cfg x p r) : Writes cfg x p r
  | fills (captured : ℤ) (session : UserSession) (expiration : Expiration) (hsame : Same x session)
      (hactive : session.status = .active) (hfill : FillOk cfg captured session expiration)
      (haccepts : x.accepts (cacheEntry session) = true) (hbefore : ∀ t, FilledBefore t p.phase → captured ≤ t) :
      Writes cfg x p (x.put (cacheEntry session) expiration, p.to (.filled captured session))
  | denies (entry : UserSession) (expiration : Expiration) (phase : Phase) (hsame : Same x entry)
      (hstatus : entry.status ≠ .active) (hdeny : DenyOk cfg x entry expiration) (hsound : Sound cfg x phase)
      (hbefore : ∀ t, FilledBefore t phase) (hfinal : phase.isFinal = true → RowRevoked x) :
      Writes cfg x p (x.put entry expiration, p.to phase)

theorem next_writes (hp : Sound cfg x p.phase) (htimely : Timely x p (.next ok)) :
    Writes cfg x p (next cfg x p ok) := by
  cases hscript : p.phase.runsScript with
  | false => exact .plain (next_plain ok hp hscript)
  | true =>
    obtain ⟨call, phase⟩ := p
    rw [next.eq_def]
    cases phase with
    | filling captured session expiration =>
      dsimp only [SessionCache.fill]
      split
      · split <;> exact .plain (.stay trivial rfl)
      split
      · next haccepts => exact .fills captured session expiration hp.2.1 hp.2.2.1 hp.2.2.2 haccepts fun _ => id
      · exact .plain (.stay trivial rfl)
    | fencing session now expiration =>
      dsimp only
      cases haccepts : (ok && x.accepts (tombstone .revoking now call.reason session)) with
      | true =>
        rw [deny_true haccepts]
        exact .denies _ _ _ hp.1 nofun (denyOk_congr rfl hp.2) hp.1 (fun _ => trivial) nofun
      | false =>
        rw [deny_false haccepts]
        exact .plain (.stay trivial rfl)
    | finalizing entry expiration =>
      have haccepts : (ok && x.accepts entry) = true := htimely.2
      dsimp only
      rw [deny_true haccepts]
      exact .denies _ _ _ hp.1.1 hp.1.2.1 hp.1.2.2 hp.2 (fun _ => trivial) fun _ => hp.2
    | denying entry expiration =>
      dsimp only
      cases haccepts : (ok && x.accepts entry) with
      | true =>
        rw [deny_true haccepts]
        exact .denies _ _ _ hp.1 hp.2.1 hp.2.2 trivial (fun _ => trivial) nofun
      | false =>
        rw [deny_false haccepts]
        exact .plain (.stay trivial rfl)
    | _ => cases hscript

variable {r : Store × Proc}

theorem Writes.good (h : Writes cfg x p r) : Good cfg x r := by
  cases h with
  | plain h => exact h.good
  | fills => exact ⟨grows_put .., trivial⟩
  | denies _ _ _ _ _ _ hsound => exact ⟨grows_put .., hsound.grows (grows_put ..)⟩

/-- A step keeps the seal. -/
theorem Writes.sealed (h : Writes cfg x p r) (hx : Sealed cfg sealedAt x) (hbefore : FilledBefore sealedAt p.phase)
    (htimely : Timely x p (.next ok)) : Sealed cfg sealedAt r.1 ∧ FilledBefore sealedAt r.2.phase := by
  cases h with
  | plain h => exact ⟨hx.grows h.good.1 h.key, h.before hx.row htimely.1 sealedAt hbefore⟩
  | fills _ _ _ hsame hactive hfill haccepts hcaptured =>
    exact ⟨hx.fill hsame hfill (hcaptured sealedAt hbefore) hactive haccepts, trivial⟩
  | denies _ _ _ hsame hstatus hdeny _ hafter =>
    exact ⟨sealed_put_deny hx.time hx.row hsame hstatus hdeny, hafter sealedAt⟩

/-- The step to the end of a revocation sets the seal. -/
theorem Writes.seals (h : Writes cfg x p r) (hopen : p.phase.isFinal = false) (hfinal : r.2.phase.isFinal = true) :
    Sealed cfg x.clock r.1 ∧ FilledBefore x.clock r.2.phase := by
  cases h with
  | plain h =>
    rw [h.final hopen] at hfinal
    cases hfinal
  | fills => cases hfinal
  | denies _ _ _ hsame hstatus hdeny _ hafter hrevoked =>
    exact ⟨sealed_put_deny le_rfl (hrevoked hfinal) hsame hstatus hdeny, hafter x.clock⟩

/-! ### Reads that begin after it -/

/-- A read that has seen nothing active. -/
def Late : Phase → Prop
  | .start | .missed | .reading _ | .denied _ | .denying _ _ | .failed _ => True
  | .hit entry => entry.status ≠ .active
  | _ => False

theorem readEntry_late {clock : ℤ} (h : entry.status ≠ .active) : Late (readEntry clock entry) := by
  rw [readEntry]
  split
  · trivial
  split
  · next husable => exact h (isUsable_status husable)
  · trivial

/-- What the key holds matters to the first step only. -/
theorem next_late (hrevoked : RowRevoked x) (hcall : p.call = .get) (hlate : Late p.phase)
    (hquiet : p.phase = .start → ∀ entry, x.live = some entry → entry.status ≠ .active) (ok : Bool) :
    (next cfg x p ok).2.call = .get ∧ Late (next cfg x p ok).2.phase := by
  obtain ⟨call, phase⟩ := p
  obtain rfl : call = .get := hcall
  cases phase with
  | start =>
    dsimp only [next, begin]
    split
    · next entry hlive =>
      split
      · exact ⟨rfl, hquiet rfl entry hlive⟩
      · exact ⟨rfl, trivial⟩
    · exact ⟨rfl, trivial⟩
  | hit entry => exact ⟨rfl, readEntry_late hlate⟩
  | reading captured =>
    obtain ⟨row, hrow, -⟩ := id hrevoked
    dsimp only [next]
    rw [observe.eq_def, hrow]
    dsimp only
    split
    · exact ⟨rfl, trivial⟩
    rw [if_neg (hrevoked.not_usable hrow _)]
    exact ⟨rfl, trivial⟩
  | missed | denied | denying | failed => exact ⟨rfl, trivial⟩
  | _ => exact hlate.elim

end Seal

/-! ## Whole runs -/

section Runs

variable {ι : Type*} (cfg : Settings)

/-- Every call is sound, and once a revocation is through there is a seal. -/
structure Inv (s : System ι Store Proc) : Prop where
  sound : ∀ i, Sound cfg s.shared (s.proc i).phase
  sealed : ∀ i, (s.proc i).phase.isFinal = true → ∃ sealedAt, Sealed cfg sealedAt s.shared ∧
    ∀ j, FilledBefore sealedAt (s.proc j).phase

/-- A seal, and a read that began after it. -/
structure After (sealedAt : ℤ) (j : ι) (s : System ι Store Proc) : Prop where
  sound : ∀ i, Sound cfg s.shared (s.proc i).phase
  sealed : Sealed cfg sealedAt s.shared
  before : ∀ i, FilledBefore sealedAt (s.proc i).phase
  call : (s.proc j).call = .get
  late : Late (s.proc j).phase

variable {cfg} {x : Store} {p : Proc} {sealedAt : ℤ}

theorem grows_tick (nanoseconds : ℕ) : Grows x { x with clock := x.clock + nanoseconds } :=
  ⟨by simp, fun r h => ⟨r, h, rfl, id⟩⟩

theorem act_good (hp : Sound cfg x p.phase) {a : Action} (htimely : Timely x p a) : Good cfg x (act cfg x p a) := by
  cases a with
  | tick nanoseconds => exact ⟨grows_tick nanoseconds, hp.grows (grows_tick nanoseconds)⟩
  | next ok => exact (next_writes ok hp htimely).good

theorem act_sealed (h : Sealed cfg sealedAt x) (hp : Sound cfg x p.phase)
    (hbefore : FilledBefore sealedAt p.phase) {a : Action} (htimely : Timely x p a) :
    Sealed cfg sealedAt (act cfg x p a).1 ∧ FilledBefore sealedAt (act cfg x p a).2.phase := by
  cases a with
  | tick nanoseconds => exact ⟨h.grows (grows_tick nanoseconds) rfl, hbefore⟩
  | next ok => exact (next_writes ok hp htimely).sealed ok h hbefore htimely

theorem act_seals (hp : Sound cfg x p.phase) (hopen : p.phase.isFinal = false) {a : Action} (htimely : Timely x p a)
    (hfinal : (act cfg x p a).2.phase.isFinal = true) :
    Sealed cfg x.clock (act cfg x p a).1 ∧ FilledBefore x.clock (act cfg x p a).2.phase := by
  cases a with
  | tick nanoseconds =>
    rw [act, hopen] at hfinal
    cases hfinal
  | next ok => exact (next_writes ok hp htimely).seals hopen hfinal

theorem act_late (h : Sealed cfg sealedAt x) (hcall : p.call = .get) (hlate : Late p.phase)
    (a : Action) : (act cfg x p a).2.call = .get ∧ Late (act cfg x p a).2.phase := by
  cases a with
  | tick nanoseconds => exact ⟨hcall, hlate⟩
  | next ok => exact next_late h.row hcall hlate (fun _ => h.quiet) ok

variable [DecidableEq ι] {s : System ι Store Proc} {a : ι × Action}

theorem sound_move (h : ∀ i, Sound cfg s.shared (s.proc i).phase) (htimely : Timely s.shared (s.proc a.1) a.2) (i : ι) :
    Sound cfg (move (act cfg) s a).shared ((move (act cfg) s a).proc i).phase := by
  have hgood := act_good (h a.1) htimely
  exact move_proc (P := fun _ (p : Proc) => Sound cfg _ p.phase) hgood.2 (fun j _ => (h j).grows hgood.1) i

theorem before_move (hbefore : ∀ i, FilledBefore sealedAt (s.proc i).phase)
    (hself : FilledBefore sealedAt (act cfg s.shared (s.proc a.1) a.2).2.phase) (i : ι) :
    FilledBefore sealedAt ((move (act cfg) s a).proc i).phase :=
  move_proc (P := fun _ (p : Proc) => FilledBefore sealedAt p.phase) hself (fun j _ => hbefore j) i

theorem inv_move (h : Inv cfg s) (htimely : Timely s.shared (s.proc a.1) a.2) :
    Inv cfg (move (act cfg) s a) where
  sound := sound_move h.sound htimely
  sealed i hfinal := by
    -- either some revocation was through before, or the one that moved is through now
    by_cases hbefore : ∃ k, (s.proc k).phase.isFinal = true
    · obtain ⟨k, hk⟩ := hbefore
      obtain ⟨sealedAt, hsealed, hfilled⟩ := h.sealed k hk
      obtain ⟨hsealed', hself⟩ := act_sealed hsealed (h.sound a.1) (hfilled a.1) htimely
      exact ⟨sealedAt, hsealed', before_move hfilled hself⟩
    · have hnone : ∀ k, (s.proc k).phase.isFinal = false := fun k =>
        Bool.eq_false_iff.mpr fun hk => hbefore ⟨k, hk⟩
      have hi : i = a.1 := by
        by_contra hne
        rw [move_other _ s a hne, hnone i] at hfinal
        cases hfinal
      subst hi
      rw [move_self] at hfinal
      obtain ⟨hsealed, hself⟩ := act_seals (h.sound a.1) (hnone a.1) htimely hfinal
      exact ⟨s.shared.clock, hsealed, before_move (fun j => (h.sound j).before) hself⟩

theorem after_move {j : ι} (h : After cfg sealedAt j s)
    (htimely : Timely s.shared (s.proc a.1) a.2) : After cfg sealedAt j (move (act cfg) s a) := by
  obtain ⟨hsealed, hself⟩ := act_sealed h.sealed (h.sound a.1) (h.before a.1) htimely
  have hlate : ((move (act cfg) s a).proc j).call = .get ∧ Late ((move (act cfg) s a).proc j).phase := by
    by_cases hj : j = a.1
    · subst hj
      rw [move_self]
      exact act_late h.sealed h.call h.late a.2
    · rw [move_other _ s a hj]
      exact ⟨h.call, h.late⟩
  exact ⟨sound_move h.sound htimely, hsealed, before_move h.before hself, hlate.1, hlate.2⟩

/-- **Revoked sessions stay revoked.**  In every interleaving of any number of reads, rotations, revocations
and fills, with any delays, in which a renewal captures the deadline of its successor while that is still
active and the last tombstone of a revocation is accepted: once a revocation of the session has succeeded, no
read that starts later returns the session. -/
theorem revoked_session_stays_revoked (cfg : Settings) (x : Store) (calls : ι → Call) (acts later : List (ι × Action))
    (htimely : Respects (move (act cfg)) (fun s a => Timely s.shared (s.proc a.1) a.2)
      (opening x calls) (acts ++ later))
    {i j : ι} (hi : ((run (move (act cfg)) (opening x calls) acts).proc i).phase = .succeeded)
    (hj : (run (move (act cfg)) (opening x calls) acts).proc j = ⟨.get, .start⟩) (session : UserSession) :
    ((run (move (act cfg)) (opening x calls) (acts ++ later)).proc j).phase ≠ .returned session := by
  obtain ⟨hacts, hlater⟩ := respects_append.mp htimely
  have hopening : Inv cfg (opening x calls) := ⟨fun _ => trivial, fun _ h => by cases h⟩
  have hinv : Inv cfg (run (move (act cfg)) (opening x calls) acts) :=
    run_preserves_of_respects (I := Inv cfg) (fun _ _ hC h => inv_move h hC) hacts hopening
  obtain ⟨sealedAt, hsealed, hbefore⟩ := hinv.sealed i (by rw [hi]; rfl)
  have hafter : After cfg sealedAt j (run (move (act cfg)) (opening x calls) acts) :=
    ⟨hinv.sound, hsealed, hbefore, by rw [hj], by rw [hj]; trivial⟩
  have hend := run_preserves_of_respects (I := After cfg sealedAt j) (fun _ _ hC h => after_move h hC) hlater hafter
  rw [run_append]
  intro hreturned
  have hlate := hend.late
  rw [hreturned] at hlate
  exact hlate

end Runs

/-- Snapshots live for a minute. -/
def minute : Settings := ⟨60, by decide⟩

/-- A session that a renewal has just made. -/
def renewedSession : UserSession where
  sid := "s2"
  userId := 1
  userAuthVersion := 1
  refreshHash := "h2"
  loginMethod := miniAppLoginMethod
  createdAt := 100
  lastActiveAt := 100
  expiresAt := 1000

/-- At second 100, before the renewal commits. -/
def beforeRenewal : Store := ⟨100 * second, none, none⟩

inductive Party
  | renewal
  | logout
  | reader
  deriving Repr, DecidableEq

def parties : Party → Call
  | .renewal => .renewSuccessor renewedSession
  | .logout => .revokeAll 1 "" "logout_all"
  | .reader => .get

/-- The renewal commits, and all sessions of the user are revoked. -/
def renewAndRevoke : List (Party × Action) :=
  (Party.renewal, .next true) :: List.replicate 8 (Party.logout, .next true)

/-- The renewal goes on a minute later, and then the session is read. -/
def goOnLater : List (Party × Action) :=
  (Party.renewal, .tick (61 * 10 ^ 9)) :: List.replicate 4 (Party.renewal, .next true) ++
    List.replicate 2 (Party.reader, .next true)

/-- The read alone, a minute later. -/
def readLater : List (Party × Action) :=
  (Party.reader, .tick (61 * 10 ^ 9)) :: List.replicate 5 (Party.reader, .next true)

theorem readLater_stays_revoked :
    ((run (move (act minute)) (opening beforeRenewal parties) renewAndRevoke).proc .logout).phase =
        .succeeded ∧
      ((run (move (act minute)) (opening beforeRenewal parties) (renewAndRevoke ++ readLater)).proc
        .reader).phase ≠ .returned renewedSession :=
  ⟨by decide +kernel,
    revoked_session_stays_revoked minute beforeRenewal parties renewAndRevoke readLater
      (by decide +kernel) (i := .logout) (by decide +kernel) (by decide +kernel) renewedSession⟩

/-- A session that was revoked is returned as active. -/
theorem renewed_session_comes_back :
    ((run (move (act minute)) (opening beforeRenewal parties) renewAndRevoke).proc .logout).phase =
        .succeeded ∧
      (run (move (act minute)) (opening beforeRenewal parties) renewAndRevoke).proc .reader = ⟨.get, .start⟩ ∧
      ((run (move (act minute)) (opening beforeRenewal parties) (renewAndRevoke ++ goOnLater)).proc
        .reader).phase = .returned (cacheEntry renewedSession) := by
  decide +kernel

/-- A revocation beside a change of versions. -/
def advancing : Party → Call
  | .renewal => .advance 1 1 1 2
  | .logout => .revoke 1 "logout"
  | .reader => .get

/-- The fence expires while the revocation waits for the row, the change of versions caches the session again,
and the last tombstone, of the version that was read before, is refused. -/
def refusedTombstone : List (Party × Action) :=
  List.replicate 4 (Party.logout, .next true) ++ (Party.logout, .tick (61 * 10 ^ 9)) ::
    List.replicate 5 (Party.renewal, .next true) ++ List.replicate 4 (Party.logout, .next true) ++
    List.replicate 2 (Party.reader, .next true)

example :
    let s := run (move (act minute)) (opening ⟨100 * second, some renewedSession, none⟩ advancing) refusedTombstone
    (s.proc .logout).phase = .succeeded ∧
      (s.proc .reader).phase = .returned (cacheEntry (setAdvanced 161 2 renewedSession)) := by
  decide +kernel

end OneApi.Auth.SessionCache

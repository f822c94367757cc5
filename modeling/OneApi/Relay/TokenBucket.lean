import OneApi.Lib.Run
import Mathlib.Tactic.FieldSimp
import Mathlib.Tactic.Linarith
import Mathlib.Tactic.Positivity

/-!
# The token bucket

The limiter that `common/limiter` keeps in Redis by a script: a bucket of tokens for each key, filled with time up to
its capacity.  Times are whole seconds.  The model limiter sizes the bucket by a count and a duration
(`totalLimit`).
-/

namespace OneApi.Relay.TokenBucket

open OneApi.Lib.Run

/-- `Config` with its defaults. -/
structure Config where
  capacity : ℕ := 10
  rate : ℕ := 1
  requested : ℕ := 1
  deriving Repr, DecidableEq

/-- What the script stores under a key. -/
structure Bucket where
  tokens : ℤ
  lastTime : ℤ
  deriving Repr, DecidableEq

/-- The tokens of a bucket at a time; a bucket that is not stored is full. -/
def refill (config : Config) (now : ℤ) : Option Bucket → ℤ
  | none => config.capacity
  | some bucket => min config.capacity (bucket.tokens + (now - bucket.lastTime) * config.rate)

/-- `rate_limit.lua`. -/
def rateLimit (config : Config) (bucket : Option Bucket) (now : ℤ) : Bool × Bucket :=
  let tokens := refill config now bucket
  if tokens ≥ config.requested then (true, { tokens := tokens - config.requested, lastTime := now })
  else (false, { tokens, lastTime := now })

/-- The bucket after a sequence of calls. -/
def storedAfter (config : Config) (bucket : Option Bucket) (times : List ℤ) : Option Bucket :=
  run (fun bucket now => some (rateLimit config bucket now).2) bucket times

/-- The number of calls of a sequence that are granted. -/
def granted (config : Config) : Option Bucket → List ℤ → ℕ
  | _, [] => 0
  | bucket, now :: times =>
    (if (rateLimit config bucket now).1 then 1 else 0) + granted config (some (rateLimit config bucket now).2) times

/-- A stored bucket holds between none and the capacity, and was stored before. -/
def Holds (config : Config) (now : ℤ) (bucket : Option Bucket) : Prop :=
  ∀ b ∈ bucket, 0 ≤ b.tokens ∧ b.tokens ≤ config.capacity ∧ b.lastTime ≤ now

section Bucket

variable {config : Config} {bucket : Option Bucket} {now later : ℤ} {times : List ℤ}

theorem refill_bounds (h : Holds config now bucket) :
    0 ≤ refill config now bucket ∧ refill config now bucket ≤ config.capacity := by
  cases bucket with
  | none => exact ⟨Int.natCast_nonneg _, le_rfl⟩
  | some b =>
    obtain ⟨htokens, -, hlast⟩ := h b rfl
    have hadded := Int.mul_nonneg (Int.sub_nonneg.mpr hlast) (Int.natCast_nonneg config.rate)
    exact ⟨le_min (Int.natCast_nonneg _) (Int.add_nonneg htokens hadded), min_le_left _ _⟩

/-- One call pays for what it is granted from the tokens there are. -/
theorem rateLimit_pays (h : Holds config now bucket) :
    (rateLimit config bucket now).2.tokens + config.requested * (if (rateLimit config bucket now).1 then 1 else 0)
        = refill config now bucket ∧
      0 ≤ (rateLimit config bucket now).2.tokens ∧ (rateLimit config bucket now).2.lastTime = now := by
  rw [rateLimit]
  by_cases hallowed : refill config now bucket ≥ config.requested
  · rw [if_pos hallowed]
    exact ⟨by simp, Int.sub_nonneg.mpr hallowed, rfl⟩
  · rw [if_neg hallowed]
    exact ⟨by simp, (refill_bounds h).1, rfl⟩

theorem Holds.call (h : Holds config now bucket) (hlater : now ≤ later) :
    Holds config later (some (rateLimit config bucket now).2) := by
  intro b hb
  obtain rfl := Option.some.inj hb
  obtain ⟨hpays, hnonneg, hlast⟩ := rateLimit_pays h
  have hfull := (refill_bounds h).2
  refine ⟨hnonneg, ?_, hlast.trans_le hlater⟩
  have hcost : 0 ≤ (config.requested : ℤ) * (if (rateLimit config bucket now).1 then 1 else 0) := by positivity
  omega

theorem storedAfter_holds (horder : times.Pairwise (· ≤ ·)) :
    ∀ b ∈ storedAfter config none times, 0 ≤ b.tokens ∧ b.tokens ≤ config.capacity ∧ b.lastTime ∈ times := by
  induction times using List.reverseRecOn with
  | nil => exact fun b hb => absurd hb (Option.not_mem_none b)
  | append_singleton times now ih =>
    intro b hb
    obtain ⟨hbefore, -, hnow⟩ := List.pairwise_append.mp horder
    have hholds : Holds config now (storedAfter config none times) := by
      intro c hc
      obtain ⟨hnonneg, hfull, hlast⟩ := ih hbefore c hc
      exact ⟨hnonneg, hfull, hnow _ hlast now (List.mem_singleton_self _)⟩
    rw [storedAfter, run_append, run_cons, run_nil] at hb
    obtain ⟨hnonneg, hfull, -⟩ := hholds.call le_rfl b hb
    obtain rfl := Option.some.inj hb
    refine ⟨hnonneg, hfull, List.mem_append_right _ (List.mem_singleton.mpr ?_)⟩
    exact (rateLimit_pays hholds).2.2

/-- The tokens that the first call finds and those added until the end pay for all grants. -/
theorem granted_le (h : Holds config now bucket) (horder : (now :: times).Pairwise (· ≤ ·))
    (hlater : ∀ t ∈ now :: times, t ≤ later) :
    config.requested * granted config bucket (now :: times) ≤ refill config now bucket + config.rate * (later - now) := by
  obtain ⟨hpays, hnonneg, hlast⟩ := rateLimit_pays h
  rw [granted]
  push_cast
  induction times generalizing bucket now with
  | nil =>
    have hadded := Int.mul_nonneg (Int.natCast_nonneg config.rate) (Int.sub_nonneg.mpr (hlater now List.mem_cons_self))
    simp only [granted, Nat.cast_zero]
    linarith
  | cons next times ih =>
    obtain ⟨hnow, horder⟩ := List.pairwise_cons.mp horder
    have hholds := h.call (hnow next List.mem_cons_self)
    obtain ⟨hpays', hnonneg', hlast'⟩ := rateLimit_pays hholds
    have hrest := ih hholds horder (fun t ht => hlater t (List.mem_cons_of_mem now ht)) hpays' hnonneg' hlast'
    have hrefill : refill config next (some (rateLimit config bucket now).2)
        ≤ (rateLimit config bucket now).2.tokens + (next - now) * config.rate := by
      nth_rewrite 3 [← hlast]
      exact min_le_right _ _
    rw [granted]
    push_cast
    linarith

end Bucket

/-- What the model limiter asks of the bucket. -/
def totalLimit (totalMaxCount duration : ℕ) : Config where
  capacity := totalMaxCount * duration
  rate := totalMaxCount
  requested := duration

/-- **The token bucket.**  The stored tokens stay between none and the capacity.  Calls within some seconds come one
after the other, and are granted no more often than a full bucket and the tokens of these seconds pay for. -/
theorem bucket_bound (config : Config) (hrequested : 0 < config.requested) (before calls : List ℤ)
    (horder : (before ++ calls).Pairwise (· ≤ ·)) :
    (∀ b ∈ storedAfter config none before, 0 ≤ b.tokens ∧ b.tokens ≤ config.capacity) ∧
      ∀ (start : ℤ) (seconds : ℕ), (∀ t ∈ calls, start ≤ t ∧ t ≤ start + seconds) →
        (granted config (storedAfter config none before) calls : ℚ)
            ≤ (config.capacity + config.rate * seconds) / config.requested ∧
          ∀ totalMaxCount duration, config = totalLimit totalMaxCount duration →
            (granted config (storedAfter config none before) calls : ℚ)
              ≤ totalMaxCount + totalMaxCount * seconds / duration := by
  obtain ⟨hbefore, hcalls, hafter⟩ := List.pairwise_append.mp horder
  refine ⟨fun b hb => ⟨(storedAfter_holds hbefore b hb).1, (storedAfter_holds hbefore b hb).2.1⟩,
    fun start seconds hin => ?_⟩
  have hpos : (0 : ℚ) < config.requested := by exact_mod_cast hrequested
  have hbound : (granted config (storedAfter config none before) calls : ℚ)
      ≤ (config.capacity + config.rate * seconds) / config.requested := by
    rw [le_div_iff₀ hpos, mul_comm]
    cases calls with
    | nil => simpa [granted] using by positivity
    | cons first calls =>
      -- the first call finds at most a full bucket
      have hholds : Holds config first (storedAfter config none before) := by
        intro b hb
        obtain ⟨hnonneg, hfull, hlast⟩ := storedAfter_holds hbefore b hb
        exact ⟨hnonneg, hfull, hafter _ hlast first List.mem_cons_self⟩
      have hpaid := granted_le hholds hcalls fun t ht => (hin t ht).2
      have hfull := (refill_bounds hholds).2
      have hless : config.rate * (start + seconds - first) ≤ config.rate * (seconds : ℤ) :=
        Int.mul_le_mul_of_nonneg_left (by linarith [(hin first List.mem_cons_self).1]) (Int.natCast_nonneg _)
      exact_mod_cast hpaid.trans (add_le_add hfull hless)
  refine ⟨hbound, fun totalMaxCount duration hconfig => hbound.trans_eq ?_⟩
  subst hconfig
  have hne : (duration : ℚ) ≠ 0 := ne_of_gt hpos
  show ((totalMaxCount * duration : ℕ) + totalMaxCount * seconds : ℚ) / duration = _
  push_cast
  field_simp

/-- Sixty requests in an hour, with three in a minute. -/
theorem sixtyAnHour_bound :
    granted (totalLimit 60 3600) none [0, 0, 60] = 3 ∧
      (granted (totalLimit 60 3600) none [0, 0, 60] : ℚ) ≤ 60 + 60 * (60 : ℕ) / (3600 : ℕ) :=
  ⟨by decide, ((bucket_bound (totalLimit 60 3600) (by decide) [] [0, 0, 60] (by decide)).2 0 60 (by decide)).2 60 3600 rfl⟩

end OneApi.Relay.TokenBucket

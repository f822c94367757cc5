import OneApi.Lib.Go
import OneApi.Lib.Run
import Mathlib.Algebra.Order.Ring.Int

/-!
# The limiter in memory

The limiter of `common/rate-limit.go` keeps a queue of the last admitted times for each key.  Moments are in
nanoseconds; the limiter reads `time.Now().Unix()`, whole seconds, and its window is one of these readings
(`within_of_length` says what that is in moments).
It has one expiration, set by the first caller of `Init`, for windows of any length: its cleanup may forget requests
that are still within the window (`window_bound_iff`).
-/

namespace OneApi.Relay.Limiter

open OneApi.Lib OneApi.Lib.Run Function

/-- `Unix()` of a moment. -/
def unix (moment : ℤ) : ℤ := moment / Go.second

/-- What a caller passes with the key. -/
structure Limit where
  maxRequestNum : ℕ
  duration : ℤ

/-- What `Request` does to the queue of its key, the oldest time first.  A queue that is there is never empty. -/
def requestQueue (limit : Limit) (now : ℤ) : Option (List ℤ) → Bool × Option (List ℤ)
  | none => (true, some [now])
  | some queue =>
    if queue.length < limit.maxRequestNum then (true, some (queue ++ [now]))
    else if now - queue.headD now ≥ limit.duration then (true, some (queue.tail ++ [now]))
    else (false, some queue)

/-- `clearExpiredItems`, for one queue. -/
def clearQueue (expirationDuration now : ℤ) : Option (List ℤ) → Option (List ℤ)
  | none => none
  | some queue =>
    if queue.length = 0 ∨ now - queue.getLastD now > expirationDuration then none else some queue

/-- The limiter, with the moments at which each key was granted. -/
structure State where
  clock : ℤ
  store : String → Option (List ℤ) := fun _ => none
  granted : String → List ℤ := fun _ => []

inductive Event
  | tick (nanoseconds : ℕ)
  | request (key : String)
  | clear

/-- The cleanup runs only with an expiration. -/
def step (limits : String → Limit) (expirationDuration : ℤ) (s : State) : Event → State
  | .tick nanoseconds => { s with clock := s.clock + nanoseconds }
  | .request key =>
    let result := requestQueue (limits key) (unix s.clock) (s.store key)
    { s with
      store := update s.store key result.2
      granted := update s.granted key (if result.1 then s.granted key ++ [s.clock] else s.granted key) }
  | .clear =>
    if 0 < expirationDuration then
      { s with store := fun key => clearQueue expirationDuration (unix s.clock) (s.store key) }
    else s

/-- No interval that the limiter's clock reads as shorter than the window holds more than the limit. -/
def Within (limit : Limit) (moments : List ℤ) : Prop :=
  ∀ a b, unix b - unix a < limit.duration → moments.countP (fun t => a ≤ t ∧ t ≤ b) ≤ limit.maxRequestNum

@[simp] theorem unix_zero : unix 0 = 0 := rfl

theorem unix_mono {a b : ℤ} (h : a ≤ b) : unix a ≤ unix b := Int.ediv_le_ediv (by decide) h

/-- In moments: an interval that is shorter than the window by a second or more holds at most the limit. -/
theorem within_of_length {limit : Limit} {moments : List ℤ} (h : Within limit moments) {a b : ℤ}
    (hshort : b - a ≤ (limit.duration - 1) * Go.second) :
    moments.countP (fun t => a ≤ t ∧ t ≤ b) ≤ limit.maxRequestNum := by
  refine h a b ?_
  have hle : unix b ≤ unix (a + (limit.duration - 1) * Go.second) := unix_mono (by omega)
  rw [unix, unix, Int.add_mul_ediv_right _ _ (by decide)] at hle
  show b / Go.second - a / Go.second < limit.duration
  omega

section Window

/-- The same for whole seconds. -/
def WithinSeconds (limit : Limit) (times : List ℤ) : Prop :=
  ∀ a b, b - a < limit.duration → times.countP (fun t => a ≤ t ∧ t ≤ b) ≤ limit.maxRequestNum

theorem within_of_seconds {limit : Limit} {moments : List ℤ} (h : WithinSeconds limit (moments.map unix)) :
    Within limit moments := by
  intro a b hshort
  refine le_trans ?_ (h (unix a) (unix b) hshort)
  rw [List.countP_map]
  refine List.countP_mono_left fun t _ hin => ?_
  simp only [decide_eq_true_eq, comp_apply] at hin ⊢
  exact ⟨unix_mono hin.1, unix_mono hin.2⟩

/-- The queue is the end of the granted times; what came before it no longer counts, unless the queue is full. -/
structure Tracks (limit : Limit) (now : ℤ) (queue : Option (List ℤ)) (times dropped : List ℤ) : Prop where
  split : times = dropped ++ queue.getD []
  sorted : times.Pairwise (· ≤ ·)
  past : ∀ t ∈ times, t ≤ now
  fits : (queue.getD []).length ≤ limit.maxRequestNum
  old : (queue.getD []).length < limit.maxRequestNum → ∀ t ∈ dropped, t + limit.duration ≤ now
  within : WithinSeconds limit times

variable {limit : Limit} {now : ℤ} {queue : Option (List ℤ)} {times dropped kept : List ℤ}

variable (h : Tracks limit now queue times dropped)

include h in
/-- A request is granted when fewer than the limit still count. -/
theorem Tracks.grant {dropped' : List ℤ} (hsplit : times = dropped' ++ kept)
    (hkept : kept.length < limit.maxRequestNum) (hold : ∀ t ∈ dropped', t + limit.duration ≤ now) :
    Tracks limit now (some (kept ++ [now])) (times ++ [now]) dropped' where
  split := by simp [hsplit]
  sorted := by
    refine List.pairwise_append.mpr ⟨h.sorted, List.pairwise_singleton _ _, fun t ht u hu => ?_⟩
    rw [List.mem_singleton.mp hu]
    exact h.past t ht
  past := by
    intro t ht
    rcases List.mem_append.mp ht with ht | ht
    · exact h.past t ht
    · exact (List.mem_singleton.mp ht).le
  fits := by
    rw [Option.getD_some, List.length_append]
    exact hkept
  old := fun _ => hold
  within := by
    intro a b hshort
    by_cases hb : now ≤ b
    · -- the interval ends at the request or later, so it begins behind what was dropped
      have hnone : dropped'.countP (fun t => a ≤ t ∧ t ≤ b) = 0 := by
        rw [List.countP_eq_zero]
        intro t ht
        have := hold t ht
        simp only [decide_eq_true_eq]
        omega
      have hle := (kept ++ [now]).countP_le_length (p := fun t => a ≤ t ∧ t ≤ b)
      rw [List.length_append, List.length_singleton] at hle
      rw [hsplit, List.append_assoc, List.countP_append, hnone]
      omega
    · have hnow : [now].countP (fun t => a ≤ t ∧ t ≤ b) = 0 := by simp [hb]
      rw [List.countP_append, hnow]
      exact h.within a b hshort

theorem le_last {l : List ℤ} {last t : ℤ} (h : (l ++ [last]).Pairwise (· ≤ ·)) (ht : t ∈ l ++ [last]) : t ≤ last := by
  rcases List.mem_append.mp ht with ht | ht
  · exact (List.pairwise_append.mp h).2.2 t ht last (List.mem_singleton_self _)
  · exact (List.mem_singleton.mp ht).le

include h in
theorem Tracks.request (hn : 1 ≤ limit.maxRequestNum) :
    ∃ dropped', Tracks limit now (requestQueue limit now queue).2
      (if (requestQueue limit now queue).1 then times ++ [now] else times) dropped' := by
  cases queue with
  | none => exact ⟨dropped, h.grant h.split hn (h.old hn)⟩
  | some queue =>
    rw [requestQueue]
    by_cases hlt : queue.length < limit.maxRequestNum
    · rw [if_pos hlt]
      exact ⟨dropped, h.grant h.split hlt (h.old hlt)⟩
    · cases queue with
      | nil => exact absurd hn hlt
      | cons oldest rest =>
        rw [if_neg hlt, List.headD_cons]
        by_cases hwindow : now - oldest ≥ limit.duration
        · rw [if_pos hwindow]
          -- the oldest time is dropped: it and all before it are out of the window
          have hsplit : times = (dropped ++ [oldest]) ++ rest := by
            rw [List.append_assoc]
            exact h.split
          refine ⟨dropped ++ [oldest], h.grant hsplit h.fits fun t ht => ?_⟩
          have hsorted := h.sorted
          rw [hsplit] at hsorted
          have := le_last (List.pairwise_append.mp hsorted).1 ht
          omega
        · rw [if_neg hwindow]
          exact ⟨dropped, h⟩

include h in
/-- A cleanup keeps track of the granted times if it leaves what is within the window. -/
theorem Tracks.clear {expirationDuration : ℤ} (hexp : limit.duration ≤ expirationDuration + 1) :
    ∃ dropped', Tracks limit now (clearQueue expirationDuration now queue) times dropped' := by
  cases queue with
  | none => exact ⟨dropped, h⟩
  | some queue =>
    rw [clearQueue]
    split
    next hgone =>
      refine ⟨times, { h with split := (List.append_nil _).symm, fits := Nat.zero_le _, old := fun hpos t ht => ?_ }⟩
      rcases List.eq_nil_or_concat' queue with rfl | ⟨queue, newest, rfl⟩
      · have hdropped : times = dropped := h.split.trans (List.append_nil _)
        exact h.old hpos t (hdropped ▸ ht)
      · -- the newest time is the last of all, so all are out of the window
        have hsplit : times = (dropped ++ queue) ++ [newest] := by
          rw [List.append_assoc]
          exact h.split
        have hsorted := h.sorted
        rw [hsplit] at hsorted ht
        have hle := le_last hsorted ht
        rw [List.getLastD_concat, List.length_append, List.length_singleton] at hgone
        omega
    next => exact ⟨dropped, h⟩

variable {limits : String → Limit} {expirationDuration : ℤ} {key : String}

/-- The limiter keeps track of a key. -/
def State.Tracked (limits : String → Limit) (key : String) (s : State) : Prop :=
  ∃ dropped, Tracks (limits key) (unix s.clock) (s.store key) ((s.granted key).map unix) dropped

theorem State.Tracked.step (hn : 1 ≤ (limits key).maxRequestNum)
    (hexp : expirationDuration ≤ 0 ∨ (limits key).duration ≤ expirationDuration + 1) (s : State) (event : Event)
    (h : s.Tracked limits key) : (step limits expirationDuration s event).Tracked limits key := by
  obtain ⟨dropped, h⟩ := h
  cases event with
  | tick nanoseconds =>
    have hle : unix s.clock ≤ unix (s.clock + nanoseconds) := unix_mono (by omega)
    exact ⟨dropped, { h with
      past := fun t ht => (h.past t ht).trans hle
      old := fun hlt t ht => (h.old hlt t ht).trans hle }⟩
  | request other =>
    rw [Limiter.step, Tracked]
    by_cases hkey : key = other
    · subst hkey
      obtain ⟨dropped', h'⟩ := h.request hn
      refine ⟨dropped', ?_⟩
      simp only [update_self, apply_ite (List.map unix), List.map_append, List.map_singleton]
      exact h'
    · refine ⟨dropped, ?_⟩
      simp only [update_of_ne hkey]
      exact h
  | clear =>
    rw [Limiter.step]
    split
    next hpos => exact h.clear (hexp.resolve_left (not_le.mpr hpos))
    next => exact ⟨dropped, h⟩

/-- The limit used up at once. -/
theorem run_replicate {k : ℕ} (hk : k < (limits key).maxRequestNum) :
    (run (Limiter.step limits expirationDuration) { clock := 0 } (List.replicate (k + 1) (.request key))) =
      { clock := 0
        store := update (fun _ => none) key (some (List.replicate (k + 1) 0))
        granted := update (fun _ => []) key (List.replicate (k + 1) 0) } := by
  induction k with
  | zero => rfl
  | succ k ih =>
    have hlt : (List.replicate (k + 1) (0 : ℤ)).length < (limits key).maxRequestNum := by
      rw [List.length_replicate]
      exact hk
    rw [List.replicate_succ', run_append, ih (by omega), run_cons, run_nil, Limiter.step]
    simp only [requestQueue, unix_zero, update_self, update_idem, if_pos hlt, if_true,
      ← List.replicate_succ']

end Window

/-- The limit is used up at once, forgotten, and a request is granted again. -/
def forgetting (expirationDuration : ℤ) (key : String) (n : ℕ) : List Event :=
  List.replicate n (.request key) ++ [.tick ((expirationDuration.toNat + 1) * 10 ^ 9), .clear, .request key]

/-- **The window of the limiter in memory.**  The limit of a key holds in all runs, in the seconds of the limiter's
clock, exactly if the cleanup, when there is one, leaves the times that are within the window. -/
theorem window_bound_iff (limits : String → Limit) (key : String) (hn : 1 ≤ (limits key).maxRequestNum)
    (expirationDuration : ℤ) :
    (∀ start events, Within (limits key) ((run (step limits expirationDuration) { clock := start } events).granted key)) ↔
      expirationDuration ≤ 0 ∨ (limits key).duration ≤ expirationDuration + 1 := by
  constructor
  · intro h
    by_contra hexp
    obtain ⟨hpos, hlong⟩ := not_or.mp hexp
    rw [not_le] at hpos hlong
    obtain ⟨k, hk⟩ := Nat.exists_eq_add_of_le' hn
    -- the second reading of the clock
    set late : ℤ := 0 + ((expirationDuration.toNat + 1) * 10 ^ 9 : ℕ) with hlate
    have hunix : unix late = expirationDuration + 1 := by
      rw [unix, hlate, Go.second]
      omega
    have hbound := h 0 (forgetting expirationDuration key (k + 1)) 0 late (by simpa [hunix] using hlong)
    have hcleared : clearQueue expirationDuration (unix late) (some (List.replicate (k + 1) 0)) = none := by
      rw [clearQueue, List.getLastD_eq_getLast?, List.getLast?_replicate]
      rw [if_neg (Nat.succ_ne_zero k)]
      refine if_pos (.inr ?_)
      show unix late - 0 > expirationDuration
      omega
    rw [forgetting, run_append, run_replicate (by omega), hk] at hbound
    simp only [run_cons, run_nil, step, if_pos hpos, update_self, ← hlate, hcleared, requestQueue, if_true,
      List.countP_append, List.countP_replicate, List.countP_singleton] at hbound
    rw [if_pos (by simp; omega), if_pos (by simp; omega)] at hbound
    omega
  · intro hexp start events
    have hempty : State.Tracked limits key { clock := start } := by
      refine ⟨[], ?_⟩
      constructor <;> simp [WithinSeconds]
    obtain ⟨dropped, htracks⟩ := run_preserves (I := State.Tracked limits key)
      (State.Tracked.step hn hexp) events hempty
    exact within_of_seconds htracks.within

-- in moments no more can be had: without a cleanup, one request in 60 s is granted at 0.9 s and again at 60.0 s
example : (run (step (fun _ => ⟨1, 60⟩) 0) { clock := 900000000 }
    [.request "MRRL7", .tick 59100000000, .request "MRRL7"]).granted "MRRL7" = [900000000, 60000000000] := by
  decide

/-- The windows of the web limits are shorter than the expiration that is set for them. -/
theorem globalWeb_within : Within ⟨60, 180⟩ ((run (step (fun _ => ⟨60, 180⟩) 1200) { clock := 0 }
    [.request "GW127.0.0.1", .tick 1201000000000, .clear, .request "GW127.0.0.1"]).granted "GW127.0.0.1") :=
  (window_bound_iff (fun _ => ⟨60, 180⟩) "GW127.0.0.1" (by decide) 1200).mpr (.inr (by decide)) 0 _

/-- A window of an hour with an expiration of twenty minutes: two requests are granted where one is the limit. -/
theorem hourWindow_forgotten :
    (run (step (fun _ => ⟨1, 3600⟩) 1200) { clock := 0 } (forgetting 1200 "MRRL7" 1)).granted "MRRL7"
        = [0, 1201000000000] ∧
      ¬ Within ⟨1, 3600⟩
        ((run (step (fun _ => ⟨1, 3600⟩) 1200) { clock := 0 } (forgetting 1200 "MRRL7" 1)).granted "MRRL7") := by
  have hmoments : (run (step (fun _ => ⟨1, 3600⟩) 1200) { clock := 0 } (forgetting 1200 "MRRL7" 1)).granted "MRRL7"
      = [0, 1201000000000] := by decide
  refine ⟨hmoments, fun h => ?_⟩
  have hbound := h 0 1201000000000 (by decide)
  rw [hmoments] at hbound
  exact absurd hbound (by decide)

end OneApi.Relay.Limiter

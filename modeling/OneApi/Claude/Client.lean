import OneApi.Claude.Stream
import OneApi.Lib.Acceptor
import Mathlib.Data.List.Nodup
import Mathlib.Data.List.Perm.Basic

/-!
# The client of a Claude stream

What a stream of Claude events has to be is said by the client that reads it.  It waits for the start
of the message; then blocks are started at the indices 0, 1, 2 and so on, deltas and stops are taken
only for a block that is open, deltas only of its kind, and the end of the message only when no block
is open.

The client's state says what the events it has accepted look like: the starts are numbered in order
(`read_startIndices`), and every started block is either stopped, once, or still open
(`read_opened_perm`).  The theorems on `WellFormed` say the same of the events without the client.
-/

namespace OneApi.Claude.Stream

open Lib.Acceptor

inductive Kind
  | text
  | thinking
  | tool
  deriving Repr, DecidableEq

def Block.kind : Block → Kind
  | .text => .text
  | .thinking => .thinking
  | .toolUse _ _ => .tool

def BlockDelta.kind : BlockDelta → Kind
  | .textDelta _ => .text
  | .thinkingDelta _ => .thinking
  | .inputJsonDelta _ => .tool

inductive Phase
  | waiting
  | streaming
  | ended
  | stopped
  deriving Repr, DecidableEq

/-- The index the next block has to have, and the blocks that are open. -/
structure Client where
  phase : Phase := .waiting
  next : ℤ := 0
  opened : List (ℤ × Kind) := []
  deriving Repr, DecidableEq

variable {U : Type}

def Client.accept (c : Client) : Event U → Option Client
  | .messageStart _ _ _ =>
    if c.phase = .waiting then some { c with phase := .streaming } else none
  | .contentBlockStart index block =>
    if c.phase = .streaming ∧ index = c.next then
      some { c with next := c.next + 1, opened := c.opened ++ [(index, block.kind)] }
    else none
  | .contentBlockDelta index delta =>
    if c.phase = .streaming ∧ (index, delta.kind) ∈ c.opened then some c else none
  | .contentBlockStop index =>
    if c.phase = .streaming ∧ index ∈ c.opened.map Prod.fst then
      some { c with opened := c.opened.eraseP fun block => block.1 = index }
    else none
  | .messageDelta _ _ =>
    if c.phase = .streaming ∧ c.opened = [] then some { c with phase := .ended } else none
  | .messageStop =>
    if (c.phase = .streaming ∨ c.phase = .ended) ∧ c.opened = [] then
      some { c with phase := .stopped }
    else none

/-- The client accepts the events, from the first one on. -/
def WellFormed (events : List (Event U)) : Prop := (read Client.accept {} events).isSome

instance (events : List (Event U)) : Decidable (WellFormed events) :=
  inferInstanceAs (Decidable ((read Client.accept {} events).isSome = true))

/-! ## What is accepted -/

def Event.startIndex? : Event U → Option ℤ
  | .contentBlockStart index _ => some index
  | _ => none

def Event.stopIndex? : Event U → Option ℤ
  | .contentBlockStop index => some index
  | _ => none

def startIndices (events : List (Event U)) : List ℤ := events.filterMap Event.startIndex?

def stopIndices (events : List (Event U)) : List ℤ := events.filterMap Event.stopIndex?

/-- How many of the started blocks have not been stopped. -/
def openBlocks (events : List (Event U)) : ℕ :=
  (startIndices events).length - (stopIndices events).length

variable {c c' : Client} {e : Event U}

theorem accept_next (h : c.accept e = some c') :
    e.startIndex? = none ∧ c'.next = c.next ∨ e.startIndex? = some c.next ∧ c'.next = c.next + 1 := by
  cases e <;> simp only [Client.accept, Option.ite_none_right_eq_some, Option.some.injEq] at h <;>
    obtain ⟨hif, rfl⟩ := h
  case contentBlockStart index block => exact .inr ⟨congrArg some hif.2, rfl⟩
  all_goals exact .inl ⟨rfl, rfl⟩

variable {events : List (Event U)}

/-- The blocks are started in the order of their indices, without a gap. -/
theorem read_startIndices (h : read Client.accept c events = some c') :
    startIndices events = indicesFrom c.next (startIndices events).length ∧
      c'.next = c.next + (startIndices events).length := by
  induction events generalizing c with
  | nil =>
    cases h
    exact ⟨rfl, (Int.add_zero _).symm⟩
  | cons e events ih =>
    rw [read_cons] at h
    obtain ⟨c₁, he, hrest⟩ := Option.bind_eq_some_iff.mp h
    obtain ⟨hstarts, hnext⟩ := ih hrest
    rcases accept_next he with ⟨hindex, hc₁⟩ | ⟨hindex, hc₁⟩
    · rw [startIndices, List.filterMap_cons_none hindex, ← hc₁]
      exact ⟨hstarts, hnext⟩
    · rw [startIndices, List.filterMap_cons_some hindex, List.length_cons, ← startIndices,
        indicesFrom_cons, ← hc₁, ← hstarts, hnext, hc₁]
      exact ⟨rfl, by omega⟩

theorem accept_opened_perm (h : c.accept e = some c') :
    (c.opened.map Prod.fst ++ e.startIndex?.toList).Perm (e.stopIndex?.toList ++ c'.opened.map Prod.fst) := by
  cases e <;> simp only [Client.accept, Option.ite_none_right_eq_some, Option.some.injEq] at h <;>
    obtain ⟨hif, rfl⟩ := h
  case contentBlockStart index block => simp [Event.startIndex?, Event.stopIndex?]
  case contentBlockStop index =>
      have herase : (c.opened.eraseP fun block => block.1 = index).map Prod.fst =
          (c.opened.map Prod.fst).erase index := by
        rw [List.erase_eq_eraseP, List.eraseP_map]
        refine congrArg (fun p => (c.opened.eraseP p).map Prod.fst) (funext fun block => ?_)
        rw [Bool.eq_iff_iff, decide_eq_true_iff, Function.comp, beq_iff_eq]
        exact eq_comm
      simp only [Event.startIndex?, Event.stopIndex?, Option.toList_none, List.append_nil,
        Option.toList_some, List.singleton_append, herase]
      exact List.perm_cons_erase hif.2
  all_goals simp [Event.startIndex?, Event.stopIndex?]

/-- Every block that was open or is started is either stopped, once, or still open. -/
theorem read_opened_perm (h : read Client.accept c events = some c') :
    (c.opened.map Prod.fst ++ startIndices events).Perm (stopIndices events ++ c'.opened.map Prod.fst) := by
  induction events generalizing c with
  | nil =>
    cases h
    simp [startIndices, stopIndices]
  | cons e events ih =>
    rw [read_cons] at h
    obtain ⟨c₁, he, hrest⟩ := Option.bind_eq_some_iff.mp h
    have hstarts : startIndices (e :: events) = e.startIndex?.toList ++ startIndices events := by
      cases hindex : e.startIndex? <;> simp [startIndices, hindex]
    have hstops : stopIndices (e :: events) = e.stopIndex?.toList ++ stopIndices events := by
      cases hindex : e.stopIndex? <;> simp [stopIndices, hindex]
    rw [hstarts, hstops, ← List.append_assoc, List.append_assoc _ (stopIndices events)]
    refine ((accept_opened_perm he).append_right _).trans ?_
    rw [List.append_assoc]
    exact (ih hrest).append_left _

theorem openBlocks_of_read (h : read Client.accept {} events = some c) : openBlocks events = c.opened.length := by
  have hlength := (read_opened_perm h).length_eq
  simp only [List.map_nil, List.nil_append, List.length_append, List.length_map] at hlength
  rw [openBlocks, hlength, Nat.add_sub_cancel_left]

theorem accept_phase (h : c.accept e = some c') : c'.phase ≠ .waiting := by
  cases e <;> simp only [Client.accept, Option.ite_none_right_eq_some, Option.some.injEq] at h <;>
    obtain ⟨hif, rfl⟩ := h <;> simp_all

variable {before after : List (Event U)} (h : WellFormed (before ++ e :: after))

include h in
/-- Where the client is before an event of a well-formed stream, and that it accepts the event. -/
theorem WellFormed.at_event : ∃ c c' : Client, read Client.accept {} before = some c ∧ c.accept e = some c' := by
  rw [WellFormed, Option.isSome_iff_exists] at h
  obtain ⟨last, hlast⟩ := h
  rw [read_append] at hlast
  obtain ⟨c, hc, hrest⟩ := Option.bind_eq_some_iff.mp hlast
  obtain ⟨c', hc', -⟩ := Option.bind_eq_some_iff.mp hrest
  exact ⟨c, c', hc, hc'⟩

include h in
/-- The message is started by the first event and by no other. -/
theorem WellFormed.messageStart_iff :
    (∃ id model inputTokens, e = .messageStart id model inputTokens) ↔ before = [] := by
  obtain ⟨c, c', hc, he⟩ := h.at_event
  constructor
  · rintro ⟨id, model, inputTokens, rfl⟩
    have hwaiting : c.phase = .waiting := by
      by_contra hne
      rw [Client.accept, if_neg hne] at he
      nomatch he
    rcases List.eq_nil_or_concat before with hnil | ⟨earlier, last, rfl⟩
    · exact hnil
    · rw [List.concat_eq_append, read_append] at hc
      obtain ⟨c₁, -, hlast⟩ := Option.bind_eq_some_iff.mp hc
      rw [read_cons] at hlast
      obtain ⟨c₂, hc₂, hnil⟩ := Option.bind_eq_some_iff.mp hlast
      cases hnil
      exact absurd hwaiting (accept_phase hc₂)
  · rintro rfl
    cases hc
    cases e <;> simp [Client.accept] at he ⊢

/-- The blocks of a well-formed stream are started at the indices 0, 1, 2 and so on. -/
theorem WellFormed.starts (h : WellFormed events) :
    startIndices events = indicesFrom 0 (startIndices events).length := by
  obtain ⟨c, hc⟩ := Option.isSome_iff_exists.mp h
  exact (read_startIndices hc).1

include h in
/-- Every block that was started before the end of the message was stopped before it, once. -/
theorem WellFormed.stops (he : e = .messageStop ∨ ∃ usage stopReason, e = .messageDelta usage stopReason) :
    (startIndices before).Perm (stopIndices before) := by
  obtain ⟨c, c', hc, haccept⟩ := h.at_event
  have hopened : c.opened = [] := by
    rcases he with rfl | ⟨usage, stopReason, rfl⟩ <;>
      simp only [Client.accept, Option.ite_none_right_eq_some] at haccept
    · exact haccept.1.2
    · exact haccept.1.2
  simpa [hopened] using read_opened_perm hc

theorem nodup_indicesFrom (base : ℤ) (n : ℕ) : (indicesFrom base n).Nodup := by
  rw [indicesFrom]
  exact List.nodup_range.map fun i j hij => Int.ofNat_inj.mp (Int.add_left_cancel hij)

include h in
/-- A delta or a stop is for a block that was started before it and not stopped. -/
theorem WellFormed.open_at {index : ℤ}
    (he : e = .contentBlockStop index ∨ ∃ delta, e = .contentBlockDelta index delta) :
    index ∈ startIndices before ∧ index ∉ stopIndices before := by
  obtain ⟨c, c', hc, haccept⟩ := h.at_event
  have hopened : index ∈ c.opened.map Prod.fst := by
    rcases he with rfl | ⟨delta, rfl⟩ <;>
      simp only [Client.accept, Option.ite_none_right_eq_some] at haccept
    · exact haccept.1.2
    · exact List.mem_map_of_mem haccept.1.2
  have hperm : (startIndices before).Perm (stopIndices before ++ c.opened.map Prod.fst) :=
    read_opened_perm hc
  have hnodup : (stopIndices before ++ c.opened.map Prod.fst).Nodup := by
    rw [← hperm.nodup_iff, (read_startIndices hc).1]
    exact nodup_indicesFrom _ _
  exact ⟨hperm.mem_iff.mpr (List.mem_append_right _ hopened),
    fun hstopped => (List.nodup_append.mp hnodup).2.2 _ hstopped _ hopened rfl⟩

end OneApi.Claude.Stream

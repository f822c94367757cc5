import OneApi.Claude.Delivery
import OneApi.Lib.Run

/-!
# Which content of a chat stream reaches the Claude stream

A stream is conserved when its events deliver the text, the thinking and the arguments of every tool
call that its chunks carry, and each tool call has one block, so that all its arguments come there.
`Keeps` says of a chunk, and of the state it arrives in, that nothing of it is lost;
`conserved_iff_keeps` that this of every chunk is exactly what is needed.
-/

namespace OneApi.Claude.Stream

open Lib.Run

variable {U : Type}

/-! ## Chunks of which nothing is lost -/

/-- A delta that brings nothing. -/
def Delta.Bare (delta : Delta) : Prop :=
  delta.getContentString = "" ∧ delta.getReasoningContent = "" ∧ ∀ call ∈ delta.toolCalls, call.arguments = ""

/-- A delta with one kind of content; with a tool call, even one without arguments, it has no other. -/
def Delta.Single (delta : Delta) : Prop :=
  if delta.toolCalls ≠ [] then delta.getContentString = "" ∧ delta.getReasoningContent = ""
  else delta.getContentString = "" ∨ delta.getReasoningContent = ""

/-- The delta of a first chunk of which nothing is lost: not both text and thinking, and arguments in
the first tool call only, which has index 0. -/
def Delta.FirstFits (delta : Delta) : Prop :=
  (delta.getContentString = "" ∨ delta.getReasoningContent = "") ∧
    (∀ call ∈ delta.toolCalls.take 1, call.offset 0 = 0 ∨ call.arguments = "") ∧
    ∀ call ∈ delta.toolCalls.drop 1, call.arguments = ""

variable {i : ℕ} {calls : List ToolCallResponse}

theorem mem_argumentsFrom {fragment : ℤ × String}
    (h : fragment ∈ argumentsFrom i calls) : ∃ call ∈ calls, call.arguments = fragment.2 := by
  induction calls generalizing i with
  | nil => exact absurd h List.not_mem_nil
  | cons call calls ih =>
    rcases List.mem_cons.mp h with rfl | h
    · exact ⟨call, List.mem_cons_self, rfl⟩
    · obtain ⟨other, hmem, heq⟩ := ih h
      exact ⟨other, List.mem_cons_of_mem _ hmem, heq⟩

theorem argumentsFrom_of_mem {call : ToolCallResponse}
    (h : call ∈ calls) : ∃ index, (index, call.arguments) ∈ argumentsFrom i calls := by
  induction calls generalizing i with
  | nil => exact absurd h List.not_mem_nil
  | cons other calls ih =>
    rcases List.mem_cons.mp h with rfl | h
    · exact ⟨_, List.mem_cons_self⟩
    · obtain ⟨index, hmem⟩ := ih (i := i + 1) h
      exact ⟨index, List.mem_cons_of_mem _ hmem⟩

variable {fragments : List (ℤ × String)}

theorem argumentsOf_eq_empty (h : ∀ f ∈ fragments, f.2 = "") : argumentsOf fragments = fun _ => "" := by
  funext call
  induction fragments with
  | nil => rfl
  | cons f fragments ih =>
    rw [argumentsOf_cons, h f List.mem_cons_self, ite_self, String.empty_append]
    exact ih fun g hg => h g (List.mem_cons_of_mem f hg)

/-- A fragment is never longer than all arguments of its call. -/
theorem length_le_argumentsOf {f : ℤ × String}
    (h : f ∈ fragments) : f.2.length ≤ (argumentsOf fragments f.1).length := by
  induction fragments with
  | nil => exact absurd h List.not_mem_nil
  | cons g fragments ih =>
    rw [argumentsOf_cons, String.length_append]
    rcases List.mem_cons.mp h with rfl | h
    · rw [if_pos rfl]
      exact Nat.le_add_right _ _
    · exact Nat.le_trans (ih h) (Nat.le_add_left _ _)

theorem eq_empty_of_length_le {text : String} (h : text.length ≤ 0) : text = "" :=
  String.length_eq_zero_iff.mp (Nat.le_zero.mp h)

variable {delta : Delta}

theorem Delta.Bare.carried_eq (h : delta.Bare) : delta.carried = .empty := by
  obtain ⟨htext, hthinking, hargs⟩ := h
  have hnone : ∀ f ∈ argumentsFrom 0 delta.toolCalls, f.2 = "" := by
    intro f hf
    obtain ⟨call, hmem, heq⟩ := mem_argumentsFrom hf
    rw [← heq, hargs call hmem]
  rw [Delta.carried, htext, hthinking, argumentsOf_eq_empty hnone]
  rfl

theorem arguments_eq_empty_of_shorter (h : ∀ call, (argumentsOf (argumentsFrom i calls) call).length ≤ 0) :
    ∀ call ∈ calls, call.arguments = "" := by
  intro call hmem
  obtain ⟨index, hindex⟩ := argumentsFrom_of_mem (i := i) hmem
  exact eq_empty_of_length_le (Nat.le_trans (length_le_argumentsOf hindex) (h index))

theorem Delta.bare_of_shorter (h : delta.carried.Shorter .empty) : delta.Bare :=
  ⟨eq_empty_of_length_le h.text, eq_empty_of_length_le h.thinking, arguments_eq_empty_of_shorter h.arguments⟩

variable {choices : List Choice}

theorem carriedBy_eq_empty (h : ∀ choice ∈ choices, choice.delta.Bare) : carriedBy choices = .empty := by
  induction choices with
  | nil => rfl
  | cons choice choices ih =>
    rw [carriedBy, (h choice List.mem_cons_self).carried_eq, Content.empty_append]
    exact ih fun other hmem => h other (List.mem_cons_of_mem _ hmem)

variable {a b c : Content}

theorem Content.Shorter.left (h : (a.append b).Shorter c) : a.Shorter c := by
  obtain ⟨htext, hthinking, hargs⟩ := h
  simp only [Content.append, String.length_append] at htext hthinking hargs
  exact ⟨by omega, by omega, fun call => by have := hargs call; omega⟩

theorem Content.Shorter.right (h : (a.append b).Shorter c) : b.Shorter c := by
  obtain ⟨htext, hthinking, hargs⟩ := h
  simp only [Content.append, String.length_append] at htext hthinking hargs
  exact ⟨by omega, by omega, fun call => by have := hargs call; omega⟩

theorem bare_of_carriedBy_shorter (h : (carriedBy choices).Shorter .empty) : ∀ choice ∈ choices, choice.delta.Bare := by
  induction choices with
  | nil => exact fun _ hmem => absurd hmem List.not_mem_nil
  | cons choice choices ih =>
    intro other hmem
    rcases List.mem_cons.mp hmem with rfl | hmem
    · exact Delta.bare_of_shorter h.left
    · exact ih h.right other hmem

theorem argumentsOf_nil : argumentsOf [] = fun _ => "" := rfl

/-- Of a delta with one kind of content everything is passed on. -/
theorem Delta.Single.content_passed (h : delta.Single) (base : ℤ) : (delta.passed base).content = delta.carried := by
  rw [Delta.Single] at h
  rw [Delta.passed, Delta.carried]
  by_cases htools : delta.toolCalls = []
  · rw [if_neg (not_not.mpr htools)] at h ⊢
    rw [htools]
    by_cases hthinking : delta.getReasoningContent = ""
    · rw [if_neg (not_not.mpr hthinking), hthinking]
      rfl
    · rw [if_pos hthinking, h.resolve_right hthinking]
      rfl
  · rw [if_pos htools] at h ⊢
    rw [h.1, h.2, content_toolDeltas]

theorem Delta.single_of_shorter {base : ℤ} (h : delta.carried.Shorter (delta.passed base).content) : delta.Single := by
  rw [Delta.Single]
  rw [Delta.passed] at h
  by_cases htools : delta.toolCalls = []
  · rw [if_neg (not_not.mpr htools)] at h ⊢
    by_cases hthinking : delta.getReasoningContent = ""
    · exact .inr hthinking
    · rw [if_pos hthinking] at h
      exact .inl (eq_empty_of_length_le h.text)
  · rw [if_pos htools] at h ⊢
    rw [content_toolDeltas] at h
    exact ⟨eq_empty_of_length_le h.text, eq_empty_of_length_le h.thinking⟩

/-- A later chunk never delivers more than it carries. -/
theorem Delta.passed_shorter (delta : Delta) (base : ℤ) : (delta.passed base).content.Shorter delta.carried := by
  rw [Delta.passed]
  by_cases htools : delta.toolCalls = []
  · rw [if_neg (not_not.mpr htools)]
    by_cases hthinking : delta.getReasoningContent = ""
    · rw [if_neg (not_not.mpr hthinking)]
      exact ⟨Nat.le_refl _, Nat.zero_le _, fun _ => Nat.zero_le _⟩
    · rw [if_pos hthinking]
      exact ⟨Nat.zero_le _, Nat.le_refl _, fun _ => Nat.zero_le _⟩
  · rw [if_pos htools, content_toolDeltas]
    exact ⟨Nat.zero_le _, Nat.zero_le _, fun _ => Nat.le_refl _⟩

/-- The arguments of the first chunk all go to the first call, if there is one. -/
theorem Delta.firstPassed_arguments (delta : Delta) (index : ℤ) :
    delta.firstPassed.content.arguments index
      = if index = 0 then ((delta.toolCalls.take 1).map ToolCallResponse.arguments).head?.getD ""
        else "" := by
  rw [Delivery.content, Delta.firstPassed]
  cases delta.toolCalls with
  | nil => exact (ite_self _).symm
  | cons call calls =>
    rw [List.take_succ_cons, List.take_zero, toolDeltas_cons]
    by_cases hargs : call.arguments = ""
    · rw [if_neg (not_not.mpr hargs)]
      simp only [List.map_cons, List.map_nil, List.head?_cons, Option.getD_some, hargs, ite_self]
      rfl
    · rw [if_pos hargs]
      show argumentsOf [((0 : ℤ), call.arguments)] index = _
      rw [argumentsOf_cons, argumentsOf_nil, String.append_empty]
      simp only [eq_comm (a := index), List.map_cons, List.map_nil, List.head?_cons, Option.getD_some]

theorem Delta.FirstFits.content_firstPassed (h : delta.FirstFits) : delta.firstPassed.content = delta.carried := by
  obtain ⟨hone, hfirst, hrest⟩ := h
  have htext : delta.firstPassed.content.text = delta.carried.text := by
    show (if delta.getReasoningContent ≠ "" then "" else delta.getContentString) = _
    rcases hone with hone | hone
    · rw [hone, ite_self]; exact hone.symm
    · rw [if_neg (not_not.mpr hone)]; rfl
  have hargs : delta.firstPassed.content.arguments = delta.carried.arguments := by
    funext index
    rw [Delta.firstPassed_arguments, Delta.carried_arguments]
    cases hcalls : delta.toolCalls with
    | nil => exact ite_self _
    | cons call calls =>
      rw [hcalls] at hfirst hrest
      have hcall := hfirst call List.mem_cons_self
      have hnone : ∀ f ∈ argumentsFrom 1 calls, f.2 = "" := by
        intro f hf
        obtain ⟨other, hmem, heq⟩ := mem_argumentsFrom hf
        rw [← heq, hrest other hmem]
      rw [argumentsFrom, argumentsOf_cons, argumentsOf_eq_empty hnone, String.append_empty]
      simp only [List.take_succ_cons, List.take_zero, List.map_cons, List.map_nil, List.head?_cons, Option.getD_some]
      rcases hcall with hcall | hcall
      · rw [hcall]; simp only [eq_comm (a := index)]
      · rw [hcall, ite_self, ite_self]
  calc delta.firstPassed.content
      = ⟨delta.firstPassed.content.text, delta.getReasoningContent,
          delta.firstPassed.content.arguments⟩ := rfl
    _ = delta.carried := by rw [htext, hargs]; rfl

theorem Delta.firstFits_of_shorter (h : delta.carried.Shorter delta.firstPassed.content) : delta.FirstFits := by
  have htext : delta.getContentString.length
      ≤ (if delta.getReasoningContent ≠ "" then "" else delta.getContentString).length := h.text
  have hargs := h.arguments
  have hcall : ∀ call ∈ delta.toolCalls.take 1, call.offset 0 = 0 ∨ call.arguments = "" := by
    cases hcalls : delta.toolCalls with
    | nil => exact fun call hmem => absurd hmem List.not_mem_nil
    | cons call calls =>
      intro other hmem
      obtain rfl : other = call := List.mem_singleton.mp hmem
      by_cases hoffset : other.offset 0 = 0
      · exact .inl hoffset
      · have hlen := hargs (other.offset 0)
        rw [Delta.firstPassed_arguments, if_neg hoffset] at hlen
        refine .inr (eq_empty_of_length_le (Nat.le_trans ?_ hlen))
        rw [Delta.carried_arguments, hcalls]
        exact length_le_argumentsOf (f := (other.offset 0, other.arguments)) List.mem_cons_self
  refine ⟨?_, hcall, ?_⟩
  · by_cases hthinking : delta.getReasoningContent = ""
    · exact .inr hthinking
    · rw [if_pos hthinking] at htext
      exact .inl (eq_empty_of_length_le htext)
  · cases hcalls : delta.toolCalls with
    | nil => exact fun call hmem => absurd hmem List.not_mem_nil
    | cons call calls =>
      refine arguments_eq_empty_of_shorter (i := 1) fun index => ?_
      have hlen := hargs index
      rw [Delta.firstPassed_arguments, Delta.carried_arguments, hcalls, argumentsFrom,
        argumentsOf_cons, String.length_append] at hlen
      simp only [List.take_succ_cons, List.take_zero, List.map_cons, List.map_nil,
        List.head?_cons, Option.getD_some] at hlen
      have hnone : (argumentsOf (argumentsFrom (0 + 1) calls) index).length ≤ 0 := by
        have hfirst := hcall call (by rw [hcalls]; exact List.mem_cons_self)
        by_cases hindex : index = 0
        · subst hindex
          rw [if_pos rfl] at hlen
          rcases hfirst with hfirst | hfirst
          · rw [hfirst, if_pos rfl] at hlen
            omega
          · rw [hfirst, String.length_empty] at hlen
            omega
        · rw [if_neg hindex, String.length_empty] at hlen
          omega
      exact hnone

/-! ## Streams -/

/-- The reader after all events of a stream so far. -/
def Session.reader (s : Session U) : Reader := ({} : Reader).events s.events

/-- The arguments of a call go on in the block where they began: no other content has come between. -/
def Session.Uninterrupted (s : Session U) (delta : Delta) : Prop :=
  ∀ fragment ∈ argumentsFrom 0 delta.toolCalls, fragment.2 ≠ "" →
    ∀ old ∈ s.reader.got.tools, old.call = fragment.1 → old.block = s.info.enterTools.1.toolCallBaseIndex + fragment.1

/-- Nothing of the chunk is lost in this state: its first choice has what is passed on here, and its
other choices nothing. -/
def Keeps (s : Session U) (input : Input U) : Prop :=
  match input.chunk.choices with
  | [] => True
  | choice :: others =>
    (∀ other ∈ others, other.delta.Bare) ∧
      if s.info.done then choice.delta.Bare
      else if s.count = 0 then choice.delta.FirstFits
      else if choice.finish ≠ none ∧ input.chunk.usage = none then choice.delta.Bare
      else choice.delta.Single ∧ s.Uninterrupted choice.delta

/-- What the events deliver is what the chunks carry, and every tool call has one block. -/
def Conserved (inputs : List (Input U)) (s : Session U) : Prop :=
  s.reader.got.content = carried inputs ∧ s.reader.got.OneBlock

/-- The reader follows the converter until the message ends, from the first chunk on. -/
structure Session.Read (s : Session U) : Prop where
  follows : s.info.done = false → Tracks s.reader s.info
  first : s.count = 0 → Fresh s.reader s.info ∧ s.info.done = false ∧ s.reader.got = {}

/-- What a step passes on of its chunk. -/
def Session.passedOn (s : Session U) (input : Input U) : Delivery :=
  Stream.passedOn (s.count + 1) s.info input.chunk

theorem passedOn_usage (count : ℕ) (info : ClaudeConvertInfo U) (usage : Option U) (chunk : Chunk U) :
    passedOn count { info with usage := usage } chunk = passedOn count info chunk := by
  obtain ⟨last, index, usage', finishReason, done, base, offset⟩ := info
  cases last <;> rfl

variable {s : Session U}

theorem Session.Read.delivers (h : s.Read) (est : ℤ) (input : Input U) :
    Delivers s.reader (streamResponseOpenAI2Claude est (s.count + 1)
      { s.info with usage := input.usage } input.chunk) (s.passedOn input) := by
  rw [Session.passedOn, ← passedOn_usage _ s.info input.usage]
  refine delivers_streamResponseOpenAI2Claude (fun hdone => ?_) (fun hcount => ?_) est input.chunk
  · have hfollows := h.follows hdone
    exact ⟨hfollows.offset, hfollows.base⟩
  · have hfresh := (h.first (by omega)).1
    exact ⟨⟨hfresh.offset, hfresh.base⟩, hfresh.last, hfresh.start⟩

theorem reader_step (est : ℤ) (input : Input U) :
    (step est s input).reader = s.reader.events (streamResponseOpenAI2Claude est (s.count + 1)
      { s.info with usage := input.usage } input.chunk).2 := by
  rw [Session.reader, step, Reader.events_append, ← Session.reader]

theorem Session.Read.got_step (h : s.Read) (est : ℤ) (input : Input U) :
    (step est s input).reader.got = s.reader.got.append (s.passedOn input) := by
  rw [reader_step, (h.delivers est input).got]

theorem Session.Read.step (h : s.Read) (est : ℤ) (input : Input U) : (step est s input).Read := by
  refine ⟨fun hdone => ?_, fun hcount => absurd hcount (Nat.succ_ne_zero _)⟩
  rw [reader_step]
  exact (h.delivers est input).follows hdone

theorem Session.read_start : ({} : Session U).Read := by
  have hfresh : Fresh ({} : Session U).reader ({} : Session U).info :=
    ⟨⟨Int.le_refl 0, rfl⟩, rfl, rfl⟩
  exact ⟨fun _ => hfresh.toTracks, fun _ => ⟨hfresh, rfl, rfl⟩⟩

/-! ## One block for each call -/

theorem Delta.passed_tools (delta : Delta) (base : ℤ) :
    (delta.passed base).tools = toolDeltas base 0 delta.toolCalls := by
  rw [Delta.passed]
  by_cases htools : delta.toolCalls = []
  · rw [if_neg (not_not.mpr htools), htools]
    split <;> rfl
  · rw [if_pos htools]

theorem mem_toolDeltas {base : ℤ} {d : ToolDelta} :
    d ∈ toolDeltas base i calls ↔ ∃ f ∈ argumentsFrom i calls, f.2 ≠ "" ∧ d = ⟨f.1, base + f.1, f.2⟩ := by
  simp only [toolDeltas, List.mem_map, List.mem_filter, decide_eq_true_eq, and_assoc]
  exact exists_congr fun f => and_congr_right fun _ => and_congr_right fun _ => eq_comm

/-- New fragments in blocks from `base` on keep every call in one block exactly if the earlier
fragments of the same calls came there too. -/
theorem Delivery.oneBlock_append {d new : Delivery} (base : ℤ)
    (hnew : ∀ delta ∈ new.tools, delta.block = base + delta.call) :
    (d.append new).OneBlock ↔ d.OneBlock ∧
      ∀ delta ∈ new.tools, ∀ old ∈ d.tools, old.call = delta.call → old.block = base + delta.call := by
  constructor
  · intro h
    refine ⟨fun a ha b hb => h a (List.mem_append_left _ ha) b (List.mem_append_left _ hb), ?_⟩
    intro delta hdelta old hold hcall
    rw [← hnew delta hdelta]
    exact h old (List.mem_append_left _ hold) delta (List.mem_append_right _ hdelta) hcall
  · rintro ⟨hd, hold⟩ a ha b hb hcall
    rcases List.mem_append.mp ha with ha | ha <;> rcases List.mem_append.mp hb with hb | hb
    · exact hd a ha b hb hcall
    · rw [hold b hb a ha hcall, hnew b hb]
    · rw [hold a ha b hb hcall.symm, hnew a ha]
    · rw [hnew a ha, hnew b hb, hcall]

/-! ## A step and a run -/

/-- A first part that is passed on whole leaves room for nothing else. -/
theorem Content.Shorter.fits {K : Prop} (h : (a.append b).Shorter c)
    (hK : a.Shorter c → K) (heq : K → c = a) : K ∧ b.Shorter .empty := by
  have hfit := hK h.left
  rw [heq hfit] at h
  have hrest : (a.append b).Shorter (a.append .empty) := by rw [Content.append_empty]; exact h
  exact ⟨hfit, hrest.right_of_append⟩

variable {s : Session U} {input : Input U}

/-- A chunk that loses nothing is delivered whole, and leaves every call in one block. -/
theorem Keeps.delivered (hk : Keeps s input) (h : s.Read) :
    (s.passedOn input).content = carriedBy input.chunk.choices ∧
      (s.reader.got.OneBlock → (s.reader.got.append (s.passedOn input)).OneBlock) := by
  rw [Keeps] at hk
  rw [Session.passedOn, Stream.passedOn]
  cases hchoices : input.chunk.choices with
  | nil => exact ⟨rfl, fun hone => by rw [Delivery.append_nothing]; exact hone⟩
  | cons choice others =>
    rw [hchoices] at hk
    obtain ⟨hothers, hk⟩ := hk
    rw [carriedBy, carriedBy_eq_empty hothers, Content.append_empty]
    have hbare : choice.delta.Bare → Delivery.content {} = choice.delta.carried ∧
        (s.reader.got.OneBlock → (s.reader.got.append {}).OneBlock) := fun hb =>
      ⟨hb.carried_eq.symm, fun hone => by rw [Delivery.append_nothing]; exact hone⟩
    cases hdone : s.info.done with
    | true =>
      rw [hdone] at hk
      exact hbare hk
    | false =>
      rw [hdone, if_neg Bool.false_ne_true] at hk
      dsimp only
      rw [if_neg Bool.false_ne_true]
      by_cases hcount : s.count = 0
      · rw [if_pos hcount] at hk
        rw [if_pos (by omega)]
        refine ⟨hk.content_firstPassed, fun _ => ?_⟩
        rw [(h.first hcount).2.2]
        intro a ha b hb _
        rw [Delivery.append, List.nil_append] at ha hb
        obtain ⟨_, _, rfl⟩ := List.mem_map.mp ha
        obtain ⟨_, _, rfl⟩ := List.mem_map.mp hb
        rfl
      · rw [if_neg hcount] at hk
        rw [if_neg (by omega)]
        split at hk
        · next hfin => rw [if_pos hfin]; exact hbare hk
        · next hfin =>
          rw [if_neg hfin]
          refine ⟨hk.1.content_passed _, fun hone => ?_⟩
          rw [Delivery.oneBlock_append s.info.enterTools.1.toolCallBaseIndex]
          · refine ⟨hone, fun d hd old hold hcall => ?_⟩
            rw [Delta.passed_tools] at hd
            obtain ⟨f, hf, hne, rfl⟩ := mem_toolDeltas.mp hd
            exact hk.2 f hf hne old hold hcall
          · intro d hd
            rw [Delta.passed_tools] at hd
            obtain ⟨f, _, _, rfl⟩ := mem_toolDeltas.mp hd
            rfl

/-- A chunk that is delivered whole, and leaves every call in one block, loses nothing. -/
theorem keeps_of_delivered (hwhole : (carriedBy input.chunk.choices).Shorter (s.passedOn input).content)
    (hone : (s.reader.got.append (s.passedOn input)).OneBlock) : Keeps s input := by
  rw [Keeps]
  rw [Session.passedOn, Stream.passedOn] at hwhole hone
  cases hchoices : input.chunk.choices with
  | nil => trivial
  | cons choice others =>
    rw [hchoices, carriedBy] at hwhole
    rw [hchoices] at hone
    dsimp only at hwhole hone ⊢
    have hbare : (choice.delta.carried.append (carriedBy others)).Shorter (Delivery.content {}) →
        (∀ other ∈ others, other.delta.Bare) ∧ choice.delta.Bare := by
      intro hshort
      obtain ⟨hfit, hrest⟩ := hshort.fits Delta.bare_of_shorter fun hb => hb.carried_eq.symm
      exact ⟨bare_of_carriedBy_shorter hrest, hfit⟩
    cases hdone : s.info.done with
    | true =>
      rw [hdone] at hwhole
      exact hbare hwhole
    | false =>
      rw [hdone, if_neg Bool.false_ne_true] at hwhole hone
      rw [if_neg Bool.false_ne_true]
      by_cases hcount : s.count = 0
      · rw [if_pos (by omega)] at hwhole
        rw [if_pos hcount]
        obtain ⟨hfit, hrest⟩ := hwhole.fits Delta.firstFits_of_shorter
          fun hf => hf.content_firstPassed
        exact ⟨bare_of_carriedBy_shorter hrest, hfit⟩
      · rw [if_neg (by omega)] at hwhole hone
        rw [if_neg hcount]
        split at hwhole
        · next hfin => rw [if_pos hfin]; exact hbare hwhole
        · next hfin =>
          rw [if_neg hfin] at hone ⊢
          obtain ⟨hfit, hrest⟩ := hwhole.fits Delta.single_of_shorter
            fun hf => hf.content_passed _
          refine ⟨bare_of_carriedBy_shorter hrest, hfit, ?_⟩
          rw [Delivery.oneBlock_append s.info.enterTools.1.toolCallBaseIndex] at hone
          · intro f hf hne old hold hcall
            refine hone.2 ⟨f.1, s.info.enterTools.1.toolCallBaseIndex + f.1, f.2⟩ ?_ old hold hcall
            rw [Delta.passed_tools]
            exact mem_toolDeltas.mpr ⟨f, hf, hne, rfl⟩
          · intro d hd
            rw [Delta.passed_tools] at hd
            obtain ⟨f, _, _, rfl⟩ := mem_toolDeltas.mp hd
            rfl

/-- After the first chunk no chunk delivers more than it carries. -/
theorem passedOn_shorter (hcount : s.count ≠ 0) :
    (s.passedOn input).content.Shorter (carriedBy input.chunk.choices) := by
  have hnothing : ∀ c : Content, (Delivery.content {}).Shorter c := fun c =>
    ⟨Nat.zero_le _, Nat.zero_le _, fun _ => Nat.zero_le _⟩
  rw [Session.passedOn, Stream.passedOn]
  cases input.chunk.choices with
  | nil => exact hnothing _
  | cons choice others =>
    dsimp only
    split
    · exact hnothing _
    rw [if_neg (by omega)]
    split
    · exact hnothing _
    · have hshort := choice.delta.passed_shorter s.info.enterTools.1.toolCallBaseIndex
      rw [carriedBy]
      simp only [Content.append]
      refine ⟨?_, ?_, fun index => ?_⟩
      · rw [String.length_append]; exact Nat.le_trans hshort.text (Nat.le_add_right _ _)
      · rw [String.length_append]; exact Nat.le_trans hshort.thinking (Nat.le_add_right _ _)
      · rw [String.length_append]
        exact Nat.le_trans (hshort.arguments index) (Nat.le_add_right _ _)

/-- A stream beside what its chunks have carried. -/
structure Feed (U : Type) where
  session : Session U := {}
  carried : Content := .empty

def Feed.step (est : ℤ) (f : Feed U) (input : Input U) : Feed U :=
  ⟨Stream.step est f.session input, f.carried.append (carriedBy input.chunk.choices)⟩

theorem carried_run (est : ℤ) (f : Feed U) (inputs : List (Input U)) :
    (run (Feed.step est) f inputs).carried = f.carried.append (carried inputs) := by
  induction inputs generalizing f with
  | nil => exact (Content.append_empty _).symm
  | cons input inputs ih => rw [run_cons, ih, Feed.step, carried, Content.append_assoc]

/-- What may be checked by lengths alone: no text is longer than what was delivered of it. -/
def Feed.Whole (f : Feed U) : Prop :=
  f.carried.Shorter f.session.reader.got.content ∧ f.session.reader.got.OneBlock

/-- Everything has been delivered. -/
def Feed.Delivered (f : Feed U) : Prop :=
  f.session.reader.got.content = f.carried ∧ f.session.reader.got.OneBlock

/-- The reader follows, and nothing has been carried before the first chunk. -/
def Feed.Read (f : Feed U) : Prop :=
  f.session.Read ∧ (f.session.count = 0 → f.carried = .empty)

theorem Feed.Delivered.whole {f : Feed U} (h : f.Delivered) : f.Whole :=
  ⟨h.1 ▸ Content.Shorter.refl _, h.2⟩

variable {f : Feed U}

theorem Feed.Read.step (h : f.Read) (est : ℤ) (input : Input U) : (f.step est input).Read :=
  ⟨h.1.step est input, fun hcount => absurd hcount (Nat.succ_ne_zero _)⟩

/-- What is lost stays lost: later chunks do not deliver more than they carry. -/
theorem Feed.Read.whole_of_step (h : f.Read) (est : ℤ) (input : Input U)
    (hwhole : (f.step est input).Whole) : f.Whole := by
  by_cases hcount : f.session.count = 0
  · have hgot := (h.1.first hcount).2.2
    rw [Feed.Whole, h.2 hcount, hgot]
    exact ⟨Content.Shorter.refl _, fun d hd => absurd hd List.not_mem_nil⟩
  · obtain ⟨hshort, hone⟩ := hwhole
    have hgot := h.1.got_step est input
    rw [show (f.step est input).session = Stream.step est f.session input from rfl, hgot] at hshort hone
    rw [Delivery.content_append] at hshort
    refine ⟨hshort.of_append (passedOn_shorter hcount), fun a ha b hb => ?_⟩
    exact hone a (List.mem_append_left _ ha) b (List.mem_append_left _ hb)

theorem Feed.Delivered.step (h : f.Delivered) (hread : f.Read) (est : ℤ) (input : Input U)
    (hk : Keeps f.session input) : (f.step est input).Delivered := by
  obtain ⟨hcontent, hone⟩ := hk.delivered hread.1
  rw [Feed.Delivered, show (f.step est input).session = Stream.step est f.session input from rfl,
    hread.1.got_step est input, Delivery.content_append, hcontent, h.1]
  exact ⟨rfl, hone h.2⟩

theorem Feed.Delivered.keeps (h : f.Delivered) (hread : f.Read) (est : ℤ) (input : Input U)
    (hwhole : (f.step est input).Whole) : Keeps f.session input := by
  obtain ⟨hshort, hone⟩ := hwhole
  rw [show (f.step est input).session = Stream.step est f.session input from rfl,
    hread.1.got_step est input] at hshort hone
  rw [Delivery.content_append, h.1] at hshort
  exact keeps_of_delivered hshort.right_of_append hone

/-- **Conservation of the content.**  The Claude events of a chat stream deliver the text, the thinking
and, in one block for each tool call, the arguments that its chunks carry, exactly if every chunk keeps
its content: it brings something in its first choice only, and there one kind of content; as the first
chunk, text or thinking and the arguments of its first call at index 0; nothing with a finish reason
that comes without a usage, nothing after the end, and no arguments for a call that text or thinking
has interrupted. -/
theorem conserved_iff_keeps (est : ℤ) (inputs : List (Input U)) :
    Conserved inputs (run (step est) {} inputs) ↔ Respects (step est) Keeps {} inputs := by
  have hsession : ∀ (f : Feed U) (input : Input U),
      (f.step est input).session = step est f.session input := fun _ _ => rfl
  have hstart : ({} : Feed U).Read := ⟨Session.read_start, fun _ => rfl⟩
  have hnone : ({} : Feed U).Delivered := ⟨rfl, fun d hd => absurd hd List.not_mem_nil⟩
  have hwhole : (run (Feed.step est) {} inputs).Whole ↔
      Respects (Feed.step est) (fun f input => Keeps f.session input) {} inputs :=
    run_iff_respects_of_invariant (I := Feed.Delivered) (J := Feed.Read) (P := Feed.Whole)
      (fun f input hf => hf.step est input) (fun f => Feed.Delivered.whole)
      (fun f input hf => hf.whole_of_step est input)
      (fun f input hread hf => hf.step hread est input)
      (fun f input hread hf => hf.keeps hread est input) hstart hnone
  have hrun : (run (Feed.step est) ({} : Feed U) inputs).session = run (step est) {} inputs :=
    run_map hsession
  rw [respects_map hsession] at hwhole
  have hcarried : (run (Feed.step est) ({} : Feed U) inputs).carried = carried inputs := by
    rw [carried_run]
    exact Content.empty_append _
  constructor
  · intro h
    refine hwhole.mp (Feed.Delivered.whole ?_)
    rw [Feed.Delivered, hrun, hcarried]
    exact h
  · intro h
    have hkeeps := (respects_map hsession (C := Keeps) ({} : Feed U) inputs).mpr h
    have hboth : (run (Feed.step est) ({} : Feed U) inputs).Read ∧
        (run (Feed.step est) ({} : Feed U) inputs).Delivered :=
      run_preserves_of_respects (I := fun f => f.Read ∧ f.Delivered)
        (fun f input hk hf => ⟨hf.1.step est input, hf.2.step hf.1 est input hk⟩) hkeeps
        ⟨hstart, hnone⟩
    have hdelivered := hboth.2
    rw [Feed.Delivered, hrun, hcarried] at hdelivered
    exact hdelivered

/-- The text that comes with the finish reason, the usage in a chunk of its own. -/
def textWithFinish : List (Input Unit) :=
  [⟨{ choices := [{ delta := { content := some "" } }] }, none⟩,
    ⟨{ choices := [{ delta := { content := some "Hi" }, finishReason := some "stop" }] }, none⟩,
    ⟨{ usage := some () }, none⟩]

/-- The message ends without the text. -/
theorem textWithFinish_not_conserved : ¬ Conserved textWithFinish (run (step 0) {} textWithFinish) := by
  rintro ⟨hcontent, _⟩
  have htext := congrArg Content.text hcontent
  exact absurd htext (by decide)

end OneApi.Claude.Stream

import McpRe.Replay.Cache

/-!
# A nonce is fresh at most once

A granted nonce is *spent*: its triple is retained, or its window is over. Every event keeps it spent
as long as the clock does not run backwards, and nothing spent is granted again. The strict upper
end of the window and the inclusive retention meet in `Spent.not_grants`. Whatever the clock does, a
message is a replay by the history of its own triple alone (`replay_iff_retained`).
-/

namespace McpRe.Replay

open Lib Lib.Run
open McpRe.Http (windowAdmits)

abbrev CacheStep := Step InMemoryReplayCache Event Answer

def Grants (key : Slots) (expires : I64) (t : CacheStep) : Prop :=
  (∃ created now, t.event = .offer key created expires now) ∧ t.answer = .decided (.ok .fresh)

def Refuses (t : CacheStep) : Prop :=
  t.answer = .decided (.ok .replay) ∨ t.answer = .staleWindow ∨
    ∃ details, t.answer = .decided (.error (.unavailable details))

section

variable {cache : InMemoryReplayCache}

/-! ## One step -/

theorem step_offer (cache : InMemoryReplayCache) (key : Slots) (created expires now : I64) :
    (windowAdmits created expires now cache.maxClockSkewSecs = true ∧
      cache.seen.lookup key = none ∧ cache.len < cache.maxEntries ∧
      step cache (.offer key created expires now) = (.decided (.ok .fresh), { cache with
        seen := cache.seen.insert key
          (skewFoldedRetainUntil expires cache.maxClockSkewSecs) })) ∨
    ((step cache (.offer key created expires now)).1 ≠ .decided (.ok .fresh) ∧
      (step cache (.offer key created expires now)).2 = cache) := by
  unfold step InMemoryReplayCache.checkAndInsert
  by_cases hwindow : windowAdmits created expires now cache.maxClockSkewSecs = true
  · by_cases hseen : (cache.seen.lookup key).isSome = true
    · exact .inr (by simp [hwindow, hseen])
    · have hnone : cache.seen.lookup key = none := by simpa using hseen
      by_cases hfull : cache.maxEntries ≤ cache.len
      · exact .inr (by simp [hwindow, hnone, hfull])
      · exact .inl ⟨hwindow, hnone, Nat.not_le.1 hfull, by simp [hwindow, hnone, hfull]⟩
  · exact .inr (by simp [hwindow])

theorem step_maxClockSkewSecs (e : Event) :
    (step cache e).2.maxClockSkewSecs = cache.maxClockSkewSecs := by
  cases e with
  | prune now => rfl
  | offer key created expires now =>
    rcases step_offer cache key created expires now with ⟨_, _, _, h⟩ | ⟨_, h⟩ <;> rw [h]

theorem step_maxEntries (e : Event) : (step cache e).2.maxEntries = cache.maxEntries := by
  cases e with
  | prune now => rfl
  | offer key created expires now =>
    rcases step_offer cache key created expires now with ⟨_, _, _, h⟩ | ⟨_, h⟩ <;> rw [h]

theorem step_len_le {e : Event} (h : cache.len ≤ cache.maxEntries) :
    (step cache e).2.len ≤ cache.maxEntries := by
  cases e with
  | prune now => exact (Table.size_retain_le _ _).trans h
  | offer key created expires now =>
    rcases step_offer cache key created expires now with ⟨_, hnone, hlt, hstep⟩ | ⟨_, hstep⟩
    · rw [hstep]
      exact (Table.size_insert_of_lookup_eq_none hnone _).trans_le hlt
    · rw [hstep]
      exact h

theorem step_eq_self_of_ne_fresh {e : Event} (hne : (step cache e).1 ≠ .decided (.ok .fresh))
    (hprune : (step cache e).1 ≠ .pruned) : (step cache e).2 = cache := by
  cases e with
  | prune now => exact absurd rfl hprune
  | offer key created expires now =>
    rcases step_offer cache key created expires now with ⟨_, _, _, h⟩ | ⟨_, h⟩
    · exact absurd (congrArg Prod.fst h) hne
    · exact h

/-! ## Spent nonces -/

/-- At instant `now` the triple is retained under this expiry, or its retention is over. -/
def Spent (cache : InMemoryReplayCache) (now : I64) (key : Slots) (expires : I64) : Prop :=
  cache.seen.lookup key = some (skewFoldedRetainUntil expires cache.maxClockSkewSecs) ∨
    skewFoldedRetainUntil expires cache.maxClockSkewSecs < now

theorem Spent.step {now : I64} {key : Slots} {expires : I64} (h : Spent cache now key expires)
    {e : Event} (hnow : now ≤ e.now) : Spent (step cache e).2 e.now key expires := by
  unfold Spent
  rw [step_maxClockSkewSecs]
  rcases h with hseen | hover
  · cases e with
    | prune instant =>
      by_cases hkeep : instant ≤ skewFoldedRetainUntil expires cache.maxClockSkewSecs
      · refine .inl ?_
        simp [Replay.step, InMemoryReplayCache.prune, Table.lookup_retain, hseen, hkeep]
      · exact .inr (not_le.1 hkeep)
    | offer key' created expires' instant =>
      refine .inl ?_
      rcases step_offer cache key' created expires' instant with
        ⟨_, hnone, _, hstep⟩ | ⟨_, hstep⟩
      · have hne : key ≠ key' := by
          rintro rfl
          rw [hseen] at hnone
          cases hnone
        rw [hstep]
        exact (AList.lookup_insert_ne hne).trans hseen
      · rw [hstep]
        exact hseen
  · exact .inr (hover.trans_le hnow)

theorem Spent.not_fresh {now : I64} {key : Slots} {expires : I64} (h : Spent cache now key expires)
    {created instant : I64} (hnow : now ≤ instant) :
    (Replay.step cache (.offer key created expires instant)).1 ≠ .decided (.ok .fresh) := by
  rcases step_offer cache key created expires instant with ⟨hwindow, hnone, _, _⟩ | ⟨hne, _⟩
  · have hinside : instant < skewFoldedRetainUntil expires cache.maxClockSkewSecs := by
      simp only [windowAdmits, Bool.and_eq_true, decide_eq_true_eq] at hwindow
      exact hwindow.1.2
    rcases h with hseen | hover
    · rw [hseen] at hnone
      cases hnone
    · exact absurd (hover.trans_le hnow) (not_lt.2 hinside.le)
  · exact hne

theorem spent_of_fresh {key : Slots} {created expires now : I64}
    (h : (Replay.step cache (.offer key created expires now)).1 = .decided (.ok .fresh)) :
    Spent (Replay.step cache (.offer key created expires now)).2 now key expires := by
  rcases step_offer cache key created expires now with ⟨_, _, _, hstep⟩ | ⟨hne, _⟩
  · rw [hstep]
    exact .inl (AList.lookup_insert _)
  · exact absurd h hne

/-! ## The run -/

theorem not_grants_of_spent {now : I64} {key : Slots} {expires : I64}
    (h : Spent cache now key expires) {events : List Event}
    (hclock : (now :: events.map Event.now).Pairwise (· ≤ ·)) :
    ∀ t ∈ trace Replay.step cache events, ¬Grants key expires t := by
  induction events generalizing cache now with
  | nil => simp [trace]
  | cons e events ih =>
    obtain ⟨hfirst, hrest⟩ := List.pairwise_cons.1 hclock
    have hnow : now ≤ e.now := hfirst _ List.mem_cons_self
    intro t ht
    rcases List.mem_cons.1 ht with rfl | ht
    · rintro ⟨⟨created, instant, rfl⟩, hfresh⟩
      exact h.not_fresh hnow hfresh
    · exact ih (h.step hnow) hrest t ht

theorem grants_pairwise {events : List Event} (hclock : (events.map Event.now).Pairwise (· ≤ ·)) :
    (trace Replay.step cache events).Pairwise fun t t' =>
      ∀ key expires, ¬(Grants key expires t ∧ Grants key expires t') := by
  induction events generalizing cache with
  | nil => exact List.Pairwise.nil
  | cons e events ih =>
    refine List.pairwise_cons.2 ⟨?_, ih (List.pairwise_cons.1 hclock).2⟩
    rintro t ht key expires ⟨⟨⟨created, instant, rfl⟩, hfresh⟩, hgrants⟩
    exact not_grants_of_spent (spent_of_fresh hfresh) hclock t ht hgrants

/-- **Replay at most once**: on a clock that does not run backwards no two steps of a run answer
`Fresh` for one triple under one expiry, whatever the skew and the order of the prunes; a refusal
leaves the cache as it was; and the cache never grows past its ceiling. -/
theorem replay_at_most_once (maxClockSkewSecs : I64) (maxEntries : Nat) (events : List Event)
    (hclock : (events.map Event.now).Pairwise (· ≤ ·)) :
    let cache := (InMemoryReplayCache.new maxClockSkewSecs).withMaxEntries maxEntries
    let run := trace Replay.step cache events
    (run.Pairwise fun t t' => ∀ key expires, ¬(Grants key expires t ∧ Grants key expires t')) ∧
    (∀ t ∈ run, Refuses t → t.after = t.before) ∧
    (∀ t ∈ run, t.before.len ≤ cache.maxEntries ∧ t.after.len ≤ cache.maxEntries) := by
  intro cache run
  refine ⟨grants_pairwise hclock, ?_, ?_⟩
  · intro t ht hrefuses
    obtain ⟨_, hstep⟩ := step_eq_of_mem_trace Replay.step ht
    have hanswer : (Replay.step t.before t.event).1 = t.answer := congrArg Prod.fst hstep
    have hafter : (Replay.step t.before t.event).2 = t.after := congrArg Prod.snd hstep
    rw [← hafter]
    refine step_eq_self_of_ne_fresh ?_ ?_ <;> rw [hanswer] <;>
      rcases hrefuses with h | h | ⟨_, h⟩ <;> simp [h]
  · have hkeep : ∀ (c : InMemoryReplayCache) (e : Event),
        c.maxEntries = cache.maxEntries ∧ c.len ≤ cache.maxEntries →
        (Replay.step c e).2.maxEntries = cache.maxEntries ∧
          (Replay.step c e).2.len ≤ cache.maxEntries := by
      rintro c e ⟨hmax, hlen⟩
      rw [← hmax] at hlen ⊢
      exact ⟨step_maxEntries e, step_len_le hlen⟩
    have hall := (invariant hkeep ⟨rfl, Nat.zero_le _⟩ events).1
    exact fun t ht => ⟨(hall t ht).1.2, (hall t ht).2.2⟩

/-! ## What a replay is -/

/-- What is retained of one triple after a step: a grant retains it, a prune may end that. -/
def retainedAfter (skew : I64) (key : Slots) (held : Option I64) (t : CacheStep) : Option I64 :=
  match t.event, t.answer with
  | .offer granted _ expires _, .decided (.ok .fresh) =>
    if granted = key then some (skewFoldedRetainUntil expires skew) else held
  | .prune now, _ => held.filter fun retainUntil => decide (now ≤ retainUntil)
  | _, _ => held

/-- The cache is one such record for each triple. -/
def Recalls (skew : I64) (past : List CacheStep) (cache : InMemoryReplayCache) : Prop :=
  cache.maxClockSkewSecs = skew ∧
    ∀ key, cache.seen.lookup key = past.foldl (retainedAfter skew key) none

theorem Recalls.step {skew : I64} {past : List CacheStep} (h : Recalls skew past cache) (e : Event) :
    Recalls skew (past ++ [⟨cache, e, (Replay.step cache e).1, (Replay.step cache e).2⟩])
      (Replay.step cache e).2 := by
  refine ⟨(step_maxClockSkewSecs e).trans h.1, fun key => ?_⟩
  rw [List.foldl_append, ← h.2 key, List.foldl_cons, List.foldl_nil]
  cases e with
  | prune now => exact Table.lookup_retain ..
  | offer granted created expires now =>
    rcases step_offer cache granted created expires now with ⟨_, _, _, hstep⟩ | ⟨hne, hstep⟩
    · rw [hstep, h.1]
      by_cases hkey : granted = key
      · simp [retainedAfter, hkey]
      · simp [retainedAfter, hkey, AList.lookup_insert_ne (Ne.symm hkey)]
    · rw [hstep]
      unfold retainedAfter
      split <;> simp_all

/-- **What a replay is**: inside its window a message is answered `Replay` exactly when the grants of
its own triple and the prunes so far have left the triple retained. -/
theorem replay_iff_retained (skew : I64) (maxEntries : Nat) (events : List Event)
    {pre post : List CacheStep} {t : CacheStep} {key : Slots} {created expires now : I64}
    (hrun : trace Replay.step ((InMemoryReplayCache.new skew).withMaxEntries maxEntries) events
      = pre ++ t :: post) (hevent : t.event = .offer key created expires now)
    (hwindow : windowAdmits created expires now skew = true) :
    t.answer = .decided (.ok .replay) ↔ (pre.foldl (retainedAfter skew key) none).isSome := by
  have hempty : Recalls skew [] ((InMemoryReplayCache.new skew).withMaxEntries maxEntries) :=
    ⟨rfl, fun key => rfl⟩
  obtain ⟨hskew, hseen⟩ := history (fun _ _ e h => h.step e) hempty hrun
  rw [List.nil_append] at hseen
  have hmem : t ∈ pre ++ t :: post := List.mem_append_right _ List.mem_cons_self
  rw [← hrun] at hmem
  have hanswer : (Replay.step t.before t.event).1 = t.answer :=
    congrArg Prod.fst (step_eq_of_mem_trace Replay.step hmem).2
  rw [← hseen key, ← hanswer, hevent]
  unfold Replay.step InMemoryReplayCache.checkAndInsert
  by_cases hheld : (t.before.seen.lookup key).isSome = true
  · simp [hskew, hwindow, hheld]
  · by_cases hfull : t.before.maxEntries ≤ t.before.len <;> simp [hskew, hwindow, hheld, hfull]

end

/-- One message over the end of its window (expiry 100, skew 5), where the gate is strict and the
retention is not, and after it. -/
def sampleEvents : List Event :=
  let key : Slots := ⟨"signer".toList, "audience".toList, "nonce".toList⟩
  [.offer key 0 100 10, .prune 104, .offer key 0 100 104, .prune 105, .offer key 0 100 105,
    .prune 106, .offer key 0 100 106, .offer key 90 200 106]

theorem replay_at_most_once_window_end :
    let cache := (InMemoryReplayCache.new 5).withMaxEntries 2
    let run := trace Replay.step cache sampleEvents
    run.map Step.answer = [.decided (.ok .fresh), .pruned, .decided (.ok .replay), .pruned,
      .staleWindow, .pruned, .staleWindow, .decided (.ok .fresh)] ∧
    (run.Pairwise fun t t' => ∀ key expires, ¬(Grants key expires t ∧ Grants key expires t')) ∧
    (∀ t ∈ run, Refuses t → t.after = t.before) ∧
    (∀ t ∈ run, t.before.len ≤ cache.maxEntries ∧ t.after.len ≤ cache.maxEntries) :=
  ⟨rfl, replay_at_most_once 5 2 sampleEvents (by decide)⟩

/-- The prune at 104 leaves the message retained. -/
theorem replay_iff_retained_second :
    let run := trace Replay.step ((InMemoryReplayCache.new 5).withMaxEntries 2) sampleEvents
    ((run.take 2).foldl (retainedAfter 5 ⟨"signer".toList, "audience".toList, "nonce".toList⟩)
      none).isSome :=
  (replay_iff_retained 5 2 sampleEvents rfl rfl rfl).1 rfl

end McpRe.Replay

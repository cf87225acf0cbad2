import Mathlib.Tactic

/-!
# Runs of a state machine

A machine answers each event and moves on. `trace` keeps every step of a run, so that a property of
the run is a property of its steps; an invariant that every step keeps holds before and after each.
-/

namespace Lib.Run

section

variable {σ ε ω : Type*}

/-- One step of a run. -/
structure Step (σ ε ω : Type*) where
  before : σ
  event : ε
  answer : ω
  after : σ

variable (step : σ → ε → ω × σ)

/-- The steps of the run on some events. -/
def trace (s : σ) : List ε → List (Step σ ε ω)
  | [] => []
  | e :: es => ⟨s, e, (step s e).1, (step s e).2⟩ :: trace (step s e).2 es

def final (s : σ) : List ε → σ
  | [] => s
  | e :: es => final (step s e).2 es

/-- A run on some events, and on more from where it ends. -/
theorem trace_append (s : σ) (es₁ es₂ : List ε) :
    trace step s (es₁ ++ es₂) = trace step s es₁ ++ trace step (final step s es₁) es₂ := by
  induction es₁ generalizing s with
  | nil => rfl
  | cons e es₁ ih => rw [List.cons_append, trace, trace, final, ih, List.cons_append]

theorem final_append (s : σ) (es₁ es₂ : List ε) :
    final step s (es₁ ++ es₂) = final step (final step s es₁) es₂ := by
  induction es₁ generalizing s with
  | nil => rfl
  | cons e es₁ ih => exact ih (step s e).2

theorem step_eq_of_mem_trace {s : σ} {es : List ε} {t : Step σ ε ω} (h : t ∈ trace step s es) :
    t.event ∈ es ∧ step t.before t.event = (t.answer, t.after) := by
  induction es generalizing s with
  | nil => cases h
  | cons e es ih =>
    rcases List.mem_cons.1 h with rfl | h
    · exact ⟨List.mem_cons_self, rfl⟩
    · exact ⟨List.mem_cons_of_mem _ (ih h).1, (ih h).2⟩

theorem exists_of_trace_eq_append {s : σ} {es : List ε} {xs ys : List (Step σ ε ω)}
    (h : trace step s es = xs ++ ys) :
    ∃ es₁ es₂, es = es₁ ++ es₂ ∧ trace step s es₁ = xs ∧
      trace step (final step s es₁) es₂ = ys := by
  induction xs generalizing s es with
  | nil => exact ⟨[], es, rfl, rfl, h⟩
  | cons x xs ih =>
    cases es with
    | nil => cases h
    | cons e es =>
      obtain ⟨hx, hrest⟩ := List.cons.inj h
      obtain ⟨es₁, es₂, rfl, hxs, hys⟩ := ih hrest
      exact ⟨e :: es₁, es₂, rfl, by rw [trace, hx, hxs], hys⟩

theorem exists_around {s : σ} {es : List ε} {pre post : List (Step σ ε ω)} {t : Step σ ε ω}
    (h : trace step s es = pre ++ t :: post) :
    ∃ start later, final step s start = t.before ∧ trace step t.after later = post := by
  obtain ⟨start, es₂, _, _, htail⟩ := exists_of_trace_eq_append step h
  cases es₂ with
  | nil => cases htail
  | cons e es₂ =>
    obtain ⟨rfl, hrest⟩ := List.cons.inj htail
    exact ⟨start, es₂, rfl, hrest⟩

/-- Two steps of a run: it reaches the state before the one, and runs from the state after it to the
state before the other. -/
theorem exists_between {s : σ} {es : List ε} {pre mid post : List (Step σ ε ω)}
    {t t' : Step σ ε ω} (h : trace step s es = pre ++ t :: (mid ++ t' :: post)) :
    ∃ start between, final step s start = t.before ∧ trace step t.after between = mid ∧
      final step t.after between = t'.before := by
  obtain ⟨start, later, hstart, hlater⟩ := exists_around step h
  obtain ⟨between, es₃, _, hmid, hlast⟩ := exists_of_trace_eq_append step hlater
  cases es₃ with
  | nil => cases hlast
  | cons e' es₃ =>
    obtain ⟨rfl, _⟩ := List.cons.inj hlast
    exact ⟨start, between, hstart, hmid, rfl⟩

/-- The last step of a run. -/
theorem exists_last_step (s : σ) (es : List ε) (e : ε) :
    ∃ t ∈ trace step s (es ++ [e]), t.before = final step s es ∧ t.event = e := by
  induction es generalizing s with
  | nil => exact ⟨_, List.mem_cons_self, rfl, rfl⟩
  | cons e' es ih =>
    obtain ⟨t, ht, hbefore, hevent⟩ := ih (step s e').2
    exact ⟨t, List.mem_cons_of_mem _ ht, hbefore, hevent⟩

variable {step}

theorem le_of_mem_trace {m : σ → Nat} (hm : ∀ s e, m s < m (step s e).2) {s : σ} {es : List ε}
    {t : Step σ ε ω} (h : t ∈ trace step s es) : m s ≤ m t.before := by
  induction es generalizing s with
  | nil => cases h
  | cons e es ih =>
    rcases List.mem_cons.1 h with rfl | h
    · exact Nat.le_refl _
    · exact Nat.le_trans (Nat.le_of_lt (hm s e)) (ih h)

/-- Where a measure grows with every step, a step at which it is larger is one of the steps that
follow. -/
theorem exists_mem_trace_after {m : σ → Nat} (hm : ∀ s e, m s < m (step s e).2) {s : σ}
    {es : List ε} {t t' : Step σ ε ω} (ht : t ∈ trace step s es) (ht' : t' ∈ trace step s es)
    (hlt : m t.before < m t'.before) :
    ∃ es', t' ∈ trace step t.after es' ∧ trace step t.after es' ⊆ trace step s es := by
  induction es generalizing s with
  | nil => cases ht
  | cons e es ih =>
    rcases List.mem_cons.1 ht' with rfl | htail'
    · exact absurd (le_of_mem_trace hm ht) (Nat.not_le.2 hlt)
    · rcases List.mem_cons.1 ht with rfl | htail
      · exact ⟨es, htail', List.subset_cons_self ..⟩
      · obtain ⟨es', hmem, hsub⟩ := ih htail htail'
        exact ⟨es', hmem, List.Subset.trans hsub (List.subset_cons_self ..)⟩

/-- **Invariant rule**, for steps that meet a guard: what every guarded step keeps holds around
each step of the run, and at its end. -/
theorem invariant_of_guard {I : σ → Prop} {G : σ → ε → Prop}
    (hstep : ∀ s e, I s → G s e → I (step s e).2) {s : σ} (hs : I s) {es : List ε}
    (hguard : ∀ t ∈ trace step s es, G t.before t.event) :
    (∀ t ∈ trace step s es, I t.before ∧ I t.after) ∧ I (final step s es) := by
  induction es generalizing s with
  | nil => exact ⟨by simp [trace], hs⟩
  | cons e es ih =>
    have hnext : I (step s e).2 := hstep s e hs (hguard _ List.mem_cons_self)
    obtain ⟨hall, hfinal⟩ := ih hnext fun t ht => hguard t (List.mem_cons_of_mem _ ht)
    refine ⟨fun t ht => ?_, hfinal⟩
    rcases List.mem_cons.1 ht with rfl | ht
    · exact ⟨hs, hnext⟩
    · exact hall t ht

/-- **Retention rule**: what every step of one kind keeps is kept, or a step of another kind was
taken. -/
theorem retained_or {I : σ → Prop} {K : σ → ε → Prop}
    (hstep : ∀ s e, I s → K s e → I (step s e).2) {s : σ} (hs : I s) (es : List ε) :
    (∃ t ∈ trace step s es, ¬K t.before t.event) ∨ I (final step s es) := by
  by_cases hall : ∀ t ∈ trace step s es, K t.before t.event
  · exact .inr (invariant_of_guard hstep hs hall).2
  · push Not at hall
    exact .inl hall

/-- **Invariant rule**. -/
theorem invariant {I : σ → Prop} (hstep : ∀ s e, I s → I (step s e).2) {s : σ} (hs : I s)
    (es : List ε) : (∀ t ∈ trace step s es, I t.before ∧ I t.after) ∧ I (final step s es) :=
  invariant_of_guard (G := fun _ _ => True) (fun s e h _ => hstep s e h) hs fun _ _ => trivial

/-- **History rule**: what a step keeps of a state and the steps that led to it holds at the end of
the run. -/
theorem history_final {I : List (Step σ ε ω) → σ → Prop}
    (hstep : ∀ past s e, I past s → I (past ++ [⟨s, e, (step s e).1, (step s e).2⟩]) (step s e).2)
    {past : List (Step σ ε ω)} {s : σ} (hs : I past s) (es : List ε) :
    I (past ++ trace step s es) (final step s es) := by
  induction es generalizing past s with
  | nil => rwa [trace, List.append_nil]
  | cons e es ih =>
    have hnext := ih (hstep past s e hs)
    rwa [List.append_assoc] at hnext

/-- The history rule, before each step of the run. -/
theorem history {I : List (Step σ ε ω) → σ → Prop}
    (hstep : ∀ past s e, I past s → I (past ++ [⟨s, e, (step s e).1, (step s e).2⟩]) (step s e).2)
    {past : List (Step σ ε ω)} {s : σ} (hs : I past s) {es : List ε} {pre post : List (Step σ ε ω)}
    {t : Step σ ε ω} (h : trace step s es = pre ++ t :: post) : I (past ++ pre) t.before := by
  obtain ⟨es₁, es₂, _, rfl, htail⟩ := exists_of_trace_eq_append step h
  have hreached := history_final hstep hs es₁
  cases es₂ with
  | nil => cases htail
  | cons e es₂ =>
    obtain ⟨rfl, _⟩ := List.cons.inj htail
    exact hreached

/-- **Simulation rule**, for events of one kind: related states that answer them alike and stay
related give runs that answer alike. -/
theorem simulation_of_guard {τ : Type*} {step' : τ → ε → ω × τ} {R : σ → τ → Prop} {G : ε → Prop}
    (hstep : ∀ s s' e, R s s' → G e →
      (step s e).1 = (step' s' e).1 ∧ R (step s e).2 (step' s' e).2)
    {s : σ} {s' : τ} (h : R s s') {es : List ε} (hguard : ∀ e ∈ es, G e) :
    (trace step s es).map Step.answer = (trace step' s' es).map Step.answer ∧
      R (final step s es) (final step' s' es) := by
  induction es generalizing s s' with
  | nil => exact ⟨rfl, h⟩
  | cons e es ih =>
    obtain ⟨hanswer, hnext⟩ := hstep s s' e h (hguard e List.mem_cons_self)
    obtain ⟨hanswers, hfinal⟩ := ih hnext fun e' he' => hguard e' (List.mem_cons_of_mem _ he')
    refine ⟨?_, hfinal⟩
    rw [trace, trace, List.map_cons, List.map_cons, hanswers, hanswer]

/-- **Simulation rule**. -/
theorem simulation {τ : Type*} {step' : τ → ε → ω × τ} {R : σ → τ → Prop}
    (hstep : ∀ s s' e, R s s' → (step s e).1 = (step' s' e).1 ∧ R (step s e).2 (step' s' e).2)
    {s : σ} {s' : τ} (h : R s s') (es : List ε) :
    (trace step s es).map Step.answer = (trace step' s' es).map Step.answer ∧
      R (final step s es) (final step' s' es) :=
  simulation_of_guard (G := fun _ => True) (fun s s' e h _ => hstep s s' e h) h fun _ _ => trivial

end

end Lib.Run

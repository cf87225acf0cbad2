import McpRe.Inner.Verify.Pool

/-!
# Recovery probes

A backend that is out of service is meant to be tried by one request at a time, and not before its
cooldown is over. It is not always: the outcome of a dispatch that was chosen before the ejection
may be recorded while a probe is outstanding and open the breaker again, or close it
(`ProbeSample.probed_twice`); a call may claim with an old reading of the clock; and the guard of a
recorded probe clears the flag of the next one. Where no call does anything within the selection of
another, or between the recording of an outcome and the drop of its guard, and no outcome of an
ordinary dispatch is recorded while a probe of its backend is outstanding (`Apart`), every claim is
in time and the only one: `probed_once`.

What carries it is said of one call at a time (`StageOk`): a call changes only backends of which no
other call has a probe outstanding (`Move.untouched`).
-/

namespace McpRe.Inner

open Lib.Run

section

variable {n : Nat}

/-- The backend of which the call has a probe outstanding: claimed, and neither dropped nor
recorded. -/
def Stage.outstanding : Stage n → Option (Fin n)
  | .flagging i => some i
  | .chosen i isProbe | .prepared i isProbe | .inFlight i isProbe | .finished i isProbe _
  | .recording i isProbe _ => probeGuard i isProbe
  | .releasing false guard _ => guard
  | _ => none

/-- The call is within a selection, or between the recording of its outcome and the drop of its
guard. -/
def Stage.busy : Stage n → Bool
  | .timed _ | .healthy _ _ _ | .probing _ _ | .cooled _ _ _ | .claiming _ _ _ | .flagging _
  | .trying _ _ _ | .counting _ _ | .recording _ _ _ | .releasing true (some _) _ => true
  | _ => false

end

section

variable {cfg : PoolConfig} {τ : Type}

def Claims (s : HttpInnerPool cfg τ) (e : τ × Op) (i : Fin cfg.backends) (now : Nat) : Prop :=
  e.2 = .advance ∧ ∃ rest,
    (s.calls e.1 = .claiming now i rest ∧ (s.shared.backends i).state = .opened) ∨
    (s.calls e.1 = .trying now i rest ∧ (s.shared.backends i).probeInflight = false)

/-- No other call has a probe of the backend outstanding. -/
def Free (s : HttpInnerPool cfg τ) (t : τ) (i : Fin cfg.backends) : Prop :=
  ∀ t', t' ≠ t → (s.calls t').outstanding ≠ some i

/-- The step falls into no other call's selection or recording, and starts to record no outcome of
an ordinary dispatch while a probe of its backend is outstanding. -/
def Apart (s : HttpInnerPool cfg τ) (e : τ × Op) : Prop :=
  (∀ t, (s.calls t).busy = true → t = e.1) ∧
    ∀ i healthy, s.calls e.1 = .finished i false healthy → Free s e.1 i

end

/-! ## What holds of a call -/

section

variable {cfg : PoolConfig}

/-- The reading is not after the clock, and every half-open backend was due at it. -/
def Reading (p : Shared cfg.backends) (now : Nat) : Prop :=
  now ≤ p.clock ∧ ∀ i, (p.backends i).state = .halfOpen → (p.backends i).reopenAtNanos ≤ now

def Legal (ws : List Write) : Prop :=
  ws <:+ successWrites ∨ ∃ r, ws <:+ [.reopen r, .state .opened, .clear] ∨
    ws <:+ [.reopen r, .state .opened]

/-- The backend is in the hands of the call's probe. -/
def Probed (p : Shared cfg.backends) (free : Fin cfg.backends → Prop) (i : Fin cfg.backends) :
    Prop :=
  (p.backends i).state = .halfOpen ∧ (p.backends i).probeInflight = true ∧ free i

/-- What holds of a call at each of its stages, where `free` are the backends of which no other call
has a probe outstanding. -/
def StageOk (p : Shared cfg.backends) (free : Fin cfg.backends → Prop) :
    Stage cfg.backends → Prop
  | .timed now | .healthy now _ _ | .probing now _ | .cooled now _ _ => Reading p now
  | .claiming now i _ => Reading p now ∧ (p.backends i).reopenAtNanos ≤ now
  | .trying now i _ => Reading p now ∧ (p.backends i).state = .halfOpen
  | .flagging i => (p.backends i).state = .halfOpen ∧ free i
  | .chosen i isProbe | .prepared i isProbe | .inFlight i isProbe | .finished i isProbe _ =>
    isProbe = true → Probed p free i
  | .counting i _ => free i
  | .recording i _ ws => free i ∧ Legal ws
  | .releasing false guard _ => ∀ i, guard = some i → Probed p free i
  | .releasing true guard _ => ∀ i, guard = some i → free i
  | _ => True

/-- The call is about to store a new state of the backend. -/
def Overwrites (stage : Stage cfg.backends) (i : Fin cfg.backends) : Prop :=
  ∃ isProbe ws state, stage = .recording i isProbe ws ∧ .state state ∈ ws

/-- Half-open backends were due, but for one that the call is about to take out of that state. -/
def Due (p : Shared cfg.backends) (stage : Stage cfg.backends) : Prop :=
  ∀ i, (p.backends i).state = .halfOpen → (p.backends i).reopenAtNanos ≤ p.clock ∨
    Overwrites stage i

/-! ## What a move keeps -/

section

variable {p p' : Shared cfg.backends} {stage stage' : Stage cfg.backends} {op : Op}
  {free : Fin cfg.backends → Prop}

theorem stageOk_released {recorded : Bool} {guard : Option (Fin cfg.backends)} {permit : Bool}
    (h : StageOk p free (.releasing recorded guard true)) :
    StageOk p free (released recorded guard permit) := by
  rw [released]
  split_ifs
  · trivial
  · cases recorded <;> exact h

theorem eq_true_of_probeGuard {i j : Fin cfg.backends} {isProbe : Bool}
    (h : probeGuard i isProbe = some j) : isProbe = true ∧ i = j := by
  rw [probeGuard] at h
  split_ifs at h with hprobe
  exact ⟨hprobe, Option.some.inj h⟩

theorem Move.untouched (h : Move cfg p stage op stage' p') (hok : StageOk p free stage)
    (hfree : ∀ i, (p.backends i).state ≠ .halfOpen ∨ (p.backends i).probeInflight = false → free i)
    {j : Fin cfg.backends} (hj : ¬free j) : p'.backends j = p.backends j := by
  have hupdate : ∀ (i : Fin cfg.backends) (f : Backend → Backend), free i →
      (p.update i f).backends j = p.backends j := by
    intro i f hi
    refine Shared.update_of_ne p ?_ f
    rintro rfl
    exact hj hi
  cases h with
  | claimed now i rest hstate =>
    refine hupdate i _ (hfree i (.inl ?_))
    rw [hstate]
    exact fun hcase => by cases hcase
  | flagged i => exact hupdate i _ hok.2
  | tried now i rest hflag => exact hupdate i _ (hfree i (.inr hflag))
  | counted i done fails count => exact hupdate i _ hok
  | wrote i isProbe w ws => exact hupdate i _ hok.1
  | guardDropped recorded i permit =>
    cases recorded with
    | false => exact hupdate i _ (hok i rfl).2.2
    | true => exact hupdate i _ (hok i rfl)
  | _ => rfl

theorem Move.outstanding (h : Move cfg p stage op stage' p') (hok : StageOk p free stage)
    (hfree : ∀ i, (p.backends i).state ≠ .halfOpen ∨ (p.backends i).probeInflight = false → free i)
    {j : Fin cfg.backends} (hj : stage'.outstanding = some j) :
    stage.outstanding = some j ∨ free j := by
  have hreleased : ∀ {recorded guard permit},
      (released recorded guard permit : Stage cfg.backends).outstanding = some j →
      recorded = false ∧ guard = some j := by
    intro recorded guard permit hout
    rw [released] at hout
    split_ifs at hout
    · cases hout
    · cases recorded with
      | false => exact ⟨rfl, hout⟩
      | true => cases hout
  cases h with
  | passed stage now rest hstage => cases hj
  | claimed now i rest hstate =>
    obtain rfl := Option.some.inj hj
    refine .inr (hfree i (.inl ?_))
    rw [hstate]
    exact fun hcase => by cases hcase
  | tried now i rest hflag =>
    obtain ⟨-, rfl⟩ := eq_true_of_probeGuard hj
    exact .inr (hfree i (.inr hflag))
  | dropped stage op i isProbe hstage =>
    rcases hstage with rfl | rfl | rfl <;> exact .inl hj
  | outcome i isProbe healthy now hclock =>
    rw [recordOutcome] at hj
    split_ifs at hj
    · exact .inl hj
    · exact .inl hj
    · cases hj
  | guardDropped recorded i permit =>
    obtain ⟨-, hnone⟩ := hreleased hj
    cases hnone
  | permitDropped recorded guard =>
    obtain ⟨rfl, hguard⟩ := hreleased hj
    exact .inl hguard
  | refused | permit | read | start | healthy | unhealthy | secondPass | seenOpen | seenHalfOpen
  | ejected | elapsed | counted | recorded => cases hj
  | flagged | built | transmitted | finished | wrote => exact .inl hj

/-! ### The stores of a recording -/

theorem Legal.tail {w : Write} {ws : List Write} (h : Legal (w :: ws)) : Legal ws := by
  have htail : ∀ xs, w :: ws <:+ xs → ws <:+ xs := fun xs hs => (List.suffix_cons w ws).trans hs
  rcases h with h | ⟨r, h | h⟩
  · exact .inl (htail _ h)
  · exact .inr ⟨r, .inl (htail _ h)⟩
  · exact .inr ⟨r, .inr (htail _ h)⟩

/-- A recording stores no half-open state, and a new state after a new reopen instant. -/
theorem Legal.head {w : Write} {ws : List Write} (h : Legal (w :: ws)) :
    w ≠ .state .halfOpen ∧ ((∃ r, w = .reopen r) → ∃ state, .state state ∈ ws) := by
  rcases h with h | ⟨r, h | h⟩
  all_goals
    simp only [successWrites, List.suffix_cons_iff, List.cons.injEq, List.suffix_nil,
      List.cons_ne_nil, or_false] at h
  · rcases h with ⟨rfl, rfl⟩ | ⟨rfl, rfl⟩ | ⟨rfl, rfl⟩
    all_goals
      refine ⟨fun hw => (by cases hw), ?_⟩
      rintro ⟨r, hr⟩
      cases hr
  · rcases h with ⟨rfl, rfl⟩ | ⟨rfl, rfl⟩ | ⟨rfl, rfl⟩
    · exact ⟨fun hw => (by cases hw), fun _ => ⟨_, List.mem_cons_self⟩⟩
    all_goals
      refine ⟨fun hw => (by cases hw), ?_⟩
      rintro ⟨r, hr⟩
      cases hr
  · rcases h with ⟨rfl, rfl⟩ | ⟨rfl, rfl⟩
    · exact ⟨fun hw => (by cases hw), fun _ => ⟨_, List.mem_cons_self⟩⟩
    · refine ⟨fun hw => (by cases hw), ?_⟩
      rintro ⟨r, hr⟩
      cases hr

theorem legal_failureWrites (fails done : Nat) : Legal (failureWrites cfg fails done) := by
  rw [failureWrites]
  split_ifs
  · exact .inr ⟨_, .inr List.suffix_rfl⟩
  · exact .inl (List.nil_suffix)

/-! ### The stages -/

theorem Move.stageOk (h : Move cfg p stage op stage' p') (hok : StageOk p free stage)
    (hfree : ∀ i, (p.backends i).state ≠ .halfOpen ∨ (p.backends i).probeInflight = false → free i)
    (hdue : Due p stage)
    (hordinary : ∀ i healthy, stage = .finished i false healthy → free i) :
    StageOk p' free stage' := by
  cases h with
  | refused | permit | healthy => first | trivial | exact fun hcase => by cases hcase
  | read now hclock =>
    refine ⟨Nat.le_refl _, fun i hi => ?_⟩
    rcases hdue i hi with hle | ⟨isProbe, ws, state, hstage, -⟩
    · exact Nat.le_trans hle hclock
    · cases hstage
  | start | unhealthy | secondPass | seenOpen => exact hok
  | seenHalfOpen now i rest hstate => exact ⟨hok, hstate⟩
  | passed stage now rest hstage =>
    obtain ⟨i, rfl | rfl | rfl | rfl⟩ := hstage
    · exact hok
    · exact hok
    · exact hok.1
    · exact hok.1
  | ejected now => exact fun i hguard => by cases hguard
  | elapsed now i rest hreopen => exact ⟨hok, hreopen⟩
  | claimed now i rest hstate =>
    refine ⟨by rw [Shared.update_self]; rfl, hfree i (.inl ?_)⟩
    rw [hstate]
    exact fun hcase => by cases hcase
  | flagged i =>
    refine fun _ => ⟨?_, by rw [Shared.update_self]; rfl, hok.2⟩
    rw [Shared.update_self]
    exact hok.1
  | tried now i rest hflag =>
    refine fun _ => ⟨?_, by rw [Shared.update_self]; rfl, hfree i (.inr hflag)⟩
    rw [Shared.update_self]
    exact hok.2
  | built | transmitted | finished => exact hok
  | dropped stage op i isProbe hstage =>
    intro j hguard
    obtain ⟨hprobe, rfl⟩ := eq_true_of_probeGuard hguard
    rcases hstage with rfl | rfl | rfl <;> exact hok hprobe
  | outcome i isProbe healthy now hclock =>
    have hfree_i : free i := by
      cases isProbe with
      | false => exact hordinary i healthy rfl
      | true => exact (hok rfl).2.2
    rw [recordOutcome]
    split_ifs
    · exact ⟨hfree_i, .inl List.suffix_rfl⟩
    · exact ⟨hfree_i, .inr ⟨_, .inl List.suffix_rfl⟩⟩
    · exact hfree_i
  | counted i done fails count => exact ⟨hok, legal_failureWrites fails done⟩
  | wrote i isProbe w ws => exact ⟨hok.1, hok.2.tail⟩
  | recorded i isProbe =>
    intro j hguard
    obtain ⟨-, rfl⟩ := eq_true_of_probeGuard hguard
    exact hok.1
  | guardDropped recorded i permit =>
    refine stageOk_released ?_
    cases recorded <;> exact fun j hguard => by cases hguard
  | permitDropped recorded guard =>
    refine stageOk_released ?_
    cases recorded <;> exact hok

theorem Due.of_not_overwrites {stage' : Stage cfg.backends} (hdue : Due p stage)
    (hnot : ∀ i, ¬Overwrites stage i) (hclock : p.clock ≤ p'.clock)
    (hkept : ∀ i, (p'.backends i).state = (p.backends i).state ∧
      (p'.backends i).reopenAtNanos = (p.backends i).reopenAtNanos) : Due p' stage' := by
  intro i hi
  obtain ⟨hstate, hreopen⟩ := hkept i
  rw [hstate] at hi
  rw [hreopen]
  rcases hdue i hi with hle | hover
  · exact .inl (Nat.le_trans hle hclock)
  · exact absurd hover (hnot i)

theorem Shared.kept_update {n : Nat} (p : Shared n) (i : Fin n) {f : Backend → Backend}
    (hf : ∀ b, (f b).state = b.state ∧ (f b).reopenAtNanos = b.reopenAtNanos) (j : Fin n) :
    ((p.update i f).backends j).state = (p.backends j).state ∧
      ((p.update i f).backends j).reopenAtNanos = (p.backends j).reopenAtNanos := by
  by_cases hj : j = i
  · rw [hj, Shared.update_self]
    exact hf _
  · rw [Shared.update_of_ne p hj]
    exact ⟨rfl, rfl⟩

theorem Move.due_wrote {i : Fin cfg.backends} {isProbe : Bool} {w : Write} {ws : List Write}
    (hlegal : Legal (w :: ws)) (hdue : Due p (.recording i isProbe (w :: ws))) :
    Due (p.update i w.apply) (.recording i isProbe ws) := by
  intro j hj
  by_cases hji : j = i
  · rw [hji, Shared.update_self] at hj ⊢
    cases w with
    | reopen r =>
      obtain ⟨state, hstate⟩ := hlegal.head.2 ⟨r, rfl⟩
      exact .inr ⟨isProbe, ws, state, rfl, hstate⟩
    | state state =>
      obtain rfl : state = .halfOpen := hj
      exact absurd rfl hlegal.head.1
    | failures count =>
      rcases hdue i hj with hle | ⟨_, _, state, hstage, hmem⟩
      · exact .inl hle
      · cases hstage
        exact .inr ⟨isProbe, ws, state, rfl, (List.mem_cons.1 hmem).resolve_left (by simp)⟩
    | clear =>
      rcases hdue i hj with hle | ⟨_, _, state, hstage, hmem⟩
      · exact .inl hle
      · cases hstage
        exact .inr ⟨isProbe, ws, state, rfl, (List.mem_cons.1 hmem).resolve_left (by simp)⟩
  · rw [Shared.update_of_ne p hji] at hj ⊢
    rcases hdue j hj with hle | ⟨_, _, state, hstage, hmem⟩
    · exact .inl hle
    · cases hstage
      exact absurd rfl hji

theorem Move.due (h : Move cfg p stage op stage' p') (hok : StageOk p free stage)
    (hdue : Due p stage) : Due p' stage' := by
  cases h with
  | read now hclock =>
    refine hdue.of_not_overwrites ?_ hclock fun i => ⟨rfl, rfl⟩
    rintro i ⟨_, _, _, hstage, _⟩
    cases hstage
  | outcome i isProbe healthy now hclock =>
    refine hdue.of_not_overwrites ?_ hclock fun i => ⟨rfl, rfl⟩
    rintro i ⟨_, _, _, hstage, _⟩
    cases hstage
  | passed stage now rest hstage =>
    refine hdue.of_not_overwrites ?_ (Nat.le_refl _) fun i => ⟨rfl, rfl⟩
    rintro j ⟨_, _, _, hover, _⟩
    obtain ⟨i, rfl | rfl | rfl | rfl⟩ := hstage <;> cases hover
  | dropped stage op i isProbe hstage =>
    refine hdue.of_not_overwrites ?_ (Nat.le_refl _) fun i => ⟨rfl, rfl⟩
    rintro j ⟨_, _, _, hover, _⟩
    rcases hstage with rfl | rfl | rfl <;> cases hover
  | claimed now i rest hstate =>
    -- the backend that becomes half-open was due at the reading
    intro j hj
    by_cases hji : j = i
    · rw [hji, Shared.update_self]
      exact .inl (Nat.le_trans hok.2 hok.1.1)
    · rw [Shared.update_of_ne p hji] at hj ⊢
      rcases hdue j hj with hle | ⟨_, _, _, hstage, _⟩
      · exact .inl hle
      · cases hstage
  | flagged i =>
    refine hdue.of_not_overwrites ?_ (Nat.le_refl _) (p.kept_update i fun b => ⟨rfl, rfl⟩)
    rintro j ⟨_, _, _, hstage, _⟩
    cases hstage
  | tried now i rest hflag =>
    refine hdue.of_not_overwrites ?_ (Nat.le_refl _) (p.kept_update i fun b => ⟨rfl, rfl⟩)
    rintro j ⟨_, _, _, hstage, _⟩
    cases hstage
  | counted i done fails count =>
    refine hdue.of_not_overwrites ?_ (Nat.le_refl _) (p.kept_update i fun b => ⟨rfl, rfl⟩)
    rintro j ⟨_, _, _, hstage, _⟩
    cases hstage
  | wrote i isProbe w ws => exact Move.due_wrote hok.2 hdue
  | recorded i isProbe =>
    refine hdue.of_not_overwrites ?_ (Nat.le_refl _) fun i => ⟨rfl, rfl⟩
    rintro j ⟨_, _, _, hstage, hmem⟩
    cases hstage
    cases hmem
  | guardDropped recorded i permit =>
    refine hdue.of_not_overwrites ?_ (Nat.le_refl _) (p.kept_update i fun b => ⟨rfl, rfl⟩)
    rintro j ⟨_, _, _, hstage, _⟩
    cases hstage
  | _ =>
    refine hdue.of_not_overwrites ?_ (Nat.le_refl _) fun i => ⟨rfl, rfl⟩
    rintro j ⟨_, _, _, hstage, _⟩
    cases hstage

end

end

/-! ## The pool -/

section

variable {cfg : PoolConfig} {τ : Type}

/-- Every call is where its stage says, and half-open backends were due. -/
structure Sound (s : HttpInnerPool cfg τ) : Prop where
  stages : ∀ t, StageOk s.shared (Free s t) (s.calls t)
  due : ∀ i, (s.shared.backends i).state = .halfOpen →
    (s.shared.backends i).reopenAtNanos ≤ s.shared.clock ∨ ∃ t, Overwrites (s.calls t) i

theorem Sound.new : Sound (HttpInnerPool.new : HttpInnerPool cfg τ) :=
  ⟨fun _ => trivial, fun _ h => by cases h⟩

theorem busy_of_overwrites {stage : Stage cfg.backends} {i : Fin cfg.backends}
    (h : Overwrites stage i) : stage.busy = true := by
  obtain ⟨_, _, _, rfl, _⟩ := h
  rfl

theorem probed_of_outstanding {p : Shared cfg.backends} {free : Fin cfg.backends → Prop}
    {stage : Stage cfg.backends} {i : Fin cfg.backends} (hok : StageOk p free stage)
    (hidle : stage.busy = false) (hout : stage.outstanding = some i) : Probed p free i := by
  cases stage with
  | chosen j isProbe | prepared j isProbe | inFlight j isProbe | finished j isProbe healthy =>
    obtain ⟨hprobe, rfl⟩ := eq_true_of_probeGuard hout
    exact hok hprobe
  | releasing recorded guard permit =>
    cases recorded with
    | false => exact hok i hout
    | true => cases hout
  | flagging | recording => cases hidle
  | _ => cases hout

theorem StageOk.of_idle {p p' : Shared cfg.backends} {free free' : Fin cfg.backends → Prop}
    {stage : Stage cfg.backends} (hok : StageOk p free stage) (hidle : stage.busy = false)
    (hkept : ∀ i, stage.outstanding = some i → free i →
      p'.backends i = p.backends i ∧ free' i) : StageOk p' free' stage := by
  have hprobed : ∀ i, stage.outstanding = some i → Probed p' free' i := by
    intro i hout
    obtain ⟨hstate, hflag, hfree⟩ := probed_of_outstanding hok hidle hout
    obtain ⟨hsame, hfree'⟩ := hkept i hout hfree
    rw [Probed, hsame]
    exact ⟨hstate, hflag, hfree'⟩
  cases stage with
  | chosen i isProbe | prepared i isProbe | inFlight i isProbe | finished i isProbe healthy =>
    intro hprobe
    exact hprobed i (if_pos hprobe)
  | releasing recorded guard permit =>
    cases recorded with
    | false => exact hprobed
    | true =>
      cases guard with
      | none => exact fun i hguard => by cases hguard
      | some i => cases hidle
  | idle | permitted => trivial
  | _ => cases hidle

section

variable {s : HttpInnerPool cfg τ} {e : τ × Op}

theorem Sound.free (h : Sound s) (hapart : Apart s e) {i : Fin cfg.backends}
    (hi : (s.shared.backends i).state ≠ .halfOpen ∨
      (s.shared.backends i).probeInflight = false) : Free s e.1 i := by
  intro t ht hout
  have hidle : (s.calls t).busy = false := by
    rw [Bool.eq_false_iff]
    exact fun hbusy => ht (hapart.1 t hbusy)
  obtain ⟨hstate, hflag, -⟩ := probed_of_outstanding (h.stages t) hidle hout
  rcases hi with hi | hi
  · exact hi hstate
  · rw [hflag] at hi
    cases hi

theorem Sound.due_call (h : Sound s) (hapart : Apart s e) : Due s.shared (s.calls e.1) := by
  intro i hi
  rcases h.due i hi with hle | ⟨t, hover⟩
  · exact .inl hle
  · rw [hapart.1 t (busy_of_overwrites hover)] at hover
    exact .inr hover

variable [DecidableEq τ]

theorem Sound.step (s : HttpInnerPool cfg τ) (e : τ × Op) (h : Sound s) (hapart : Apart s e) :
    Sound (s.step e).2 := by
  rcases step_cases s e with hsame | ⟨stage', shared', hmove, hstep⟩
  · rwa [hsame]
  have hshared : (s.step e).2.shared = shared' := by rw [hstep]
  have hself : (s.step e).2.calls e.1 = stage' := by
    rw [hstep]
    exact Function.update_self ..
  have hother : ∀ t, t ≠ e.1 → (s.step e).2.calls t = s.calls t := by
    intro t ht
    rw [hstep]
    exact Function.update_of_ne ht ..
  generalize (s.step e).2 = s' at hshared hself hother ⊢
  have hfree := fun i => h.free hapart (i := i)
  have hok := h.stages e.1
  have hdue := h.due_call hapart
  refine ⟨fun t => ?_, fun i hi => ?_⟩
  · by_cases ht : t = e.1
    · have hsame : Free s' e.1 = Free s e.1 := by
        funext i
        refine propext (forall_congr' fun t' => imp_congr_right fun ht' => ?_)
        rw [hother t' ht']
      rw [ht, hsame, hself, hshared]
      exact hmove.stageOk hok hfree hdue hapart.2
    · have hidle : (s.calls t).busy = false := by
        rw [Bool.eq_false_iff]
        exact fun hbusy => ht (hapart.1 t hbusy)
      rw [hother t ht, hshared]
      refine (h.stages t).of_idle hidle fun i hout hfree_t => ?_
      have hnot : ¬Free s e.1 i := fun hfree_e => hfree_e t ht hout
      refine ⟨hmove.untouched hok hfree hnot, fun t' ht' hout' => ?_⟩
      by_cases hcall : t' = e.1
      · rw [hcall, hself] at hout'
        rcases hmove.outstanding hok hfree hout' with hold | hfree_e
        · exact hfree_t e.1 (hcall ▸ ht') hold
        · exact hnot hfree_e
      · rw [hother t' hcall] at hout'
        exact hfree_t t' ht' hout'
  · rw [hshared] at hi ⊢
    rcases hmove.due hok hdue i hi with hle | hover
    · exact .inl hle
    · exact .inr ⟨e.1, by rw [hself]; exact hover⟩

omit [DecidableEq τ] in
theorem Sound.claim (h : Sound s) (hapart : Apart s e) {i : Fin cfg.backends} {now : Nat}
    (hclaim : Claims s e i now) :
    (s.shared.backends i).reopenAtNanos ≤ now ∧ Free s e.1 i := by
  have hok := h.stages e.1
  obtain ⟨-, rest, ⟨hcall, hstate⟩ | ⟨hcall, hflag⟩⟩ := hclaim
  · rw [hcall] at hok
    refine ⟨hok.2, h.free hapart (.inl ?_)⟩
    rw [hstate]
    exact fun hcase => by cases hcase
  · rw [hcall] at hok
    exact ⟨hok.1.2 i hok.2, h.free hapart (.inr hflag)⟩

end

variable [DecidableEq τ]

/-- **A backend out of service is tried once in a cooldown**: in every run whose steps are apart, a
call that claims a backend as a recovery probe has read the clock at or after the backend's reopen
instant, and no other call has a probe of it outstanding. -/
theorem probed_once (events : List (τ × Op))
    (hapart : ∀ r ∈ trace HttpInnerPool.step (.new : HttpInnerPool cfg τ) events,
      Apart r.before r.event) :
    ∀ r ∈ trace HttpInnerPool.step (.new : HttpInnerPool cfg τ) events, ∀ i now,
      Claims r.before r.event i now →
      (r.before.shared.backends i).reopenAtNanos ≤ now ∧
        ∀ t, t ≠ r.event.1 → (r.before.calls t).outstanding ≠ some i := by
  intro r hr i now hclaim
  have hsound := ((invariant_of_guard Sound.step Sound.new hapart).1 r hr).1
  exact hsound.claim (hapart r hr) hclaim

end

/-! ## Runs -/

namespace ProbeSample

def cfg : PoolConfig := ⟨1, 1, 10, 8, by decide, by decide, by decide⟩

def dispatch (t : Fin 4) (now operations : Nat) : List (Fin 4 × Op) :=
  [(t, Op.prepare), (t, .read now)] ++ List.replicate operations (t, Op.advance)
    ++ [(t, Op.build true), (t, .transmit)]

def fail (t : Fin 4) (now operations : Nat) : List (Fin 4 × Op) :=
  [(t, Op.finish false), (t, .read now)] ++ List.replicate operations (t, Op.advance)
    ++ [(t, Op.dropGuard), (t, .dropPermit)]

/-- Two dispatches to a healthy backend; one fails, and a third claims the backend as a probe. The
second fails late, the breaker opens again, and a fourth is about to claim. -/
def late : List (Fin 4 × Op) :=
  dispatch 0 0 2 ++ dispatch 1 0 2 ++ fail 0 0 4 ++ dispatch 2 20 7 ++ fail 1 20 4
    ++ [(3, Op.prepare), (3, .read 40)] ++ List.replicate 5 (3, Op.advance)

def backend : Fin cfg.backends := ⟨0, by decide⟩

theorem probed_twice :
    Claims (reached cfg late) (3, .advance) backend 40 ∧
      (reached cfg late).calls 2 = .inFlight backend true ∧
    ¬∀ r ∈ trace HttpInnerPool.step (.new : HttpInnerPool cfg (Fin 4)) (late ++ [(3, .advance)]),
      ∀ i now, Claims r.before r.event i now →
        (r.before.shared.backends i).reopenAtNanos ≤ now ∧
          ∀ t, t ≠ r.event.1 → (r.before.calls t).outstanding ≠ some i := by
  have hclaim : Claims (reached cfg late) (3, .advance) backend 40 := by
    refine ⟨rfl, [], .inl ⟨?_, ?_⟩⟩ <;> decide +kernel
  have hprobe : (reached cfg late).calls 2 = .inFlight backend true := by decide +kernel
  refine ⟨hclaim, hprobe, fun h => ?_⟩
  obtain ⟨r, hr, hbefore, hevent⟩ :=
    exists_last_step HttpInnerPool.step (.new : HttpInnerPool cfg (Fin 4)) late (3, .advance)
  have hbefore' : r.before = reached cfg late := hbefore
  have honly := (h r hr backend 40 (by rw [hbefore', hevent]; exact hclaim)).2 2
    (by rw [hevent]; decide)
  rw [hbefore', hprobe] at honly
  exact honly rfl

def once : List (Fin 4 × Op) :=
  dispatch 0 0 2 ++ fail 0 0 4 ++ [(1, Op.prepare), (1, .read 20)]
    ++ List.replicate 5 (1, Op.advance)

instance (s : HttpInnerPool cfg (Fin 4)) (e : Fin 4 × Op) : Decidable (Apart s e) :=
  inferInstanceAs (Decidable ((∀ t, (s.calls t).busy = true → t = e.1) ∧
    ∀ i healthy, s.calls e.1 = .finished i false healthy →
      ∀ t, t ≠ e.1 → (s.calls t).outstanding ≠ some i))

theorem once_in_time :
    ∃ r ∈ trace HttpInnerPool.step (.new : HttpInnerPool cfg (Fin 4)) (once ++ [(1, .advance)]),
      Claims r.before r.event backend 20 ∧
      (r.before.shared.backends backend).reopenAtNanos ≤ 20 ∧
        ∀ t, t ≠ r.event.1 → (r.before.calls t).outstanding ≠ some backend := by
  have hapart : ∀ r ∈ trace HttpInnerPool.step (.new : HttpInnerPool cfg (Fin 4))
      (once ++ [(1, .advance)]), Apart r.before r.event := by decide +kernel
  obtain ⟨r, hr, hbefore, hevent⟩ :=
    exists_last_step HttpInnerPool.step (.new : HttpInnerPool cfg (Fin 4)) once (1, .advance)
  have hclaim : Claims r.before r.event backend 20 := by
    rw [hbefore, hevent]
    refine ⟨rfl, [], .inl ⟨?_, ?_⟩⟩ <;> decide +kernel
  exact ⟨r, hr, hclaim, probed_once _ hapart r hr backend 20 hclaim⟩

end ProbeSample

end McpRe.Inner

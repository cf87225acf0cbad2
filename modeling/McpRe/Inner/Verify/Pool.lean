import McpRe.Inner.Pool
import McpRe.Lib.Tally

/-!
# Nothing of the pool is lost

What an operation can do is said once (`Move`, `move_of_perform`). The permits that are not taken and
the calls that hold one make up the bound (`Permits`), and a probe flag is set only while some call
holds a guard of its backend (`Guarded`), whatever the calls do and however they interleave. So when
no call is under way every permit is there and no flag is set, and a selection finds a backend as
soon as every cooldown is over: `nothing_wedged`.
-/

namespace McpRe.Inner

open Lib.Run Lib.Tally

/-! ## What an operation can do -/

section

variable {cfg : PoolConfig}

/-- The moves of a call, with what each finds and changes. -/
inductive Move (cfg : PoolConfig) (p : Shared cfg.backends) :
    Stage cfg.backends → Op → Stage cfg.backends → Shared cfg.backends → Prop where
  | refused : Move cfg p .idle .prepare .idle p
  | permit (havailable : 0 < p.available) :
      Move cfg p .idle .prepare .permitted { p with available := p.available - 1 }
  | read (now : Nat) (hclock : p.clock ≤ now) :
      Move cfg p .permitted (.read now) (.timed now) { p with clock := now }
  | start (now next : Nat) :
      Move cfg p (.timed now) .advance
        (.healthy now (p.next % cfg.backends) (scanFrom (p.next % cfg.backends)))
        { p with next := next }
  | healthy (now start : Nat) (i : Fin cfg.backends) (rest : List (Fin cfg.backends))
      (hstate : (p.backends i).state = .closed) :
      Move cfg p (.healthy now start (i :: rest)) .advance (.chosen i false) p
  | unhealthy (now start : Nat) (i : Fin cfg.backends) (rest : List (Fin cfg.backends))
      (hstate : (p.backends i).state ≠ .closed) :
      Move cfg p (.healthy now start (i :: rest)) .advance (.healthy now start rest) p
  | secondPass (now start : Nat) :
      Move cfg p (.healthy now start []) .advance (.probing now (scanFrom start)) p
  | seenOpen (now : Nat) (i : Fin cfg.backends) (rest : List (Fin cfg.backends))
      (hstate : (p.backends i).state = .opened) :
      Move cfg p (.probing now (i :: rest)) .advance (.cooled now i rest) p
  | seenHalfOpen (now : Nat) (i : Fin cfg.backends) (rest : List (Fin cfg.backends))
      (hstate : (p.backends i).state = .halfOpen) :
      Move cfg p (.probing now (i :: rest)) .advance (.trying now i rest) p
  /-- The backend is passed over: it is closed, cooling down, or another call was quicker. -/
  | passed (stage : Stage cfg.backends) (now : Nat) (rest : List (Fin cfg.backends))
      (hstage : ∃ i, stage = .probing now (i :: rest) ∨ stage = .cooled now i rest ∨
        stage = .claiming now i rest ∨ stage = .trying now i rest) :
      Move cfg p stage .advance (.probing now rest) p
  | ejected (now : Nat) :
      Move cfg p (.probing now []) .advance (.releasing false none true) p
  | elapsed (now : Nat) (i : Fin cfg.backends) (rest : List (Fin cfg.backends))
      (hreopen : (p.backends i).reopenAtNanos ≤ now) :
      Move cfg p (.cooled now i rest) .advance (.claiming now i rest) p
  | claimed (now : Nat) (i : Fin cfg.backends) (rest : List (Fin cfg.backends))
      (hstate : (p.backends i).state = .opened) :
      Move cfg p (.claiming now i rest) .advance (.flagging i)
        (p.update i (Write.state .halfOpen).apply)
  | flagged (i : Fin cfg.backends) :
      Move cfg p (.flagging i) .advance (.chosen i true) (p.update i Backend.claim)
  | tried (now : Nat) (i : Fin cfg.backends) (rest : List (Fin cfg.backends))
      (hflag : (p.backends i).probeInflight = false) :
      Move cfg p (.trying now i rest) .advance (.chosen i true)
        (p.update i Backend.claim)
  | built (i : Fin cfg.backends) (isProbe : Bool) :
      Move cfg p (.chosen i isProbe) (.build true) (.prepared i isProbe) p
  | transmitted (i : Fin cfg.backends) (isProbe : Bool) :
      Move cfg p (.prepared i isProbe) .transmit (.inFlight i isProbe) p
  /-- The dispatch is given up before it has an outcome. -/
  | dropped (stage : Stage cfg.backends) (op : Op) (i : Fin cfg.backends) (isProbe : Bool)
      (hstage : stage = .chosen i isProbe ∨ stage = .prepared i isProbe ∨
        stage = .inFlight i isProbe) :
      Move cfg p stage op (.releasing false (probeGuard i isProbe) true) p
  | finished (i : Fin cfg.backends) (isProbe healthy : Bool) :
      Move cfg p (.inFlight i isProbe) (.finish healthy) (.finished i isProbe healthy) p
  | outcome (i : Fin cfg.backends) (isProbe healthy : Bool) (now : Nat) (hclock : p.clock ≤ now) :
      Move cfg p (.finished i isProbe healthy) (.read now) (recordOutcome cfg i isProbe healthy now)
        { p with clock := now }
  | counted (i : Fin cfg.backends) (done fails count : Nat) :
      Move cfg p (.counting i done) .advance (.recording i false (failureWrites cfg fails done))
        (p.update i (Write.failures count).apply)
  | wrote (i : Fin cfg.backends) (isProbe : Bool) (w : Write) (ws : List Write) :
      Move cfg p (.recording i isProbe (w :: ws)) .advance (.recording i isProbe ws)
        (p.update i w.apply)
  | recorded (i : Fin cfg.backends) (isProbe : Bool) :
      Move cfg p (.recording i isProbe []) .advance (.releasing true (probeGuard i isProbe) true) p
  | guardDropped (recorded : Bool) (i : Fin cfg.backends) (permit : Bool) :
      Move cfg p (.releasing recorded (some i) permit) .dropGuard (released recorded none permit)
        (p.update i Write.clear.apply)
  | permitDropped (recorded : Bool) (guard : Option (Fin cfg.backends)) :
      Move cfg p (.releasing recorded guard true) .dropPermit (released recorded guard false)
        { p with available := p.available + 1 }

theorem move_of_perform {p p' : Shared cfg.backends} {stage stage' : Stage cfg.backends} {op : Op}
    {refusal : Option String} (h : perform cfg p stage op = some (refusal, stage', p')) :
    Move cfg p stage op stage' p' := by
  unfold perform at h
  split at h
  · split_ifs at h with havailable
    · cases h
      exact .refused
    · cases h
      exact .permit (Nat.pos_of_ne_zero havailable)
  · split_ifs at h with hclock
    cases h
    exact .read _ hclock
  · cases h
    exact .start _ _
  · split_ifs at h with hstate
    · cases h
      exact .healthy _ _ _ _ hstate
    · cases h
      exact .unhealthy _ _ _ _ hstate
  · cases h
    exact .secondPass _ _
  · split at h
    next hstate =>
      cases h
      exact .seenOpen _ _ _ hstate
    next hstate =>
      cases h
      exact .seenHalfOpen _ _ _ hstate
    next =>
      cases h
      exact .passed _ _ _ ⟨_, .inl rfl⟩
  · cases h
    exact .ejected _
  · split_ifs at h with hreopen
    · cases h
      exact .elapsed _ _ _ hreopen
    · cases h
      exact .passed _ _ _ ⟨_, .inr (.inl rfl)⟩
  · split_ifs at h with hstate
    · cases h
      exact .claimed _ _ _ hstate
    · cases h
      exact .passed _ _ _ ⟨_, .inr (.inr (.inl rfl))⟩
  · cases h
    exact .flagged _
  · split_ifs at h with hflag
    · cases h
      exact .tried _ _ _ hflag
    · cases h
      exact .passed _ _ _ ⟨_, .inr (.inr (.inr rfl))⟩
  · split_ifs at h with hok
    · cases h
      rw [hok]
      exact .built _ _
    · cases h
      exact .dropped _ _ _ _ (.inl rfl)
  · cases h
    exact .transmitted _ _
  · cases h
    exact .dropped _ _ _ _ (.inr (.inl rfl))
  · cases h
    exact .dropped _ _ _ _ (.inr (.inr rfl))
  · cases h
    exact .finished _ _ _
  · split_ifs at h with hclock
    cases h
    exact .outcome _ _ _ _ hclock
  · cases h
    exact .counted _ _ _ _
  · cases h
    exact .wrote _ _ _ _
  · cases h
    exact .recorded _ _
  · cases h
    exact .guardDropped _ _ _
  · cases h
    exact .permitDropped _ _
  · cases h

end

section

variable {cfg : PoolConfig} {τ : Type} [DecidableEq τ]

theorem step_cases (s : HttpInnerPool cfg τ) (e : τ × Op) :
    (s.step e).2 = s ∨ ∃ stage' shared', Move cfg s.shared (s.calls e.1) e.2 stage' shared' ∧
      (s.step e).2 = ⟨shared', Function.update s.calls e.1 stage'⟩ := by
  rw [HttpInnerPool.step]
  cases h : perform cfg s.shared (s.calls e.1) e.2 with
  | none => exact .inl rfl
  | some r => exact .inr ⟨r.2.1, r.2.2, move_of_perform h, rfl⟩

end

/-! ## Permits -/

section

variable {cfg : PoolConfig}

def Stage.holdsPermit {n : Nat} : Stage n → Bool
  | .idle => false
  | .releasing _ _ permit => permit
  | _ => true

theorem holdsPermit_released {n : Nat} (recorded : Bool) (guard : Option (Fin n)) (permit : Bool) :
    (released recorded guard permit).holdsPermit = permit := by
  rw [released]
  split_ifs with h
  · exact h.2.symm
  · rfl

theorem holdsPermit_recordOutcome (i : Fin cfg.backends) (isProbe healthy : Bool) (done : Nat) :
    (recordOutcome cfg i isProbe healthy done).holdsPermit = true := by
  rw [recordOutcome]
  split_ifs <;> rfl

/-- A permit is taken from the pool, or given back to it. -/
theorem Move.available {p p' : Shared cfg.backends} {stage stage' : Stage cfg.backends} {op : Op}
    (h : Move cfg p stage op stage' p') :
    p'.available + stage'.holdsPermit.toNat = p.available + stage.holdsPermit.toNat := by
  cases h with
  | permit havailable =>
    simp only [Stage.holdsPermit, Bool.toNat_true, Bool.toNat_false]
    omega
  | passed stage now rest hstage =>
    obtain ⟨i, rfl | rfl | rfl | rfl⟩ := hstage <;> rfl
  | dropped stage op i isProbe hstage => rcases hstage with rfl | rfl | rfl <;> rfl
  | outcome i isProbe healthy now hclock => rw [holdsPermit_recordOutcome]; rfl
  | guardDropped recorded i permit => rw [holdsPermit_released]; rfl
  | permitDropped recorded guard =>
    rw [holdsPermit_released]
    rfl
  | _ => rfl

end

def Permits {cfg : PoolConfig} {τ : Type} (s : HttpInnerPool cfg τ) : Prop :=
  ∃ held, Counts (fun t => (s.calls t).holdsPermit) held ∧
    s.shared.available + held = cfg.maxInFlight

section

variable {cfg : PoolConfig} {τ : Type} [DecidableEq τ]

omit [DecidableEq τ] in
theorem Permits.new : Permits (HttpInnerPool.new : HttpInnerPool cfg τ) :=
  ⟨0, .none fun _ => rfl, rfl⟩

theorem Permits.step (s : HttpInnerPool cfg τ) (e : τ × Op) (h : Permits s) :
    Permits (s.step e).2 := by
  rcases step_cases s e with hsame | ⟨stage', shared', hmove, hstep⟩
  · rwa [hsame]
  · obtain ⟨held, hheld, hbound⟩ := h
    have havailable := hmove.available
    obtain ⟨held', hheld', hcount⟩ := hheld.exists_update (q := fun t =>
      (Function.update s.calls e.1 stage' t).holdsPermit) e.1 fun t ht => by
        simp only [Function.update_of_ne ht]
    simp only [Function.update_self] at hcount
    rw [hstep]
    refine ⟨held', hheld', ?_⟩
    dsimp only
    omega

end

/-! ## Probe flags -/

/-- The backend whose probe guard the call holds. -/
def Stage.guard {n : Nat} : Stage n → Option (Fin n)
  | .chosen i isProbe | .prepared i isProbe | .inFlight i isProbe | .finished i isProbe _
  | .recording i isProbe _ => probeGuard i isProbe
  | .releasing _ guard _ => guard
  | _ => none

theorem guard_released {n : Nat} (recorded : Bool) (guard : Option (Fin n)) (permit : Bool) :
    (released recorded guard permit).guard = guard := by
  rw [released]
  split_ifs with h
  · exact h.1.symm
  · rfl

section

variable {cfg : PoolConfig}

theorem guard_recordOutcome (i : Fin cfg.backends) (isProbe healthy : Bool) (done : Nat) :
    (recordOutcome cfg i isProbe healthy done).guard = probeGuard i isProbe := by
  rw [recordOutcome]
  split_ifs with hhealthy hprobe
  · rfl
  · rfl
  · rw [probeGuard, if_neg hprobe]
    rfl

theorem Shared.update_self {n : Nat} (p : Shared n) (i : Fin n) (f : Backend → Backend) :
    (p.update i f).backends i = f (p.backends i) := Function.update_self ..

theorem Shared.update_of_ne {n : Nat} (p : Shared n) {i j : Fin n} (h : j ≠ i)
    (f : Backend → Backend) : (p.update i f).backends j = p.backends j := Function.update_of_ne h ..

/-- A store never sets the flag. -/
theorem Write.flag_of_apply {w : Write} {b : Backend} (h : (w.apply b).probeInflight = true) :
    b.probeInflight = true := by
  cases w with
  | clear => cases h
  | _ => exact h

theorem flag_of_update {p : Shared cfg.backends} {w : Write} {i j : Fin cfg.backends}
    (h : ((p.update i w.apply).backends j).probeInflight = true) :
    (p.backends j).probeInflight = true := by
  by_cases hj : j = i
  · rw [hj, Shared.update_self] at h
    rw [hj]
    exact Write.flag_of_apply h
  · rwa [Shared.update_of_ne p hj] at h

/-- A flag is set by a call that holds its guard from then on, and no call gives its guard up but by
clearing the flag. -/
theorem Move.flag {p p' : Shared cfg.backends} {stage stage' : Stage cfg.backends} {op : Op}
    (h : Move cfg p stage op stage' p') {j : Fin cfg.backends}
    (hflag : (p'.backends j).probeInflight = true) :
    stage'.guard = some j ∨ ((p.backends j).probeInflight = true ∧
      (stage.guard = some j → stage'.guard = some j)) := by
  have hclaim : ∀ i : Fin cfg.backends,
      ((p.update i Backend.claim).backends j).probeInflight = true →
      some i = some j ∨ (p.backends j).probeInflight = true := by
    intro i hflag
    by_cases hj : j = i
    · exact .inl (by rw [hj])
    · rw [Shared.update_of_ne p hj] at hflag
      exact .inr hflag
  cases h with
  | claimed now i rest hstate => exact .inr ⟨flag_of_update hflag, fun hguard => by cases hguard⟩
  | flagged i =>
    rcases hclaim i hflag with heq | hold
    · exact .inl heq
    · exact .inr ⟨hold, fun hguard => by cases hguard⟩
  | tried now i rest hfree =>
    rcases hclaim i hflag with heq | hold
    · exact .inl heq
    · exact .inr ⟨hold, fun hguard => by cases hguard⟩
  | passed stage now rest hstage =>
    refine .inr ⟨hflag, fun hguard => ?_⟩
    obtain ⟨i, rfl | rfl | rfl | rfl⟩ := hstage <;> cases hguard
  | dropped stage op i isProbe hstage =>
    refine .inr ⟨hflag, fun hguard => ?_⟩
    rcases hstage with rfl | rfl | rfl <;> exact hguard
  | outcome i isProbe healthy now hclock =>
    exact .inr ⟨hflag, fun hguard => (guard_recordOutcome i isProbe healthy now).trans hguard⟩
  | counted i done fails count => exact .inr ⟨flag_of_update hflag, fun hguard => by cases hguard⟩
  | wrote i isProbe w ws => exact .inr ⟨flag_of_update hflag, id⟩
  | guardDropped recorded i permit =>
    -- the flag of the guard's own backend is cleared
    have hne : j ≠ i := by
      rintro rfl
      rw [Shared.update_self] at hflag
      cases hflag
    refine .inr ⟨flag_of_update hflag, fun hguard => ?_⟩
    exact absurd (Option.some.inj hguard).symm hne
  | permitDropped recorded guard =>
    exact .inr ⟨hflag, fun hguard => (guard_released recorded guard false).trans hguard⟩
  | _ => exact .inr ⟨hflag, id⟩

end

def Guarded {cfg : PoolConfig} {τ : Type} (s : HttpInnerPool cfg τ) : Prop :=
  ∀ j, (s.shared.backends j).probeInflight = true → ∃ t, (s.calls t).guard = some j

section

variable {cfg : PoolConfig} {τ : Type} [DecidableEq τ]

omit [DecidableEq τ] in
theorem Guarded.new : Guarded (HttpInnerPool.new : HttpInnerPool cfg τ) := fun _ h => by cases h

theorem Guarded.step (s : HttpInnerPool cfg τ) (e : τ × Op) (h : Guarded s) :
    Guarded (s.step e).2 := by
  rcases step_cases s e with hsame | ⟨stage', shared', hmove, hstep⟩
  · rwa [hsame]
  · rw [hstep]
    intro j hflag
    rcases hmove.flag hflag with hguard | ⟨hold, hkept⟩
    · refine ⟨e.1, ?_⟩
      simpa only [Function.update_self] using hguard
    · obtain ⟨t, ht⟩ := h j hold
      refine ⟨t, ?_⟩
      by_cases hcall : t = e.1
      · rw [hcall] at ht ⊢
        simpa only [Function.update_self] using hkept ht
      · simpa only [Function.update_of_ne hcall] using ht

end

/-! ## A selection by itself -/

/-- A call that makes its operations with no other in between gets from one stage to another. -/
inductive Alone (cfg : PoolConfig) :
    Shared cfg.backends → Stage cfg.backends → Stage cfg.backends → Prop where
  | refl (p : Shared cfg.backends) (stage : Stage cfg.backends) : Alone cfg p stage stage
  | step {p p' : Shared cfg.backends} {stage stage' stage'' : Stage cfg.backends}
      {refusal : Option String} (h : perform cfg p stage .advance = some (refusal, stage', p'))
      (hrest : Alone cfg p' stage' stage'') : Alone cfg p stage stage''

section

variable {cfg : PoolConfig} {p : Shared cfg.backends} {stage : Stage cfg.backends} {now : Nat}

theorem alone_healthy (start : Nat) (rest : List (Fin cfg.backends)) :
    (∃ i ∈ rest, (p.backends i).state = .closed ∧
      Alone cfg p (.healthy now start rest) (.chosen i false)) ∨
    (Alone cfg p (.probing now (scanFrom start)) stage →
      Alone cfg p (.healthy now start rest) stage) := by
  induction rest with
  | nil => exact .inr (.step rfl)
  | cons i rest ih =>
    by_cases hstate : (p.backends i).state = .closed
    · refine .inl ⟨i, List.mem_cons_self, hstate, ?_⟩
      exact .step (by rw [perform, if_pos hstate]) (.refl _ _)
    · have hnext : perform cfg p (.healthy now start (i :: rest)) .advance
          = some (none, .healthy now start rest, p) := by rw [perform, if_neg hstate]
      rcases ih with ⟨j, hj, hclosed, hreach⟩ | hreach
      · exact .inl ⟨j, List.mem_cons_of_mem _ hj, hclosed, .step hnext hreach⟩
      · exact .inr fun h => .step hnext (hreach h)

/-- The second pass claims a backend that is out of service, where its cooldown is over and no probe
of it is in flight. -/
theorem alone_probing {i : Fin cfg.backends} (rest : List (Fin cfg.backends))
    (hstate : (p.backends i).state ≠ .closed)
    (hreopen : (p.backends i).state = .opened → (p.backends i).reopenAtNanos ≤ now)
    (hflag : (p.backends i).probeInflight = false) :
    Alone cfg p (.probing now (i :: rest)) (.chosen i true) := by
  cases hcase : (p.backends i).state with
  | closed => exact absurd hcase hstate
  | opened =>
    have hseen : perform cfg p (.probing now (i :: rest)) .advance
        = some (none, .cooled now i rest, p) := by simp only [perform, hcase]
    have helapsed : perform cfg p (.cooled now i rest) .advance
        = some (none, .claiming now i rest, p) := by rw [perform, if_pos (hreopen hcase)]
    have hclaimed : perform cfg p (.claiming now i rest) .advance
        = some (none, .flagging i, p.update i (Write.state .halfOpen).apply) := by
      rw [perform, if_pos hcase]
    exact .step hseen (.step helapsed (.step hclaimed (.step rfl (.refl _ _))))
  | halfOpen =>
    have hseen : perform cfg p (.probing now (i :: rest)) .advance
        = some (none, .trying now i rest, p) := by simp only [perform, hcase]
    have htried : perform cfg p (.trying now i rest) .advance
        = some (none, .chosen i true, p.update i Backend.claim) := by
      rw [perform, if_pos hflag]
    exact .step hseen (.step htried (.refl _ _))

theorem scanFrom_eq_cons {n start : Nat} (h : start < n) :
    ∃ rest, (scanFrom start : List (Fin n)) = ⟨start, h⟩ :: rest := by
  have hlt : start < (List.finRange n).length := by rwa [List.length_finRange]
  rw [scanFrom, List.drop_eq_getElem_cons hlt, List.getElem_finRange]
  exact ⟨_, rfl⟩

/-- **A selection finds a backend** when no probe is in flight and every cooldown is over; with none
healthy it claims the one that it starts from. -/
theorem alone_timed (hflags : ∀ i, (p.backends i).probeInflight = false)
    (hreopen : ∀ i, (p.backends i).state = .opened → (p.backends i).reopenAtNanos ≤ now) :
    ∃ i isProbe, Alone cfg p (.timed now) (.chosen i isProbe) ∧
      ((∀ j, (p.backends j).state ≠ .closed) →
        i.val = p.next % cfg.backends ∧ isProbe = true) := by
  have hlt : p.next % cfg.backends < cfg.backends := Nat.mod_lt _ cfg.backends_pos
  obtain ⟨rest, hscan⟩ := scanFrom_eq_cons hlt
  set first : Fin cfg.backends := ⟨p.next % cfg.backends, hlt⟩ with hfirst
  -- the cursor is all that the first operation changes
  set p' : Shared cfg.backends := { p with next := (p.next + 1) % 2 ^ 64 } with hp'
  have hstart : perform cfg p (.timed now) .advance = some (none,
      .healthy now (p.next % cfg.backends) (scanFrom (p.next % cfg.backends)), p') := rfl
  by_cases hclosed : (p.backends first).state = .closed
  · have hchosen : perform cfg p' (.healthy now (p.next % cfg.backends) (first :: rest)) .advance
        = some (none, .chosen first false, p') := by rw [perform, if_pos hclosed]
    refine ⟨first, false, .step hstart ?_, fun hall => absurd hclosed (hall first)⟩
    rw [hscan]
    exact .step hchosen (.refl p' _)
  · have hprobe : Alone cfg p' (.probing now (scanFrom (p.next % cfg.backends)))
        (.chosen first true) := by
      rw [hscan]
      exact alone_probing rest hclosed (hreopen first) (hflags first)
    have hpass : (∃ i ∈ scanFrom (p.next % cfg.backends), (p'.backends i).state = .closed ∧
          Alone cfg p' (.healthy now (p.next % cfg.backends) (scanFrom (p.next % cfg.backends)))
            (.chosen i false)) ∨
        (Alone cfg p' (.probing now (scanFrom (p.next % cfg.backends))) (.chosen first true) →
          Alone cfg p' (.healthy now (p.next % cfg.backends) (scanFrom (p.next % cfg.backends)))
            (.chosen first true)) := alone_healthy _ _
    rcases hpass with ⟨i, -, hstate, hreach⟩ | hreach
    · exact ⟨i, false, .step hstart hreach, fun hall => absurd hstate (hall i)⟩
    · exact ⟨first, true, .step hstart (hreach hprobe), fun _ => ⟨rfl, rfl⟩⟩

end

/-! ## The pool -/

section

variable {cfg : PoolConfig} {τ : Type} [DecidableEq τ]

def reached (cfg : PoolConfig) (events : List (τ × Op)) : HttpInnerPool cfg τ :=
  final HttpInnerPool.step .new events

def solo (s : HttpInnerPool cfg τ) (t : τ) (k : Nat) : HttpInnerPool cfg τ :=
  final HttpInnerPool.step s (List.replicate k (t, .advance))

theorem step_of_perform {s : HttpInnerPool cfg τ} {t : τ} {op : Op} {refusal : Option String}
    {stage : Stage cfg.backends} {shared : Shared cfg.backends}
    (h : perform cfg s.shared (s.calls t) op = some (refusal, stage, shared)) :
    (s.step (t, op)).2 = ⟨shared, Function.update s.calls t stage⟩ := by
  rw [HttpInnerPool.step, h]

theorem exists_solo_of_alone {p : Shared cfg.backends} {stage stage' : Stage cfg.backends}
    (h : Alone cfg p stage stage') {s : HttpInnerPool cfg τ} {t : τ} (hshared : s.shared = p)
    (hcall : s.calls t = stage) : ∃ k, (solo s t k).calls t = stage' := by
  induction h generalizing s with
  | refl p stage => exact ⟨0, hcall⟩
  | @step p p' stage stage' stage'' refusal hperform _ ih =>
    rw [← hshared, ← hcall] at hperform
    have hstep := step_of_perform hperform
    have hshared' : (s.step (t, .advance)).2.shared = p' := by rw [hstep]
    have hcall' : (s.step (t, .advance)).2.calls t = stage' := by
      rw [hstep]
      exact Function.update_self ..
    obtain ⟨k, hk⟩ := ih hshared' hcall'
    exact ⟨k + 1, hk⟩

theorem permits_reached (events : List (τ × Op)) : Permits (reached cfg events) :=
  (invariant Permits.step Permits.new events).2

theorem guarded_reached (events : List (τ × Op)) : Guarded (reached cfg events) :=
  (invariant Guarded.step Guarded.new events).2

/-- **Nothing of the pool is lost.** Whatever the calls did and however they interleaved, the permits
that are not taken and those that calls hold make up the bound, and a probe flag is set only while a
call holds a guard of its backend. When no call is under way no flag is set, every permit is there,
and a selection at an instant when every cooldown is over returns a backend: with none healthy, the
one whose turn it is. -/
theorem nothing_wedged (cfg : PoolConfig) (events : List (τ × Op)) :
    Permits (reached cfg events) ∧ Guarded (reached cfg events) ∧
    ((∀ t, (reached cfg events).calls t = .idle) →
      (∀ i, ((reached cfg events).shared.backends i).probeInflight = false) ∧
      (reached cfg events).shared.available = cfg.maxInFlight ∧
      ∀ t now, (reached cfg events).shared.clock ≤ now →
        (∀ i, ((reached cfg events).shared.backends i).state = .opened →
          ((reached cfg events).shared.backends i).reopenAtNanos ≤ now) →
        ∃ k i isProbe, (solo (reached cfg (events ++ [(t, .prepare), (t, .read now)])) t k).calls t
            = .chosen i isProbe ∧
          ((∀ j, ((reached cfg events).shared.backends j).state ≠ .closed) →
            i.val = (reached cfg events).shared.next % cfg.backends ∧ isProbe = true)) := by
  refine ⟨permits_reached events, guarded_reached events, fun hidle => ?_⟩
  have hflags : ∀ i, ((reached cfg events).shared.backends i).probeInflight = false := by
    intro i
    rw [Bool.eq_false_iff]
    intro hflag
    obtain ⟨t, ht⟩ := guarded_reached events i hflag
    rw [hidle t] at ht
    cases ht
  have havailable : (reached cfg events).shared.available = cfg.maxInFlight := by
    obtain ⟨held, hheld, hbound⟩ : Permits (reached cfg events) := permits_reached events
    have hnone := hheld.eq_zero fun t => by rw [hidle t]; rfl
    omega
  refine ⟨hflags, havailable, ?_⟩
  intro t now hclock hreopen
  -- the permit and the reading change nothing that the selection looks at
  set s := reached cfg events with hs
  set taken : Shared cfg.backends := { s.shared with available := s.shared.available - 1 }
  have hprepare : perform cfg s.shared (s.calls t) .prepare = some (none, .permitted, taken) := by
    have hpos := cfg.maxInFlight_pos
    rw [hidle t, perform, if_neg (by omega)]
  set s₁ : HttpInnerPool cfg τ := ⟨taken, Function.update s.calls t .permitted⟩ with hs₁
  have hread : perform cfg s₁.shared (s₁.calls t) (.read now)
      = some (none, .timed now, { taken with clock := now }) := by
    have hcall : s₁.calls t = .permitted := Function.update_self ..
    rw [hcall, perform, if_pos hclock]
  have hreached : reached cfg (events ++ [(t, .prepare), (t, .read now)])
      = ⟨{ taken with clock := now }, Function.update s₁.calls t (.timed now)⟩ := by
    rw [reached, final_append, ← reached, ← hs, final, final, final, step_of_perform hprepare, ← hs₁,
      step_of_perform hread]
  obtain ⟨i, isProbe, halone, hturn⟩ :=
    alone_timed (p := { taken with clock := now }) hflags hreopen
  have hcall : (reached cfg (events ++ [(t, .prepare), (t, .read now)])).calls t = .timed now := by
    rw [hreached]
    exact Function.update_self ..
  obtain ⟨k, hk⟩ := exists_solo_of_alone halone (by rw [hreached]) hcall
  exact ⟨k, i, isProbe, hk, hturn⟩

end

end McpRe.Inner

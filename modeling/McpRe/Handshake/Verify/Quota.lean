import McpRe.Handshake.Quota
import McpRe.Lib.Run

/-!
# A cooldown is kept

Once armed from a reading `t` the window ends no earlier than `t + cooldown`, until a probe gives it
up (`armed_kept`). A probe gives up the window it installed itself, which ends at its own reading at
the gate plus the cooldown (`Installed.step`); so it was at the gate no earlier than at `t`. That may
be `t` itself, where the clock read the same twice. The window ends at most a cooldown after the
clock (`window_opens_again`).
-/

namespace McpRe.Handshake

open Lib.Run Lib.Text

variable {τ ε : Type} (verdict : ε → QuotaVerdict)

/-! ## What a step can do -/

inductive QuotaMove (s : QuotaPlane τ ε) : QuotaAction τ ε → QuotaPlane τ ε → Prop where
  | stay (action : QuotaAction τ ε) : QuotaMove s action s
  | tick (amount : Nat) : QuotaMove s (.tick amount) { s with clock := s.clock + amount }
  | enter (call : Nat) : QuotaMove s (.enter call) (s.moved call (.entered s.clock))
  | refused (call now ends : Nat) (hcall : s.calls call = .entered now)
    (huntil : s.window.until? = some ends) (hlt : now < ends) :
    QuotaMove s (.gate call)
      (s.moved call (.returned (.error (.refused s.window.refusal))))
  | probe (call now ends : Nat) (hcall : s.calls call = .entered now)
    (huntil : s.window.until? = some ends) (hle : ends ≤ now) :
    QuotaMove s (.gate call)
      { s.moved call (.signing now (some (now + s.window.cooldown))) with
        window := { s.window with until? := some (now + s.window.cooldown) } }
  | pass (call now : Nat) (hcall : s.calls call = .entered now) (huntil : s.window.until? = none) :
    QuotaMove s (.gate call) (s.moved call (.signing now none))
  | sign (call now : Nat) (probe : Option Nat) (outcome : Except ε τ)
    (hcall : s.calls call = .signing now probe) :
    QuotaMove s (.sign call outcome) (s.moved call (.signed now probe outcome))
  | released (call now : Nat) (probe : Option Nat) (value : τ)
    (hcall : s.calls call = .signed now probe (.ok value)) :
    QuotaMove s (.settle call)
      { s.moved call (.returned (.ok value)) with window := s.window.releaseProbe probe }
  | exhausted (call now : Nat) (probe : Option Nat) (error : ε)
    (hcall : s.calls call = .signed now probe (.error error)) :
    QuotaMove s (.settle call) (s.moved call (.arming now s.clock error))
  | failed (call : Nat) (error : ε) :
    QuotaMove s (.settle call) (s.moved call (.returned (.error (.call error))))
  | armed (call now reading : Nat) (error : ε) (hcall : s.calls call = .arming now reading error) :
    QuotaMove s (.arm call)
      { s.moved call (.returned (.error (.call error))) with window := s.window.arm reading }

theorem quotaMove_step (s : QuotaPlane τ ε) (action : QuotaAction τ ε) :
    QuotaMove s action (s.step verdict action).2 := by
  cases action with
  | tick amount => exact .tick amount
  | enter call =>
    cases hcall : s.calls call with
    | idle => simpa only [QuotaPlane.step, hcall] using .enter call
    | _ => simpa only [QuotaPlane.step, hcall] using .stay _
  | gate call =>
    cases hcall : s.calls call with
    | entered now =>
      cases huntil : s.window.until? with
      | none =>
        simpa only [QuotaPlane.step, hcall, HandshakeQuotaWindow.gate, huntil] using
          .pass call now hcall huntil
      | some ends =>
        by_cases hlt : now < ends
        · simpa only [QuotaPlane.step, hcall, HandshakeQuotaWindow.gate, huntil, if_pos hlt] using
            .refused call now ends hcall huntil hlt
        · simpa only [QuotaPlane.step, hcall, HandshakeQuotaWindow.gate, huntil, if_neg hlt] using
            .probe call now ends hcall huntil (Nat.le_of_not_lt hlt)
    | _ => simpa only [QuotaPlane.step, hcall] using .stay _
  | sign call outcome =>
    cases hcall : s.calls call with
    | signing now probe =>
      simpa only [QuotaPlane.step, hcall] using .sign call now probe outcome hcall
    | _ => simpa only [QuotaPlane.step, hcall] using .stay _
  | settle call =>
    cases hcall : s.calls call with
    | signed now probe outcome =>
      cases outcome with
      | ok value => simpa only [QuotaPlane.step, hcall] using .released call now probe value hcall
      | error error =>
        cases hverdict : verdict error with
        | exhausted =>
          simpa only [QuotaPlane.step, hcall, hverdict] using .exhausted call now probe error hcall
        | unrelated => simpa only [QuotaPlane.step, hcall, hverdict] using .failed call error
    | _ => simpa only [QuotaPlane.step, hcall] using .stay _
  | arm call =>
    cases hcall : s.calls call with
    | arming now reading error =>
      simpa only [QuotaPlane.step, hcall] using .armed call now reading error hcall
    | _ => simpa only [QuotaPlane.step, hcall] using .stay _

/-! ## The window a probe has installed -/

/-- The reading at the gate and the window of a probe that has not settled. -/
def Guarding.probe? : Guarding τ ε → Option (Nat × Nat)
  | .signing now (some installed) => some (now, installed)
  | .signed now (some installed) _ => some (now, installed)
  | _ => none

/-- A plane keeps its cooldown and its refusal, and a probe's window ends a cooldown after the
probe was at the gate. -/
structure Installed (cooldown : Nat) (refusal : Str) (s : QuotaPlane τ ε) : Prop where
  cooldown_eq : s.window.cooldown = cooldown
  refusal_eq : s.window.refusal = refusal
  probes : ∀ call now installed, (s.calls call).probe? = some (now, installed) →
    installed = now + cooldown

section

variable {cooldown : Nat} {refusal : Str} {s : QuotaPlane τ ε}

theorem Installed.moved (h : Installed cooldown refusal s) {call : Nat} {stage : Guarding τ ε}
    {window : HandshakeQuotaWindow} (hcooldown : window.cooldown = s.window.cooldown)
    (hrefusal : window.refusal = s.window.refusal)
    (hstage : ∀ now installed, stage.probe? = some (now, installed) → installed = now + cooldown) :
    Installed cooldown refusal { s.moved call stage with window } where
  cooldown_eq := hcooldown.trans h.cooldown_eq
  refusal_eq := hrefusal.trans h.refusal_eq
  probes := by
    intro other now installed hprobe
    by_cases heq : other = call
    · rw [heq] at hprobe
      simp only [QuotaPlane.moved, Function.update_self] at hprobe
      exact hstage now installed hprobe
    · simp only [QuotaPlane.moved, Function.update_of_ne heq] at hprobe
      exact h.probes other now installed hprobe

theorem releaseProbe_cooldown (w : HandshakeQuotaWindow) (probe : Option Nat) :
    (w.releaseProbe probe).cooldown = w.cooldown := by
  cases probe with
  | none => rfl
  | some installed =>
    simp only [HandshakeQuotaWindow.releaseProbe]
    split_ifs <;> rfl

theorem releaseProbe_refusal (w : HandshakeQuotaWindow) (probe : Option Nat) :
    (w.releaseProbe probe).refusal = w.refusal := by
  cases probe with
  | none => rfl
  | some installed =>
    simp only [HandshakeQuotaWindow.releaseProbe]
    split_ifs <;> rfl

theorem Installed.step (s : QuotaPlane τ ε) (action : QuotaAction τ ε)
    (h : Installed cooldown refusal s) :
    Installed cooldown refusal (s.step verdict action).2 := by
  have hmove := quotaMove_step verdict s action
  generalize (s.step verdict action).2 = s' at hmove
  cases hmove with
  | stay => exact h
  | tick amount => exact ⟨h.cooldown_eq, h.refusal_eq, h.probes⟩
  | probe call now ends hcall huntil hle =>
    refine h.moved rfl rfl ?_
    intro now' installed hprobe
    cases hprobe
    rw [h.cooldown_eq]
  | sign call now probe outcome hcall =>
    refine h.moved rfl rfl ?_
    intro now' installed hprobe
    refine h.probes call now' installed ?_
    rw [hcall]
    cases probe with
    | none => cases hprobe
    | some installed' => exact hprobe
  | released call now probe value hcall =>
    exact h.moved (releaseProbe_cooldown ..) (releaseProbe_refusal ..) fun _ _ hprobe => by cases hprobe
  | armed call now reading error hcall => exact h.moved rfl rfl fun _ _ hprobe => by cases hprobe
  | _ => exact h.moved rfl rfl fun _ _ hprobe => by cases hprobe

/-! ## The window stays shut -/

/-- The window ends no earlier than at `ends`. -/
def ShutUntil (ends : Nat) (s : QuotaPlane τ ε) : Prop :=
  ∃ u, s.window.until? = some u ∧ ends ≤ u

def succeededProbe? (s : QuotaPlane τ ε) : QuotaAction τ ε → Option Nat
  | .settle call =>
    match s.calls call with
    | .signed now (some _) (.ok _) => some now
    | _ => none
  | _ => none

theorem shutUntil_arm (s : QuotaPlane τ ε) (t : Nat) :
    ∃ u, (s.window.arm t).until? = some u ∧ t + s.window.cooldown ≤ u := by
  cases huntil : s.window.until? with
  | none => exact ⟨_, by rw [HandshakeQuotaWindow.arm, huntil]; rfl, Nat.le_refl _⟩
  | some current =>
    exact ⟨_, by rw [HandshakeQuotaWindow.arm, huntil]; rfl, Nat.le_max_right _ _⟩

/-- **A step keeps the window shut**, unless it is the success of a probe that was at the gate at
`t` or later. -/
theorem armed_kept {t : Nat} (action : QuotaAction τ ε) (hshut : ShutUntil (t + cooldown) s)
    (h : Installed cooldown refusal s) (hearlier : ∀ now ∈ succeededProbe? s action, now < t) :
    ShutUntil (t + cooldown) (s.step verdict action).2 := by
  obtain ⟨u, huntil, hle⟩ := hshut
  have hmove := quotaMove_step verdict s action
  generalize (s.step verdict action).2 = s' at hmove
  cases hmove with
  | probe call now ends hcall hends hpast =>
    -- the gate was past the end of the window, and the probe's own window ends later still
    obtain rfl : ends = u := Option.some.inj (hends.symm.trans huntil)
    exact ⟨_, rfl, by omega⟩
  | released call now probe value hcall =>
    cases probe with
    | none => exact ⟨u, huntil, hle⟩
    | some installed =>
      have hends : installed = now + cooldown := h.probes call now installed (by rw [hcall]; rfl)
      have hnow : now < t := hearlier now (by simp only [succeededProbe?, hcall, Option.mem_some])
      have hne : s.window.until? ≠ some installed := by
        intro heq
        have := Option.some.inj (huntil.symm.trans heq)
        omega
      refine ⟨u, ?_, hle⟩
      simp only [HandshakeQuotaWindow.releaseProbe, if_neg hne]
      exact huntil
  | armed call now reading error hcall =>
    refine ⟨max u (reading + s.window.cooldown), ?_, Nat.le_trans hle (Nat.le_max_left _ _)⟩
    simp only [HandshakeQuotaWindow.arm, huntil, Option.elim_some]
  | _ => exact ⟨u, huntil, hle⟩

end

/-- **A cooldown is not cut short by older information.** After a handshake has armed the window
from the reading `t`, one that comes to the gate with a reading before `t + cooldown` is refused,
unless a probe that was at the gate at `t` or later has succeeded in between. -/
theorem cooldown_kept (cooldown : Nat) (refusal : Str) (before mid : List (QuotaAction τ ε))
    (armer gated entry t now : Nat) (error : ε)
    (harming : (final (QuotaPlane.step verdict) (.new cooldown refusal) before).calls armer
      = .arming entry t error)
    (hentered : (final (QuotaPlane.step verdict) (.new cooldown refusal)
      (before ++ [QuotaAction.arm armer] ++ mid)).calls gated = .entered now)
    (hwithin : now < t + cooldown) :
    (final (QuotaPlane.step verdict) (.new cooldown refusal)
        (before ++ [QuotaAction.arm armer] ++ mid ++ [QuotaAction.gate gated])).calls gated
      = .returned (.error (.refused refusal)) ∨
      ∃ p ∈ trace (QuotaPlane.step verdict) (final (QuotaPlane.step verdict)
        (.new cooldown refusal) (before ++ [QuotaAction.arm armer])) mid,
        ∃ probed ∈ succeededProbe? p.before p.event, t ≤ probed := by
  have hnew : Installed cooldown refusal (QuotaPlane.new cooldown refusal : QuotaPlane τ ε) :=
    ⟨rfl, rfl, fun _ _ _ hprobe => by cases hprobe⟩
  have hinstalled := fun events => (invariant (Installed.step verdict) hnew events).2
  -- the step that arms the window shuts it
  have hshut : ShutUntil (t + cooldown) (final (QuotaPlane.step verdict)
      (QuotaPlane.new cooldown refusal) (before ++ [QuotaAction.arm armer])) := by
    rw [final_append]
    simp only [final, QuotaPlane.step, harming]
    have harm := shutUntil_arm (final (QuotaPlane.step verdict) (.new cooldown refusal) before) t
    rwa [(hinstalled before).cooldown_eq] at harm
  have hkept : ∀ (s : QuotaPlane τ ε) (action : QuotaAction τ ε),
      Installed cooldown refusal s ∧ ShutUntil (t + cooldown) s →
      (∀ now ∈ succeededProbe? s action, now < t) →
      Installed cooldown refusal (s.step verdict action).2 ∧
        ShutUntil (t + cooldown) (s.step verdict action).2 :=
    fun s action h hearlier =>
      ⟨h.1.step verdict s action, armed_kept verdict action h.2 h.1 hearlier⟩
  rcases retained_or hkept ⟨hinstalled _, hshut⟩ mid with ⟨p, hp, hprobe⟩ | ⟨hconfig, u, huntil, hle⟩
  · push Not at hprobe
    exact .inr ⟨p, hp, hprobe⟩
  -- the window is still shut at the gate
  · rw [← final_append] at hconfig huntil
    have hlt : now < u := Nat.lt_of_lt_of_le hwithin hle
    left
    rw [final_append]
    simp only [final, QuotaPlane.step, hentered, HandshakeQuotaWindow.gate, huntil, if_pos hlt]
    rw [hconfig.refusal_eq]
    exact Function.update_self ..

/-! ## The window opens again -/

/-- The reading a call goes to the window with. -/
def Guarding.reading? : Guarding τ ε → Option Nat
  | .entered now => some now
  | .arming _ reading _ => some reading
  | _ => none

/-- No reading is ahead of the clock, and the window ends at most a cooldown after it. -/
structure Timely (cooldown : Nat) (s : QuotaPlane τ ε) : Prop where
  window : ∀ ends ∈ s.window.until?, ends ≤ s.clock + cooldown
  readings : ∀ call, ∀ now ∈ (s.calls call).reading?, now ≤ s.clock

section

variable {cooldown : Nat} {refusal : Str} {s : QuotaPlane τ ε}

theorem Timely.moved (h : Timely cooldown s) {call : Nat} {stage : Guarding τ ε}
    {window : HandshakeQuotaWindow} (hwindow : ∀ ends ∈ window.until?, ends ≤ s.clock + cooldown)
    (hstage : ∀ now ∈ stage.reading?, now ≤ s.clock) :
    Timely cooldown { s.moved call stage with window } := by
  refine ⟨hwindow, fun other now hnow => ?_⟩
  by_cases heq : other = call
  · simp only [heq, QuotaPlane.moved, Function.update_self] at hnow
    exact hstage now hnow
  · simp only [QuotaPlane.moved, Function.update_of_ne heq] at hnow
    exact h.readings other now hnow

theorem Timely.step (action : QuotaAction τ ε) (h : Timely cooldown s)
    (hconfig : Installed cooldown refusal s) : Timely cooldown (s.step verdict action).2 := by
  have hmove := quotaMove_step verdict s action
  generalize (s.step verdict action).2 = s' at hmove
  cases hmove with
  | stay => exact h
  | tick amount =>
    exact ⟨fun ends hends => (h.window ends hends).trans (by dsimp only; omega),
      fun call now hnow => (h.readings call now hnow).trans (Nat.le_add_right ..)⟩
  | enter call => exact h.moved h.window (by simp [Guarding.reading?])
  | probe call now ends hcall huntil hle =>
    have hnow : now ≤ s.clock := h.readings call now (by simp [hcall, Guarding.reading?])
    refine h.moved ?_ nofun
    simp only [Option.mem_some, forall_eq', hconfig.cooldown_eq]
    omega
  | released call now probe value hcall =>
    refine h.moved (fun ends hends => h.window ends ?_) nofun
    cases probe with
    | none => exact hends
    | some installed =>
      simp only [HandshakeQuotaWindow.releaseProbe] at hends
      split_ifs at hends
      · cases hends
      · exact hends
  | exhausted call now probe error hcall =>
    exact h.moved h.window (by simp [Guarding.reading?])
  | armed call now reading error hcall =>
    have hreading : reading ≤ s.clock := h.readings call reading (by simp [hcall, Guarding.reading?])
    refine h.moved ?_ nofun
    cases huntil : s.window.until? with
    | none =>
      simp only [HandshakeQuotaWindow.arm, huntil, hconfig.cooldown_eq, Option.elim_none,
        Option.mem_some, forall_eq']
      omega
    | some current =>
      have := h.window current huntil
      simp only [HandshakeQuotaWindow.arm, huntil, hconfig.cooldown_eq, Option.elim_some,
        Option.mem_some, forall_eq']
      omega
  | _ => exact h.moved h.window nofun

end

/-- **No window outlasts a cooldown.** In every run it ends at most a cooldown after the clock, and
the first handshake to arrive a cooldown later reaches the signer. -/
theorem window_opens_again (cooldown : Nat) (refusal : Str) (events : List (QuotaAction τ ε)) :
    let s := final (QuotaPlane.step verdict) (.new cooldown refusal) events
    (∀ ends ∈ s.window.until?, ends ≤ s.clock + cooldown) ∧
      ∀ call, s.calls call = .idle → ∃ probe,
        (final (QuotaPlane.step verdict) s [.tick cooldown, .enter call, .gate call]).calls call
          = .signing (s.clock + cooldown) probe := by
  intro s
  have hnew : Installed cooldown refusal (QuotaPlane.new cooldown refusal : QuotaPlane τ ε) ∧
      Timely cooldown (QuotaPlane.new cooldown refusal : QuotaPlane τ ε) :=
    ⟨⟨rfl, rfl, fun _ _ _ hprobe => by cases hprobe⟩, ⟨nofun, nofun⟩⟩
  obtain ⟨-, htimely⟩ : Installed cooldown refusal s ∧ Timely cooldown s :=
    (invariant (I := fun s => Installed cooldown refusal s ∧ Timely cooldown s)
      (fun s action h => ⟨h.1.step verdict s action, h.2.step verdict action h.1⟩) hnew events).2
  refine ⟨htimely.window, fun call hidle => ?_⟩
  cases huntil : s.window.until? with
  | none => exact ⟨none, by simp [final, QuotaPlane.step, QuotaPlane.moved, hidle,
      HandshakeQuotaWindow.gate, huntil]⟩
  | some ends =>
    have hends : ¬s.clock + cooldown < ends := Nat.not_lt.2 (htimely.window ends huntil)
    exact ⟨some (s.clock + cooldown + s.window.cooldown), by simp [final, QuotaPlane.step,
      QuotaPlane.moved, hidle, HandshakeQuotaWindow.gate, huntil, hends]⟩

/-! ## A probe that read the same instant -/

namespace QuotaSample

/-- What a signer may fail with. -/
inductive Failed where
  | overQuota
  | badRequest
  deriving DecidableEq

def onlyThrottling : Failed → QuotaVerdict
  | .overQuota => .exhausted
  | .badRequest => .unrelated

def refusal : Str := "kms: quota".toList

def reaching (call : Nat) : List (QuotaAction Unit Failed) := [.enter call, .gate call]

def throttled (call : Nat) : List (QuotaAction Unit Failed) :=
  [.sign call (.error .overQuota), .settle call]

/-- Of two handshakes at the signer the first is told that the quota is gone. When its window ends
a third becomes the probe, and in that instant the second is told the same. -/
def before : List (QuotaAction Unit Failed) :=
  [reaching 0, reaching 1, throttled 0, [.arm 0, .tick 5], reaching 2, throttled 1].flatten

/-- The probe succeeds, and a fourth handshake arrives. -/
def mid : List (QuotaAction Unit Failed) := [.sign 2 (.ok ()), .settle 2, .enter 3]

/-- **A probe that read the same instant gives the window up.** The second handshake armed it from
the reading 5. The fourth reaches the signer with the reading 5; only the probe has succeeded in
between, and it was at the gate at 5 and not later. -/
theorem same_reading_reopens :
    (final (QuotaPlane.step onlyThrottling) (.new 5 refusal) before).calls 1
        = .arming 0 5 .overQuota ∧
      (final (QuotaPlane.step onlyThrottling) (.new 5 refusal)
        (before ++ [QuotaAction.arm 1] ++ mid)).calls 3 = .entered 5 ∧
      (final (QuotaPlane.step onlyThrottling) (.new 5 refusal)
        (before ++ [QuotaAction.arm 1] ++ mid ++ [QuotaAction.gate 3])).calls 3 = .signing 5 none ∧
      ∀ p ∈ trace (QuotaPlane.step onlyThrottling) (final (QuotaPlane.step onlyThrottling)
        (.new 5 refusal) (before ++ [QuotaAction.arm 1])) mid,
        ∀ probed ∈ succeededProbe? p.before p.event, ¬5 < probed := by
  refine ⟨by decide, by decide, by decide, by decide⟩

/-- Nobody probes: the next handshake is refused. -/
theorem refused_within_cooldown :
    (final (QuotaPlane.step onlyThrottling) (.new 5 refusal)
      (reaching 0 ++ throttled 0 ++ [QuotaAction.arm 0] ++ [QuotaAction.tick 4, .enter 1]
        ++ [QuotaAction.gate 1])).calls 1 = .returned (.error (.refused refusal)) := by
  have h := cooldown_kept onlyThrottling 5 refusal (reaching 0 ++ throttled 0) [.tick 4, .enter 1]
    0 1 0 0 4 .overQuota (by decide) (by decide) (by decide)
  have hnone : ∀ p ∈ trace (QuotaPlane.step onlyThrottling) (final (QuotaPlane.step onlyThrottling)
      (.new 5 refusal) (reaching 0 ++ throttled 0 ++ [QuotaAction.arm 0])) [.tick 4, .enter 1],
      succeededProbe? p.before p.event = none := by decide
  rcases h with h | ⟨p, hp, probed, hprobed, -⟩
  · exact h
  · rw [hnone p hp] at hprobed
    cases hprobed

end QuotaSample

end McpRe.Handshake

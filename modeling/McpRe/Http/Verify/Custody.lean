import McpRe.Http.Custody
import McpRe.Http.Verify.Chain
import McpRe.Lib.Run

/-!
# What an approach to the root costs and keeps

A call of the custody machine either leaves the root alone, finds the issuance not mintable, adopts
what the root grants, or holds off. `issueIf_left`, `issueIf_unmintable`, `issueIf_granted` and
`issueIf_declined` say what each leaves behind, and everything below is derived from them.

* `usable_key_is_kept`: a usable key stays in service exactly when no approach is unmintable and no
  adopted window misses the present instant;
* `root_stays_off_the_hot_path`: the root is approached at a bounded rate as long as every adopted
  window lasts past the overlap.
-/

namespace McpRe.Http

open Lib Lib.Result Lib.Text

namespace DelegatedSigningCustody

variable {P : Platform} (c : DelegatedSigningCustody P) (root : Root) (now : I64)

/-! ## The four outcomes -/

def verdict : Except CustodyError Unit :=
  if c.serves now then .ok () else .error .failClosedIssuance

def heldOff : DelegatedSigningCustody P :=
  { c with
    nextAttemptAt := some (nextAttemptAfter now c.cfg.window.overlap)
    active := if c.serves now then c.active else none
    audit := if c.serves now then c.audit
      else c.audit ++ (c.active.map fun a => c.retired now a).toList }

variable {c root now} {needs : Bool} {exp : I64} {next : UInt64}

theorem holdOff_eq : c.holdOff now = (c.verdict now, c.heldOff now) := by
  have hserves : serves { c with nextAttemptAt := some (nextAttemptAfter now c.cfg.window.overlap) }
      now = c.serves now := rfl
  rw [holdOff, verdict, heldOff]
  simp only [hserves]
  cases hs : c.serves now with
  | true => simp
  | false =>
    cases hactive : c.active with
    | none => simp
    | some a => simp [retired, event]

theorem serves_heldOff : (c.heldOff now).serves now = c.serves now := by
  cases hs : c.serves now with
  | true =>
    rw [heldOff, hs]
    exact hs
  | false =>
    rw [heldOff, hs]
    rfl

theorem issueIf_left (h : (needs && c.attemptAllowed now) = false) :
    c.issueIf root now needs = (c.verdict now, c) := by
  rw [issueIf, h]
  rfl

theorem issueIf_unmintable (h : (needs && c.attemptAllowed now) = true) {e : CustodyError}
    (hmint : mintable now c.cfg.window.ttl c.counter = .error e) :
    c.issueIf root now needs = (.error e, c) := by
  rw [issueIf, h, if_pos rfl, attemptIssuance, hmint]

theorem issueIf_granted (h : (needs && c.attemptAllowed now) = true)
    (hmint : mintable now c.cfg.window.ttl c.counter = .ok (exp, next)) {a : ActiveDelegatedKey P}
    (hgrant : (c.charged next).granted root now exp = some a) :
    c.issueIf root now needs
      = (((c.charged next).adopt now a (c.serves now)).verdict now,
        (c.charged next).adopt now a (c.serves now)) := by
  rw [issueIf, h, if_pos rfl, attemptIssuance, hmint]
  simp only [hgrant]
  rfl

theorem issueIf_declined (h : (needs && c.attemptAllowed now) = true)
    (hmint : mintable now c.cfg.window.ttl c.counter = .ok (exp, next))
    (hgrant : (c.charged next).granted root now exp = none) :
    c.issueIf root now needs = (c.verdict now, (c.charged next).heldOff now) := by
  have hcharged : (c.charged next).serves now = c.serves now := rfl
  rw [issueIf, h, if_pos rfl, attemptIssuance, hmint]
  simp only [hgrant, holdOff_eq, verdict, hcharged]
  cases hs : c.serves now with
  | true => simp [serves_heldOff, hcharged, hs]
  | false => rfl

theorem serves_iff : c.serves now = true ↔ ∃ a, c.active = some a ∧ now < a.exp := by
  rw [serves]
  cases c.active with
  | none => simp
  | some a => simp

/-! ## A usable key is kept -/

end DelegatedSigningCustody

/-- The window of the key's credential contains the instant. -/
def ActiveDelegatedKey.Usable {P : Platform} (a : ActiveDelegatedKey P) (now : I64) : Prop :=
  a.nbf ≤ now ∧ now < a.exp

namespace DelegatedSigningCustody

variable {P : Platform} (c : DelegatedSigningCustody P) (root : Root) (now : I64)

/-- A key is in service whose window contains the instant. -/
def Serviceable : Prop := ∃ a, c.active = some a ∧ a.Usable now

instance : Decidable (c.Serviceable now) :=
  decidable_of_iff ((c.active.any fun a => decide (a.nbf ≤ now ∧ now < a.exp)) = true) <| by
    cases hactive : c.active <;> simp [Serviceable, ActiveDelegatedKey.Usable, hactive]

/-- An approach that can be made and whose answer can be used: the expiry and the ordinal fit their
types, and a window the root returns with the attestation contains the instant. -/
def SafeApproach : Prop :=
  ∃ exp next, mintable now c.cfg.window.ttl c.counter = .ok (exp, next) ∧
    ∀ a, (c.charged next).granted root now exp = some a → a.Usable now

variable {c root now}

theorem Serviceable.serves (h : c.Serviceable now) : c.serves now = true := by
  obtain ⟨a, ha, -, hexp⟩ := h
  exact serves_iff.2 ⟨a, ha, hexp⟩

theorem Serviceable.verdict (h : c.Serviceable now) : c.verdict now = .ok () := by
  rw [DelegatedSigningCustody.verdict, h.serves, if_pos rfl]

theorem Serviceable.heldOff (h : c.Serviceable now) : (c.heldOff now).Serviceable now := by
  have hserves := h.serves
  obtain ⟨a, ha, husable⟩ := h
  refine ⟨a, ?_, husable⟩
  rw [DelegatedSigningCustody.heldOff, hserves]
  exact ha

theorem serviceable_adopt {a : ActiveDelegatedKey P} {isRotation : Bool} :
    (c.adopt now a isRotation).Serviceable now ↔ a.Usable now := by
  constructor
  · intro h
    obtain ⟨b, hb, husable⟩ := h
    cases hb
    exact husable
  · intro h
    exact ⟨a, rfl, h⟩

theorem issueIf_keeps_iff (hc : c.Serviceable now) (needs : Bool) :
    ((c.issueIf root now needs).1 = .ok () ∧ (c.issueIf root now needs).2.Serviceable now) ↔
      ((needs && c.attemptAllowed now) = true → c.SafeApproach root now) := by
  cases hneeds : needs && c.attemptAllowed now with
  | false =>
    rw [issueIf_left hneeds]
    exact ⟨fun _ h => (Bool.false_ne_true h).elim, fun _ => ⟨hc.verdict, hc⟩⟩
  | true =>
    have hsafe : (true = true → c.SafeApproach root now) ↔ c.SafeApproach root now := by simp
    rw [hsafe]
    cases hmint : mintable now c.cfg.window.ttl c.counter with
    | error e =>
      rw [issueIf_unmintable hneeds hmint]
      constructor
      · intro h
        cases h.1
      · intro h
        obtain ⟨exp, next, hok, -⟩ := h
        rw [hmint] at hok
        cases hok
    | ok terms =>
      obtain ⟨exp, next⟩ := terms
      cases hgrant : (c.charged next).granted root now exp with
      | none =>
        rw [issueIf_declined hneeds hmint hgrant]
        have hcharged : (c.charged next).Serviceable now := hc
        refine ⟨fun _ => ⟨exp, next, hmint, ?_⟩, fun _ => ⟨hc.verdict, hcharged.heldOff⟩⟩
        intro a ha
        rw [hgrant] at ha
        cases ha
      | some a =>
        rw [issueIf_granted hneeds hmint hgrant]
        constructor
        · intro h
          refine ⟨exp, next, hmint, fun b hb => ?_⟩
          rw [hgrant, Option.some.injEq] at hb
          exact hb ▸ serviceable_adopt.1 h.2
        · intro h
          obtain ⟨exp', next', hmint', husable⟩ := h
          rw [hmint] at hmint'
          cases hmint'
          have hserviceable : ((c.charged next).adopt now a (c.serves now)).Serviceable now :=
            serviceable_adopt.2 (husable a hgrant)
          exact ⟨hserviceable.verdict, hserviceable⟩

theorem reissue_iff : ((∃ successor, (c.reissue root now).1 = .ok successor) ∧
      (c.reissue root now).2.Serviceable now) ↔
    ((c.issueNow root now).1 = .ok () ∧ (c.issueNow root now).2.Serviceable now) := by
  rw [reissue]
  rcases c.issueNow root now with ⟨answer, after⟩
  cases answer with
  | error e => simp
  | ok u =>
    dsimp only
    split
    · simp [Serviceable]
    · simp [Serviceable]

theorem usable_key_is_kept (c : DelegatedSigningCustody P) (root : Root) (now : I64)
    (hc : c.Serviceable now) :
    (((c.ensureActive root now).1 = .ok () ∧ (c.ensureActive root now).2.Serviceable now) ↔
      (c.needsIssuance now = true → c.attemptAllowed now = true → c.SafeApproach root now)) ∧
    (((∃ successor, (c.reissue root now).1 = .ok successor) ∧
        (c.reissue root now).2.Serviceable now) ↔
      c.SafeApproach root now) := by
  constructor
  · rw [ensureActive, issueIf_keeps_iff hc, Bool.and_eq_true, and_imp]
  · have hcommanded : (Serviceable { c with nextAttemptAt := none } now) := hc
    rw [reissue_iff, issueNow, issueIf_keeps_iff hcommanded]
    simp only [attemptAllowed, Option.all_none, Bool.and_self, forall_const]
    rfl

/-! ## The rate of approaches -/

/-- One scheduled call, and what the closures answer during it. -/
structure Call where
  now : I64
  root : Root

def step (c : DelegatedSigningCustody P) (call : Call) :
    Except CustodyError Unit × DelegatedSigningCustody P :=
  c.ensureActive call.root call.now

variable (c root now)

def reachesRoot : Bool :=
  c.needsIssuance now && c.attemptAllowed now
    && (mintable now c.cfg.window.ttl c.counter).toOption.isSome

def grantAt : Option (ActiveDelegatedKey P) :=
  (mintable now c.cfg.window.ttl c.counter).toOption.bind fun terms =>
    (c.charged terms.2).granted root now terms.1

def approaches (calls : List Call) : Nat :=
  ((Run.trace step c calls).filter fun t => t.before.reachesRoot t.event.now).length

end DelegatedSigningCustody

/-- The least time between two approaches: a full window less the overlap, or the hold-off. -/
def DelegatedKeyWindow.spacing (w : DelegatedKeyWindow) : Int :=
  min (w.ttl.val - w.overlap.val) (max (w.overlap.val / 10) 1)

theorem DelegatedKeyWindow.spacing_pos (w : DelegatedKeyWindow) : 0 < w.spacing := by
  have := w.overlap_lt_ttl
  rw [spacing]
  omega

namespace DelegatedSigningCustody

variable {P : Platform} (c : DelegatedSigningCustody P)

/-- Every window that the run adopts outlasts the overlap by the spacing: none is shortened so far
that its successor is due at once. -/
def Outlasting (calls : List Call) : Prop :=
  ∀ t ∈ Run.trace step c calls, t.before.reachesRoot t.event.now = true →
    ∀ a, t.before.grantAt t.event.root t.event.now = some a →
      t.event.now.val + c.cfg.window.overlap.val + c.cfg.window.spacing ≤ a.exp.val

instance (calls : List Call) : Decidable (c.Outlasting calls) :=
  decidable_of_iff (∀ t ∈ Run.trace step c calls, t.before.reachesRoot t.event.now = true →
    ((t.before.grantAt t.event.root t.event.now).all fun a => decide (t.event.now.val
      + c.cfg.window.overlap.val + c.cfg.window.spacing ≤ a.exp.val)) = true) <| by
    simp [Outlasting, Option.all_eq_true]

/-- No instant before `bound` reaches the root. -/
def QuietUntil (bound : Int) : Prop := ∀ now : I64, now.val < bound → c.reachesRoot now = false

variable {c} {root : Root} {now : I64}

theorem step_of_not_reaches {call : Call} (h : c.reachesRoot call.now = false) :
    (c.step call).2 = c := by
  rw [step, ensureActive]
  cases hneeds : c.needsIssuance call.now && c.attemptAllowed call.now with
  | false => rw [issueIf_left hneeds]
  | true =>
    cases hmint : mintable call.now c.cfg.window.ttl c.counter with
    | error e => rw [issueIf_unmintable hneeds hmint]
    | ok terms => simp [reachesRoot, hneeds, hmint, Except.toOption] at h

theorem step_of_reaches {call : Call} (h : c.reachesRoot call.now = true) :
    ∃ exp next, mintable call.now c.cfg.window.ttl c.counter = .ok (exp, next) ∧
      ((∃ a, c.grantAt call.root call.now = some a ∧
          (c.step call).2 = (c.charged next).adopt call.now a (c.serves call.now)) ∨
        (c.step call).2 = (c.charged next).heldOff call.now) := by
  obtain ⟨hneeds, hmintable⟩ := Bool.and_eq_true _ _ |>.mp h
  cases hmint : mintable call.now c.cfg.window.ttl c.counter with
  | error e => simp [hmint, Except.toOption] at hmintable
  | ok terms =>
    obtain ⟨exp, next⟩ := terms
    refine ⟨exp, next, rfl, ?_⟩
    have hgrantAt : c.grantAt call.root call.now
        = (c.charged next).granted call.root call.now exp := by
      rw [grantAt, hmint]
      rfl
    rw [step, ensureActive, hgrantAt]
    cases hgrant : (c.charged next).granted call.root call.now exp with
    | some a =>
      rw [issueIf_granted hneeds hmint hgrant]
      exact .inl ⟨a, rfl, rfl⟩
    | none =>
      rw [issueIf_declined hneeds hmint hgrant]
      exact .inr rfl

theorem cfg_step (call : Call) : (c.step call).2.cfg = c.cfg := by
  cases hreach : c.reachesRoot call.now with
  | false => rw [step_of_not_reaches hreach]
  | true =>
    obtain ⟨exp, next, -, ⟨a, -, hstep⟩ | hstep⟩ := step_of_reaches hreach
    · rw [hstep]; rfl
    · rw [hstep]; rfl

theorem rootInvocations_step_le (call : Call) :
    (c.step call).2.rootInvocations.toNat
      ≤ c.rootInvocations.toNat + if c.reachesRoot call.now then 1 else 0 := by
  have hincrement : (saturatingIncrement c.rootInvocations).toNat ≤ c.rootInvocations.toNat + 1 := by
    rw [saturatingIncrement, checkedIncrement]
    split_ifs
    · rw [Option.getD_some, UInt64.toNat_add]
      exact Nat.mod_le _ _
    · exact Nat.le_succ _
  cases hreach : c.reachesRoot call.now with
  | false => rw [step_of_not_reaches hreach]; simp
  | true =>
    obtain ⟨exp, next, -, ⟨a, -, hstep⟩ | hstep⟩ := step_of_reaches hreach
    · rw [hstep]; exact hincrement
    · rw [hstep]; exact hincrement

theorem quietUntil_adopt {a : ActiveDelegatedKey P} {isRotation : Bool} {bound : Int}
    (h : bound + c.cfg.window.overlap.val ≤ a.exp.val) :
    (c.adopt now a isRotation).QuietUntil bound := by
  intro t ht
  have hdue : rotationDue a.exp c.cfg.window.overlap t = false := by
    rw [rotationDue]
    have hoverlap := c.cfg.window.overlap_pos
    have hfits : I64.ofInt? (a.exp.val - c.cfg.window.overlap.val)
        = some ⟨a.exp.val - c.cfg.window.overlap.val, by have := t.min_le; omega,
          by have := a.exp.le_max; omega⟩ := I64.ofInt?_eq_some.2 rfl
    rw [hfits]
    refine decide_eq_false (not_le.2 ?_)
    change t.val < a.exp.val - c.cfg.window.overlap.val
    omega
  have hneeds : (c.adopt now a isRotation).needsIssuance t = false := hdue
  rw [reachesRoot, hneeds]
  rfl

theorem val_retryInterval {overlap : I64} (h : 0 < overlap.val) :
    (retryInterval overlap).val = max (overlap.val / 10) 1 := by
  have hclamp : (I64.clamp (overlap.val.tdiv issuanceAttemptsPerOverlap)).val
      = overlap.val / 10 := by
    have hmax := overlap.le_max
    change max (-2 ^ 63) (min (overlap.val.tdiv 10) (2 ^ 63 - 1)) = overlap.val / 10
    rw [Int.tdiv_eq_ediv_of_nonneg h.le]
    omega
  rw [retryInterval, I64.val_max, hclamp]
  rfl

/-- After a declined approach, the root is left alone for the hold-off. A hold-off that leaves the
range of the clock ends at its last instant, at which nothing can be minted. -/
theorem quietUntil_heldOff {bound : Int}
    (h : bound ≤ now.val + max (c.cfg.window.overlap.val / 10) 1) :
    (c.heldOff now).QuietUntil bound := by
  intro t ht
  have hnext : (nextAttemptAfter now c.cfg.window.overlap).val
      = min (now.val + max (c.cfg.window.overlap.val / 10) 1) (2 ^ 63 - 1) := by
    have hmin := now.min_le
    rw [nextAttemptAfter, I64.val_saturatingAdd, val_retryInterval c.cfg.window.overlap_pos]
    omega
  by_cases hlast : t.val = 2 ^ 63 - 1
  · have hmint : mintable t c.cfg.window.ttl (c.heldOff now).counter = .error .failClosedIssuance := by
      have hpos := c.cfg.window.overlap_pos
      have hlt := c.cfg.window.overlap_lt_ttl
      have hout : I64.ofInt? (t.val + c.cfg.window.ttl.val) = none := by
        rw [I64.ofInt?, dif_neg]
        omega
      rw [mintable, hout]
    have hcfg : (c.heldOff now).cfg = c.cfg := rfl
    rw [reachesRoot, hcfg, hmint]
    exact Bool.and_false _
  · have hgate : (c.heldOff now).attemptAllowed t = false := by
      refine decide_eq_false (not_le.2 ?_)
      rw [I64.lt_iff, hnext]
      have := t.le_max
      omega
    rw [reachesRoot, hgate, Bool.and_false, Bool.false_and]

/-- **Step lemma**: an approach leaves the root alone for the spacing. -/
theorem quietUntil_step {call : Call} (h : c.reachesRoot call.now = true)
    (hlasting : ∀ a, c.grantAt call.root call.now = some a →
      call.now.val + c.cfg.window.overlap.val + c.cfg.window.spacing ≤ a.exp.val) :
    (c.step call).2.QuietUntil (call.now.val + c.cfg.window.spacing) := by
  obtain ⟨exp, next, -, ⟨a, ha, hstep⟩ | hstep⟩ := step_of_reaches h
  · rw [hstep]
    apply quietUntil_adopt
    have := hlasting a ha
    change _ + c.cfg.window.overlap.val ≤ _
    omega
  · rw [hstep]
    apply quietUntil_heldOff
    have hspacing : c.cfg.window.spacing ≤ max (c.cfg.window.overlap.val / 10) 1 := min_le_right _ _
    change _ ≤ _ + max (c.cfg.window.overlap.val / 10) 1
    omega

theorem approaches_cons (call : Call) (calls : List Call) :
    c.approaches (call :: calls)
      = (if c.reachesRoot call.now then 1 else 0) + (c.step call).2.approaches calls := by
  rw [approaches, Run.trace, List.filter_cons]
  split_ifs
  · rw [List.length_cons, approaches, Nat.add_comm]
  · rw [Nat.zero_add, approaches]

theorem Outlasting.tail {call : Call} {calls : List Call} (h : c.Outlasting (call :: calls)) :
    (c.step call).2.Outlasting calls := by
  intro t ht
  rw [cfg_step]
  exact h t (List.mem_cons_of_mem _ ht)

theorem Outlasting.head {call : Call} {calls : List Call} (h : c.Outlasting (call :: calls))
    (hreach : c.reachesRoot call.now = true) :
    (c.step call).2.QuietUntil (call.now.val + c.cfg.window.spacing) :=
  quietUntil_step hreach (h _ List.mem_cons_self hreach)

/-- **Run lemma**: a run that is quiet at first approaches the root once per spacing. -/
theorem approaches_mul_le {calls : List Call} {bound last : Int} (hquiet : c.QuietUntil bound)
    (hlasting : c.Outlasting calls) (hlast : ∀ call ∈ calls, call.now.val ≤ last) :
    c.approaches calls * c.cfg.window.spacing ≤ max 0 (last - bound + c.cfg.window.spacing) := by
  -- Each approach moves `bound` past it by the spacing; the rest of the run pays for the rest.
  induction calls generalizing c bound with
  | nil => simp [approaches, Run.trace]
  | cons call calls ih =>
    have hrest : ∀ call ∈ calls, call.now.val ≤ last :=
      fun other hother => hlast other (List.mem_cons_of_mem _ hother)
    rw [approaches_cons]
    cases hreach : c.reachesRoot call.now with
    | false =>
      have hsame := @ih (c.step call).2 bound
        (by rw [step_of_not_reaches hreach]; exact hquiet) hlasting.tail hrest
      rw [cfg_step] at hsame
      simpa using hsame
    | true =>
      have hnow : call.now.val ≤ last := hlast call List.mem_cons_self
      have hbound : bound ≤ call.now.val := by
        by_contra hlt
        have := hquiet call.now (by omega)
        rw [hreach] at this
        cases this
      have hnext := ih (hlasting.head hreach) hlasting.tail hrest
      rw [cfg_step] at hnext
      have hpos := c.cfg.window.spacing_pos
      rw [if_pos rfl, Nat.cast_add, Nat.cast_one, add_mul, one_mul]
      omega

theorem approaches_mul_le_of_within {calls : List Call} {first last : Int} (hle : first ≤ last)
    (hlasting : c.Outlasting calls)
    (hwithin : ∀ call ∈ calls, first ≤ call.now.val ∧ call.now.val ≤ last) :
    c.approaches calls * c.cfg.window.spacing ≤ last - first + c.cfg.window.spacing := by
  induction calls generalizing c with
  | nil =>
    have hpos := c.cfg.window.spacing_pos
    simp only [approaches, Run.trace, List.filter_nil, List.length_nil, Nat.cast_zero, zero_mul]
    omega
  | cons call calls ih =>
    have hrest : ∀ other ∈ calls, first ≤ other.now.val ∧ other.now.val ≤ last :=
      fun other hother => hwithin other (List.mem_cons_of_mem _ hother)
    rw [approaches_cons]
    cases hreach : c.reachesRoot call.now with
    | false =>
      have hsame := ih (c := (c.step call).2) hlasting.tail hrest
      rw [cfg_step] at hsame
      simpa using hsame
    | true =>
      obtain ⟨hfirst, hlast⟩ := hwithin call List.mem_cons_self
      have hnext := approaches_mul_le (hlasting.head hreach) hlasting.tail fun other hother =>
        (hrest other hother).2
      rw [cfg_step] at hnext
      rw [if_pos rfl, Nat.cast_add, Nat.cast_one, add_mul, one_mul]
      omega

theorem rootInvocations_final_le (calls : List Call) :
    (Run.final step c calls).rootInvocations.toNat
      ≤ c.rootInvocations.toNat + c.approaches calls := by
  induction calls generalizing c with
  | nil => exact Nat.le_add_right _ _
  | cons call calls ih =>
    have hstep := rootInvocations_step_le (c := c) call
    have hrest := ih (c := (c.step call).2)
    rw [approaches_cons]
    change (Run.final step (c.step call).2 calls).rootInvocations.toNat ≤ _
    omega

theorem root_stays_off_the_hot_path (c : DelegatedSigningCustody P) (calls : List Call)
    (start : Int) (L : Nat)
    (hwithin : ∀ call ∈ calls, start ≤ call.now.val ∧ call.now.val ≤ start + L)
    (hlasting : c.Outlasting calls) :
    (c.approaches calls : Int) ≤ 1 + L / c.cfg.window.spacing ∧
    ((Run.final step c calls).rootInvocations.toNat : Int)
      ≤ c.rootInvocations.toNat + (1 + L / c.cfg.window.spacing) := by
  have hmul := approaches_mul_le_of_within (by omega) hlasting hwithin
  have hbound : (c.approaches calls : Int) ≤ 1 + L / c.cfg.window.spacing := by
    have hdiv : (c.approaches calls : Int) - 1 ≤ L / c.cfg.window.spacing := by
      apply Int.le_ediv_of_mul_le c.cfg.window.spacing_pos
      rw [sub_mul, one_mul]
      omega
    omega
  have hmetric := rootInvocations_final_le (c := c) calls
  exact ⟨hbound, by omega⟩

end DelegatedSigningCustody

/-! ## A server with a key life of 300 s and an overlap of 60 s

The key and its thumbprint are real ones. The root answers with credentials of its own windows. -/

namespace CustodySample

open TwoHops DelegatedSigningCustody

def thumbprint : Bytes :=
  [21, 85, 121, 186, 100, 238, 106, 239, 61, 210, 174, 125, 87, 238, 6, 107, 244, 122, 169, 102,
   251, 56, 223, 226, 188, 151, 56, 18, 59, 194, 193, 51]

def cfg : CustodyConfig where
  issuerKid := ['r']
  iss := ['i']
  profile := profileTag.toList
  aud := ['v']
  audienceHash := ['h']
  trustEpoch := ['e']
  serverRole := "server".toList
  serverTrustDomain := ['t']
  serverSubject := ['s']
  window := ⟨300, 60, by decide, by decide⟩

def headerValue (h : DelegationHeader) : Json :=
  .object [field "typ" (.string h.typ), field "alg" (.string h.alg), field "kid" (.string h.kid)]

def audValue : Audience → Json
  | .one who => .string who
  | .many whos => .array (whos.map Json.string)

def claimsValue (c : DelegationClaims) : Json :=
  .object [field "iss" (.string c.iss), field "iat" (.number c.iat.display),
    field "nbf" (.number c.nbf.display), field "exp" (.number c.exp.display),
    field "jti" (.string c.jti), field "aud" (audValue c.aud),
    field "mcp_re_profile" (.string c.mcpReProfile),
    field "mcp_re_audience_hash" (.string c.mcpReAudienceHash),
    field "mcp_re_server_signer" (.string c.mcpReServerSigner),
    field "mcp_re_key_use" (.string c.mcpReKeyUse), field "delegated_kid" (.string c.delegatedKid),
    field "issuer_kid" (.string c.issuerKid), field "trust_epoch" (.string c.trustEpoch),
    field "cnf" (.object [field "jwk" (.object [field "kty" (.string c.cnf.jwk.kty),
      field "crv" (.string c.cnf.jwk.crv), field "kid" (.string c.cnf.jwk.kid),
      field "x" (.string c.cnf.jwk.x)])])]

/-- The credential of an ordinal, with the instant it was asked for and its window. -/
structure Grant where
  ordinal : Nat
  iat : I64
  nbf : I64
  exp : I64

def header : DelegationHeader := ⟨delegationTyp.toList, delegationAlg.toList, ['r']⟩

def kid : Str := b64urlEncode thumbprint

def claims (g : Grant) : DelegationClaims where
  iss := ['i']
  iat := g.iat
  nbf := g.nbf
  exp := g.exp
  jti := "r#".toList ++ kid ++ '#' :: Nat.toDigits 10 g.ordinal
  aud := .one ['v']
  mcpReProfile := profileTag.toList
  mcpReAudienceHash := ['h']
  mcpReServerSigner := "server:t:s:".toList ++ kid
  mcpReKeyUse := keyUseResponseSigning.toList
  delegatedKid := kid
  issuerKid := ['r']
  trustEpoch := ['e']
  cnf := ⟨⟨jwkKtyOkp.toList, jwkCrvEd25519.toList, kid, b64urlEncode delegatedKey⟩⟩

def key : DelegatedSigningKey where
  sign _ := List.replicate 64 0
  length_sign _ := List.length_replicate
  publicKey := ⟨delegatedKey⟩

def platform (grants : List Grant) : Platform where
  sha256 b :=
    if b = utf8 (canonicalEd25519Jwk (b64urlEncode delegatedKey)) then toDigest thumbprint
    else ⟨List.replicate 32 0, length_zeros⟩
  fromSlice _ := none
  readDocument b :=
    (headerValue header :: grants.map fun g => claimsValue (claims g)).find? fun j => body j == b
  isPoint b := b == delegatedKey
  verifyStrict _ _ _ := false

/-- A root that attests what it is asked for, with a window of its own. -/
def grants (nbf exp : I64) : Root where
  fresh := key
  issue h c := some (b64urlEncode (body (headerValue h)) ++ '.'
    :: b64urlEncode (body (claimsValue { c with nbf, exp })) ++ '.' :: ['A', 'A'])

def declines : Root where
  fresh := key
  issue _ _ := none

def issuedAt1000 (P : Platform) : DelegatedSigningCustody P :=
  ((new cfg).ensureActive (grants 1000 1300) 1000).2

/-- The successor is asked for at 1250 and granted as asked. -/
theorem usable_key_is_kept_rotating :
    let c := issuedAt1000 (platform [⟨1, 1000, 1000, 1300⟩, ⟨2, 1250, 1250, 1550⟩])
    c.Serviceable 1250 ∧ (c.ensureActive (grants 1250 1550) 1250).1 = .ok () ∧
      (c.ensureActive (grants 1250 1550) 1250).2.Serviceable 1250 := by
  intro c
  have hrun : c.Serviceable 1250 ∧ mintable 1250 c.cfg.window.ttl c.counter = .ok (1550, 2) ∧
      ((c.charged 2).granted (grants 1250 1550) 1250 1550).all
        (fun a => decide (a.nbf ≤ 1250 ∧ 1250 < a.exp)) = true := by decide +kernel
  obtain ⟨hserviceable, hmint, husable⟩ := hrun
  refine ⟨hserviceable, (usable_key_is_kept c (grants 1250 1550) 1250 hserviceable).1.2 ?_⟩
  intro _ _
  refine ⟨1550, 2, hmint, fun a ha => ?_⟩
  rw [ha, Option.all_some, decide_eq_true_eq] at husable
  exact husable

/-- The root grants a window that has already ended: it is adopted in place of a usable key. -/
theorem usable_key_lost_to_clamped_window :
    let c := issuedAt1000 (platform [⟨1, 1000, 1000, 1300⟩, ⟨2, 1250, 1000, 1250⟩])
    c.Serviceable 1250 ∧
      (c.ensureActive (grants 1000 1250) 1250).1 = .error .failClosedIssuance ∧
      ¬(c.ensureActive (grants 1000 1250) 1250).2.Serviceable 1250 := by
  decide +kernel

/-- A root that declines from 1250 on: the calls at 1251 and 1255 are held off. -/
def outage : List Call :=
  [⟨1000, grants 1000 1300⟩, ⟨1100, declines⟩, ⟨1250, declines⟩, ⟨1251, declines⟩,
   ⟨1255, declines⟩, ⟨1256, declines⟩]

theorem root_stays_off_the_hot_path_outage :
    let c : DelegatedSigningCustody (platform [⟨1, 1000, 1000, 1300⟩]) := new cfg
    (∀ call ∈ outage, 1000 ≤ call.now.val ∧ call.now.val ≤ 1000 + (256 : Nat)) ∧
      c.Outlasting outage ∧ c.approaches outage = 3 ∧
      (c.approaches outage : Int) ≤ 1 + (256 : Nat) / cfg.window.spacing := by
  intro c
  have hwithin : ∀ call ∈ outage, 1000 ≤ call.now.val ∧ call.now.val ≤ 1000 + (256 : Nat) := by
    decide
  have hrun : c.Outlasting outage ∧ c.approaches outage = 3 := by decide +kernel
  exact ⟨hwithin, hrun.1, hrun.2,
    (root_stays_off_the_hot_path c outage 1000 256 hwithin hrun.1).1⟩

/-- Two calls at one instant, and a root that grants no more than the overlap: each call invokes
it. -/
theorem root_on_the_hot_path :
    let c : DelegatedSigningCustody (platform [⟨1, 1000, 1000, 1060⟩, ⟨2, 1000, 1000, 1060⟩]) :=
      new cfg
    let calls : List Call := [⟨1000, grants 1000 1060⟩, ⟨1000, grants 1000 1060⟩]
    (∀ call ∈ calls, 1000 ≤ call.now.val ∧ call.now.val ≤ 1000 + (0 : Nat)) ∧
      ¬(c.approaches calls : Int) ≤ 1 + (0 : Nat) / cfg.window.spacing := by
  decide +kernel

end CustodySample

end McpRe.Http

import McpRe.Lib.Slots
import McpRe.Retention.Verify.Store

/-!
# A completion and the capacity of the queue

The queue has twice as many places as there are permits, so that a completion should never find it
full. A permit can have three jobs queued: the rescind of one exchange, and of the next one on the
same permit the marker publication and the rescind, where that `reserve` was cancelled at its await.

* `complete_finds_room`: in a run in which no guard is dropped while its own publication is still
  queued behind a rescind, a completion finds fewer than `2 * K` jobs queued;
* `completion_refused`: with two permits, one exchange of that kind takes the place of the other's
  completion.
-/

namespace McpRe.Retention

open Lib Lib.Text Lib.Directory Lib.Slots Lib.Run
open McpRe.Http

variable {P : Platform} {serde : Serde} {K : Nat}

/-! ## The ledger of a state -/

/-- A job as an item of its exchange: the first job on a permit is a marker publication or an
import. -/
def WriteJob.item (job : WriteJob) : Item Nat where
  tenant := job.exchange
  kind :=
    match job.slot, job.kind with
    | false, _ => .cleanup
    | true, .publishOrWithdraw _ _ => .first
    | true, .publish _ _ none => .first
    | true, _ => .later

namespace EvidenceRetention

def held (s : EvidenceRetention) : Finset Nat :=
  ((List.range s.count).filter s.holdsPermit).toFinset

def unsent (s : EvidenceRetention) : Finset Nat :=
  ((List.range s.count).filter fun e => (s.exchanges e).stage.isUnsent).toFinset

def ledger (s : EvidenceRetention) : Ledger Nat := ⟨s.held, s.unsent, s.queue.map WriteJob.item⟩

variable {s : EvidenceRetention} {e : Nat}

theorem mem_held : e ∈ s.held ↔ e < s.count ∧ s.holdsPermit e = true := by
  simp [held]

theorem mem_unsent : e ∈ s.unsent ↔ e < s.count ∧ (s.exchanges e).stage.isUnsent = true := by
  simp [unsent]

theorem card_held (s : EvidenceRetention) : s.held.card = s.permitsHeld := by
  rw [held, List.toFinset_card_of_nodup (List.nodup_range.filter _), permitsHeld,
    List.countP_eq_length_filter]

theorem holdsPermit_iff : s.holdsPermit e = true ↔
    (s.exchanges e).stage.holds = true ∨
      ∃ job ∈ s.live, job.slot = true ∧ job.exchange = e := by
  simp [holdsPermit]

theorem holds_of_isUnsent {stage : Stage} (h : stage.isUnsent = true) : stage.holds = true := by
  cases stage <;> first | rfl | cases h

theorem unsent_subset_held (s : EvidenceRetention) : s.unsent ⊆ s.held := by
  intro e he
  rw [mem_unsent] at he
  exact mem_held.2 ⟨he.1, holdsPermit_iff.2 (.inl (holds_of_isUnsent he.2))⟩

theorem mem_slotTenants {queue : List WriteJob} :
    e ∈ slotTenants (queue.map WriteJob.item) ↔
      ∃ job ∈ queue, job.slot = true ∧ job.exchange = e := by
  have hkind : ∀ job : WriteJob, (!isCleanup job.item) = job.slot := by
    rintro ⟨_ | _ | ⟨_, _, _ | _⟩ | _, _, _ | _⟩ <;> rfl
  simp only [slotTenants, List.mem_map, List.mem_filter]
  constructor
  · rintro ⟨_, ⟨⟨job, hjob, rfl⟩, hslot⟩, rfl⟩
    exact ⟨job, hjob, (hkind job).symm.trans hslot, rfl⟩
  · rintro ⟨job, hjob, hslot, rfl⟩
    exact ⟨job.item, ⟨⟨job, hjob, rfl⟩, (hkind job).trans hslot⟩, rfl⟩

theorem mem_cleanupTenants {queue : List WriteJob} :
    e ∈ cleanupTenants (queue.map WriteJob.item) ↔
      ∃ job ∈ queue, job.slot = false ∧ job.exchange = e := by
  have hkind : ∀ job : WriteJob, isCleanup job.item = !job.slot := by
    rintro ⟨_ | _ | ⟨_, _, _ | _⟩ | _, _, _ | _⟩ <;> rfl
  simp only [cleanupTenants, List.mem_map, List.mem_filter]
  constructor
  · rintro ⟨_, ⟨⟨job, hjob, rfl⟩, hslot⟩, rfl⟩
    rw [hkind, Bool.not_eq_true'] at hslot
    exact ⟨job, hjob, hslot, rfl⟩
  · rintro ⟨job, hjob, hslot, rfl⟩
    exact ⟨job.item, ⟨⟨job, hjob, rfl⟩, by rw [hkind, hslot]; rfl⟩, rfl⟩

theorem notMem_slotTenants (h : s.holdsPermit e = false) :
    e ∉ slotTenants (s.queue.map WriteJob.item) := by
  intro hmem
  obtain ⟨job, hjob, hslot, heq⟩ := mem_slotTenants.1 hmem
  have hholds := holdsPermit_iff.2 (.inr ⟨job, List.mem_append_left _ hjob, hslot, heq⟩)
  rw [h] at hholds
  cases hholds

/-- An exchange at a quiet stage has no job with a slot. -/
theorem Sound.notMem_slotTenants (h : Sound P serde s)
    (hquiet : (s.exchanges e).stage.isQuiet = true) :
    e ∉ slotTenants (s.queue.map WriteJob.item) := by
  intro hmem
  obtain ⟨job, hjob, hslot, heq⟩ := mem_slotTenants.1 hmem
  have hawaits := (h.jobs.slot job (List.mem_append_left _ hjob) hslot).stage
  rw [heq, awaits_of_isQuiet hquiet] at hawaits
  cases hawaits

theorem Sound.room (h : Sound P serde s) (hb : Balanced K s.ledger)
    (hholds : (s.exchanges e).stage.holds = true) (hquiet : (s.exchanges e).stage.isQuiet = true) :
    s.queue.length < 2 * K := by
  have hlt : e < s.count := by
    refine h.lt_count fun hunused => ?_
    rw [hunused] at hholds
    cases hholds
  have hroom := hb.room (mem_held.2 ⟨hlt, holdsPermit_iff.2 (.inl hholds)⟩)
    (h.notMem_slotTenants hquiet)
  simpa [ledger] using hroom

/-! ## The ledger stays balanced -/

variable {s' : EvidenceRetention} {ex : Exchange} {kind : JobKind}

theorem balanced_of_nil (hb : Balanced K s.ledger) (hqueue : s'.queue = [])
    (hsub : s'.held ⊆ s.held) : Balanced K s'.ledger := by
  rw [ledger, hqueue]
  exact balanced_nil ((Finset.card_le_card hsub).trans hb.card_le) (unsent_subset_held s')

theorem balanced_of_released (hb : Balanced K s.ledger) (hcount : s'.count = s.count)
    (hqueue : s'.queue = s.queue) (hunsent : s'.unsent = s.unsent)
    (hothers : ∀ e', e' ≠ e → (e' ∈ s'.held ↔ e' ∈ s.held)) (hheld : e ∈ s.held)
    (hsent : e ∉ s.unsent) : Balanced K s'.ledger := by
  by_cases hmem : e ∈ s'.held
  · have hsame : s'.held = s.held := by
      ext e'
      by_cases heq : e' = e
      · simp only [heq, hmem, hheld]
      · exact hothers e' heq
    rw [ledger, hsame, hunsent, hqueue]
    exact hb
  · have herase : s'.held = s.held.erase e := by
      ext e'
      rw [Finset.mem_erase]
      by_cases heq : e' = e
      · simp only [heq, hmem, ne_eq, not_true_eq_false, false_and]
      · rw [hothers e' heq]
        exact ⟨fun h => ⟨heq, h⟩, fun h => h.2⟩
    have hfree : s'.holdsPermit e = false := by
      rw [Bool.eq_false_iff]
      intro hholds
      exact hmem (mem_held.2 ⟨hcount ▸ (mem_held.1 hheld).1, hholds⟩)
    have hslot := EvidenceRetention.notMem_slotTenants hfree
    rw [hqueue] at hslot
    rw [ledger, herase, hunsent, hqueue]
    exact Balanced.release hb hheld hsent hslot

theorem set_exchanges_self : (s.set e ex).exchanges e = ex := Function.update_self ..

theorem set_exchanges_of_ne {e' : Nat} (h : e' ≠ e) :
    (s.set e ex).exchanges e' = s.exchanges e' := Function.update_of_ne h ..

theorem mem_held_set {e' : Nat} (h : e' ≠ e) : e' ∈ (s.set e ex).held ↔ e' ∈ s.held := by
  rw [mem_held, mem_held, holdsPermit_iff, holdsPermit_iff, set_exchanges_of_ne h]
  rfl

theorem unsent_set (hbefore : (s.exchanges e).stage.isUnsent = false)
    (hafter : ex.stage.isUnsent = false) : (s.set e ex).unsent = s.unsent := by
  ext e'
  rw [mem_unsent, mem_unsent]
  by_cases heq : e' = e
  · rw [heq, set_exchanges_self, hbefore, hafter]
    rfl
  · rw [set_exchanges_of_ne heq]
    rfl

end EvidenceRetention

theorem Turn.holds {ex ex' : Exchange} (h : Turn ex ex') : ex.stage.holds = true := by
  cases h with
  | unsent hstage | failed hstage hack =>
    rcases hstage with ⟨hstage, -⟩ | ⟨hstage, -⟩ <;> rw [hstage] <;> rfl
  | unsentImport hstage | reserved hstage | crossing hstage | committed hstage | unrescinded hstage
  | returned hstage => rw [hstage]; rfl
  | spent hstage => rcases hstage with hstage | ⟨_, hstage⟩ <;> rw [hstage] <;> rfl
  | finished hstage => rcases hstage with ⟨_, hstage⟩ | ⟨_, hstage⟩ <;> rw [hstage] <;> rfl
  | abandoned hstage =>
    rcases hstage with ⟨_, hstage⟩ | hstage | ⟨_, hstage⟩ <;> rw [hstage] <;> rfl

theorem Turn.not_isUnsent {ex ex' : Exchange} (h : Turn ex ex') : ex'.stage.isUnsent = false := by
  cases h with
  | returned hstage =>
    rename_i result
    rcases result with _ | ⟨_ | _, _⟩ <;> rfl
  | _ => rfl

theorem isQuiet_of_isUnsent {stage : Stage} (h : stage.isUnsent = true) : stage.isQuiet = true := by
  cases stage <;> first | rfl | cases h

theorem not_isUnsent_of_awaits {stage : Stage} {kind : JobKind} (h : awaits kind stage = true) :
    stage.isUnsent = false := by
  rw [Bool.eq_false_iff]
  intro hunsent
  rw [awaits_of_isQuiet (isQuiet_of_isUnsent hunsent)] at h
  cases h

namespace EvidenceRetention

variable {s s' : EvidenceRetention} {e : Nat} {ex : Exchange} {kind : JobKind}

theorem balanced_turned (h : Sound P serde s) (hb : Balanced K s.ledger)
    (hturn : Turn (s.exchanges e) ex)
    (hunsent : (s.exchanges e).stage.isUnsent = true → s.writer = .stopped ∨ 2 * K ≤ s.queue.length) :
    Balanced K (s.set e ex).ledger := by
  have hheld : e ∈ s.held :=
    mem_held.2 ⟨h.lt_count hturn.ne_unused, holdsPermit_iff.2 (.inl hturn.holds)⟩
  cases hbefore : (s.exchanges e).stage.isUnsent with
  | false =>
    refine balanced_of_released hb rfl rfl (unsent_set hbefore hturn.not_isUnsent)
      (fun e' he' => mem_held_set he') hheld ?_
    intro hmem
    rw [mem_unsent, hbefore] at hmem
    cases hmem.2
  | true =>
    -- there was room for the job, so the writer is gone and the queue with it
    have hstopped : s.writer = .stopped := by
      rcases hunsent hbefore with hstopped | hfull
      · exact hstopped
      · have hroom := h.room hb hturn.holds (isQuiet_of_isUnsent hbefore)
        omega
    refine balanced_of_nil hb (h.stopped hstopped) fun e' he' => ?_
    by_cases heq : e' = e
    · rw [heq]
      exact hheld
    · exact (mem_held_set heq).1 he'

theorem held_sent (job : WriteJob) (hjob : job.exchange = e) (hheld : e ∈ s.held)
    (hafter : ex.stage.holds = true) :
    held { s.set e ex with queue := s.queue ++ [job] } = s.held := by
  ext e'
  by_cases heq : e' = e
  · rw [heq]
    refine ⟨fun _ => hheld, fun _ => mem_held.2 ⟨(mem_held.1 hheld).1, holdsPermit_iff.2 (.inl ?_)⟩⟩
    change ((s.set e ex).exchanges e).stage.holds = true
    rw [set_exchanges_self]
    exact hafter
  · have hset : e' ∈ (s.set e ex).held ↔ e' ∈ s.held := mem_held_set heq
    have hjobs : (∃ j ∈ live { s.set e ex with queue := s.queue ++ [job] },
        j.slot = true ∧ j.exchange = e') ↔
        ∃ j ∈ (s.set e ex).live, j.slot = true ∧ j.exchange = e' := by
      constructor
      · rintro ⟨j, hj, hslot, hexchange⟩
        refine ⟨j, ?_, hslot, hexchange⟩
        have hne : j ≠ job := fun hsame => heq (by rw [← hexchange, hsame, hjob])
        simpa [live, hne, set] using hj
      · rintro ⟨j, hj, hrest⟩
        refine ⟨j, ?_, hrest⟩
        simp only [live, set, List.mem_append] at hj ⊢
        exact hj.imp .inl id
    rw [← hset, mem_held, mem_held, holdsPermit_iff, holdsPermit_iff, hjobs]

/-- Is this the first job on the permit of an exchange? -/
def isFirstOf (e : Nat) (job : WriteJob) : Bool := isFirst job.item && job.exchange == e

/-- Does a rescind stand in front of the first job of an exchange? -/
def overtakes (e : Nat) : Bool → List WriteJob → Bool
  | _, [] => false
  | seen, job :: queue =>
    if isFirstOf e job then seen else overtakes e (seen || !job.slot) queue

/-- A guard is dropped, and the publication of its own marker is still queued behind a rescind: its
`reserve` was cancelled at the await. -/
def guardOvertaken (s : EvidenceRetention) : Action → Bool
  | .dropGuard e => overtakes e false s.queue
  | _ => false

theorem overtakes_of_seen {queue pre post : List WriteJob} {job : WriteJob} {seen : Bool}
    (hqueue : queue = pre ++ job :: post) (hfirst : isFirstOf e job = true)
    (hnone : ∀ j ∈ pre, isFirstOf e j = false) (hseen : seen = true ∨ ∃ j ∈ pre, j.slot = false) :
    overtakes e seen queue = true := by
  induction pre generalizing queue seen with
  | nil =>
    rw [hqueue, List.nil_append, overtakes, if_pos hfirst]
    rcases hseen with hseen | ⟨j, hj, -⟩
    · exact hseen
    · cases hj
  | cons a pre ih =>
    have ha : isFirstOf e a = false := hnone a List.mem_cons_self
    rw [hqueue, List.cons_append, overtakes, if_neg (by rw [ha]; exact Bool.false_ne_true)]
    refine ih rfl (fun j hj => hnone j (List.mem_cons_of_mem _ hj)) ?_
    rcases hseen with hseen | ⟨j, hj, hslot⟩
    · exact .inl (by rw [hseen, Bool.true_or])
    · rcases List.mem_cons.1 hj with rfl | hj
      · exact .inl (by rw [hslot]; exact Bool.or_true _)
      · exact .inr ⟨j, hj, hslot⟩

theorem Sound.ahead (h : Sound P serde s) (hguard : overtakes e false s.queue = false)
    (pre : List (Item Nat)) (i : Item Nat) (post : List (Item Nat))
    (hqueue : s.queue.map WriteJob.item = pre ++ i :: post) (hfirst : isFirst i = true)
    (htenant : i.tenant = e) : cleanupTenants pre = [] := by
  obtain ⟨preJobs, rest, hsplit, rfl, hrest⟩ := List.map_eq_append_iff.1 hqueue
  obtain ⟨job, postJobs, rfl, rfl, rfl⟩ := List.map_eq_cons_iff.1 hrest
  have hslotOf : ∀ j : WriteJob, isFirst j.item = true → j.slot = true := by
    rintro ⟨_ | _ | ⟨_, _, _ | _⟩ | _, _, _ | _⟩ hj <;> first | rfl | cases hj
  have hjob : isFirstOf e job = true := by
    rw [isFirstOf, hfirst, Bool.true_and, beq_iff_eq]
    exact htenant
  -- the exchange has one job with a slot, so this is its first
  have hnone : ∀ j ∈ preJobs, isFirstOf e j = false := by
    intro j hj
    rw [Bool.eq_false_iff]
    intro hfirst'
    simp only [isFirstOf, Bool.and_eq_true, beq_iff_eq] at hfirst'
    have hunique := h.jobs.unique
    rw [live, hsplit, List.append_assoc, List.map_append, List.nodup_append] at hunique
    refine hunique.2.2 _ (List.mem_map_of_mem hj) _
      (List.mem_map_of_mem (List.mem_append_left _ List.mem_cons_self)) ?_
    rw [hslotOf j hfirst'.1, hslotOf job hfirst, hfirst'.2]
    exact congrArg (Prod.mk true) htenant.symm
  rw [List.eq_nil_iff_forall_not_mem]
  intro t ht
  obtain ⟨j, hj, hslot, -⟩ := mem_cleanupTenants.1 ht
  have hover : overtakes e false s.queue = true :=
    overtakes_of_seen hsplit hjob hnone (.inr ⟨j, hj, hslot⟩)
  rw [hguard] at hover
  cases hover

theorem balanced_sent_slot (h : Sound P serde s) (hb : Balanced K s.ledger)
    (hsends : Sends P serde (s.exchanges e) kind true ex) :
    Balanced K (ledger { s.set e ex with queue := s.queue ++ [⟨kind, e, true⟩] }) := by
  have hholds : (s.exchanges e).stage.holds = true ∧ ex.stage.holds = true := by
    cases hsends with
    | publish hstage | commit hstage | complete hstage | send hstage => rw [hstage]; exact ⟨rfl, rfl⟩
  have hlt := h.lt_count hsends.ne_unused
  have hheld : e ∈ s.held := mem_held.2 ⟨hlt, holdsPermit_iff.2 (.inl hholds.1)⟩
  have hslot := h.notMem_slotTenants hsends.of_slot.1
  have hafter : ex.stage.isUnsent = false := by
    cases hsends <;> rfl
  have hledger : ∀ unsent', (s.set e ex).unsent = unsent' →
      ledger { s.set e ex with queue := s.queue ++ [⟨kind, e, true⟩] }
        = ⟨s.held, unsent', s.queue.map WriteJob.item ++ [WriteJob.item ⟨kind, e, true⟩]⟩ := by
    intro unsent' hunsent
    rw [ledger, held_sent _ rfl hheld hholds.2, List.map_append, List.map_singleton, ← hunsent]
    rfl
  cases hbefore : (s.exchanges e).stage.isUnsent with
  | true =>
    have hunsent : (s.set e ex).unsent = s.unsent.erase e := by
      ext e'
      rw [mem_unsent, Finset.mem_erase, mem_unsent]
      by_cases heq : e' = e
      · rw [heq, set_exchanges_self, hafter]
        simp
      · rw [set_exchanges_of_ne heq]
        exact ⟨fun hmem => ⟨heq, hmem⟩, fun hmem => hmem.2⟩
    have hitem : WriteJob.item ⟨kind, e, true⟩ = ⟨e, .first⟩ := by
      cases hsends with
      | publish hstage => rfl
      | send hstage =>
        have hwf := h.wf e
        rw [Exchange.Wf, hstage] at hwf
        obtain ⟨record, rfl⟩ := hwf
        rfl
      | commit hstage | complete hstage =>
        rw [hstage] at hbefore
        cases hbefore
    rw [hledger _ hunsent, hitem]
    exact Balanced.sendFirst hb (mem_unsent.2 ⟨hlt, hbefore⟩)
  | false =>
    have hitem : WriteJob.item ⟨kind, e, true⟩ = ⟨e, .later⟩ := by
      cases hsends with
      | publish hstage | send hstage =>
        rw [hstage] at hbefore
        cases hbefore
      | commit hstage => rfl
      | complete hstage => rfl
    rw [hledger _ (unsent_set hbefore hafter), hitem]
    refine Balanced.sendLater hb hheld ?_ hslot
    intro hmem
    rw [mem_unsent, hbefore] at hmem
    cases hmem.2

theorem balanced_sent_cleanup (h : Sound P serde s) (hb : Balanced K s.ledger)
    (hsends : Sends P serde (s.exchanges e) kind false ex)
    (hguard : overtakes e false s.queue = false) :
    Balanced K (ledger { s.set e ex with queue := s.queue ++ [⟨kind, e, false⟩] }) := by
  have hstages : (s.exchanges e).stage.holds = true ∧ (s.exchanges e).stage.isUnsent = false ∧
      ex.stage.holds = true ∧ ex.stage.isUnsent = false := by
    cases hsends with
    | rescind hstage | crossed hstage => rw [hstage]; exact ⟨rfl, rfl, rfl, rfl⟩
  obtain ⟨hholds, hbefore, hholds', hafter⟩ := hstages
  have hheld : e ∈ s.held :=
    mem_held.2 ⟨h.lt_count hsends.ne_unused, holdsPermit_iff.2 (.inl hholds)⟩
  have hledger : ledger { s.set e ex with queue := s.queue ++ [⟨kind, e, false⟩] }
      = ⟨s.held, s.unsent, s.queue.map WriteJob.item ++ [⟨e, .cleanup⟩]⟩ := by
    rw [ledger, held_sent _ rfl hheld hholds', List.map_append, List.map_singleton,
      ← unsent_set hbefore hafter]
    rfl
  rw [hledger]
  refine Balanced.sendCleanup hb hheld ?_ ?_ (h.ahead hguard)
  · intro hmem
    rw [mem_unsent, hbefore] at hmem
    cases hmem.2
  · intro hmem
    obtain ⟨job, hjob, hslot, heq⟩ := mem_cleanupTenants.1 hmem
    have hrescinds := (h.jobs.cleanup job (List.mem_append_left _ hjob) hslot).stage
    rw [heq, hsends.of_cleanup.1] at hrescinds
    cases hrescinds

theorem balanced_admitted (h : Sound P serde s) (hb : Balanced K s.ledger)
    (hnew : Admits P serde ex) (hroom : ex.stage.holds = true → s.permitsHeld < K) :
    Balanced K (s.admitted ex).ledger := by
  have hself : (s.admitted ex).exchanges s.count = ex := Function.update_self ..
  have hother : ∀ e', e' ≠ s.count → (s.admitted ex).exchanges e' = s.exchanges e' := fun e' he' =>
    Function.update_of_ne he' ..
  have hnone : ∀ job ∈ s.live, job.exchange ≠ s.count := by
    intro job hjob heq
    have hunused : (s.exchanges job.exchange).stage = .unused := by
      rw [heq, h.fresh s.count (Nat.le_refl _)]
      rfl
    cases hslot : job.slot with
    | true =>
      have hawaits := (h.jobs.slot job hjob hslot).stage
      rw [hunused, awaits_of_isQuiet rfl] at hawaits
      cases hawaits
    | false =>
      have hrescinds := (h.jobs.cleanup job hjob hslot).stage
      rw [hunused] at hrescinds
      cases hrescinds
  have hmem : ∀ e', e' ∈ (s.admitted ex).held ↔
      e' ∈ s.held ∨ e' = s.count ∧ ex.stage.holds = true := by
    intro e'
    rw [mem_held, mem_held, holdsPermit_iff, holdsPermit_iff]
    by_cases heq : e' = s.count
    · rw [heq, hself]
      have hjobs : ¬∃ job ∈ (s.admitted ex).live, job.slot = true ∧ job.exchange = s.count := by
        rintro ⟨job, hjob, -, hexchange⟩
        exact hnone job hjob hexchange
      have hlt : s.count < (s.admitted ex).count := Nat.lt_succ_self _
      simp only [hlt, hjobs, or_false, true_and, Nat.lt_irrefl, false_and, false_or]
    · rw [hother e' heq]
      have hlt : e' < (s.admitted ex).count ↔ e' < s.count := by
        simp only [EvidenceRetention.admitted]
        omega
      simp only [hlt, heq, false_and, or_false]
      rfl
  have hunsent : ∀ e', e' ∈ (s.admitted ex).unsent ↔
      e' ∈ s.unsent ∨ e' = s.count ∧ ex.stage.isUnsent = true := by
    intro e'
    rw [mem_unsent, mem_unsent]
    by_cases heq : e' = s.count
    · rw [heq, hself]
      simp [EvidenceRetention.admitted]
    · rw [hother e' heq]
      have hlt : e' < (s.admitted ex).count ↔ e' < s.count := by
        simp only [EvidenceRetention.admitted]
        omega
      simp only [hlt, heq, false_and, or_false]
  have hcount : s.count ∉ s.held := fun hmem' => Nat.lt_irrefl _ (mem_held.1 hmem').1
  have hacquired : ex.stage.holds = true → ex.stage.isUnsent = true →
      Balanced K (s.admitted ex).ledger := by
    intro hholds hisUnsent
    have hheld : (s.admitted ex).held = insert s.count s.held := by
      ext e'
      rw [hmem, Finset.mem_insert, hholds]
      simp [or_comm]
    have hunsent' : (s.admitted ex).unsent = insert s.count s.unsent := by
      ext e'
      rw [hunsent, Finset.mem_insert, hisUnsent]
      simp [or_comm]
    rw [ledger, hheld, hunsent']
    refine Balanced.acquire hb hcount ?_ (by rw [card_held]; exact hroom hholds)
    intro i hi
    obtain ⟨job, hjob, rfl⟩ := List.mem_map.1 hi
    exact hnone job (List.mem_append_left _ hjob)
  cases hnew with
  | acquired request => exact hacquired rfl rfl
  | importing request response => exact hacquired rfl rfl
  | refused request =>
    have hheld : (s.admitted ⟨some request, .gone, some (.error queueIsFull), none⟩).held
        = s.held := by
      ext e'
      rw [hmem]
      simp [Stage.holds]
    have hunsent' : (s.admitted ⟨some request, .gone, some (.error queueIsFull), none⟩).unsent
        = s.unsent := by
      ext e'
      rw [hunsent]
      simp [Stage.isUnsent]
    rw [ledger, hheld, hunsent']
    exact hb

theorem holds_receive (stage : Stage) (ack : Ack) : (stage.receive ack).holds = stage.holds := by
  cases stage with
  | reserving a | committing a | completing a | retaining a => cases a <;> rfl
  | _ => rfl

theorem isUnsent_receive (stage : Stage) (ack : Ack) :
    (stage.receive ack).isUnsent = stage.isUnsent := by
  cases stage with
  | reserving a | committing a | completing a | retaining a => cases a <;> rfl
  | _ => rfl

theorem balanced_wrote (h : Sound P serde s) (hb : Balanced K s.ledger) (hwrites : Writes s s') :
    Balanced K s'.ledger := by
  cases hwrites with
  | kept hexchanges hcount hlive hqueue hstopped =>
    have hheld : s'.held = s.held := by
      ext e'
      rw [mem_held, mem_held, holdsPermit_iff, holdsPermit_iff, hexchanges, hcount]
      simp only [hlive.mem_iff]
    have hunsent : s'.unsent = s.unsent := by
      ext e'
      rw [mem_unsent, mem_unsent, hexchanges, hcount]
    rw [ledger, hheld, hunsent]
    rcases hqueue with hqueue | ⟨job, hqueue⟩
    · rw [hqueue]
      exact hb
    · rw [ledger, hqueue, List.map_cons] at hb
      exact hb.take
  | acknowledged job outcome hexchanges hcount hlive hqueue hstopped =>
    have hstage : ∀ e', (s'.exchanges e').stage.holds = (s.exchanges e').stage.holds ∧
        (s'.exchanges e').stage.isUnsent = (s.exchanges e').stage.isUnsent := by
      intro e'
      rw [hexchanges]
      split
      · by_cases heq : e' = job.exchange
        · rw [heq, Function.update_self]
          exact ⟨holds_receive .., isUnsent_receive ..⟩
        · rw [Function.update_of_ne heq]
          exact ⟨rfl, rfl⟩
      · exact ⟨rfl, rfl⟩
    have hunsent : s'.unsent = s.unsent := by
      ext e'
      rw [mem_unsent, mem_unsent, (hstage e').2, hcount]
    have hjobs : ∀ e', (∃ j ∈ s.live, j.slot = true ∧ j.exchange = e') ↔
        (job.slot = true ∧ job.exchange = e') ∨ ∃ j ∈ s'.live, j.slot = true ∧ j.exchange = e' := by
      intro e'
      simp only [hlive.mem_iff, List.mem_cons, or_and_right, exists_or, exists_eq_left]
    have hheld : ∀ e', ¬(job.slot = true ∧ job.exchange = e') → (e' ∈ s'.held ↔ e' ∈ s.held) := by
      intro e' hnot
      rw [mem_held, mem_held, holdsPermit_iff, holdsPermit_iff, (hstage e').1, hcount, hjobs e']
      simp only [hnot, false_or]
    cases hslot : job.slot with
    | false =>
      have hsame : s'.held = s.held := by
        ext e'
        exact hheld e' (by rw [hslot]; simp)
      rw [ledger, hsame, hunsent, hqueue]
      exact hb
    | true =>
      have hmem : job ∈ s.live := hlive.mem_iff.2 List.mem_cons_self
      have hbelongs := h.jobs.slot job hmem hslot
      have hlt : job.exchange < s.count := by
        refine h.lt_count fun hunused => ?_
        have hawaits := hbelongs.stage
        rw [hunused, awaits_of_isQuiet rfl] at hawaits
        cases hawaits
      refine balanced_of_released hb hcount hqueue hunsent
        (fun e' he' => hheld e' fun hj => he' hj.2.symm)
        (mem_held.2 ⟨hlt, holdsPermit_iff.2 (.inr ⟨job, hmem, hslot, rfl⟩)⟩) ?_
      intro hmem'
      rw [mem_unsent, not_isUnsent_of_awaits hbelongs.stage] at hmem'
      cases hmem'.2

/-- **Every step keeps the ledger balanced**, unless it drops a guard that is overtaken. -/
theorem balanced_step (action : Action) (h : Sound P serde s) (hb : Balanced K s.ledger)
    (hguard : s.guardOvertaken action = false) :
    Balanced K (step P serde K s action).2.ledger := by
  have hmoves : Moves P serde K s action (step P serde K s action).2 := step_moves s action
  generalize (step P serde K s action).2 = s' at hmoves
  cases hmoves with
  | idle => exact hb
  | admitted hnew hroom => exact balanced_admitted h hb hnew hroom
  | turned hturn hunsent => exact balanced_turned h hb hturn hunsent
  | sent hsends halive haction =>
    rename_i slot _
    cases slot with
    | true => exact balanced_sent_slot h hb hsends
    | false =>
      rw [haction rfl] at hguard
      exact balanced_sent_cleanup h hb hsends hguard
  | wrote haction => exact balanced_wrote h hb (writeStep_writes s _)
  | stopped haction =>
    refine balanced_of_nil hb rfl fun e' he' => ?_
    rw [mem_held, holdsPermit_iff] at he'
    refine mem_held.2 ⟨he'.1, holdsPermit_iff.2 (.inl ?_)⟩
    rcases he'.2 with hholds | ⟨job, hjob, -⟩
    · exact (holds_receive (s.exchanges e').stage .lost).symm.trans hholds
    · cases hjob
  | crashed haction =>
    refine balanced_of_nil hb rfl fun e' he' => ?_
    rw [mem_held, holdsPermit_iff] at he'
    rcases he'.2 with hholds | ⟨job, hjob, -⟩
    · cases hstage : (s.exchanges e').stage.holds with
      | true => exact mem_held.2 ⟨he'.1, holdsPermit_iff.2 (.inl hstage)⟩
      | false => simp [step, hstage] at hholds
    · cases hjob

/-- A completion that finds room is not refused for the queue. -/
theorem complete_not_full {response : HttpResponse}
    (hroom : s.queue.length < writeQueueCapacity K) :
    (step P serde K s (.complete e response)).1 ≠ .refused queueIsFull := by
  simp only [step]
  split
  · rename_i request _ _
    cases hsend : s.trySend K (.accounted (completionJob P serde (s.exchanges e) request response) e)
      with
    | ok s' => simp
    | error err =>
      unfold trySend at hsend
      split at hsend
      · cases hsend
        simp [queueIsFull]
      · rw [if_pos hroom] at hsend
        cases hsend
  · simp [queueIsFull]
  · simp [queueIsFull]
  · simp

/-- **A completion finds room**: in every run in which no guard is dropped while the publication of
its own marker is queued behind a rescind, a completion of a committed exchange finds fewer than
`2 * K` jobs queued, and is not refused for capacity. -/
theorem complete_finds_room (P : Platform) (serde : Serde) (K : Nat) (actions : List Action)
    (hguard : ∀ t ∈ trace (step P serde K) opened actions,
      t.before.guardOvertaken t.event = false) :
    ∀ t ∈ trace (step P serde K) opened actions, ∀ e response, t.event = .complete e response →
      (t.before.exchanges e).stage = .committed true →
      t.before.queue.length < 2 * K ∧ t.answer ≠ .refused queueIsFull := by
  have hopened : Sound P serde opened ∧ Balanced K opened.ledger :=
    ⟨sound_opened, balanced_nil (Nat.zero_le K) (unsent_subset_held opened)⟩
  have hstep : ∀ s action, Sound P serde s ∧ Balanced K s.ledger → s.guardOvertaken action = false →
      Sound P serde (step P serde K s action).2 ∧ Balanced K (step P serde K s action).2.ledger :=
    fun s action h hg => ⟨h.1.step s action, balanced_step action h.1 h.2 hg⟩
  have hinvariant := (invariant_of_guard hstep hopened hguard).1
  intro t ht e response hevent hstage
  obtain ⟨hsound, hbalanced⟩ := (hinvariant t ht).1
  have hroom : t.before.queue.length < 2 * K :=
    hsound.room hbalanced (by rw [hstage]; rfl) (by rw [hstage]; rfl)
  refine ⟨hroom, ?_⟩
  have hanswer := (step_eq_of_mem_trace (step P serde K) ht).2
  rw [hevent] at hanswer
  have hnot : (step P serde K t.before (.complete e response)).1 ≠ .refused queueIsFull :=
    complete_not_full hroom
  rwa [hanswer] at hnot

end EvidenceRetention

namespace StoreSample

open EvidenceRetention

def committedFirst : List Action :=
  reserving 1 0 ++ reserving 2 1 ++ [Action.commitToDispatch 0] ++ served
    ++ [Action.resume 0, .dropGuard 0]

/-- The second is given up, and the next `reserve` on its permit is cancelled before the writer comes
to it. -/
def cancelledNext : List Action :=
  [.drop 1, .dropGuard 1, .letGo 1, .reserve (request 3), .publish 2, .drop 2, .dropGuard 2]

def contended : List Action :=
  committedFirst ++ [Action.drop 1, .dropGuard 1, .complete 0 response]

theorem complete_finds_room_contended :
    (∀ t ∈ trace (step platform json 2) opened contended,
        t.before.guardOvertaken t.event = false) ∧
      ∃ t ∈ trace (step platform json 2) opened contended, t.event = .complete 0 response ∧
        (t.before.exchanges 0).stage = .committed true ∧ t.before.queue.length < 2 * 2 ∧
        t.answer ≠ .refused queueIsFull := by
  have hguard : ∀ t ∈ trace (step platform json 2) opened contended,
      t.before.guardOvertaken t.event = false := by
    have hall : ((trace (step platform json 2) opened contended).all
        fun t => !t.before.guardOvertaken t.event) = true := by decide +kernel
    intro t ht
    simpa using List.all_eq_true.1 hall t ht
  have hstage : ((final (step platform json 2) opened
      (committedFirst ++ [Action.drop 1, .dropGuard 1])).exchanges 0).stage = .committed true := by
    decide +kernel
  obtain ⟨t, ht, hbefore, hevent⟩ : ∃ t ∈ trace (step platform json 2) opened contended,
      t.before = final (step platform json 2) opened
          (committedFirst ++ [Action.drop 1, .dropGuard 1]) ∧
        t.event = .complete 0 response := by
    exact exists_last_step (step platform json 2) opened
      (committedFirst ++ [Action.drop 1, .dropGuard 1]) (.complete 0 response)
  have hcommitted : (t.before.exchanges 0).stage = .committed true := by rw [hbefore]; exact hstage
  exact ⟨hguard, t, ht, hevent, hcommitted,
    complete_finds_room platform json 2 contended hguard t ht 0 response hevent hcommitted⟩

/-- With two permits, the completion of a committed exchange finds four jobs queued. -/
theorem completion_refused :
    let s := final (step platform json 2) opened (committedFirst ++ cancelledNext)
    (s.exchanges 0).stage = .committed true ∧ s.queue.length = 2 * 2 ∧
      (step platform json 2 s (.complete 0 response)).1 = .refused queueIsFull := by
  decide +kernel

end StoreSample

end McpRe.Retention

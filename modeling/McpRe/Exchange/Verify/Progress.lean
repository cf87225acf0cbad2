import McpRe.Exchange.Progress
import McpRe.Lib.Run

/-!
# A published success followed the whole pipeline

`advance` admits every event, so a sequence of operations says little by itself. What is tracked is
that a tuple with no latched anomaly stands where the transition relation, run over the events so
far, stands. The refusals are the exception: the relation takes them to a terminal state, `advance`
leaves the tuple where it is.
-/

namespace McpRe.Exchange

open Lib.Run

/-! ## The transition relation -/

theorem transition_refused {s t : ExchangeState} (h : transition s .refused = .ok t) :
    t.isTerminal = true := by
  unfold transition at h
  split at h
  · cases h
  · simp only [if_true] at h
    split at h
    all_goals
      cases h
      rfl

theorem transition_of_isTerminal {s : ExchangeState} (h : s.isTerminal = true)
    (e : ExchangeEvent) : transition s e = .error ⟨⟩ :=
  if_pos h

/-- A legal step other than a refusal establishes the state it reaches, further down the
pipeline. -/
theorem transition_establishes {s t : ExchangeState} {e : ExchangeEvent} (hne : e ≠ .refused)
    (h : transition s e = .ok t) : e.establishes = some t ∧ s < t := by
  unfold transition at h
  rw [if_neg hne] at h
  split at h
  · cases h
  · split at h
    all_goals first | cases h; exact ⟨rfl, by decide⟩ | cases h

theorem isTerminal_of_isSuccessTerminal {s : ExchangeState} (h : s.isSuccessTerminal = true) :
    s.isTerminal = true := by
  cases s <;> first | rfl | cases h

theorem establishes_le {e : ExchangeEvent} {t : ExchangeState} (h : e.establishes = some t) :
    t.ctorIdx ≤ ExchangeState.completedContinuationOpen.ctorIdx := by
  cases e <;> cases h <;> decide

theorem backendMayHaveExecuted_iff {s : ExchangeState}
    (h : s.ctorIdx ≤ ExchangeState.completedContinuationOpen.ctorIdx) :
    s.backendMayHaveExecuted = true ↔
      ExchangeState.retentionCommitted.ctorIdx ≤ s.ctorIdx := by
  revert h
  cases s <;> decide

/-- A run of the relation ends at a refusal. -/
theorem foldlM_transition_of_refused {events tail : List ExchangeEvent}
    (h : .refused ∈ events) (hne : tail ≠ []) (s t : ExchangeState) :
    (events ++ tail).foldlM transition s ≠ .ok t := by
  induction events generalizing s with
  | nil => cases h
  | cons e events ih =>
    rw [List.cons_append, List.foldlM_cons]
    cases hstep : transition s e with
    | error => exact nofun
    | ok s' =>
      rcases List.mem_cons.1 h with rfl | h
      · obtain ⟨e', rest, hrest⟩ := List.exists_cons_of_ne_nil
          (List.append_ne_nil_of_right_ne_nil events hne)
        change (events ++ tail).foldlM transition s' ≠ .ok t
        rw [hrest, List.foldlM_cons, transition_of_isTerminal (transition_refused hstep)]
        exact nofun
      · exact ih h s'

namespace ExchangeProgress

/-! ## What one event changes -/

/-- The machines beside the pipeline stand as they stood. -/
structure Beside (p q : ExchangeProgress) : Prop where
  continuation : q.continuation = p.continuation
  origin : q.origin = p.origin
  openLeg : q.openLeg = p.openLeg

theorem Beside.trans {p q r : ExchangeProgress} (h : Beside p q) (h' : Beside q r) : Beside p r :=
  ⟨h'.continuation.trans h.continuation, h'.origin.trans h.origin, h'.openLeg.trans h.openLeg⟩

@[simp]
theorem request_latch (p : ExchangeProgress) (what : String) :
    (p.latch what).request = p.request := by
  unfold latch
  split <;> rfl

theorem beside_latch (p : ExchangeProgress) (what : String) : Beside p (p.latch what) := by
  unfold latch
  split <;> exact ⟨rfl, rfl, rfl⟩

theorem anomaly_latch_ne_none (p : ExchangeProgress) (what : String) :
    (p.latch what).anomaly ≠ none := by
  unfold latch
  split
  · exact nofun
  · rwa [Option.isNone_iff_eq_none] at *

theorem checkInvariants_cases (p : ExchangeProgress) :
    p.checkInvariants = p ∧ p.invariantViolation = none ∨
      ∃ what, p.checkInvariants = p.latch what := by
  unfold checkInvariants
  cases p.invariantViolation with
  | none => exact .inl ⟨rfl, rfl⟩
  | some violation => exact .inr ⟨violation, rfl⟩

def raised (p : ExchangeProgress) (e : ExchangeEvent) : ExchangeProgress :=
  (p.raise e).syncBackend

theorem raised_eq (p : ExchangeProgress) (e : ExchangeEvent) :
    p.raised e = { p with request := (p.raised e).request, backend := (p.raised e).backend } := by
  unfold raised syncBackend raise
  cases e.establishes with
  | none => rfl
  | some floor =>
    dsimp only
    split <;> rfl

theorem beside_raised (p : ExchangeProgress) (e : ExchangeEvent) : Beside p (p.raised e) := by
  rw [raised_eq]
  exact ⟨rfl, rfl, rfl⟩

theorem anomaly_raised (p : ExchangeProgress) (e : ExchangeEvent) :
    (p.raised e).anomaly = p.anomaly := by
  rw [raised_eq]

theorem request_raised_latch (p : ExchangeProgress) (what : String) (e : ExchangeEvent) :
    ((p.latch what).raised e).request = (p.raised e).request := by
  unfold raised syncBackend raise
  cases e.establishes with
  | none => exact p.request_latch what
  | some floor =>
    simp only [request_latch]
    split
    · rfl
    · exact p.request_latch what

/-- **The step lemma of `advance`.** The pipeline is raised to what the event establishes. Where no
anomaly is left, the step is legal and the tuple is coherent. -/
theorem advance_cases (p : ExchangeProgress) (e : ExchangeEvent) :
    (p.advance e).request = (p.raised e).request ∧ Beside p (p.advance e) ∧
      ((p.advance e).anomaly ≠ none ∨
        p.advance e = p.raised e ∧ (∃ t, transition p.request e = .ok t) ∧
          (p.raised e).invariantViolation = none) := by
  unfold advance checkTransition
  cases htransition : transition p.request e with
  | ok t =>
    change ((p.raised e).checkInvariants).request = _ ∧ Beside p (p.raised e).checkInvariants ∧
      (((p.raised e).checkInvariants).anomaly ≠ none ∨ (p.raised e).checkInvariants = _ ∧ _)
    obtain ⟨heq, hcoherent⟩ | ⟨what, heq⟩ := (p.raised e).checkInvariants_cases
    · rw [heq]
      exact ⟨rfl, p.beside_raised e, .inr ⟨rfl, ⟨t, rfl⟩, hcoherent⟩⟩
    · rw [heq, request_latch]
      exact ⟨rfl, (p.beside_raised e).trans (beside_latch _ what),
        .inl (anomaly_latch_ne_none _ what)⟩
  | error _ =>
    dsimp only
    generalize hillegal : "the serving path drove an illegal exchange transition" = illegal
    change (((p.latch illegal).raised e).checkInvariants).request = _ ∧
      Beside p ((p.latch illegal).raised e).checkInvariants ∧
      ((((p.latch illegal).raised e).checkInvariants).anomaly ≠ none ∨ _)
    have hbeside : Beside p ((p.latch illegal).raised e) :=
      (beside_latch p illegal).trans (beside_raised _ e)
    have hanomaly : ((p.latch illegal).raised e).anomaly ≠ none := by
      rw [anomaly_raised]
      exact anomaly_latch_ne_none p illegal
    obtain ⟨heq, -⟩ | ⟨what, heq⟩ := ((p.latch illegal).raised e).checkInvariants_cases
    · rw [heq, request_raised_latch]
      exact ⟨rfl, hbeside, .inl hanomaly⟩
    · rw [heq, request_latch, request_raised_latch]
      exact ⟨rfl, hbeside.trans (beside_latch _ what), .inl (anomaly_latch_ne_none _ what)⟩

theorem beside_advance (p : ExchangeProgress) (e : ExchangeEvent) : Beside p (p.advance e) :=
  (p.advance_cases e).2.1

/-- An anomaly stays, and it is left where the step is not legal or the tuple not coherent. -/
theorem of_anomaly_advance_eq_none {p : ExchangeProgress} {e : ExchangeEvent}
    (h : (p.advance e).anomaly = none) :
    p.anomaly = none ∧ (∃ t, transition p.request e = .ok t) ∧
      (p.advance e).invariantViolation = none := by
  obtain ⟨-, -, hne | ⟨heq, hlegal, hcoherent⟩⟩ := p.advance_cases e
  · exact absurd h hne
  · rw [heq, anomaly_raised] at h
    exact ⟨h, hlegal, heq ▸ hcoherent⟩

theorem request_advance_cases (p : ExchangeProgress) (e : ExchangeEvent) :
    (p.advance e).request = p.request ∨
      ∃ floor, e.establishes = some floor ∧ p.request < floor ∧
        (p.advance e).request = floor := by
  rw [(p.advance_cases e).1]
  unfold raised syncBackend raise
  cases hfloor : e.establishes with
  | none => exact .inl rfl
  | some floor =>
    by_cases hlt : p.request < floor
    · exact .inr ⟨floor, rfl, hlt, by simp [hlt]⟩
    · exact .inl (by simp [hlt])

/-- A refusal leaves the pipeline where it is. -/
theorem request_advance_refused (p : ExchangeProgress) :
    (p.advance .refused).request = p.request :=
  (p.advance_cases .refused).1

theorem request_advance_of_transition {p : ExchangeProgress} {e : ExchangeEvent}
    {t : ExchangeState} (hne : e ≠ .refused) (h : transition p.request e = .ok t) :
    (p.advance e).request = t := by
  obtain ⟨hestablishes, hlt⟩ := transition_establishes hne h
  rw [(p.advance_cases e).1]
  unfold raised syncBackend raise
  rw [hestablishes]
  simp [hlt]

/-! ## The tuple follows the relation -/

/-- A tuple that some events led to: it is short of the terminals of a refusal, and without an
anomaly it stands where the relation stands after the events that are no refusal. -/
structure Tracked (events : List ExchangeEvent) (p : ExchangeProgress) : Prop where
  short : p.request.ctorIdx ≤ ExchangeState.completedContinuationOpen.ctorIdx
  legal : p.anomaly = none →
    (events.filter (· ≠ .refused)).foldlM transition .received = .ok p.request

theorem Tracked.new : Tracked [] new :=
  ⟨by decide, fun _ => rfl⟩

theorem Tracked.advance {events : List ExchangeEvent} {p : ExchangeProgress}
    (h : Tracked events p) (e : ExchangeEvent) : Tracked (events ++ [e]) (p.advance e) := by
  constructor
  · obtain heq | ⟨floor, hestablishes, -, heq⟩ := p.request_advance_cases e
    · rw [heq]
      exact h.short
    · rw [heq]
      exact establishes_le hestablishes
  · intro hnone
    obtain ⟨hbefore, ⟨t, ht⟩, -⟩ := of_anomaly_advance_eq_none hnone
    rw [List.filter_append, List.foldlM_append, h.legal hbefore]
    by_cases hrefused : e = .refused
    · rw [hrefused, request_advance_refused]
      rfl
    · have hkept : [e].filter (· ≠ .refused) = [e] := by simp [hrefused]
      rw [request_advance_of_transition hrefused ht, hkept, ← ht]
      exact bind_pure (transition p.request e)

theorem Tracked.foldl {events : List ExchangeEvent} {p : ExchangeProgress}
    (h : Tracked events p) (tail : List ExchangeEvent) :
    Tracked (events ++ tail) (tail.foldl ExchangeProgress.advance p) := by
  induction tail generalizing events p with
  | nil => rwa [List.append_nil]
  | cons e tail ih =>
    have hnext := ih (h.advance e)
    rwa [List.append_assoc] at hnext

theorem prospectiveRefusal_cases (p : ExchangeProgress) (tail : List ExchangeEvent) :
    (p.prospectiveRefusal tail = (none, p) ∧
        (tail.foldl ExchangeProgress.advance p).request.isSuccessTerminal = true ∧
        (tail.foldl ExchangeProgress.advance p).anomaly = none) ∨
      ∃ what, p.prospectiveRefusal tail = (some what, p.latch what) := by
  unfold prospectiveRefusal
  dsimp only
  split
  case isFalse => exact .inr ⟨_, rfl⟩
  case isTrue hsuccess =>
    cases hanomaly : (tail.foldl ExchangeProgress.advance p).anomaly with
    | none => exact .inl ⟨rfl, hsuccess, rfl⟩
    | some violation => exact .inr ⟨violation, rfl⟩

def advancedIn (op : Operation) (answer : Except String Unit) : List ExchangeEvent :=
  match op with
  | .advance event => [event]
  | .publish success => success.tail
  | .establishTerminal event => if answer.isOk then [event] else []
  | .observeContinuation _ | .observeOrigin _ | .observeOpenLeg _ | .mayPublish _ => []

def advancedAlong (past : List (Step ExchangeProgress Operation (Except String Unit))) :
    List ExchangeEvent :=
  past.flatMap fun s => advancedIn s.event s.answer

def advancedBy (ops : List Operation) : List ExchangeEvent :=
  advancedAlong (trace step new ops)

/-- Everything an operation can do to the tuple. -/
inductive Effect (p : ExchangeProgress) : List ExchangeEvent → ExchangeProgress → Prop
  | advances (events : List ExchangeEvent) : Effect p events (events.foldl advance p)
  | latches (what : String) : Effect p [] (p.latch what)
  | observes (q : ExchangeProgress) (hrequest : q.request = p.request)
      (hanomaly : q.anomaly = p.anomaly)
      (hconsumed : p.continuation = .consumed → q.continuation = .consumed) : Effect p [] q

theorem step_effect (p : ExchangeProgress) (op : Operation) :
    Effect p (advancedIn op (p.step op).1) (p.step op).2 := by
  cases op with
  | advance event => exact .advances [event]
  | publish success => exact .advances success.tail
  | observeContinuation observed =>
    refine .observes (p.observeContinuation observed) ?_ ?_ ?_
    all_goals
      unfold observeContinuation
      split
    case refine_3.isTrue => exact id
    case refine_3.isFalse hlive => exact fun h => absurd h hlive
    all_goals rfl
  | observeOrigin observed =>
    refine .observes (p.observeOrigin observed) ?_ ?_ ?_
    all_goals
      unfold observeOrigin
      split
    all_goals first | rfl | exact id
  | observeOpenLeg observed =>
    refine .observes (p.observeOpenLeg observed) ?_ ?_ ?_
    all_goals
      unfold observeOpenLeg
      split
    all_goals first | rfl | exact id
  | mayPublish success =>
    obtain ⟨heq, -, -⟩ | ⟨what, heq⟩ := p.prospectiveRefusal_cases success.tail
    · simp only [step, mayPublish, heq]
      exact .advances []
    · simp only [step, mayPublish, heq]
      exact .latches what
  | establishTerminal event =>
    obtain ⟨heq, -, -⟩ | ⟨what, heq⟩ := p.prospectiveRefusal_cases [event]
    · simp only [step, establishTerminal, heq]
      exact .advances [event]
    · simp only [step, establishTerminal, heq]
      exact .latches what

theorem Tracked.effect {events events' : List ExchangeEvent} {p q : ExchangeProgress}
    (h : Tracked events p) (heffect : Effect p events' q) : Tracked (events ++ events') q := by
  cases heffect with
  | advances => exact h.foldl events'
  | latches what =>
    rw [List.append_nil]
    exact ⟨p.request_latch what ▸ h.short,
      fun hnone => absurd hnone (anomaly_latch_ne_none p what)⟩
  | observes _ hrequest hanomaly _ =>
    rw [List.append_nil]
    exact ⟨hrequest ▸ h.short, fun hnone => hrequest ▸ h.legal (hanomaly ▸ hnone)⟩

/-- **Every sequence of operations is tracked.** -/
theorem tracked_final (ops : List Operation) :
    Tracked (advancedBy ops) (final step new ops) := by
  have hnew : Tracked (advancedAlong []) new := .new
  refine history_final (I := fun past p => Tracked (advancedAlong past) p) (fun past p op h => ?_)
    hnew ops
  rw [advancedAlong, List.flatMap_append, List.flatMap_singleton]
  exact h.effect (step_effect p op)

/-! ## The retry contract -/

/-- The consequence of `q` is no weaker than that of `p`, machine by machine. -/
structure Onward (p q : ExchangeProgress) : Prop where
  anomaly : p.anomaly ≠ none → q.anomaly ≠ none
  executed : p.request.backendMayHaveExecuted = true → q.request.backendMayHaveExecuted = true
  consumed : p.continuation = .consumed → q.continuation = .consumed

theorem le_notRetrySafe (r : RetrySemantics) : r ≤ .notRetrySafe := by
  cases r <;> decide

theorem Onward.retrySemantics_le {p q : ExchangeProgress} (h : Onward p q) :
    p.retrySemantics ≤ q.retrySemantics := by
  by_cases hsafe : q.anomaly = none ∧ q.request.backendMayHaveExecuted = false
  · have hp : p.anomaly = none ∧ p.request.backendMayHaveExecuted = false :=
      ⟨not_not.1 fun hne => h.anomaly hne hsafe.1,
        Bool.eq_false_iff.2 fun hexecuted => by simp [h.executed hexecuted] at hsafe⟩
    have hconsumed := h.consumed
    simp only [retrySemantics, hp, hsafe, Option.isSome_none, Bool.false_eq_true, if_false]
    cases hcontinuation : p.continuation with
    | consumed => simp only [hconsumed hcontinuation]; decide
    | notInvolved | peeked => exact Nat.zero_le _
  · have hq : q.retrySemantics = .notRetrySafe := by
      unfold retrySemantics
      split
      · rfl
      · split
        · rfl
        · next hnone hexecuted =>
          exact absurd ⟨by simpa using hnone, by simpa using hexecuted⟩ hsafe
    rw [hq]
    exact le_notRetrySafe _

theorem onward_advance {events : List ExchangeEvent} {p : ExchangeProgress} (h : Tracked events p)
    (e : ExchangeEvent) : Onward p (p.advance e) := by
  refine ⟨fun hne hnone => hne (of_anomaly_advance_eq_none hnone).1, fun hexecuted => ?_,
    fun hconsumed => (p.beside_advance e).continuation.trans hconsumed⟩
  obtain heq | ⟨floor, hestablishes, hlt, heq⟩ := p.request_advance_cases e
  · rwa [heq]
  · rw [heq, backendMayHaveExecuted_iff (establishes_le hestablishes)]
    rw [backendMayHaveExecuted_iff h.short] at hexecuted
    exact hexecuted.trans (Nat.le_of_lt hlt)

theorem onward_foldl {events : List ExchangeEvent} {p : ExchangeProgress} (h : Tracked events p)
    (tail : List ExchangeEvent) : Onward p (tail.foldl advance p) := by
  induction tail generalizing events p with
  | nil => exact ⟨id, id, id⟩
  | cons e tail ih =>
    have hfirst := onward_advance h e
    have hrest := ih (h.advance e)
    exact ⟨hrest.anomaly ∘ hfirst.anomaly, hrest.executed ∘ hfirst.executed,
      hrest.consumed ∘ hfirst.consumed⟩

theorem Effect.onward {events events' : List ExchangeEvent} {p q : ExchangeProgress}
    (heffect : Effect p events' q) (h : Tracked events p) : Onward p q := by
  cases heffect with
  | advances => exact onward_foldl h events'
  | latches what =>
    exact ⟨fun _ => anomaly_latch_ne_none p what, fun hexecuted => p.request_latch what ▸ hexecuted,
      fun hconsumed => (p.beside_latch what).continuation.trans hconsumed⟩
  | observes _ hrequest hanomaly hconsumed =>
    exact ⟨fun hne => hanomaly ▸ hne, fun hexecuted => hrequest ▸ hexecuted, hconsumed⟩

/-! ## The check before a success -/

/-- The events still to come when an operation asks for a success. -/
def Operation.tail : Operation → Option (List ExchangeEvent)
  | .mayPublish success => some success.tail
  | .establishTerminal event => some [event]
  | _ => none

/-- The leg a reply opens agrees with the terminal it is served at. -/
def OpenLegMatches (leg : OpenLeg) (terminal : ExchangeState) : Prop :=
  (terminal = .completedContinuationOpen → leg = .recorded) ∧
    (terminal = .completedTerminal → leg = .notApplicable)

/-- The events so far and the tail are a legal run to the success terminal that the tail names, and
the machines beside the pipeline agree with it. -/
structure FollowedPipeline (events tail : List ExchangeEvent) (p : ExchangeProgress)
    (terminal : ExchangeState) : Prop where
  named : tail.getLast?.bind ExchangeEvent.establishes = some terminal
  success : terminal.isSuccessTerminal = true
  legal : (events ++ tail).foldlM transition .received = .ok terminal
  openLeg : OpenLegMatches p.openLeg terminal
  origin : p.origin ≠ .dispatchIndeterminate

theorem of_invariantViolation_eq_none {p : ExchangeProgress} (h : p.invariantViolation = none) :
    OpenLegMatches p.openLeg p.request ∧
      (p.request.isSuccessTerminal = true → p.origin ≠ .dispatchIndeterminate) := by
  unfold invariantViolation at h
  unfold OpenLegMatches
  split_ifs at h with hopen hterminal hindeterminate
  exact ⟨⟨fun ht => not_not.1 fun hne => hopen ⟨ht, hne⟩,
    fun ht => not_not.1 fun hne => hterminal ⟨ht, hne⟩⟩,
    fun hsuccess heq => hindeterminate ⟨hsuccess, heq⟩⟩

theorem of_check_ok {p : ExchangeProgress} {op : Operation} {tail : List ExchangeEvent}
    (htail : op.tail = some tail) (hok : (p.step op).1 = .ok ()) :
    (tail.foldl advance p).request.isSuccessTerminal = true ∧
      (tail.foldl advance p).anomaly = none := by
  obtain ⟨-, hchecked⟩ | ⟨what, heq⟩ := p.prospectiveRefusal_cases tail
  · exact hchecked
  · cases op with
    | mayPublish success =>
      obtain rfl := Option.some.inj htail
      simp only [step, mayPublish, heq] at hok
      cases hok
    | establishTerminal event =>
      obtain rfl := Option.some.inj htail
      simp only [step, establishTerminal, heq] at hok
      cases hok
    | advance | observeContinuation | observeOrigin | observeOpenLeg | publish => cases htail

/-- What a step that reaches a success terminal without an anomaly says of its event and of the
machines beside the pipeline. -/
theorem of_advance_success {p : ExchangeProgress} {e : ExchangeEvent}
    (hsuccess : (p.advance e).request.isSuccessTerminal = true)
    (hnone : (p.advance e).anomaly = none) :
    e ≠ .refused ∧ e.establishes = some (p.advance e).request ∧
      OpenLegMatches p.openLeg (p.advance e).request ∧ p.origin ≠ .dispatchIndeterminate := by
  obtain ⟨-, ⟨t, ht⟩, hcoherent⟩ := of_anomaly_advance_eq_none hnone
  have hne : e ≠ .refused := by
    rintro rfl
    rw [request_advance_refused] at hsuccess
    rw [transition_of_isTerminal (isTerminal_of_isSuccessTerminal hsuccess)] at ht
    cases ht
  obtain ⟨hcontinuation, horigin, hleg⟩ := p.beside_advance e
  obtain ⟨hmatches, hauthored⟩ := of_invariantViolation_eq_none hcoherent
  rw [hleg] at hmatches
  rw [horigin] at hauthored
  refine ⟨hne, ?_, hmatches, hauthored hsuccess⟩
  rw [request_advance_of_transition hne ht]
  exact (transition_establishes hne ht).1

theorem of_tail {p : ExchangeProgress} {op : Operation} {tail : List ExchangeEvent}
    (htail : op.tail = some tail)
    (hsuccess : (tail.foldl advance p).request.isSuccessTerminal = true)
    (hnone : (tail.foldl advance p).anomaly = none) :
    tail ≠ [] ∧ .refused ∉ tail ∧
      tail.getLast?.bind ExchangeEvent.establishes = some (tail.foldl advance p).request ∧
      OpenLegMatches p.openLeg (tail.foldl advance p).request ∧
      p.origin ≠ .dispatchIndeterminate := by
  cases op with
  | establishTerminal event =>
    obtain rfl := Option.some.inj htail
    obtain ⟨hne, hestablishes, hleg, horigin⟩ := of_advance_success hsuccess hnone
    exact ⟨List.cons_ne_nil _ _, fun h => hne (List.mem_singleton.1 h).symm, hestablishes, hleg,
      horigin⟩
  | mayPublish success =>
    obtain rfl := Option.some.inj htail
    cases success
    all_goals
      simp only [ServedSuccess.tail, List.foldl_cons, List.foldl_nil] at hsuccess hnone ⊢
      obtain ⟨-, hestablishes, hleg, horigin⟩ := of_advance_success hsuccess hnone
      have hbeside := p.beside_advance .evidenceRetained
      rw [hbeside.openLeg] at hleg
      rw [hbeside.origin] at horigin
      exact ⟨List.cons_ne_nil _ _, by decide, hestablishes, hleg, horigin⟩
  | advance | observeContinuation | observeOrigin | observeOpenLeg | publish => cases htail

/-- **A published success followed the whole pipeline, unless a refusal was advanced**; and no
operation weakens the retry contract. -/
theorem published_success_iff (ops : List Operation) :
    (∀ s ∈ trace step new ops, s.before.retrySemantics ≤ s.after.retrySemantics) ∧
      ∀ (op : Operation) (tail : List ExchangeEvent), op.tail = some tail →
        ((final step new ops).step op).1 = .ok () →
        ((∃ terminal, FollowedPipeline (advancedBy ops) tail (final step new ops) terminal) ↔
          .refused ∉ advancedBy ops) := by
  constructor
  · intro s hs
    obtain ⟨⟨events, hbefore⟩, -⟩ :=
      (invariant (I := fun p => ∃ events, Tracked events p)
        (fun p op ⟨_, h⟩ => ⟨_, h.effect (step_effect p op)⟩) ⟨[], .new⟩ ops).1 s hs
    have hafter : s.after = (s.before.step s.event).2 := by
      rw [(step_eq_of_mem_trace step hs).2]
    rw [hafter]
    exact ((step_effect s.before s.event).onward hbefore).retrySemantics_le
  · intro op tail htail hok
    have htracked := (tracked_final ops).foldl tail
    obtain ⟨hsuccess, hnone⟩ := of_check_ok htail hok
    obtain ⟨hne, hclean, hnamed, hleg, horigin⟩ := of_tail htail hsuccess hnone
    constructor
    · rintro ⟨terminal, hfollowed⟩ hrefused
      exact foldlM_transition_of_refused hrefused hne _ _ hfollowed.legal
    · intro hrefused
      have hall : ∀ e ∈ advancedBy ops ++ tail, decide (e ≠ .refused) = true := by
        intro e he
        rw [decide_eq_true_iff]
        rintro rfl
        exact (List.mem_append.1 he).elim hrefused hclean
      have hlegal := htracked.legal hnone
      rw [List.filter_eq_self.2 hall] at hlegal
      exact ⟨_, hnamed, hsuccess, hlegal, hleg, horigin⟩

namespace ProgressSample

def pipeline : List ExchangeEvent :=
  [.signatureVerified, .transportBindingChecked, .admissionCurrencyChecked, .continuationPrepared,
    .replayAdmitted, .delegatedKeySnapshotted, .continuationRetired, .forwardBodyPrepared,
    .innerPlaneAccepted, .retentionCommitted, .backendDispatched, .responseObserved,
    .envelopeValidated, .responseClassified, .responseSigned, .continuationNotRequired]

/-- An approval is spent on the way. -/
def served : List Operation :=
  .observeContinuation .consumed :: .observeOrigin .backendReplied :: pipeline.map .advance

theorem published_success_iff_served :
    ∃ terminal, FollowedPipeline (advancedBy served) ServedSuccess.terminal.tail
      (final step new served) terminal :=
  ((published_success_iff served).2 (.mayPublish .terminal) _ rfl (by decide +kernel)).2 (by decide)

/-- The same path, refused after its first step. -/
def refusedOnce : List Operation :=
  .advance .signatureVerified :: .advance .refused :: pipeline.tail.map .advance

/-- **A refused exchange publishes its success.** -/
theorem refused_exchange_publishes :
    ((final step new refusedOnce).step (.mayPublish .terminal)).1 = .ok () ∧
      .refused ∈ advancedBy refusedOnce ∧
      ∀ terminal, ¬FollowedPipeline (advancedBy refusedOnce) ServedSuccess.terminal.tail
        (final step new refusedOnce) terminal := by
  refine ⟨by decide +kernel, by decide, fun terminal hfollowed => ?_⟩
  exact foldlM_transition_of_refused (by decide) (List.cons_ne_nil _ _) _ _ hfollowed.legal

end ProgressSample

end ExchangeProgress

end McpRe.Exchange

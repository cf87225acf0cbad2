import Mathlib.Tactic

/-!
# One exchange's lifecycle

`exchange_state.rs`: the pipeline of one exchange, the machines beside it, and the tuple that holds
them. `advance` never refuses: it raises the pipeline state to what the event establishes and latches
the first step that the transition relation does not admit. What refuses is the check before a
success is published, made on a copy.
-/

namespace McpRe.Exchange

/-- Where one exchange is in the serving pipeline. The order is the pipeline order. -/
inductive ExchangeState where
  | received
  | verified
  | transportBound
  | admissionChecked
  | continuationPrepared
  | replayAdmitted
  | answerable
  | continuationRetired
  | forwarded
  | innerPlaneAccepted
  | retentionCommitted
  | dispatched
  | responseObserved
  | responseValidated
  | responseClassified
  | responseSigned
  | continuationSettled
  | retained
  | acknowledgedNotification
  | completedTerminal
  | completedContinuationOpen
  | refusedBeforeDispatch
  | failedAfterDispatch
  deriving DecidableEq, Repr

inductive ExchangeEvent where
  | signatureVerified
  | transportBindingChecked
  | admissionCurrencyChecked
  | continuationPrepared
  | replayAdmitted
  | delegatedKeySnapshotted
  | continuationRetired
  | forwardBodyPrepared
  | innerPlaneAccepted
  | retentionCommitted
  | backendDispatched
  | responseObserved
  | envelopeValidated
  | responseClassified
  | responseSigned
  | openLegRecorded
  | continuationNotRequired
  | evidenceRetained
  | notificationAcknowledged
  | terminalResponseServed
  | openLegResponseServed
  | refused
  deriving DecidableEq, Repr

/-- What happened to the approval leg this exchange answered. -/
inductive ContinuationState where
  | notInvolved
  | peeked
  | consumed
  deriving DecidableEq, Repr

inductive BackendState where
  | notDispatched
  | dispatched
  deriving DecidableEq, Repr

/-- Who authored the bytes the exchange is about to act on. -/
inductive ResponseOrigin where
  | undetermined
  | backendReplied
  | dispatchIndeterminate
  deriving DecidableEq, Repr

/-- The fate of the leg this exchange's own reply opens. -/
inductive OpenLeg where
  | notApplicable
  | required
  | recorded
  deriving DecidableEq, Repr

inductive RetrySemantics where
  | safeNothingExecuted
  | requiresNewElicitation
  | notRetrySafe
  deriving DecidableEq, Repr

/-! The derived orders follow the order of declaration. -/

instance : LT ExchangeState := ⟨fun a b => a.ctorIdx < b.ctorIdx⟩

instance (a b : ExchangeState) : Decidable (a < b) :=
  inferInstanceAs (Decidable (a.ctorIdx < b.ctorIdx))

instance : LT ResponseOrigin := ⟨fun a b => a.ctorIdx < b.ctorIdx⟩

instance (a b : ResponseOrigin) : Decidable (a < b) :=
  inferInstanceAs (Decidable (a.ctorIdx < b.ctorIdx))

instance : LT OpenLeg := ⟨fun a b => a.ctorIdx < b.ctorIdx⟩

instance (a b : OpenLeg) : Decidable (a < b) :=
  inferInstanceAs (Decidable (a.ctorIdx < b.ctorIdx))

instance : LE RetrySemantics := ⟨fun a b => a.ctorIdx ≤ b.ctorIdx⟩

instance (a b : RetrySemantics) : Decidable (a ≤ b) :=
  inferInstanceAs (Decidable (a.ctorIdx ≤ b.ctorIdx))

/-- The state an event establishes, when it names one. -/
def ExchangeEvent.establishes : ExchangeEvent → Option ExchangeState
  | .signatureVerified => some .verified
  | .transportBindingChecked => some .transportBound
  | .admissionCurrencyChecked => some .admissionChecked
  | .continuationPrepared => some .continuationPrepared
  | .replayAdmitted => some .replayAdmitted
  | .delegatedKeySnapshotted => some .answerable
  | .continuationRetired => some .continuationRetired
  | .forwardBodyPrepared => some .forwarded
  | .innerPlaneAccepted => some .innerPlaneAccepted
  | .retentionCommitted => some .retentionCommitted
  | .backendDispatched => some .dispatched
  | .responseObserved => some .responseObserved
  | .envelopeValidated => some .responseValidated
  | .responseClassified => some .responseClassified
  | .responseSigned => some .responseSigned
  | .openLegRecorded => some .continuationSettled
  | .continuationNotRequired => some .continuationSettled
  | .evidenceRetained => some .retained
  | .notificationAcknowledged => some .acknowledgedNotification
  | .terminalResponseServed => some .completedTerminal
  | .openLegResponseServed => some .completedContinuationOpen
  | .refused => none

/-- A success the serving path is about to publish. -/
inductive ServedSuccess where
  | terminal
  | openLeg
  deriving DecidableEq, Repr

def ServedSuccess.tail : ServedSuccess → List ExchangeEvent
  | .terminal => [.evidenceRetained, .terminalResponseServed]
  | .openLeg => [.evidenceRetained, .openLegResponseServed]

/-! ## The transition relation -/

structure InvalidExchangeTransition where
  deriving DecidableEq, Repr

def ExchangeState.backendMayHaveExecuted : ExchangeState → Bool
  | .received | .verified | .transportBound | .admissionChecked | .continuationPrepared
  | .replayAdmitted | .answerable | .continuationRetired | .forwarded | .innerPlaneAccepted
  | .refusedBeforeDispatch => false
  | .retentionCommitted | .dispatched | .responseObserved | .responseValidated
  | .responseClassified | .responseSigned | .continuationSettled | .retained
  | .acknowledgedNotification | .completedTerminal | .completedContinuationOpen
  | .failedAfterDispatch => true

def ExchangeState.isTerminal : ExchangeState → Bool
  | .acknowledgedNotification | .completedTerminal | .completedContinuationOpen
  | .refusedBeforeDispatch | .failedAfterDispatch => true
  | _ => false

def ExchangeState.isSuccessTerminal : ExchangeState → Bool
  | .acknowledgedNotification | .completedTerminal | .completedContinuationOpen => true
  | _ => false

/-- The legal transition relation for one exchange. -/
def transition (state : ExchangeState) (event : ExchangeEvent) :
    Except InvalidExchangeTransition ExchangeState :=
  if state.isTerminal then .error ⟨⟩
  else if event = .refused then
    .ok (if state.backendMayHaveExecuted then .failedAfterDispatch else .refusedBeforeDispatch)
  else
    match state, event with
    | .received, .signatureVerified => .ok .verified
    | .verified, .transportBindingChecked => .ok .transportBound
    | .transportBound, .admissionCurrencyChecked => .ok .admissionChecked
    | .admissionChecked, .continuationPrepared => .ok .continuationPrepared
    | .continuationPrepared, .replayAdmitted => .ok .replayAdmitted
    | .replayAdmitted, .delegatedKeySnapshotted => .ok .answerable
    | .answerable, .continuationRetired => .ok .continuationRetired
    | .continuationRetired, .forwardBodyPrepared => .ok .forwarded
    | .forwarded, .innerPlaneAccepted => .ok .innerPlaneAccepted
    | .innerPlaneAccepted, .retentionCommitted => .ok .retentionCommitted
    | .retentionCommitted, .backendDispatched => .ok .dispatched
    | .dispatched, .notificationAcknowledged => .ok .acknowledgedNotification
    | .dispatched, .responseObserved => .ok .responseObserved
    | .responseObserved, .envelopeValidated => .ok .responseValidated
    | .responseValidated, .responseClassified => .ok .responseClassified
    | .responseClassified, .responseSigned => .ok .responseSigned
    | .responseSigned, .openLegRecorded => .ok .continuationSettled
    | .responseSigned, .continuationNotRequired => .ok .continuationSettled
    | .continuationSettled, .evidenceRetained => .ok .retained
    | .retained, .terminalResponseServed => .ok .completedTerminal
    | .retained, .openLegResponseServed => .ok .completedContinuationOpen
    | _, _ => .error ⟨⟩

/-- A fact a stage established, with the event that records it. -/
structure Established (α : Type) where
  value : α
  event : ExchangeEvent

/-! ## The tuple -/

structure ExchangeProgress where
  request : ExchangeState
  continuation : ContinuationState
  backend : BackendState
  origin : ResponseOrigin
  openLeg : OpenLeg
  anomaly : Option String
  deriving DecidableEq, Repr

namespace ExchangeProgress

def new : ExchangeProgress where
  request := .received
  continuation := .notInvolved
  backend := .notDispatched
  origin := .undetermined
  openLeg := .notApplicable
  anomaly := none

/-- What the backend projection is for a pipeline state. -/
def expectedBackend (request : ExchangeState) : BackendState :=
  if request.backendMayHaveExecuted then .dispatched else .notDispatched

def syncBackend (p : ExchangeProgress) : ExchangeProgress :=
  { p with backend := expectedBackend p.request }

/-- The step of the tests: the relation's own answer. -/
def apply (p : ExchangeProgress) (event : ExchangeEvent) :
    Except InvalidExchangeTransition ExchangeState × ExchangeProgress :=
  match transition p.request event with
  | .error e => (.error e, p)
  | .ok next => (.ok next, syncBackend { p with request := next })

/-- The first anomaly is kept. -/
def latch (p : ExchangeProgress) (what : String) : ExchangeProgress :=
  if p.anomaly.isNone then { p with anomaly := some what } else p

/-- The cross-machine invariants. -/
def invariantViolation (p : ExchangeProgress) : Option String :=
  if p.request = .completedContinuationOpen ∧ p.openLeg ≠ .recorded then
    some "an open leg was served without a durable continuation record"
  else if p.request = .completedTerminal ∧ p.openLeg ≠ .notApplicable then
    some "a reply that opens a leg was served as a terminal completion"
  else if p.request.isSuccessTerminal ∧ p.origin = .dispatchIndeterminate then
    some "synthesized transport-failure bytes were served as a success"
  else if p.backend ≠ expectedBackend p.request then
    some "the backend projection disagrees with the exchange state"
  else none

/-- The first check of `advance`. -/
def checkTransition (p : ExchangeProgress) (event : ExchangeEvent) : ExchangeProgress :=
  match transition p.request event with
  | .ok _ => p
  | .error _ => p.latch "the serving path drove an illegal exchange transition"

/-- The state an event establishes is a floor. -/
def raise (p : ExchangeProgress) (event : ExchangeEvent) : ExchangeProgress :=
  match event.establishes with
  | some floor => if p.request < floor then { p with request := floor } else p
  | none => p

/-- The last check of `advance`. -/
def checkInvariants (p : ExchangeProgress) : ExchangeProgress :=
  match p.invariantViolation with
  | some violation => p.latch violation
  | none => p

def advance (p : ExchangeProgress) (event : ExchangeEvent) : ExchangeProgress :=
  ((p.checkTransition event).raise event).syncBackend.checkInvariants

def establish {α : Type} (p : ExchangeProgress) (established : Established α) :
    α × ExchangeProgress :=
  (established.value, p.advance established.event)

def notASuccess : String :=
  "a success publication was checked against a tail that reaches no success terminal"

/-- The reason this exchange may not publish the success `tail` reaches, latched. -/
def prospectiveRefusal (p : ExchangeProgress) (tail : List ExchangeEvent) :
    Option String × ExchangeProgress :=
  let prospective := tail.foldl advance p
  if prospective.request.isSuccessTerminal then
    match prospective.anomaly with
    | none => (none, p)
    | some violation => (some violation, p.latch violation)
  else (some notASuccess, p.latch notASuccess)

def establishTerminal {α : Type} (p : ExchangeProgress) (established : Established α) :
    Except String α × ExchangeProgress :=
  match p.prospectiveRefusal [established.event] with
  | (some violation, p) => (.error violation, p)
  | (none, p) => (.ok (p.establish established).1, (p.establish established).2)

def mayPublish (p : ExchangeProgress) (success : ServedSuccess) :
    Except String Unit × ExchangeProgress :=
  match p.prospectiveRefusal success.tail with
  | (some violation, p) => (.error violation, p)
  | (none, p) => (.ok (), p)

def publish (p : ExchangeProgress) (success : ServedSuccess) : ExchangeProgress :=
  success.tail.foldl advance p

/-- `Consumed` latches. -/
def observeContinuation (p : ExchangeProgress) (observed : ContinuationState) :
    ExchangeProgress :=
  if p.continuation = .consumed then p else { p with continuation := observed }

def observeOrigin (p : ExchangeProgress) (observed : ResponseOrigin) : ExchangeProgress :=
  if p.origin < observed then { p with origin := observed } else p

def observeOpenLeg (p : ExchangeProgress) (observed : OpenLeg) : ExchangeProgress :=
  if p.openLeg < observed then { p with openLeg := observed } else p

/-- What a client may safely do if the exchange terminates here. -/
def retrySemantics (p : ExchangeProgress) : RetrySemantics :=
  if p.anomaly.isSome then .notRetrySafe
  else if p.request.backendMayHaveExecuted then .notRetrySafe
  else
    match p.continuation with
    | .consumed => .requiresNewElicitation
    | .notInvolved | .peeked => .safeNothingExecuted

/-! ## Sequences of operations -/

inductive Operation where
  | advance (event : ExchangeEvent)
  | observeContinuation (observed : ContinuationState)
  | observeOrigin (observed : ResponseOrigin)
  | observeOpenLeg (observed : OpenLeg)
  | mayPublish (success : ServedSuccess)
  | establishTerminal (event : ExchangeEvent)
  | publish (success : ServedSuccess)
  deriving DecidableEq, Repr

/-- What an operation answers; those that answer nothing are `Ok`. -/
def step (p : ExchangeProgress) : Operation → Except String Unit × ExchangeProgress
  | .advance event => (.ok (), p.advance event)
  | .observeContinuation observed => (.ok (), p.observeContinuation observed)
  | .observeOrigin observed => (.ok (), p.observeOrigin observed)
  | .observeOpenLeg observed => (.ok (), p.observeOpenLeg observed)
  | .mayPublish success => p.mayPublish success
  | .establishTerminal event => p.establishTerminal ⟨(), event⟩
  | .publish success => (.ok (), p.publish success)

end ExchangeProgress

end McpRe.Exchange

import McpRe.Admission.Record

/-!
# The admission gate

`AdmissionEnforcer::decide` on one replica (`admission_enforcer/`). A call that declares an admission
asks the authoritative source, and a source that does not answer leaves it with the caller's
assertion and the degraded window: how long ago the source last answered anything.

Calls interleave wherever one waits for the source or takes the window's lock. Instants are those of
the monotonic clock, in nanoseconds.
-/

namespace McpRe.Admission

open Lib Lib.Result Lib.Text Http

/-! ## The degraded window (`degraded_window.rs`) -/

structure DegradedWindow where
  lastRead : Option Nat
  deriving DecidableEq, Repr

namespace DegradedWindow

def unearned : DegradedWindow where
  lastRead := none

/-- The reading only moves forward. -/
def recordRead (window : DegradedWindow) (instant : Nat) : DegradedWindow :=
  if window.lastRead.all fun previous => decide (previous < instant) then
    { lastRead := some instant }
  else window

end DegradedWindow

def nanosPerSec : Nat := 10 ^ 9

/-- `window_of`: a bound that is not positive is no window at all. -/
def windowOf (policy : AdmissionPolicy) : Nat :=
  policy.degradedPropagationBound.val.toNat * nanosPerSec

def DegradedWindow.exhausted (window : DegradedWindow) (policy : AdmissionPolicy) (now : Nat) :
    Bool :=
  if !policy.allowDegradedMode then true
  else
    match window.lastRead with
    | none => true
    | some last => decide (windowOf policy < now - last)

/-! ## The gate -/

inductive AdmissionEnforcement where
  | optional
  | required
  deriving DecidableEq, Repr

inductive AdmissionFacet where
  | notReached
  | notConfigured
  | liveConfirmed
  | degraded
  | refused
  deriving DecidableEq, Repr

structure AdmissionEnforcer where
  policy : AdmissionPolicy
  enforcement : AdmissionEnforcement
  resolveAuthority : Str → Option VerificationKey

/-- What `decide` is called with: the verified block's admission members, and the facts of the
exchange. -/
structure Call where
  admission : Option AdmissionBinding
  admissionAssertion : Option Str
  actorId : Str
  audienceId : Str
  now : I64
  deriving DecidableEq, Repr

/-- A call that declares an admission. -/
structure Lookup where
  binding : AdmissionBinding
  assertion : Str
  actorId : Str
  audienceId : Str
  now : I64
  deriving DecidableEq, Repr

def Call.lookup (call : Call) : Option Lookup :=
  match call.admission, call.admissionAssertion with
  | some binding, some assertion =>
    some ⟨binding, assertion, call.actorId, call.audienceId, call.now⟩
  | _, _ => none

namespace AdmissionEnforcer

variable (E : AdmissionEnforcer)

/-- The answer to a call that declares no admission. -/
def undeclared : Verdict AdmissionFacet :=
  if E.enforcement = .required then .error .admissionStateUnavailable else .ok .notConfigured

def check (P : Platform) (lookup : Lookup) (authoritative : Option AuthoritativeAdmission) :
    Verdict AdmissionVerdict :=
  checkAdmission P lookup.binding lookup.assertion lookup.actorId authoritative profileTag.toList
    [lookup.audienceId] E.policy lookup.now E.resolveAuthority

/-- The conversion of a verdict at the instant the lookup was timed at. -/
def convert (window : DegradedWindow) (elapsedAt : Nat) : AdmissionVerdict → Verdict AdmissionFacet
  | .live _ => .ok .liveConfirmed
  | .degradedCandidate _ =>
    if window.exhausted E.policy elapsedAt then .error .admissionStateUnavailable
    else .ok .degraded

/-- The end of `decide`. -/
def conclude (P : Platform) (window : DegradedWindow) (lookup : Lookup) (elapsedAt : Nat)
    (authoritative : Option AuthoritativeAdmission) : Verdict AdmissionFacet := do
  let verdict ← E.check P lookup authoritative
  E.convert window elapsedAt verdict

end AdmissionEnforcer

/-! ## Calls on one replica -/

/-- How far a thread's call has come. -/
inductive Stage where
  | idle
  /-- The source was asked at this instant. -/
  | looking (lookup : Lookup) (elapsedAt : Nat)
  /-- The source has answered with a state, or not at all. -/
  | judging (lookup : Lookup) (elapsedAt : Nat) (authoritative : Option AuthoritativeAdmission)
  deriving DecidableEq, Repr

structure Replica where
  window : DegradedWindow
  clock : Nat
  calls : Nat → Stage

inductive Action where
  | elapse (nanos : Nat)
  | start (thread : Nat) (call : Call)
  /-- The source answers: a state, no acceptable record, or an outage. -/
  | answer (thread : Nat) (answer : Except Unit (Option CurrentAdmissionState))
  | conclude (thread : Nat)
  deriving DecidableEq

namespace Replica

def new (clock : Nat) : Replica where
  window := .unearned
  clock
  calls := fun _ => .idle

def moved (s : Replica) (thread : Nat) (stage : Stage) : Replica :=
  { s with calls := Function.update s.calls thread stage }

/-- One step, with what the call it ends returns. -/
def step (P : Platform) (E : AdmissionEnforcer) (s : Replica) :
    Action → Option (Verdict AdmissionFacet) × Replica
  | .elapse nanos => (none, { s with clock := s.clock + nanos })
  | .start thread call =>
    match s.calls thread with
    | .idle =>
      match call.lookup with
      | some lookup => (none, s.moved thread (.looking lookup s.clock))
      | none => (some E.undeclared, s)
    | _ => (none, s)
  | .answer thread answer =>
    match s.calls thread with
    | .looking lookup elapsedAt =>
      match answer with
      | .ok (some current) =>
        (none, { s.moved thread (.judging lookup elapsedAt (some current.state)) with
          window := s.window.recordRead elapsedAt })
      | .ok none =>
        (some (.error .admissionNotCurrent), { s.moved thread .idle with
          window := s.window.recordRead elapsedAt })
      | .error _ => (none, s.moved thread (.judging lookup elapsedAt none))
    | _ => (none, s)
  | .conclude thread =>
    match s.calls thread with
    | .judging lookup elapsedAt authoritative =>
      (some (E.conclude P s.window lookup elapsedAt authoritative), s.moved thread .idle)
    | _ => (none, s)

end Replica

end McpRe.Admission

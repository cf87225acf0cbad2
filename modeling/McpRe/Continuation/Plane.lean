import McpRe.Http.Chain
import McpRe.Lib.I64
import McpRe.Lib.Run
import McpRe.Lib.Table

/-!
# The continuation plane

An open leg records the two signature bases a human's approval answers to, an answer leg reads them,
binds its signed continuation to them, and spends the approval
(`http_profile_serve/continuation/`, `answering_commitment.rs`, `continuation_store/`). The legs run
on any number of replicas over one store. Each operation of the store is atomic; between the
operations of one leg anything may happen.

An entry carries the open leg that recorded it and the moment it was created. No step reads either:
they say which entry is which when a key is used again.
-/

namespace McpRe.Continuation

open Lib Lib.Text
open McpRe.Http (Platform HttpContinuation HttpProfileError b64urlEncode lengthPrefixed)

/-! ## The key -/

/-- `CONTINUATION_KEY_PREFIX`. -/
def keyNamespace : String := "mcp-re:cont:"

/-- `CONTINUATION_KEY_DOMAIN`. -/
def keyDomain : String := "mcp-re/continuation-key/v1"

def continuationKey (P : Platform) (audienceId actorId : Str) (requestState : Bytes) : Str :=
  keyNamespace.toList ++ b64urlEncode (P.sha256 (utf8 keyDomain.toList
    ++ lengthPrefixed (utf8 audienceId) ++ lengthPrefixed (utf8 actorId) ++ requestState)).bytes

/-! ## The store -/

structure RetainedBases where
  previousRequestBase : Bytes
  inputRequiredResponseBase : Bytes
  deriving DecidableEq, Repr

inductive Creation where
  | stored
  | collision
  deriving DecidableEq, Repr

structure Entry where
  bases : RetainedBases
  expiresAt : I64
  leg : Nat
  createdAt : Nat
  deriving DecidableEq, Repr

/-- `InMemoryContinuationStore::entries`. -/
abbrev Entries := Table Str Entry

namespace Entries

/-- The entries whose lifetime is not over. -/
def live (entries : Entries) (now : I64) : Entries :=
  Table.retain (fun _ entry => decide (now < entry.expiresAt)) entries

/-- `insert_if_absent`, the whole of `create`. -/
def create (entries : Entries) (key : Str) (entry : Entry) (now : I64) : Creation × Entries :=
  let entries := entries.live now
  if (entries.lookup key).isSome then (.collision, entries)
  else (.stored, entries.insert key entry)

def peek (entries : Entries) (key : Str) (now : I64) : Option Entry :=
  (entries.lookup key).filter fun entry => decide (now < entry.expiresAt)

/-- `consume`: whether a live entry was removed. -/
def consume (entries : Entries) (key : Str) (now : I64) : Bool × Entries :=
  ((entries.peek key now).isSome, entries.erase key)

end Entries

/-- What comes of a call to the store: it acts and answers, it acts and the answer is lost, or it
does not act. The last two are `ContinuationStoreError::Unavailable`. -/
inductive Reach where
  | answered
  | lost
  | failed
  deriving DecidableEq, Repr

/-! ## The answer leg -/

/-- What a leg knows of the replica it runs on: `ContinuationPlane` and the audience. -/
structure Replica where
  audienceId : Str
  wired : Bool
  ttlSecs : I64
  deriving DecidableEq, Repr

/-- The verified request of an answer leg: its block's continuation, its actor, its body. -/
structure Exchange where
  replica : Replica
  actorId : Str
  continuation : Option HttpContinuation
  body : Bytes
  deriving DecidableEq, Repr

def extractRequestState (P : Platform) (body : Bytes) : Option Str := do
  let value ← P.fromSlice body
  let params ← value.get "params"
  let state ← params.get "requestState"
  state.asStr

inductive DispatchError where
  | replayDetected
  | replayCacheUnavailable
  | nonSharedReplayTier
  | profile (e : HttpProfileError)
  deriving DecidableEq, Repr

/-- The refusals of the two legs. -/
inductive Refusal where
  /-- `ReplayCacheUnavailable`. -/
  | replayCacheUnavailable
  | dispatch (e : DispatchError)
  | delegatedSigningUnavailable
  /-- `ContinuationBindingFailed`: there was nothing live under the key. -/
  | continuationBindingFailed
  | continuationConflict
  deriving DecidableEq, Repr

def Refusal.status : Refusal → Nat
  | .replayCacheUnavailable => 503
  | .dispatch _ => 409
  | .delegatedSigningUnavailable => 503
  | .continuationBindingFailed => 409
  | .continuationConflict => 409

structure ContinuationPrep where
  answerState : Option Str
  answerKey : Option Str
  retained : Option Entry
  deriving DecidableEq, Repr

namespace Exchange

def answerState (P : Platform) (ex : Exchange) : Option Str :=
  if ex.continuation.isSome then extractRequestState P ex.body else none

def answerKey (P : Platform) (ex : Exchange) : Option Str :=
  (ex.answerState P).map fun state =>
    continuationKey P ex.replica.audienceId ex.actorId (utf8 state)

/-- `prepare`: the read, which spends nothing. -/
def prepare (P : Platform) (ex : Exchange) (entries : Entries) (now : I64) (reach : Reach) :
    Except Refusal ContinuationPrep :=
  match ex.replica.wired, ex.answerKey P with
  | true, some key =>
    match reach with
    | .answered => .ok ⟨ex.answerState P, some key, entries.peek key now⟩
    | _ => .error .replayCacheUnavailable
  | false, some _ => .error .replayCacheUnavailable
  | _, none => .ok ⟨ex.answerState P, none, none⟩

end Exchange

/-- `RetainedContinuation`. -/
structure RetainedContinuation where
  previousRequestBase : Bytes
  inputRequiredResponseBase : Bytes
  requestState : Bytes

def ContinuationPrep.binding (prep : ContinuationPrep) : Option RetainedContinuation :=
  match prep.retained, prep.answerState with
  | some entry, some state =>
    some ⟨entry.bases.previousRequestBase, entry.bases.inputRequiredResponseBase, utf8 state⟩
  | _, _ => none

/-- The continuation binding of `prepare_http_dispatch`: whether a continuation was verified. -/
def bindContinuation (P : Platform) :
    Option HttpContinuation → Option RetainedContinuation → Except DispatchError Bool
  | some c, some ctx =>
    match c.verify P ctx.previousRequestBase ctx.inputRequiredResponseBase ctx.requestState with
    | .ok () => .ok true
    | .error e => .error (.profile e)
  | some _, none => .error (.profile .continuationBindingFailed)
  | none, some _ => .error (.profile .continuationBindingFailed)
  | none, none => .ok false

/-- `dispatch_request_with_async_tier`: the posture of the replay tier, the continuation binding, and
strictly last the tier's own answer. -/
def admission (P : Platform) (continuation : Option HttpContinuation) (prep : ContinuationPrep)
    (posture tier : Except DispatchError Unit) : Except DispatchError Unit := do
  posture
  let _ ← bindContinuation P continuation prep.binding
  tier

inductive Retirement where
  | notInvolved
  | retired
  | alreadyAnswered
  | indeterminate
  deriving DecidableEq, Repr

/-- `retire`: the spend. -/
def retire (replica : Replica) (answerKey : Option Str) (entries : Entries) (now : I64)
    (reach : Reach) : Retirement × Entries :=
  match replica.wired, answerKey with
  | true, some key =>
    let (removed, rest) := entries.consume key now
    match reach with
    | .answered => (if removed then .retired else .alreadyAnswered, rest)
    | .lost => (.indeterminate, rest)
    | .failed => (.indeterminate, entries)
  | _, _ => (.notInvolved, entries)

def observeRetirement : Retirement → Except Refusal Unit
  | .notInvolved => .ok ()
  | .retired => .ok ()
  | .alreadyAnswered => .error .continuationBindingFailed
  | .indeterminate => .error .replayCacheUnavailable

/-! ## The open leg -/

/-- `RECORD_ATTEMPTS`. -/
def recordAttempts : Nat := 3

/-- An open leg on its way to being recorded. `stored` says that an attempt has written the bases
and its answer was lost. -/
structure Recording where
  leg : Nat
  key : Str
  bases : RetainedBases
  ttlSecs : I64
  attempts : Nat
  stored : Bool
  deriving DecidableEq, Repr

/-- The entry an attempt writes. -/
def Recording.entry (r : Recording) (now : I64) (moment : Nat) : Entry where
  bases := r.bases
  expiresAt := now.saturatingAdd r.ttlSecs
  leg := r.leg
  createdAt := moment

/-! ## Legs that interleave -/

/-- How far a leg has come. -/
inductive Leg where
  | idle
  | arrived (ex : Exchange)
  | prepared (ex : Exchange) (prep : ContinuationPrep)
  | admitted (ex : Exchange) (prep : ContinuationPrep)
  | answerable (ex : Exchange) (prep : ContinuationPrep)
  | recording (r : Recording)

/-- The store, the legs, and the moment: how many steps there have been. -/
structure Plane where
  entries : Entries
  legs : Nat → Leg
  moment : Nat

/-- What happens next. A leg is named by its thread, and brings what it learns from outside: the
clock, what comes of its call to the store, the answer of the replay tier and of the signer. -/
inductive Action where
  | arrive (thread : Nat) (ex : Exchange)
  | prepare (thread : Nat) (now : I64) (reach : Reach)
  | replayAdmission (thread : Nat) (posture tier : Except DispatchError Unit)
  | answerable (thread : Nat) (window : Bool)
  | retire (thread : Nat) (now : I64) (reach : Reach)
  | openLeg (thread : Nat) (replica : Replica) (actorId state : Str) (bases : RetainedBases)
  | record (thread : Nat) (now : I64) (reach : Reach)

/-- What a step shows. A leg that passes the retirement is shown with the entry it was bound to and
the entry it removed. -/
inductive Outcome where
  | nothing
  | refused (refusal : Refusal)
  | passed (bound removed : Option Entry)
  | recorded (leg : Nat)
  deriving DecidableEq, Repr

namespace Plane

def new : Plane where
  entries := ∅
  legs := fun _ => .idle
  moment := 0

/-- A leg moves on, the store changes, and the moment passes. -/
def moved (plane : Plane) (thread : Nat) (leg : Leg) (entries : Entries) : Plane where
  entries := entries
  legs := Function.update plane.legs thread leg
  moment := plane.moment + 1

/-- Nothing happens: the thread's leg is not at this step. -/
def passed (plane : Plane) : Plane := { plane with moment := plane.moment + 1 }

/-- The error arm of `record_open_leg`: an attempt is spent. -/
def attemptSpent (plane : Plane) (thread : Nat) (r : Recording) (entries : Entries) :
    Outcome × Plane :=
  if r.attempts ≤ 1 then
    (.refused .replayCacheUnavailable, plane.moved thread .idle entries)
  else (.nothing, plane.moved thread (.recording { r with attempts := r.attempts - 1 }) entries)

/-- One turn of the loop of `record_open_leg`. -/
def recordStep (plane : Plane) (thread : Nat) (r : Recording) (now : I64) (reach : Reach) :
    Outcome × Plane :=
  match reach with
  | .failed => plane.attemptSpent thread r plane.entries
  | .answered =>
    match plane.entries.create r.key (r.entry now plane.moment) now with
    | (.stored, entries) => (.recorded r.leg, plane.moved thread .idle entries)
    | (.collision, entries) => (.refused .continuationConflict, plane.moved thread .idle entries)
  | .lost =>
    match plane.entries.create r.key (r.entry now plane.moment) now with
    | (.stored, entries) => plane.attemptSpent thread { r with stored := true } entries
    | (.collision, entries) => plane.attemptSpent thread r entries

/-- The entry that `retire` removes, when it reports having removed one. -/
def removed (entries : Entries) (prep : ContinuationPrep) : Retirement → Option Entry
  | .retired => prep.answerKey.bind entries.lookup
  | _ => none

/-- One step of `commit_to_answering` or of `record_open_leg`. -/
def step (P : Platform) (plane : Plane) : Action → Outcome × Plane
  | .arrive thread ex =>
    match plane.legs thread with
    | .idle => (.nothing, plane.moved thread (.arrived ex) plane.entries)
    | _ => (.nothing, plane.passed)
  | .prepare thread now reach =>
    match plane.legs thread with
    | .arrived ex =>
      match ex.prepare P plane.entries now reach with
      | .ok prep => (.nothing, plane.moved thread (.prepared ex prep) plane.entries)
      | .error refusal => (.refused refusal, plane.moved thread .idle plane.entries)
    | _ => (.nothing, plane.passed)
  | .replayAdmission thread posture tier =>
    match plane.legs thread with
    | .prepared ex prep =>
      match admission P ex.continuation prep posture tier with
      | .ok () => (.nothing, plane.moved thread (.admitted ex prep) plane.entries)
      | .error e => (.refused (.dispatch e), plane.moved thread .idle plane.entries)
    | _ => (.nothing, plane.passed)
  | .answerable thread window =>
    match plane.legs thread with
    | .admitted ex prep =>
      if window then (.nothing, plane.moved thread (.answerable ex prep) plane.entries)
      else (.refused .delegatedSigningUnavailable, plane.moved thread .idle plane.entries)
    | _ => (.nothing, plane.passed)
  | .retire thread now reach =>
    match plane.legs thread with
    | .answerable ex prep =>
      match retire ex.replica prep.answerKey plane.entries now reach with
      | (retirement, entries) =>
        match observeRetirement retirement with
        | .ok () => (.passed prep.retained (removed plane.entries prep retirement),
            plane.moved thread .idle entries)
        | .error refusal => (.refused refusal, plane.moved thread .idle entries)
    | _ => (.nothing, plane.passed)
  | .openLeg thread replica actorId state bases =>
    match plane.legs thread with
    | .idle =>
      if replica.wired then
        (.nothing, plane.moved thread (.recording {
          leg := plane.moment
          key := continuationKey P replica.audienceId actorId (utf8 state)
          bases := bases
          ttlSecs := replica.ttlSecs
          attempts := recordAttempts
          stored := false }) plane.entries)
      else (.refused .replayCacheUnavailable, plane.passed)
    | _ => (.nothing, plane.passed)
  | .record thread now reach =>
    match plane.legs thread with
    | .recording r => plane.recordStep thread r now reach
    | _ => (.nothing, plane.passed)

end Plane

end McpRe.Continuation

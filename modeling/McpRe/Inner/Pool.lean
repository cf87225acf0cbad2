import Mathlib.Data.List.FinRange
import Mathlib.Logic.Function.Basic
import McpRe.Lib.Run

/-!
# The pool of inner backends

`HttpInnerPool` of `http_inner/mod.rs` and `http_inner/selection.rs`. A dispatch takes a permit,
reads the clock and selects a backend: a healthy one, or one that it claims as a recovery probe.
What it prepared is transmitted or dropped; a round trip ends with an outcome or its future is
dropped; an outcome is recorded; and at the end the probe guard and the permit are given back. The
dispatches of a pool interleave at every load, store and exchange of an atomic.

The outcome of a round trip is given from outside, and so is whether a request can be built. The
clock is what was read last; readings may repeat and never go back.
-/

namespace McpRe.Inner

open Lib.Run

inductive BreakerState where
  | closed
  | opened
  | halfOpen
  deriving DecidableEq

structure Backend where
  state : BreakerState
  consecutiveFailures : Nat
  reopenAtNanos : Nat
  probeInflight : Bool
  deriving DecidableEq

def Backend.new : Backend := ⟨.closed, 0, 0, false⟩

/-- What a pool is built with; the constructors refuse an empty fleet, a threshold of zero and a
bound of zero. -/
structure PoolConfig where
  backends : Nat
  failureThreshold : Nat
  ejectionNanos : Nat
  maxInFlight : Nat
  backends_pos : 0 < backends
  failureThreshold_pos : 0 < failureThreshold
  maxInFlight_pos : 0 < maxInFlight

/-- What the dispatches share. -/
structure Shared (n : Nat) where
  backends : Fin n → Backend
  next : Nat
  /-- Permits that are not taken. -/
  available : Nat
  clock : Nat

def Shared.update {n : Nat} (p : Shared n) (i : Fin n) (f : Backend → Backend) : Shared n :=
  { p with backends := Function.update p.backends i (f (p.backends i)) }

/-- A store to one atomic of a backend. -/
inductive Write where
  | failures (count : Nat)
  | state (s : BreakerState)
  | reopen (instant : Nat)
  /-- The probe flag is cleared. -/
  | clear
  deriving DecidableEq

def Write.apply : Write → Backend → Backend
  | .failures count, b => { b with consecutiveFailures := count }
  | .state s, b => { b with state := s }
  | .reopen instant, b => { b with reopenAtNanos := instant }
  | .clear, b => { b with probeInflight := false }

/-- The probe flag is set. -/
def Backend.claim (b : Backend) : Backend := { b with probeInflight := true }

/-- How far a call of `prepare`, and the dispatch that it prepares, have come. -/
inductive Stage (n : Nat) where
  | idle
  /-- The permit is taken. -/
  | permitted
  /-- In `select_backend`, with the reading of the clock. -/
  | timed (now : Nat)
  /-- The first pass, with the backends that it still has to look at. -/
  | healthy (now start : Nat) (rest : List (Fin n))
  /-- The second pass. -/
  | probing (now : Nat) (rest : List (Fin n))
  /-- The backend was seen open; its reopen instant is loaded next. -/
  | cooled (now : Nat) (i : Fin n) (rest : List (Fin n))
  /-- Its cooldown is over; the exchange of its state is next. -/
  | claiming (now : Nat) (i : Fin n) (rest : List (Fin n))
  /-- The exchange succeeded; the store of the flag is next. -/
  | flagging (i : Fin n)
  /-- The backend was seen half-open; the exchange of its flag is next. -/
  | trying (now : Nat) (i : Fin n) (rest : List (Fin n))
  /-- Selected; the request is built next. -/
  | chosen (i : Fin n) (isProbe : Bool)
  | prepared (i : Fin n) (isProbe : Bool)
  | inFlight (i : Fin n) (isProbe : Bool)
  /-- The round trip is over; the clock is read next. -/
  | finished (i : Fin n) (isProbe healthy : Bool)
  /-- The failure of an ordinary dispatch is counted next. -/
  | counting (i : Fin n) (done : Nat)
  /-- In `record_outcome`, with the stores that it still has to make. -/
  | recording (i : Fin n) (isProbe : Bool) (writes : List Write)
  /-- The guard and the permit are dropped, in either order; `recorded` says whether an outcome was
  recorded before. -/
  | releasing (recorded : Bool) (guard : Option (Fin n)) (permit : Bool)
  deriving DecidableEq

/-- What happens next to a call. -/
inductive Op where
  | prepare
  /-- The clock is read. -/
  | read (now : Nat)
  /-- The next atomic operation of the code. -/
  | advance
  | build (ok : Bool)
  | transmit
  | finish (healthy : Bool)
  /-- The prepared dispatch, or its future, is dropped. -/
  | drop
  | dropGuard
  | dropPermit
  deriving DecidableEq

/-- Every backend once, in the order of the scan. -/
def scanFrom {n : Nat} (start : Nat) : List (Fin n) :=
  (List.finRange n).drop start ++ (List.finRange n).take start

/-- `is_probe.then_some(ProbeGuard { backend })`. -/
def probeGuard {n : Nat} (i : Fin n) (isProbe : Bool) : Option (Fin n) :=
  if isProbe then some i else none

/-- Nothing is left to drop. -/
def released {n : Nat} (recorded : Bool) (guard : Option (Fin n)) (permit : Bool) : Stage n :=
  if guard = none ∧ permit = false then .idle else .releasing recorded guard permit

section

variable (cfg : PoolConfig)

/-- The reopen instant of an ejection, in a saturating `u64`. -/
def reopenAt (done : Nat) : Nat := min (done + cfg.ejectionNanos) (2 ^ 64 - 1)

/-- The stores of `record_outcome` for a success, and for a failed probe. -/
def successWrites : List Write := [.failures 0, .state .closed, .clear]

def probeFailureWrites (done : Nat) : List Write :=
  [.reopen (reopenAt cfg done), .state .opened, .clear]

/-- The stores of `record_outcome` once an ordinary failure is counted. -/
def failureWrites (fails done : Nat) : List Write :=
  if cfg.failureThreshold ≤ fails then [.reopen (reopenAt cfg done), .state .opened] else []

def recordOutcome {n : Nat} (i : Fin n) (isProbe healthy : Bool) (done : Nat) : Stage n :=
  if healthy then .recording i isProbe successWrites
  else if isProbe then .recording i isProbe (probeFailureWrites cfg done)
  else .counting i done

/-- One operation of one call: what `prepare` refuses with, where the call stands after it, and what
it has changed. -/
def perform (p : Shared cfg.backends) :
    Stage cfg.backends → Op → Option (Option String × Stage cfg.backends × Shared cfg.backends)
  | .idle, .prepare =>
    if p.available = 0 then some (some "inner plane is at its in-flight bound", .idle, p)
    else some (none, .permitted, { p with available := p.available - 1 })
  | .permitted, .read now =>
    if p.clock ≤ now then some (none, .timed now, { p with clock := now }) else none
  | .timed now, .advance =>
    let start := p.next % cfg.backends
    some (none, .healthy now start (scanFrom start), { p with next := (p.next + 1) % 2 ^ 64 })
  | .healthy now start (i :: rest), .advance =>
    if (p.backends i).state = .closed then some (none, .chosen i false, p)
    else some (none, .healthy now start rest, p)
  | .healthy now start [], .advance => some (none, .probing now (scanFrom start), p)
  | .probing now (i :: rest), .advance =>
    match (p.backends i).state with
    | .opened => some (none, .cooled now i rest, p)
    | .halfOpen => some (none, .trying now i rest, p)
    | .closed => some (none, .probing now rest, p)
  | .probing _ [], .advance =>
    some (some "every inner backend is ejected", .releasing false none true, p)
  | .cooled now i rest, .advance =>
    if (p.backends i).reopenAtNanos ≤ now then some (none, .claiming now i rest, p)
    else some (none, .probing now rest, p)
  | .claiming now i rest, .advance =>
    if (p.backends i).state = .opened then
      some (none, .flagging i, p.update i (Write.state .halfOpen).apply)
    else some (none, .probing now rest, p)
  | .flagging i, .advance => some (none, .chosen i true, p.update i Backend.claim)
  | .trying now i rest, .advance =>
    if (p.backends i).probeInflight = false then
      some (none, .chosen i true, p.update i Backend.claim)
    else some (none, .probing now rest, p)
  | .chosen i isProbe, .build ok =>
    if ok then some (none, .prepared i isProbe, p)
    else some (some "inner request could not be built",
      .releasing false (probeGuard i isProbe) true, p)
  | .prepared i isProbe, .transmit => some (none, .inFlight i isProbe, p)
  | .prepared i isProbe, .drop => some (none, .releasing false (probeGuard i isProbe) true, p)
  | .inFlight i isProbe, .drop => some (none, .releasing false (probeGuard i isProbe) true, p)
  | .inFlight i isProbe, .finish healthy => some (none, .finished i isProbe healthy, p)
  | .finished i isProbe healthy, .read now =>
    if p.clock ≤ now then
      some (none, recordOutcome cfg i isProbe healthy now, { p with clock := now })
    else none
  | .counting i done, .advance =>
    let previous := (p.backends i).consecutiveFailures
    let fails := min (previous + 1) (2 ^ 32 - 1)
    some (none, .recording i false (failureWrites cfg fails done),
      p.update i (Write.failures ((previous + 1) % 2 ^ 32)).apply)
  | .recording i isProbe (w :: ws), .advance =>
    some (none, .recording i isProbe ws, p.update i w.apply)
  | .recording i isProbe [], .advance =>
    some (none, .releasing true (probeGuard i isProbe) true, p)
  | .releasing recorded (some i) permit, .dropGuard =>
    some (none, released recorded none permit, p.update i Write.clear.apply)
  | .releasing recorded guard true, .dropPermit =>
    some (none, released recorded guard false, { p with available := p.available + 1 })
  | _, _ => none

/-- The pool and its calls. -/
structure HttpInnerPool (τ : Type) where
  shared : Shared cfg.backends
  calls : τ → Stage cfg.backends

variable {cfg} {τ : Type}

def HttpInnerPool.new : HttpInnerPool cfg τ where
  shared := ⟨fun _ => .new, 0, cfg.maxInFlight, 0⟩
  calls := fun _ => .idle

def HttpInnerPool.step [DecidableEq τ] (s : HttpInnerPool cfg τ) (e : τ × Op) :
    Option String × HttpInnerPool cfg τ :=
  match perform cfg s.shared (s.calls e.1) e.2 with
  | none => (none, s)
  | some (refusal, stage, shared) => (refusal, ⟨shared, Function.update s.calls e.1 stage⟩)

end

end McpRe.Inner

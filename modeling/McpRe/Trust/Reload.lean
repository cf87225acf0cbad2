import McpRe.Trust.Shared

/-!
# The reloaded trust store

The trust plane of the bounded-cache tier: `--trust` re-read on a cadence
(`trust_plane/reload/mod.rs`, under the supervisor of `reload/supervision.rs`), the freshness latch
(`trust_plane/freshness.rs`), the swappable store (`reloading_trust.rs`), the cache over it, and the
window the operator is told (`trust_plane/delivered_window.rs`).

The file is its value over time, as the resolver it is read into. A snapshot carries the time it was
read at, which no step reads. Time is in nanoseconds since the epoch; the cache reads whole seconds.
-/

namespace McpRe.Trust

open Lib Lib.Text
open McpRe.Http (VerificationKey)

/-! ## The store -/

/-- `mcp_re_core`'s stored binding. -/
inductive StoredBinding where
  | active (key : VerificationKey)
  | revoked

structure InMemoryTrustResolver where
  bindings : Table Str StoredBinding

def InMemoryTrustResolver.resolve (self : InMemoryTrustResolver) (binding : Binding) :
    Except TrustResolverError VerificationKey :=
  match self.bindings.lookup (composeKey binding) with
  | some (.active key) => .ok key
  | some .revoked => .error .revoked
  | none => .error .notFound

/-- What `ReloadingTrustStore` answers from, and when it was read. -/
structure TrustSnapshot where
  resolver : InMemoryTrustResolver
  readAt : Nat

/-! ## The freshness latch -/

structure TrustStoreFreshness where
  stale : Bool
  terminal : Bool

namespace TrustStoreFreshness

/-- `TrustStoreFreshness::default`. -/
def default : TrustStoreFreshness := ⟨false, false⟩

def markStale (self : TrustStoreFreshness) : TrustStoreFreshness := { self with stale := true }

/-- The first store of `mark_stale_permanently`; `markStale` is the second. -/
def latch (self : TrustStoreFreshness) : TrustStoreFreshness := { self with terminal := true }

/-- The store of `mark_fresh`, made when `terminal` was found unset. -/
def markFresh (self : TrustStoreFreshness) : TrustStoreFreshness := { self with stale := false }

end TrustStoreFreshness

/-- The refusal of `StaleFailsClosed`. -/
def staleDetails : Str :=
  ("nothing is maintaining the trust store: either --trust has not been re-read successfully for " ++
    "several cadences, or the trust plane that owned the refresh is gone. A key revoked in --trust " ++
    "would still resolve from the frozen snapshot, so verification fails closed").toList

/-! ## The reload loop -/

/-- `TRUST_RELOAD_FAILURE_BUDGET`. -/
def trustReloadFailureBudget : Nat := 5

/-- Where the reload thread is: in `trust_reload_loop`, or in its supervisor. The count of
consecutive failures saturates in the code, far above the budget. -/
inductive Reloader where
  /-- Asleep until a time, after this many consecutive failures. -/
  | asleep (due failures : Nat)
  /-- `--trust` is read, the store not yet swapped. -/
  | read (resolver : InMemoryTrustResolver) (failures : Nat)
  /-- The store is swapped, `mark_fresh` not yet called. -/
  | stored
  /-- `mark_fresh` found `terminal` unset. -/
  | freshening
  /-- The read failed, and the failure is counted. -/
  | failing (failures : Nat)
  /-- The halt was seen, or the body panicked. -/
  | ending
  /-- `mark_stale_permanently` has set `terminal`. -/
  | latched
  /-- Halted or dead. -/
  | ended

/-! ## The deployment -/

def nanosPerSec : Nat := 1000000000

/-- `unix_seconds` of a time since the epoch. -/
def unixSeconds (time : Nat) : I64 := I64.clamp (time / nanosPerSec : Nat)

structure Deployment where
  time : Nat
  reloader : Reloader
  freshness : TrustStoreFreshness
  store : TrustSnapshot
  /-- The calls of `StaleFailsClosed::resolve` that found `terminal` unset. -/
  asking : Nat → Option Binding
  /-- The calls that went on to the cache. -/
  shared : Shared.State
  /-- `Drop` of the plane has set `terminal`. -/
  retiring : Bool

/-- What `StaleFailsClosed::resolve` returned. -/
structure Resolved where
  binding : Binding
  result : Except TrustResolverError VerificationKey
  deriving DecidableEq

inductive Event where
  | elapse (nanos : Nat)
  /-- `StaleFailsClosed::resolve` starts, and loads `terminal`. -/
  | resolve (thread : Nat) (binding : Binding)
  /-- It loads `stale`. -/
  | check (thread : Nat)
  | look (thread : Nat)
  /-- The cache asks the store. -/
  | ask (thread : Nat)
  | write (thread : Nat)
  /-- A reload attempt, which reads the file or fails to. -/
  | attempt (readable : Bool)
  /-- The reload thread goes on within its cycle, or within its end. -/
  | proceed
  /-- The sleep is cut short by a halt. -/
  | halt
  | panic
  /-- The plane is dropped: `mark_stale_permanently`, store by store. -/
  | retire
  | retired
  /-- A reload of no loop, after the end of the loop: it reads the file, swaps the store and calls
  `mark_fresh`. -/
  | straggle
  deriving DecidableEq

section

variable (file : Nat → InMemoryTrustResolver) (cadence : Nat)

namespace Deployment

/-- After `materialize` at a time: the file is read once, and the loop sleeps. -/
def materialize (T N : I64) (start : Nat) : Deployment where
  time := start
  reloader := .asleep (start + cadence * nanosPerSec) 0
  freshness := .default
  store := ⟨file start, start⟩
  asking := fun _ => none
  shared := Shared.State.new (BoundedTrustCache.new T N) (unixSeconds start)
  retiring := false

/-- The next sleep of the loop. -/
def sleep (self : Deployment) (failures : Nat) : Reloader :=
  .asleep (self.time + cadence * nanosPerSec) failures

/-- The reload thread's next step. -/
def proceed (self : Deployment) : Deployment :=
  match self.reloader with
  | .asleep _ _ => self
  | .read resolver _ => { self with reloader := .stored, store := ⟨resolver, self.time⟩ }
  | .stored =>
    if self.freshness.terminal then { self with reloader := self.sleep cadence 0 }
    else { self with reloader := .freshening }
  | .freshening =>
    { self with reloader := self.sleep cadence 0, freshness := self.freshness.markFresh }
  | .failing failures =>
    if trustReloadFailureBudget ≤ failures then
      { self with reloader := self.sleep cadence failures, freshness := self.freshness.markStale }
    else { self with reloader := self.sleep cadence failures }
  | .ending => { self with reloader := .latched, freshness := self.freshness.latch }
  | .latched => { self with reloader := .ended, freshness := self.freshness.markStale }
  | .ended => self

/-- The cache takes a step. -/
def onCache (self : Deployment) (action : Shared.Action) : Option Resolved × Deployment :=
  ((self.shared.step action).1.map fun returned => ⟨returned.binding, returned.resolution.result⟩,
    { self with shared := (self.shared.step action).2 })

/-- One step, with what the call it ends returns. -/
def step (self : Deployment) : Event → Option Resolved × Deployment
  | .elapse nanos =>
    (none, { self with
      time := self.time + nanos
      shared := (self.shared.step (.pass (unixSeconds (self.time + nanos)))).2 })
  | .resolve thread binding =>
    match self.shared.calls thread, self.asking thread with
    | .idle, none =>
      if self.freshness.terminal then (some ⟨binding, .error (.unavailable staleDetails)⟩, self)
      else (none, { self with asking := Function.update self.asking thread (some binding) })
    | _, _ => (none, self)
  | .check thread =>
    match self.asking thread with
    | some binding =>
      if self.freshness.stale then
        (some ⟨binding, .error (.unavailable staleDetails)⟩,
          { self with asking := Function.update self.asking thread none })
      else
        (none, { self with
          asking := Function.update self.asking thread none
          shared := (self.shared.step (.resolve thread binding)).2 })
    | none => (none, self)
  | .look thread => self.onCache (.look thread)
  | .ask thread =>
    match self.shared.calls thread with
    | .missed binding _ _ => self.onCache (.answer thread (self.store.resolver.resolve binding))
    | _ => (none, self)
  | .write thread => self.onCache (.write thread)
  | .attempt readable =>
    match self.reloader with
    | .asleep due failures =>
      if self.time < due then (none, self)
      else if readable then (none, { self with reloader := .read (file self.time) failures })
      else (none, { self with reloader := .failing (failures + 1) })
    | _ => (none, self)
  | .proceed => (none, self.proceed cadence)
  | .halt =>
    match self.reloader with
    | .asleep _ _ => (none, { self with reloader := .ending })
    | _ => (none, self)
  | .panic =>
    match self.reloader with
    | .latched => (none, self)
    | .ended => (none, self)
    | _ => (none, { self with reloader := .ending })
  | .retire => (none, { self with freshness := self.freshness.latch, retiring := true })
  | .retired =>
    if self.retiring then (none, { self with freshness := self.freshness.markStale })
    else (none, self)
  | .straggle =>
    match self.reloader with
    | .ended =>
      (none, { self with
        store := ⟨file self.time, self.time⟩
        freshness := if self.freshness.terminal then self.freshness
          else self.freshness.markFresh })
    | _ => (none, self)

end Deployment

end

/-! ## What the operator is told -/

inductive RevocationTier where
  | boundedCache (tSecs : I64)
  | live
  | push (tSecs : I64)
  deriving DecidableEq, Repr

/-- The cadence of `TrustReloadPlan::Every` is not zero. -/
inductive TrustReloadPlan where
  | readOnceAtStartup
  | every (secs : Nat)
  deriving DecidableEq, Repr

def TrustReloadPlan.cadenceSecs : TrustReloadPlan → Option Nat
  | .readOnceAtStartup => none
  | .every secs => some secs

/-- The sum the operator is told. -/
def deliveredTotal (cadence : Nat) (tSecs : I64) : I64 := (I64.clamp cadence).saturatingAdd tSecs

def deliveredRevocationWindow (tier : RevocationTier) (reload : TrustReloadPlan) : Str :=
  match reload.cadenceSecs with
  | none =>
    ("UNBOUNDED: --trust is read once at startup, so a removed key keeps resolving until every " ++
      "replica restarts").toList
  | some cadence =>
    let r := (I64.clamp cadence).display
    let summed (tSecs : I64) : Str :=
      "worst case ".toList ++ (deliveredTotal cadence tSecs).display ++ "s = R ".toList ++ r ++
        "s + T ".toList ++ tSecs.display ++
        ("s (the reload swaps the store but evicts nothing already cached, so a cached entry " ++
          "outlives the swap by a further T)").toList
    match tier with
    | .live =>
      "worst case ".toList ++ r ++ "s (the store cadence R=".toList ++ r ++
        "s; this tier caches no positive trust)".toList
    | .boundedCache tSecs => summed tSecs
    | .push tSecs => summed tSecs

end McpRe.Trust

import McpRe.Http.Body
import McpRe.Http.Serde
import McpRe.Lib.Base64
import McpRe.Lib.Run
import McpRe.Replay.Retained

/-!
# The etcd store

Replicas that record their nonces in one etcd (`async_etcd_store.rs`, with the pure parts of
`etcd_store.rs`): a key is put if absent, under a lease that expires with the retention, and keys
retained until the same second share a lease that the replica keeps in a pool.

Calls of any number of replicas interleave with each other and with etcd at every request and at
every use of a pool. A request is answered by etcd at most once, at any time after it was sent,
whether or not the call still waits for it; a call may give a request up at any time, with the
details that `post` has for it.
-/

namespace McpRe.Replay

open Lib Lib.Text
open McpRe.Http (Json)

/-! ## Requests and replies -/

def computeTtlSecs (expiresAtUnix nowUnix : I64) : I64 :=
  max (expiresAtUnix.saturatingSub nowUnix) 1

def buildLeaseGrantBody (ttlSecs : I64) : Json :=
  .object [Json.field "TTL" (.ofI64 ttlSecs), Json.field "ID" (.ofI64 0)]

def buildTxnBody (keyB64 valueB64 : Str) (leaseId : I64) : Json :=
  .object [
    Json.field "compare" (.array [.object [
      Json.field "key" (.string keyB64),
      Json.field "target" (.string "CREATE".toList),
      Json.field "result" (.string "EQUAL".toList),
      Json.field "create_revision" (.string "0".toList)]]),
    Json.field "success" (.array [.object [
      Json.field "request_put" (.object [
        Json.field "key" (.string keyB64),
        Json.field "value" (.string valueB64),
        Json.field "lease" (.string leaseId.display)])]]),
    Json.field "failure" (.array [])]

/-- The `ID` of a grant, as text or as a number. -/
def readLeaseId : Json → Option I64
  | .string s => I64.fromStr s
  | .number text => Json.asI64 (.number text)
  | _ => none

/-- `parse_lease_id`; `print` is `Display` of a `Value`. -/
def parseLeaseId (print : Json → Str) (resp : Json) : Except ReplayStoreError I64 :=
  match resp.get "ID" with
  | none => .error (.unavailable "etcd lease/grant response missing ID".toList)
  | some raw =>
    match readLeaseId raw with
    | none => .error (.unavailable ("etcd lease/grant ID not an integer: ".toList ++ print raw))
    | some id =>
      if id = 0 then
        .error (.unavailable ("etcd lease/grant returned lease id 0 (unleased put would never "
          ++ "expire)").toList)
      else .ok id

def decisionFromTxn (resp : Json) : ReplayDecision :=
  match resp.get "succeeded" with
  | some (.bool true) => .fresh
  | _ => .replay

/-! ## etcd -/

/-- What etcd keeps: the live leases, each with the instant until which it is kept at least, and the
keys, each under its lease. -/
structure Etcd where
  leases : I64 → Option Nat
  keys : Bytes → Option I64

/-- A transaction that puts a key if another is absent. -/
structure PutIfAbsent where
  compared : Bytes
  key : Bytes
  lease : I64
  deriving DecidableEq

namespace Etcd

def new : Etcd where
  leases := fun _ => none
  keys := fun _ => none

/-- Nanoseconds of a second. -/
def second : Nat := 10 ^ 9

/-- The grant that a body asks for, by its TTL. -/
def readGrant (body : Json) : Option Nat :=
  ((body.get "TTL").bind Json.asI64).map fun ttl => ttl.val.toNat

def readKey (value : Option Json) : Option Bytes :=
  (value.bind Json.asStr).bind (Base64.decode Base64.standard)

/-- The transaction that a body asks for: one comparison of a creation revision with zero, and one
put. -/
def readTxn (body : Json) : Option PutIfAbsent :=
  match body.get "compare", body.get "success" with
  | some (.array [test]), some (.array [op]) =>
    if (test.get "target").bind Json.asStr = some "CREATE".toList ∧
        (test.get "result").bind Json.asStr = some "EQUAL".toList ∧
        (test.get "create_revision").bind Json.asStr = some "0".toList then do
      let compared ← readKey (test.get "key")
      let put ← op.get "request_put"
      let key ← readKey (put.get "key")
      let lease ← ((put.get "lease").bind Json.asStr).bind I64.fromStr
      return ⟨compared, key, lease⟩
    else none
  | _, _ => none

/-- A new lease, under an identifier that no live lease has. -/
def grant (e : Etcd) (time ttl : Nat) (id : I64) : Etcd :=
  { e with leases := Function.update e.leases id (some (time + ttl * second)) }

/-- The transaction takes effect at once; a put under a lease that is not live is refused. -/
def txn (e : Etcd) (t : PutIfAbsent) : Option (Bool × Etcd) :=
  if (e.keys t.compared).isNone then
    if (e.leases t.lease).isSome then
      some (true, { e with keys := Function.update e.keys t.key (some t.lease) })
    else none
  else some (false, e)

/-- A lease goes, and its keys with it. -/
def expire (e : Etcd) (lease : I64) : Etcd where
  leases := Function.update e.leases lease none
  keys := fun key => if e.keys key = some lease then none else e.keys key

/-- The reply to a grant names the lease. -/
def saysGranted (reply : Json) (id : I64) : Bool :=
  match reply.get "ID" with
  | some (.string s) => s == id.display
  | _ => false

/-- The reply to a transaction says whether it succeeded; a failure may go unsaid. -/
def saysSucceeded (reply : Json) (succeeded : Bool) : Bool :=
  match reply.get "succeeded" with
  | some (.bool b) => b == succeeded
  | none => !succeeded
  | _ => false

end Etcd

/-! ## Calls -/

/-- What a call of `atomic_insert_if_absent` has captured. -/
structure EtcdCall (ρ : Type) where
  node : ρ
  key : Str
  expiresAtUnix : I64
  now : I64
  deriving DecidableEq

/-- The requests of a call. Only a transaction under a pooled lease is followed by another, so there
is at most one of each. -/
inductive Post where
  | grant
  | txn (reused : Bool)
  deriving DecidableEq

/-- How far a call has come. -/
inductive Insertion (ρ : Type) where
  | idle
  /-- The clock is read. -/
  | begun (call : EtcdCall ρ)
  /-- The call waits for a grant. -/
  | granting (call : EtcdCall ρ)
  /-- The call waits for its transaction. -/
  | txning (call : EtcdCall ρ) (leaseId : I64) (reused : Bool)
  | returned (call : EtcdCall ρ) (result : Except ReplayStoreError ReplayDecision)

/-- What has become of a request. -/
inductive Posting where
  | unsent
  | flying (body : Json)
  | answered (reply : Json)
  | refused

def EtcdCall.ttlSecs {ρ : Type} (call : EtcdCall ρ) : I64 :=
  computeTtlSecs call.expiresAtUnix call.now

def EtcdCall.txnBody {ρ : Type} (call : EtcdCall ρ) (leaseId : I64) : Json :=
  buildTxnBody (Base64.encode Base64.standard (utf8 call.key))
    (Base64.encode Base64.standard (utf8 ['1'])) leaseId

/-- The leases of a replica, by the instant they were granted to expire at. -/
abbrev LeasePool := Table I64 I64

namespace LeasePool

/-- The pool as `pooled_lease` leaves it: `split_off` keeps what is after the reading. -/
def live (leases : LeasePool) (now : I64) : LeasePool :=
  Table.retain (fun retainUntil _ => decide (now.saturatingAdd 1 ≤ retainUntil)) leases

def pooledLease (leases : LeasePool) (retainUntil now : I64) : Option I64 :=
  (live leases now).lookup retainUntil

def poolLease (leases : LeasePool) (retainUntil leaseId : I64) : LeasePool :=
  leases.insert retainUntil leaseId

def forgetLease (leases : LeasePool) (retainUntil leaseId : I64) : LeasePool :=
  if leases.lookup retainUntil = some leaseId then leases.erase retainUntil else leases

end LeasePool

section

variable (γ ρ : Type)

/-- One etcd, the replicas and the calls on them. -/
structure EtcdFleet where
  /-- The real time, in nanoseconds after the epoch. -/
  time : Nat
  etcd : Etcd
  leases : ρ → LeasePool
  calls : γ → Insertion ρ
  posts : γ → Post → Posting

inductive EtcdEvent where
  | tick (time : Nat)
  /-- etcd lets a lease go. -/
  | expire (lease : I64)
  | call (c : γ) (node : ρ) (insert : ReplayInsert)
  /-- The call is polled for the first time. -/
  | poll (c : γ)
  /-- etcd acts on a request; a grant is given the identifier. -/
  | land (c : γ) (post : Post) (id : I64) (reply : Json)
  /-- The reply reaches the call. -/
  | deliver (c : γ)
  /-- The call gives its request up. -/
  | fail (c : γ) (details : Str)

/-- What shows of a step. -/
inductive Shown where
  /-- etcd put the key of the call's transaction. -/
  | put (c : γ) (reused : Bool)
  | reported (c : γ) (result : Except ReplayStoreError ReplayDecision)

end

namespace EtcdFleet

variable {γ ρ : Type}

def new : EtcdFleet γ ρ where
  time := 0
  etcd := .new
  leases := fun _ => ∅
  calls := fun _ => .idle
  posts := fun _ _ => .unsent

/-- The store's clock: the time, rounded down to seconds. -/
def clock (s : EtcdFleet γ ρ) : I64 := I64.clamp (s.time / Etcd.second : Nat)

variable [DecidableEq γ] [DecidableEq ρ]

def stand (s : EtcdFleet γ ρ) (c : γ) (stage : Insertion ρ) : EtcdFleet γ ρ :=
  { s with calls := Function.update s.calls c stage }

def posting (s : EtcdFleet γ ρ) (c : γ) (post : Post) (posting : Posting) : EtcdFleet γ ρ :=
  { s with posts := Function.update s.posts c (Function.update (s.posts c) post posting) }

def setPool (s : EtcdFleet γ ρ) (node : ρ) (pool : LeasePool) : EtcdFleet γ ρ :=
  { s with leases := Function.update s.leases node pool }

def report (s : EtcdFleet γ ρ) (c : γ) (call : EtcdCall ρ)
    (result : Except ReplayStoreError ReplayDecision) : Option (Shown γ) × EtcdFleet γ ρ :=
  (some (.reported c result), s.stand c (.returned call result))

def askGrant (s : EtcdFleet γ ρ) (c : γ) (call : EtcdCall ρ) : EtcdFleet γ ρ :=
  (s.stand c (.granting call)).posting c .grant (.flying (buildLeaseGrantBody call.ttlSecs))

def askTxn (s : EtcdFleet γ ρ) (c : γ) (call : EtcdCall ρ) (leaseId : I64) (reused : Bool) :
    EtcdFleet γ ρ :=
  (s.stand c (.txning call leaseId reused)).posting c (.txn reused)
    (.flying (call.txnBody leaseId))

/-- The future of `atomic_insert_if_absent`, up to its first request. -/
def poll (s : EtcdFleet γ ρ) (c : γ) : Option (Shown γ) × EtcdFleet γ ρ :=
  match s.calls c with
  | .begun call =>
    if isStalePreStore call.expiresAtUnix call.now then
      s.report c call (.error (.unavailable
        (InMemoryAtomicReplayStore.staleDetails call.expiresAtUnix call.now)))
    else
      let pruned := s.setPool call.node (LeasePool.live (s.leases call.node) call.now)
      match LeasePool.pooledLease (s.leases call.node) call.expiresAtUnix call.now with
      | some pooled => (none, pruned.askTxn c call pooled true)
      | none => (none, pruned.askGrant c call)
  | _ => (none, s)

/-- From a reply to the next request, or to the end. -/
def deliver (print : Json → Str) (s : EtcdFleet γ ρ) (c : γ) :
    Option (Shown γ) × EtcdFleet γ ρ :=
  match s.calls c with
  | .granting call =>
    match s.posts c .grant with
    | .answered reply =>
      match parseLeaseId print reply with
      | .error e => s.report c call (.error e)
      | .ok granted =>
        (none, (s.setPool call.node (LeasePool.poolLease (s.leases call.node) call.expiresAtUnix
          granted)).askTxn c call granted false)
    | _ => (none, s)
  | .txning call _ reused =>
    match s.posts c (.txn reused) with
    | .answered reply => s.report c call (.ok (decisionFromTxn reply))
    | _ => (none, s)
  | _ => (none, s)

/-- A request that did not work: a transaction under a pooled lease is tried again under a lease of
the call's own. -/
def fail (s : EtcdFleet γ ρ) (c : γ) (details : Str) : Option (Shown γ) × EtcdFleet γ ρ :=
  match s.calls c with
  | .granting call => s.report c call (.error (.unavailable details))
  | .txning call leaseId true =>
    (none, (s.setPool call.node (LeasePool.forgetLease (s.leases call.node) call.expiresAtUnix
      leaseId)).askGrant c call)
  | .txning call _ false => s.report c call (.error (.unavailable details))
  | _ => (none, s)

/-- etcd acts on a request that is under way. -/
def land (s : EtcdFleet γ ρ) (c : γ) (post : Post) (id : I64) (reply : Json) :
    Option (Shown γ) × EtcdFleet γ ρ :=
  match s.posts c post with
  | .flying body =>
    match post with
    | .grant =>
      match Etcd.readGrant body with
      | none => (none, s.posting c .grant .refused)
      | some ttl =>
        if (s.etcd.leases id).isNone ∧ Etcd.saysGranted reply id then
          (none, { s.posting c .grant (.answered reply) with etcd := s.etcd.grant s.time ttl id })
        else (none, s)
    | .txn reused =>
      match (Etcd.readTxn body).bind s.etcd.txn with
      | none => (none, s.posting c (.txn reused) .refused)
      | some (succeeded, etcd) =>
        if Etcd.saysSucceeded reply succeeded then
          (if succeeded then some (.put c reused) else none,
            { s.posting c (.txn reused) (.answered reply) with etcd := etcd })
        else (none, s)
  | _ => (none, s)

def step (print : Json → Str) (s : EtcdFleet γ ρ) : EtcdEvent γ ρ →
    Option (Shown γ) × EtcdFleet γ ρ
  | .tick time => (none, if s.time ≤ time then { s with time := time } else s)
  | .expire lease =>
    match s.etcd.leases lease with
    -- not before its TTL is over
    | some kept => (none, if kept ≤ s.time then { s with etcd := s.etcd.expire lease } else s)
    | none => (none, s)
  | .call c node insert =>
    match s.calls c with
    | .idle => (none, s.stand c (.begun ⟨node, insert.key, insert.expiresAtUnix, s.clock⟩))
    | _ => (none, s)
  | .poll c => s.poll c
  | .land c post id reply => s.land c post id reply
  | .deliver c => s.deliver print c
  | .fail c details => s.fail c details

end EtcdFleet

end McpRe.Replay

import McpRe.Replay.Shared

/-!
# The async in-memory store

The default store behind the async tier: what it retains and how it evicts
(`async_replay/retained_set.rs`), when it refuses (`async_replay/local_refusals.rs`), and the insert
that puts them together (`async_replay/in_memory.rs`).
-/

namespace McpRe.Replay

open Lib Lib.Counter Lib.Text

/-! ## The retained set -/

/-- `RetainedSet`. The instant a key is retained until is the bucket of `byExpiry` it sits in; the
entry of a key in `seen` is the actor that holds it. -/
structure RetainedSet where
  seen : Table Str Str
  byExpiry : Table I64 (List Str)
  insertsSincePrune : Nat
  perActor : Table Str Nat

namespace RetainedSet

/-- `RetainedSet::default`. -/
def empty : RetainedSet where
  seen := ∅
  byExpiry := ∅
  insertsSincePrune := 0
  perActor := ∅

/-- The charge of an evicted entry: the last one takes the actor's name out. -/
def releaseCharge (perActor : Table Str Nat) (actor : Str) : Table Str Nat :=
  match perActor.lookup actor with
  | none => perActor
  | some held => if held - 1 = 0 then perActor.erase actor else perActor.insert actor (held - 1)

/-- One key of an expired bucket: the body of the loops of `prune_if_due`. -/
def evict (s : RetainedSet) (key : Str) : RetainedSet :=
  match s.seen.lookup key with
  | none => s
  | some actor =>
    { s with seen := s.seen.erase key, perActor := releaseCharge s.perActor actor }

/-- The keys of the buckets that `split_off` leaves behind. -/
def dead (s : RetainedSet) (now : I64) : List Str :=
  (Table.retain (fun retainUntil _ => !decide (now ≤ retainUntil)) s.byExpiry).entries.flatMap
    Sigma.snd

/-- The eviction of `prune_if_due`, once it is due. -/
def prune (s : RetainedSet) (now : I64) : RetainedSet :=
  let live := Table.retain (fun retainUntil _ => decide (now ≤ retainUntil)) s.byExpiry
  (s.dead now).foldl evict { s with byExpiry := live }

/-- The counter of the cadence after one more insert. -/
def countInsert (insertsSincePrune : Nat) : Nat := min (insertsSincePrune + 1) usizeMax

def pruneIfDue (s : RetainedSet) (clock : I64) : RetainedSet :=
  if asyncPruneEveryNInserts ≤ countInsert s.insertsSincePrune then
    { s with insertsSincePrune := 0 }.prune clock
  else { s with insertsSincePrune := countInsert s.insertsSincePrune }

/-- What an actor is charged; nothing for a name the table does not hold. -/
def chargedTo (s : RetainedSet) (actor : Str) : Nat := (s.perActor.lookup actor).getD 0

def record (s : RetainedSet) (key actor : Str) (retainUntil : I64) : RetainedSet :=
  let bucket := (s.byExpiry.lookup retainUntil).getD []
  { s with
    perActor := s.perActor.insert actor (min (s.chargedTo actor + 1) usizeMax)
    byExpiry := s.byExpiry.insert retainUntil (bucket ++ [key])
    seen := s.seen.insert key actor }

end RetainedSet

/-! ## Refusals -/

/-- `BudgetRefusal::into_unavailable`, at a named level. -/
def BudgetRefusal.intoUnavailableAt (level : String) (refusal : BudgetRefusal) : ReplayStoreError :=
  .unavailable (level.toList ++ ": actor holds ".toList ++ Nat.toDigits 10 refusal.held
    ++ " of its ".toList ++ Nat.toDigits 10 refusal.budget
    ++ " retained-entry budget while the ".toList ++ level.toList ++ " is at ".toList
    ++ Nat.toDigits 10 refusal.level ++ " of ".toList ++ Nat.toDigits 10 refusal.maxEntries
    ++ " entries".toList)

def refuseStaleRetainUntil (retainUntil nowUnix : I64) : Except ReplayStoreError Unit :=
  if isStalePreStore retainUntil nowUnix then
    .error (.unavailable ("replay retain_until is already past; refusing to record a nonce ".toList
      ++ "that would not be retained".toList))
  else .ok ()

def refuseOverFairShare (s : RetainedSet) (actor : Str) (maxEntries : Nat) :
    Except ReplayStoreError Unit :=
  let len := Table.size s.seen
  if Id.run (underPressure saturating len maxEntries) then
    let budget := Id.run (perActorBudget saturating maxEntries (Table.size s.perActor))
    let held := s.chargedTo actor
    if budget ≤ held then
      .error (.unavailable ("in-memory async replay store: actor holds ".toList
        ++ Nat.toDigits 10 held ++ " of its ".toList ++ Nat.toDigits 10 budget
        ++ " retained-entry budget while the store is at ".toList ++ Nat.toDigits 10 len
        ++ " of ".toList ++ Nat.toDigits 10 maxEntries ++ " entries".toList))
    else .ok ()
  else .ok ()

def refuseOverCeiling (s : RetainedSet) (maxEntries : Nat) : Except ReplayStoreError Unit :=
  if maxEntries ≤ Table.size s.seen then
    .error (.unavailable ("in-memory async replay store is at its ".toList
      ++ Nat.toDigits 10 maxEntries ++ " entry ceiling".toList))
  else .ok ()

/-! ## The insert -/

/-- `InMemoryAsyncAtomicReplayStore`, apart from its state: the ceiling is a `usize`. -/
structure InMemoryAsyncAtomicReplayStore where
  maxEntries : Nat
  maxEntries_le : maxEntries ≤ usizeMax

/-- `ReplayInsert`: what a caller asks to be recorded. -/
structure ReplayInsert where
  key : Str
  actor : Str
  expiresAtUnix : I64
  nowUnix : I64
  deriving DecidableEq, Repr

namespace InMemoryAsyncAtomicReplayStore

def asyncMaxEntries : Nat := 1000000

/-- `InMemoryAsyncAtomicReplayStore::default`. -/
def default : InMemoryAsyncAtomicReplayStore := ⟨asyncMaxEntries, by decide⟩

variable (S : InMemoryAsyncAtomicReplayStore)

/-- `insert_locked`, past the replay check and the eviction. -/
def refuseOrRecord (s : RetainedSet) (insert : ReplayInsert) :
    Except ReplayStoreError ReplayDecision × RetainedSet :=
  match refuseOverFairShare s insert.actor S.maxEntries with
  | .error _ =>
    -- the refusal that was found is dropped, and its numbers are told again
    let refusal : BudgetRefusal :=
      ⟨s.chargedTo insert.actor,
        Id.run (perActorBudget saturating S.maxEntries (Table.size s.perActor)),
        Table.size s.seen, S.maxEntries⟩
    (.error (refusal.intoUnavailableAt "in-memory async replay store"), s)
  | .ok () =>
    match refuseOverCeiling s S.maxEntries with
    | .error e => (.error e, s)
    | .ok () => (.ok .fresh, s.record insert.key insert.actor insert.expiresAtUnix)

/-- `insert_locked`. The caller's `nowUnix` only decides staleness; `clock` is what the store reads
itself, if its eviction is due. -/
def insertLocked (s : RetainedSet) (insert : ReplayInsert) (clock : I64) :
    Except ReplayStoreError ReplayDecision × RetainedSet :=
  match refuseStaleRetainUntil insert.expiresAtUnix insert.nowUnix with
  | .error e => (.error e, s)
  | .ok () =>
    if (s.seen.lookup insert.key).isSome then (.ok .replay, s)
    else S.refuseOrRecord (s.pruneIfDue clock) insert

end InMemoryAsyncAtomicReplayStore

/-- An insert, and what the store's clock reads during it. -/
structure StoreCall where
  insert : ReplayInsert
  clock : I64
  deriving DecidableEq, Repr

/-- One insert of a run. -/
def InMemoryAsyncAtomicReplayStore.step (S : InMemoryAsyncAtomicReplayStore) (s : RetainedSet)
    (call : StoreCall) : Except ReplayStoreError ReplayDecision × RetainedSet :=
  S.insertLocked s call.insert call.clock

/-- The instant that the insert evicts at, if it evicts. -/
def RetainedSet.prunesAt (s : RetainedSet) (call : StoreCall) : Option I64 :=
  if !isStalePreStore call.insert.expiresAtUnix call.insert.nowUnix
      && (s.seen.lookup call.insert.key).isNone
      && decide (asyncPruneEveryNInserts ≤ countInsert s.insertsSincePrune) then some call.clock
  else none

end McpRe.Replay

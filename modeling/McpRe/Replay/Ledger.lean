import McpRe.Lib.Counter
import McpRe.Replay.Cache

/-!
# The retention ledger

The per-replica account of retained nonces (`async_replay/retention_ledger.rs`) and the shares of it
one actor may hold (`async_replay/bounds.rs`).

The source counts in saturating `usize` arithmetic. The operations are written over an arithmetic,
so that the run on the saturating one, which is the source, can be compared with the run on the
checked one, which stops where the other saturates.
-/

namespace McpRe.Replay

open Lib Lib.Counter Lib.Text

/-! ## Bounds -/

def asyncPruneEveryNInserts : Nat := 64

def asyncReserveDivisor : Nat := 5

section

variable {m : Type → Type} [Monad m] (A : Arith m)

/-- The ceiling minus the reserve. -/
def spendable (maxEntries : Nat) : m Nat := A.sub maxEntries (maxEntries / asyncReserveDivisor)

def perActorBudget (maxEntries actors : Nat) : m Nat := do
  let spendable ← spendable A maxEntries
  pure (max (spendable / max actors 1) 1)

def underPressure (len maxEntries : Nat) : m Bool := do
  let spendable ← spendable A maxEntries
  pure (decide (spendable ≤ len))

end

/-! ## Refusals -/

inductive ReplayStoreError where
  | unavailable (details : Str)
  deriving DecidableEq, Repr

/-- `BudgetRefusal`: the numbers of a refusal over budget. -/
structure BudgetRefusal where
  held : Nat
  budget : Nat
  level : Nat
  maxEntries : Nat
  deriving DecidableEq, Repr

/-- `BudgetRefusal::into_unavailable`, at the tier. -/
def BudgetRefusal.intoUnavailable (refusal : BudgetRefusal) : ReplayStoreError :=
  .unavailable ("async replay tier: actor holds ".toList ++ Nat.toDigits 10 refusal.held
    ++ " of its ".toList ++ Nat.toDigits 10 refusal.budget
    ++ " retained-entry budget while the async replay tier is at ".toList
    ++ Nat.toDigits 10 refusal.level ++ " of ".toList ++ Nat.toDigits 10 refusal.maxEntries
    ++ " entries".toList)

/-- The refusal at the ceiling. -/
def tierCeiling (maxEntries : Nat) : ReplayStoreError :=
  .unavailable ("async replay tier is at its ".toList ++ Nat.toDigits 10 maxEntries
    ++ " retained-entry ceiling".toList)

/-! ## The ledger -/

structure LedgerState where
  perActor : Table Str Nat
  byExpiry : Table I64 (List Str)
  committed : Nat
  outstanding : Nat
  insertsSincePrune : Nat

/-- `LedgerState::default`. -/
def LedgerState.empty : LedgerState where
  perActor := ∅
  byExpiry := ∅
  committed := 0
  outstanding := 0
  insertsSincePrune := 0

/-- `RetentionLedger`, apart from its state: the ceiling is a positive `usize`. -/
structure RetentionLedger where
  maxEntries : Nat
  maxEntries_pos : 1 ≤ maxEntries
  maxEntries_le : maxEntries ≤ usizeMax

def RetentionLedger.new (maxEntries : Nat) (h : maxEntries ≤ usizeMax) : RetentionLedger where
  maxEntries := max maxEntries 1
  maxEntries_pos := le_max_right ..
  maxEntries_le := max_le h (by decide)

/-- What an actor is charged; nothing for a name the table does not hold. -/
def LedgerState.chargedTo (s : LedgerState) (actor : Str) : Nat :=
  (s.perActor.lookup actor).getD 0

namespace LedgerState

section

variable {m : Type → Type} [Monad m] (A : Arith m)

def discharge (s : LedgerState) (actor : Str) : m LedgerState :=
  match s.perActor.lookup actor with
  | none => pure s
  | some charged => do
    let charged ← A.sub charged 1
    if charged = 0 then pure { s with perActor := s.perActor.erase actor }
    else pure { s with perActor := s.perActor.insert actor charged }

/-- One expired entry of an actor: the body of the loop of `prune`. -/
def expire (s : LedgerState) (actor : Str) : m LedgerState := do
  let committed ← A.sub s.committed 1
  discharge A { s with committed := committed } actor

/-- The actors of the entries that a prune takes out: what `split_off` leaves behind. -/
def dead (s : LedgerState) (nowUnix : I64) : List Str :=
  (Table.retain (fun retainUntil _ => !decide (nowUnix ≤ retainUntil)) s.byExpiry).entries.flatMap
    Sigma.snd

def prune (s : LedgerState) (nowUnix : I64) : m LedgerState :=
  let live := Table.retain (fun retainUntil _ => decide (nowUnix ≤ retainUntil)) s.byExpiry
  (s.dead nowUnix).foldlM (expire A) { s with byExpiry := live }

/-- Does the reservation exceed the actor's budget? Asked only under pressure. -/
def budgetRefusal (L : RetentionLedger) (s : LedgerState) (actor : Str) (held : Nat) :
    m (Option BudgetRefusal) := do
  if ← underPressure A held L.maxEntries then
    let budget ← perActorBudget A L.maxEntries (Table.size s.perActor)
    let charged := s.chargedTo actor
    if budget ≤ charged then pure (some ⟨charged, budget, held, L.maxEntries⟩)
    else pure none
  else pure none

/-- The charge of a reservation that is granted. -/
def charge (s : LedgerState) (actor : Str) : m LedgerState := do
  let charged ← A.add (s.chargedTo actor) 1
  let outstanding ← A.add s.outstanding 1
  pure { s with perActor := s.perActor.insert actor charged, outstanding := outstanding }

/-- The eviction cadence at the head of `reserve`. -/
def cadence (s : LedgerState) (nowUnix : I64) : m LedgerState := do
  let inserts ← A.add s.insertsSincePrune 1
  if asyncPruneEveryNInserts ≤ inserts then prune A { s with insertsSincePrune := 0 } nowUnix
  else pure { s with insertsSincePrune := inserts }

/-- `reserve`, past the cadence. -/
def grant (L : RetentionLedger) (s : LedgerState) (actor : Str) :
    m (Except ReplayStoreError Str × LedgerState) := do
  let held ← A.add s.committed s.outstanding
  match ← budgetRefusal A L s actor held with
  | some refusal => pure (.error refusal.intoUnavailable, s)
  | none =>
    if L.maxEntries ≤ held then pure (.error (tierCeiling L.maxEntries), s)
    else do
      let s ← charge A s actor
      pure (.ok actor, s)

def reserve (L : RetentionLedger) (s : LedgerState) (actor : Str) (nowUnix : I64) :
    m (Except ReplayStoreError Str × LedgerState) := do
  let s ← cadence A s nowUnix
  grant A L s actor

def commit (s : LedgerState) (actor : Str) (retainUntil : I64) : m LedgerState := do
  let outstanding ← A.sub s.outstanding 1
  let committed ← A.add s.committed 1
  let bucket := (s.byExpiry.lookup retainUntil).getD []
  pure { s with
    outstanding := outstanding
    committed := committed
    byExpiry := s.byExpiry.insert retainUntil (bucket ++ [actor]) }

def release (s : LedgerState) (actor : Str) : m LedgerState := do
  let outstanding ← A.sub s.outstanding 1
  discharge A { s with outstanding := outstanding } actor

end

end LedgerState

/-! ## Interleavings -/

/-- A ledger and the reservations that have not ended. -/
structure Accounts where
  state : LedgerState
  live : List Str

def Accounts.empty : Accounts := ⟨.empty, []⟩

/-- A call on the ledger. A reservation ends by its place among the live ones, so at most once. -/
inductive LedgerEvent where
  | reserve (actor : Str) (now : I64)
  | commit (place : Nat) (retainUntil : I64)
  | release (place : Nat)
  | prune (now : I64)
  deriving DecidableEq, Repr

inductive LedgerAnswer where
  | reserved (outcome : Except ReplayStoreError Str)
  | done
  | noReservation
  deriving DecidableEq

section

variable {m : Type → Type} [Monad m] (A : Arith m)

open LedgerState

/-- The live reservations after a reservation was asked for. -/
def joinLive (live : List Str) : Except ReplayStoreError Str → List Str
  | .ok actor => live ++ [actor]
  | .error _ => live

/-- One call. -/
def ledgerStepWith (L : RetentionLedger) (w : Accounts) :
    LedgerEvent → m (LedgerAnswer × Accounts)
  | .reserve actor now => do
    let (outcome, s) ← reserve A L w.state actor now
    pure (.reserved outcome, ⟨s, joinLive w.live outcome⟩)
  | .commit place retainUntil =>
    match w.live[place]? with
    | none => pure (.noReservation, w)
    | some actor => do
      let s ← commit A w.state actor retainUntil
      pure (.done, ⟨s, w.live.eraseIdx place⟩)
  | .release place =>
    match w.live[place]? with
    | none => pure (.noReservation, w)
    | some actor => do
      let s ← release A w.state actor
      pure (.done, ⟨s, w.live.eraseIdx place⟩)
  | .prune now => do
    let s ← prune A w.state now
    pure (.done, ⟨s, w.live⟩)

end

/-- One call of the ledger as the source computes it. -/
def ledgerStep (L : RetentionLedger) (w : Accounts) (e : LedgerEvent) : LedgerAnswer × Accounts :=
  Id.run (ledgerStepWith saturating L w e)

end McpRe.Replay

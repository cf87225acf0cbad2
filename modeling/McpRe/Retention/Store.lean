import McpRe.Lib.Directory
import McpRe.Lib.Run
import McpRe.Retention.Record

/-!
# The retention store

`EvidenceRetention` (`transparency/durability.rs` and the modules beside it): calls reserve an
exchange, commit it to dispatch and complete it by handing jobs to one writer thread over a bounded
queue, and the writer makes batches of them durable under one directory barrier each.

Calls interleave with each other and with the writer at every operation on the queue, on the permits
and on the file system. What a call learns from outside (a file operation that fails, the order of
everything) is in the action.
-/

namespace McpRe.Retention

open Lib Lib.Text Lib.Directory
open McpRe.Http

/-! ## Names and bytes -/

/-- `serde_json::to_vec`, of the two values the store digests. -/
structure Serde where
  request : RetainedRequest → Bytes
  hop : RetainedHopRecord → Bytes

/-- `EvidenceDigest::of`, as its token. -/
def evidenceDigest (P : Platform) (evidence : Bytes) : Str := b64urlEncode (P.sha256 evidence).bytes

/-- The files of the store: an object under its digest, and a marker at either of its stages. -/
inductive Path where
  | object (digest : Str)
  | reserved (digest : Str)
  | pending (digest : Str)
  deriving DecidableEq, Repr

/-- `ReservationMarker::to_bytes`. -/
def markerBytes (digest : Str) : Bytes :=
  utf8 ("\x7b\"request_digest\":\"".toList ++ digest ++ "\"\x7d".toList)

/-! ## Jobs (`durable_job.rs`) -/

inductive JobKind where
  | publishOrWithdraw (path : Path) (bytes : Bytes)
  | commit (reserved committed : Path)
  | publish (path : Path) (bytes : Bytes) (clearMarker : Option Path)
  | rescind (marker : Path)
  deriving DecidableEq, Repr

inductive JobFault where
  | notPublished (e : IoError)
  | unwithdrawn (e : IoError)
  deriving DecidableEq, Repr

/-- `WriteJob`. An accounted job holds the permit of its exchange, and its acknowledgement goes to
the call of the exchange that awaits one; nobody awaits the other jobs. -/
structure WriteJob where
  kind : JobKind
  exchange : Nat
  slot : Bool
  deriving DecidableEq, Repr

def WriteJob.accounted (kind : JobKind) (exchange : Nat) : WriteJob := ⟨kind, exchange, true⟩

def WriteJob.cleanup (kind : JobKind) (exchange : Nat) : WriteJob := ⟨kind, exchange, false⟩

/-! ## File operations

An operation that is told to fail changes nothing. -/

/-- A store directory. -/
abbrev Root := Disk Path Bytes

def stageAt (root : Root) (path : Path) (bytes : Bytes) :
    Option IoError → Except IoError Unit × Root
  | some e => (.error e, root)
  | none => (.ok (), root.push [(path, some bytes)])

/-- `std::fs::remove_file`. -/
def removeFile (root : Root) (path : Path) : Option IoError → Except IoError Unit × Root
  | some e => (.error e, root)
  | none =>
    match root.view path with
    | none => (.error .notFound, root)
    | some _ => (.ok (), root.push [(path, none)])

/-- `std::fs::rename`. -/
def rename (root : Root) (source target : Path) : Option IoError → Except IoError Unit × Root
  | some e => (.error e, root)
  | none =>
    match root.view source with
    | none => (.error .notFound, root)
    | some bytes => (.ok (), root.push [(source, none), (target, some bytes)])

def syncRoot (root : Root) : Option IoError → Except IoError Unit × Root
  | some e => (.error e, root)
  | none => (.ok (), root.sync)

/-! ## The writer (`durable_writer.rs`) -/

/-- `MAX_WRITE_BATCH`. -/
def maxWriteBatch : Nat := 64

/-- `act`: the job's own operation, and whether a barrier must cover it. -/
def act (root : Root) (fault : Option IoError) : JobKind → Except IoError Bool × Root
  | .publishOrWithdraw path bytes | .publish path bytes _ =>
    let (staged, root) := stageAt root path bytes fault
    (staged.map fun _ => true, root)
  | .commit reserved committed =>
    let (renamed, root) := rename root reserved committed fault
    (renamed.map fun _ => true, root)
  | .rescind marker =>
    match removeFile root marker fault with
    | (.ok (), root) => (.ok false, root)
    | (.error .notFound, root) => (.ok false, root)
    | (.error e, root) => (.error e, root)

/-- `withdraw`: undo a pre-dispatch action. -/
def withdraw (root : Root) (fault : Option IoError) :
    JobKind → Option (Except IoError Unit) × Root
  | .publishOrWithdraw path _ =>
    let (removed, root) := removeFile root path fault
    (some removed, root)
  | .commit reserved committed =>
    let (renamed, root) := rename root committed reserved fault
    (some renamed, root)
  | .publish _ _ _ | .rescind _ => (none, root)

/-- `clear_marker_of`: its failure is printed and goes no further. -/
def clearMarkerOf (root : Root) (fault : Option IoError) : JobKind → Root
  | .publish _ _ (some marker) => (removeFile root marker fault).2
  | _ => root

/-- What the job's action, the barriers and its withdrawal established. -/
def established (acted : Except IoError Bool) (barrier : Except IoError Unit)
    (withdrawn : Option (Except IoError Unit)) (withdrawalBarrier : Except IoError Unit) :
    Except JobFault Unit :=
  match acted with
  | .error e => .error (.notPublished e)
  | .ok changed =>
    match barrier with
    | .ok () => .ok ()
    | .error e =>
      if !changed then .error (.notPublished e)
      else
        match withdrawn with
        | some (.ok ()) =>
          if withdrawalBarrier.isOk then .error (.notPublished e) else .error (.unwithdrawn e)
        | some (.error _) => .error (.unwithdrawn e)
        | none => .error (.notPublished e)

/-- `resolve`: a job that held clears the marker it discharges. -/
def resolve (root : Root) (fault : Option IoError) (kind : JobKind) (acted : Except IoError Bool)
    (barrier : Except IoError Unit) (withdrawn : Option (Except IoError Unit))
    (withdrawalBarrier : Except IoError Unit) : Except JobFault Unit × Root :=
  let outcome := established acted barrier withdrawn withdrawalBarrier
  (outcome, if outcome.isOk then clearMarkerOf root fault kind else root)

/-- A job of the batch and what its action came to. -/
structure Acted where
  job : WriteJob
  acted : Except IoError Bool

/-- The same, and what its withdrawal came to, where there was one. -/
structure Withdrawn where
  job : WriteJob
  acted : Except IoError Bool
  withdrawn : Option (Except IoError Unit)

/-- Where `write_loop` stands. -/
inductive Writer where
  /-- Receiving a batch; with none received it waits. -/
  | collecting (batch : List WriteJob)
  | acting (done : List Acted) (todo : List WriteJob)
  | withdrawing (barrier : Except IoError Unit) (done : List Withdrawn) (todo : List Acted)
  | resolving (barrier withdrawalBarrier : Except IoError Unit) (todo : List Withdrawn)
  /-- A job is resolved; its slot and its acknowledgement are next. -/
  | acknowledging (barrier withdrawalBarrier : Except IoError Unit) (job : WriteJob)
      (outcome : Except JobFault Unit) (todo : List Withdrawn)
  | stopped

/-- The jobs of the batch that still hold their slot. -/
def Writer.jobs : Writer → List WriteJob
  | .collecting batch => batch
  | .acting done todo => done.map Acted.job ++ todo
  | .withdrawing _ done todo => done.map Withdrawn.job ++ todo.map Acted.job
  | .resolving _ _ todo => todo.map Withdrawn.job
  | .acknowledging _ _ job _ todo => job :: todo.map Withdrawn.job
  | .stopped => []

/-! ## Exchanges -/

/-- What has come back over a call's acknowledgement channel. -/
inductive Ack where
  | awaited
  | answered (outcome : Except JobFault Unit)
  | lost
  deriving DecidableEq

/-- The calls that hold a guard. -/
inductive Call where
  | reserve
  | commitToDispatch
  deriving DecidableEq, Repr

/-- How far an exchange has come: the call it is in, or the value its caller holds. -/
inductive Stage where
  | unused
  /-- `reserve` has its permit and its guard, and has sent nothing. -/
  | acquired
  | reserving (ack : Ack)
  /-- The caller holds a `ReservedBeforeDispatch`. -/
  | reserved
  | committing (ack : Ack)
  /-- The guard is about to be dropped; then the call, if it is still there, returns its error. -/
  | leaving (result : Option (Call × RetentionError))
  /-- The guard has queued its rescind and is about to let its permit go. -/
  | rescinded (result : Option (Call × RetentionError))
  /-- `commit_to_dispatch` has its commitment, and its guard is about to be dropped. -/
  | crossing
  /-- The caller holds a `DispatchCommitted`, with its completion or without. -/
  | committed (completion : Bool)
  | completing (ack : Ack)
  /-- `retain` has its permit, and has sent nothing. -/
  | importing (kind : JobKind)
  | retaining (ack : Ack)
  | gone
  deriving DecidableEq

/-- Does a value or a call at this stage hold the permit? -/
def Stage.holds : Stage → Bool
  | .unused | .gone => false
  | _ => true

/-- The acknowledgement reaches a call that awaits one. -/
def Stage.receive (ack : Ack) : Stage → Stage
  | .reserving .awaited => .reserving ack
  | .committing .awaited => .committing ack
  | .completing .awaited => .completing ack
  | .retaining .awaited => .retaining ack
  | stage => stage

/-- An exchange: the projection `reserve` made of its request (a `retain` has none), its stage, and
what its calls have returned. -/
structure Exchange where
  request : Option RetainedRequest
  stage : Stage
  reserve : Option (Except RetentionError Unit)
  commit : Option (Except RetentionError Unit)

def Exchange.unused : Exchange := ⟨none, .unused, none, none⟩

/-- The token the exchange's markers are named by. -/
def Exchange.digest (P : Platform) (serde : Serde) (exchange : Exchange) : Str :=
  ((exchange.request.map serde.request).map (evidenceDigest P)).getD []

/-- A call returns an error. -/
def Exchange.return_ (exchange : Exchange) : Option (Call × RetentionError) → Exchange
  | some (.reserve, e) => { exchange with stage := .gone, reserve := some (.error e) }
  | some (.commitToDispatch, e) => { exchange with stage := .gone, commit := some (.error e) }
  | none => { exchange with stage := .gone }

/-! ## The store -/

structure EvidenceRetention where
  queue : List WriteJob
  writer : Writer
  root : Root
  exchanges : Nat → Exchange
  count : Nat

/-- What happens next. -/
inductive Action where
  /-- `reserve` takes a permit. -/
  | reserve (request : HttpRequest)
  /-- `reserve` sends its marker. -/
  | publish (exchange : Nat)
  | commitToDispatch (exchange : Nat)
  | complete (exchange : Nat) (response : HttpResponse)
  /-- `retain` takes a permit. -/
  | retain (request : HttpRequest) (response : HttpResponse)
  /-- `retain` sends its hop. -/
  | send (exchange : Nat)
  /-- A call reads its acknowledgement. -/
  | resume (exchange : Nat)
  /-- A future is dropped at its await, or the value a call returned is. -/
  | drop (exchange : Nat)
  /-- `Drop for ReservedBeforeDispatch`. -/
  | dropGuard (exchange : Nat)
  /-- The guard's fields are dropped, and the call returns. -/
  | letGo (exchange : Nat)
  /-- The writer thread takes its next operation; `fault` is the error a file operation meets. -/
  | write (fault : Option IoError)
  /-- The writer thread dies. -/
  | stop
  /-- The process dies with the machine, and opens the store again. -/
  | crash (mask : List Bool)

/-- What a step shows: an error that a call returns there. -/
inductive Outcome where
  | nothing
  | refused (e : RetentionError)
  deriving DecidableEq, Repr

/-- `write_queue_capacity`, for a ceiling that can be doubled. -/
def writeQueueCapacity (maxReservations : Nat) : Nat := 2 * maxReservations

/-- `writer_lost`. -/
def writerLost (preDispatch : Bool) : RetentionError :=
  if preDispatch then .unresolved .brokenPipe else .store .brokenPipe

/-- What `submit` makes of an acknowledgement. -/
def ackResult (preDispatch : Bool) : Ack → Option (Except RetentionError Unit)
  | .awaited => none
  | .answered (.ok ()) => some (.ok ())
  | .answered (.error (.notPublished e)) => some (.error (.store e))
  | .answered (.error (.unwithdrawn e)) => some (.error (.unresolved e))
  | .lost => some (.error (writerLost preDispatch))

namespace EvidenceRetention

/-- `open_bounded`, on an empty directory. -/
def opened : EvidenceRetention where
  queue := []
  writer := .collecting []
  root := .empty
  exchanges := fun _ => .unused
  count := 0

/-- The jobs that have been sent and not acknowledged. -/
def live (s : EvidenceRetention) : List WriteJob := s.queue ++ s.writer.jobs

/-- The permit of an exchange is out while a stage of it or a job of it is there. -/
def holdsPermit (s : EvidenceRetention) (e : Nat) : Bool :=
  (s.exchanges e).stage.holds || s.live.any fun job => job.slot && job.exchange == e

/-- How many permits are out. -/
def permitsHeld (s : EvidenceRetention) : Nat := (List.range s.count).countP s.holdsPermit

def set (s : EvidenceRetention) (e : Nat) (exchange : Exchange) : EvidenceRetention :=
  { s with exchanges := Function.update s.exchanges e exchange }

/-- An exchange goes on to another stage. -/
def move (s : EvidenceRetention) (e : Nat) (stage : Stage) : EvidenceRetention :=
  s.set e { s.exchanges e with stage := stage }

/-- A new exchange. -/
def admitted (s : EvidenceRetention) (exchange : Exchange) : EvidenceRetention :=
  { s.set s.count exchange with count := s.count + 1 }

/-- The refusal of `try_acquire_owned` and of a full queue. -/
def queueIsFull : RetentionError := .store .wouldBlock

/-- `try_send`, with the errors `submit` maps its own to. -/
def trySend (K : Nat) (s : EvidenceRetention) (job : WriteJob) :
    Except RetentionError EvidenceRetention :=
  match s.writer with
  | .stopped => .error (.storeRetired .brokenPipe)
  | _ =>
    if s.queue.length < writeQueueCapacity K then .ok { s with queue := s.queue ++ [job] }
    else .error queueIsFull

/-- The rescind of a guard: it is queued if there is room. -/
def rescind (K : Nat) (s : EvidenceRetention) (e : Nat) (digest : Str) : EvidenceRetention :=
  match s.trySend K (.cleanup (.rescind (.reserved digest)) e) with
  | .ok s => s
  | .error _ => s

/-- One operation of the writer thread. -/
def writeStep (s : EvidenceRetention) (fault : Option IoError) : EvidenceRetention :=
  match s.writer with
  | .collecting batch =>
    match s.queue with
    | job :: queue =>
      if batch.length < maxWriteBatch then
        { s with queue := queue, writer := .collecting (batch ++ [job]) }
      else { s with writer := .acting [] batch }
    | [] => if batch.isEmpty then s else { s with writer := .acting [] batch }
  | .acting done (job :: todo) =>
    let (acted, root) := act s.root fault job.kind
    { s with root := root, writer := .acting (done ++ [⟨job, acted⟩]) todo }
  | .acting done [] =>
    -- one barrier for the batch, if a job changed the directory
    let published := done.any fun a => a.acted == .ok true
    let (barrier, root) := if published then syncRoot s.root fault else (.ok (), s.root)
    { s with root := root, writer := .withdrawing barrier [] done }
  | .withdrawing barrier done (a :: todo) =>
    let (withdrawn, root) :=
      if !barrier.isOk && a.acted == .ok true then withdraw s.root fault a.job.kind
      else (none, s.root)
    let done := done ++ [⟨a.job, a.acted, withdrawn⟩]
    { s with root := root, writer := .withdrawing barrier done todo }
  | .withdrawing barrier done [] =>
    let anyWithdrawal := done.any fun w => w.withdrawn.isSome
    let (withdrawalBarrier, root) :=
      if anyWithdrawal then syncRoot s.root fault else (.ok (), s.root)
    { s with root := root, writer := .resolving barrier withdrawalBarrier done }
  | .resolving barrier withdrawalBarrier (w :: todo) =>
    let (outcome, root) :=
      resolve s.root fault w.job.kind w.acted barrier w.withdrawn withdrawalBarrier
    { s with root := root, writer := .acknowledging barrier withdrawalBarrier w.job outcome todo }
  | .resolving _ _ [] => { s with writer := .collecting [] }
  | .acknowledging barrier withdrawalBarrier job outcome todo =>
    let s := { s with writer := .resolving barrier withdrawalBarrier todo }
    if job.slot then
      s.move job.exchange ((s.exchanges job.exchange).stage.receive (.answered outcome))
    else s
  | .stopped => s

/-- The call of an exchange that reads its acknowledgement. -/
def resumeStep (s : EvidenceRetention) (e : Nat) : Outcome × EvidenceRetention :=
  match (s.exchanges e).stage with
  | .reserving ack =>
    match ackResult true ack with
    | none => (.nothing, s)
    | some (.ok ()) =>
      (.nothing, s.set e { s.exchanges e with stage := .reserved, reserve := some (.ok ()) })
    | some (.error err) => (.nothing, s.move e (.leaving (some (.reserve, err))))
  | .committing ack =>
    match ackResult true ack with
    | none => (.nothing, s)
    | some (.ok ()) => (.nothing, s.move e .crossing)
    | some (.error err) => (.nothing, s.move e (.leaving (some (.commitToDispatch, err))))
  | .completing ack =>
    match ackResult false ack with
    | none => (.nothing, s)
    | some (.ok ()) => (.nothing, s.move e (.committed false))
    | some (.error err) => (.refused err, s.move e (.committed false))
  | .retaining ack =>
    match ackResult false ack with
    | none => (.nothing, s)
    | some (.ok ()) => (.nothing, s.move e .gone)
    | some (.error err) => (.refused err, s.move e .gone)
  | _ => (.nothing, s)

/-- The stage a dropped future or value leaves behind. A completion only borrows its commitment. -/
def dropped : Stage → Stage
  | .reserving _ | .reserved | .committing _ => .leaving none
  | .completing _ => .committed false
  | .committed _ | .retaining _ => .gone
  | stage => stage

variable (P : Platform) (serde : Serde) (K : Nat)

/-- The job of `complete`. -/
def completionJob (exchange : Exchange) (request : RetainedRequest) (response : HttpResponse) :
    JobKind :=
  let bytes := serde.hop (.overRequest request response)
  .publish (.object (evidenceDigest P bytes)) bytes (some (.pending (exchange.digest P serde)))

/-- The job of `retain`. -/
def importJob (request : HttpRequest) (response : HttpResponse) : JobKind :=
  let bytes := serde.hop (.of request response)
  .publish (.object (evidenceDigest P bytes)) bytes none

def step (s : EvidenceRetention) : Action → Outcome × EvidenceRetention
  | .reserve request =>
    let projected := some (retainedRequest request)
    if s.permitsHeld < K then (.nothing, s.admitted ⟨projected, .acquired, none, none⟩)
    else (.refused queueIsFull, s.admitted ⟨projected, .gone, some (.error queueIsFull), none⟩)
  | .publish e =>
    let digest := (s.exchanges e).digest P serde
    match (s.exchanges e).stage with
    | .acquired =>
      match s.trySend K (.accounted (.publishOrWithdraw (.reserved digest) (markerBytes digest)) e)
      with
      | .ok s => (.nothing, s.move e (.reserving .awaited))
      | .error err => (.nothing, s.move e (.leaving (some (.reserve, err))))
    | _ => (.nothing, s)
  | .commitToDispatch e =>
    let digest := (s.exchanges e).digest P serde
    match (s.exchanges e).stage with
    | .reserved =>
      match s.trySend K (.accounted (.commit (.reserved digest) (.pending digest)) e) with
      | .ok s => (.nothing, s.move e (.committing .awaited))
      | .error err => (.nothing, s.move e (.leaving (some (.commitToDispatch, err))))
    | _ => (.nothing, s)
  | .complete e response =>
    match (s.exchanges e).stage, (s.exchanges e).request with
    | .committed true, some request =>
      match s.trySend K (.accounted (completionJob P serde (s.exchanges e) request response) e) with
      | .ok s => (.nothing, s.move e (.completing .awaited))
      | .error err => (.refused err, s.move e (.committed false))
    | .committed false, _ | .completing _, _ => (.refused .alreadyCompleted, s)
    | _, _ => (.nothing, s)
  | .retain request response =>
    if s.permitsHeld < K then
      (.nothing, s.admitted ⟨none, .importing (importJob P serde request response), none, none⟩)
    else (.refused queueIsFull, s)
  | .send e =>
    match (s.exchanges e).stage with
    | .importing kind =>
      match s.trySend K (.accounted kind e) with
      | .ok s => (.nothing, s.move e (.retaining .awaited))
      | .error err => (.refused err, s.move e .gone)
    | _ => (.nothing, s)
  | .resume e => s.resumeStep e
  | .drop e => (.nothing, s.move e (dropped (s.exchanges e).stage))
  | .dropGuard e =>
    let digest := (s.exchanges e).digest P serde
    match (s.exchanges e).stage with
    | .leaving result => (.nothing, (s.rescind K e digest).move e (.rescinded result))
    | .crossing =>
      (.nothing, (s.rescind K e digest).set e
        { s.exchanges e with stage := .committed true, commit := some (.ok ()) })
    | _ => (.nothing, s)
  | .letGo e =>
    match (s.exchanges e).stage with
    | .rescinded result => (.nothing, s.set e ((s.exchanges e).return_ result))
    | _ => (.nothing, s)
  | .write fault => (.nothing, s.writeStep fault)
  | .stop =>
    (.nothing, { s with
      queue := []
      writer := .stopped
      exchanges := fun e =>
        { s.exchanges e with stage := (s.exchanges e).stage.receive .lost } })
  | .crash mask =>
    (.nothing, { s with
      queue := []
      writer := .collecting []
      root := s.root.crash mask
      exchanges := fun e =>
        { s.exchanges e with stage := if (s.exchanges e).stage.holds then .gone
                                      else (s.exchanges e).stage } })

end EvidenceRetention

end McpRe.Retention

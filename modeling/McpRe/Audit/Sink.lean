import Mathlib.Logic.Function.Basic
import McpRe.Lib.Run

/-!
# The hand-off of audit records

`offer` of `audit_sink/mod.rs`, the loop of the writer thread (`audit_sink/writer.rs`) and
`drain_queue` (`audit_sink/drain.rs`). Offers come from any number of calls, lines and flushes go
through one bounded channel, and one thread takes them off and writes. The steps of offers, drains
and writer interleave at every operation on an atomic or on the channel; a write lands whole or not
at all, and which is given from outside.

An offer stands for its line. The drop counter is kept as the list of the offers that it counts, and
its value is their number, which stays below `2 ^ 64`; the count in a report is kept the same way.
-/

namespace McpRe.Audit

def queueDepth : Nat := 4096

def unattributedCeiling : Nat := 3 * queueDepth / 4

/-- How far a call of `offer` has come. -/
inductive Offering where
  | idle
  /-- A slot is reserved; the line is sent next. -/
  | reserved
  /-- The channel was full; the slot is released next. -/
  | unsent
  /-- The drop is counted next. -/
  | refused
  | returned
  deriving DecidableEq

inductive AuditDrain where
  | drained
  | outcomeUnknown
  deriving DecidableEq

/-- How far a call of `drain_queue` has come. -/
inductive Draining where
  | idle
  /-- The flush is queued. -/
  | waiting
  /-- It was acknowledged; the latch is read next. -/
  | acknowledged
  | returned (outcome : AuditDrain)
  deriving DecidableEq

section

variable (τ κ : Type)

inductive AuditMessage where
  | line (offer : τ)
  | flush (drain : κ)
  deriving DecidableEq

/-- What the writer turns to after the drop report. -/
inductive Turn where
  | line (offer : τ)
  /-- Nothing arrived for the report interval. -/
  | nothing
  | flush (drain : κ)
  deriving DecidableEq

/-- Where the writer stands. -/
inductive Writing where
  /-- In `recv_timeout`. -/
  | waiting
  /-- A line is taken; the count of queued lines goes down next. -/
  | dequeued (offer : τ)
  /-- In `report_drops`; the counter is swapped out next. -/
  | swapping (next : Turn τ κ)
  /-- The report of these drops is written next. -/
  | reporting (drops : List τ) (next : Turn τ κ)
  /-- The report did not land; its drops are put back next. -/
  | restoring (drops : List τ) (next : Turn τ κ)
  /-- The latch is set next. -/
  | latching (next : Turn τ κ)
  /-- The line is written next. -/
  | writing (offer : τ)
  /-- The line did not land; the latch is set next. -/
  | unwritten
  /-- The flush is acknowledged next. -/
  | acking (drain : κ)
  deriving DecidableEq

/-- What is written. -/
inductive Written where
  | line (offer : τ)
  | report (drops : List τ)
  deriving DecidableEq

structure AuditSink where
  queued : Nat
  dropped : List τ
  failed : Bool
  channel : List (AuditMessage τ κ)
  out : List (Written τ)
  offers : τ → Offering
  drains : κ → Draining
  /-- The drains whose acknowledgement was sent. -/
  acked : κ → Bool
  writer : Writing τ κ

inductive SinkAction where
  /-- The next operation of an offer. -/
  | offer (t : τ)
  /-- The next operation of a drain. -/
  | drain (d : κ)
  /-- A drain has waited for too long. -/
  | expire (d : κ)
  /-- The writer takes a message off the channel. -/
  | receive
  /-- The report interval has passed. -/
  | interval
  /-- The next operation of the writer; `ok` says whether what it writes lands. -/
  | write (ok : Bool)
  deriving DecidableEq

end

section

variable {τ κ : Type}

def Turn.stage : Turn τ κ → Writing τ κ
  | .line t => .writing t
  | .nothing => .waiting
  | .flush d => .acking d

namespace AuditSink

def new : AuditSink τ κ where
  queued := 0
  dropped := []
  failed := false
  channel := []
  out := []
  offers := fun _ => .idle
  drains := fun _ => .idle
  acked := fun _ => false
  writer := .waiting

/-- `admission_ceiling`, by whether the record names a resolved actor. -/
def admissionCeiling (attributed : Bool) : Nat :=
  if attributed then queueDepth else unattributedCeiling

/-- `fetch_sub(1)` on a `usize`. -/
def fetchSub (n : Nat) : Nat := (n + (2 ^ 64 - 1)) % 2 ^ 64

variable [DecidableEq τ] [DecidableEq κ] (attributed : τ → Bool)

def offering (s : AuditSink τ κ) (t : τ) (stage : Offering) : AuditSink τ κ :=
  { s with offers := Function.update s.offers t stage }

def draining (s : AuditSink τ κ) (d : κ) (stage : Draining) : AuditSink τ κ :=
  { s with drains := Function.update s.drains d stage }

def offer (s : AuditSink τ κ) (t : τ) : AuditSink τ κ :=
  match s.offers t with
  | .idle =>
    -- the test and the claim are one step
    if s.queued < admissionCeiling (attributed t) then
      { s.offering t .reserved with queued := s.queued + 1 }
    else s.offering t .refused
  | .reserved =>
    if s.channel.length < queueDepth then
      { s.offering t .returned with channel := s.channel ++ [.line t] }
    else s.offering t .unsent
  | .unsent => { s.offering t .refused with queued := fetchSub s.queued }
  | .refused => { s.offering t .returned with dropped := s.dropped ++ [t] }
  | .returned => s

def drain (s : AuditSink τ κ) (d : κ) : AuditSink τ κ :=
  match s.drains d with
  | .idle =>
    if s.channel.length < queueDepth then
      { s.draining d .waiting with channel := s.channel ++ [.flush d] }
    else s.draining d (.returned .outcomeUnknown)
  | .waiting => if s.acked d then s.draining d .acknowledged else s
  | .acknowledged =>
    s.draining d (.returned (if s.failed then .outcomeUnknown else .drained))
  | .returned _ => s

def expire (s : AuditSink τ κ) (d : κ) : AuditSink τ κ :=
  match s.drains d with
  | .waiting => s.draining d (.returned .outcomeUnknown)
  | _ => s

def write (s : AuditSink τ κ) (ok : Bool) : AuditSink τ κ :=
  match s.writer with
  | .waiting => s
  | .dequeued t => { s with queued := s.queued - 1, writer := .swapping (.line t) }
  | .swapping next =>
    { s with dropped := []
             writer := if s.dropped = [] then next.stage else .reporting s.dropped next }
  | .reporting drops next =>
    if ok then { s with out := s.out ++ [.report drops], writer := next.stage }
    else { s with writer := .restoring drops next }
  | .restoring drops next => { s with dropped := s.dropped ++ drops, writer := .latching next }
  | .latching next => { s with failed := true, writer := next.stage }
  | .writing t =>
    if ok then { s with out := s.out ++ [.line t], writer := .waiting }
    else { s with writer := .unwritten }
  | .unwritten => { s with failed := true, writer := .waiting }
  | .acking d => { s with acked := Function.update s.acked d true, writer := .waiting }

/-- One step, with the message that the writer takes off the channel. -/
def step (s : AuditSink τ κ) : SinkAction τ κ → Option (AuditMessage τ κ) × AuditSink τ κ
  | .offer t => (none, s.offer attributed t)
  | .drain d => (none, s.drain d)
  | .expire d => (none, s.expire d)
  | .receive =>
    match s.writer, s.channel with
    | .waiting, .line t :: rest => (some (.line t), { s with channel := rest, writer := .dequeued t })
    | .waiting, .flush d :: rest =>
      (some (.flush d), { s with channel := rest, writer := .swapping (.flush d) })
    | _, _ => (none, s)
  | .interval =>
    -- a message may have come since the writer last looked
    match s.writer with
    | .waiting => (none, { s with writer := .swapping .nothing })
    | _ => (none, s)
  | .write ok => (none, s.write ok)

end AuditSink

end

end McpRe.Audit

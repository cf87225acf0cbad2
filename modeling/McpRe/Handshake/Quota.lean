import Mathlib.Logic.Function.Basic
import McpRe.Lib.Text

/-!
# The handshake path's share of a signer's quota

When a remote signer says that its quota is gone, handshakes stop calling it for a cooldown; the
first handshake after it is a probe (`handshake_quota.rs`). The gate, the call of the signer, the
second reading of the clock, the arming and the release of a probe are separate steps of a handshake,
and handshakes interleave at each of them. One lock holds the window and nothing else.

Instants are in nanoseconds and do not overflow. A lock that a panic poisoned is taken all the same.
-/

namespace McpRe.Handshake

open Lib.Text

inductive QuotaVerdict where
  | exhausted
  | unrelated
  deriving DecidableEq

/-- How a guarded signature failed: the signer was not called, or was and answered badly. -/
inductive QuotaGuarded (ε : Type) where
  | refused (why : Str)
  | call (error : ε)
  deriving DecidableEq

/-! ## The window -/

structure HandshakeQuotaWindow where
  until? : Option Nat
  cooldown : Nat
  refusal : Str
  deriving DecidableEq

namespace HandshakeQuotaWindow

def forNetworkTimeout (networkTimeout : Nat) (refusal : Str) : HandshakeQuotaWindow where
  until? := none
  cooldown := networkTimeout
  refusal := refusal

def arm (self : HandshakeQuotaWindow) (now : Nat) : HandshakeQuotaWindow :=
  let ends := now + self.cooldown
  { self with until? := some (self.until?.elim ends fun current => max current ends) }

/-- The part of `guard` under the lock: the window a probe has installed, `none` for a handshake
that is no probe. -/
def gate (self : HandshakeQuotaWindow) (now : Nat) :
    Except Str (Option Nat) × HandshakeQuotaWindow :=
  match self.until? with
  | some ends =>
    if now < ends then (.error self.refusal, self)
    else
      let installed := now + self.cooldown
      (.ok (some installed), { self with until? := some installed })
  | none => (.ok none, self)

def releaseProbe (self : HandshakeQuotaWindow) : Option Nat → HandshakeQuotaWindow
  | none => self
  | some installed => if self.until? = some installed then { self with until? := none } else self

end HandshakeQuotaWindow

/-! ## Handshakes that interleave -/

section

variable {τ ε : Type}

/-- How far a call of `guard` has come. From the gate on, `now` is its reading at the gate. -/
inductive Guarding (τ ε : Type) where
  | idle
  | entered (now : Nat)
  /-- Past the gate: the signer is called. -/
  | signing (now : Nat) (probe : Option Nat)
  | signed (now : Nat) (probe : Option Nat) (outcome : Except ε τ)
  /-- The quota is gone, and the clock was read again. -/
  | arming (now : Nat) (reading : Nat) (error : ε)
  | returned (result : Except (QuotaGuarded ε) τ)
  deriving DecidableEq

/-- The clock, the window, and the handshakes that share them. -/
structure QuotaPlane (τ ε : Type) where
  clock : Nat
  window : HandshakeQuotaWindow
  calls : Nat → Guarding τ ε

inductive QuotaAction (τ ε : Type) where
  /-- Time passes; readings may repeat and never go back. -/
  | tick (amount : Nat)
  | enter (call : Nat)
  | gate (call : Nat)
  /-- The signer answers. -/
  | sign (call : Nat) (outcome : Except ε τ)
  /-- What follows the signer's answer: a release, a second reading of the clock, or the return. -/
  | settle (call : Nat)
  | arm (call : Nat)
  deriving DecidableEq

namespace QuotaPlane

def new (cooldown : Nat) (refusal : Str) : QuotaPlane τ ε where
  clock := 0
  window := .forNetworkTimeout cooldown refusal
  calls := fun _ => .idle

def moved (s : QuotaPlane τ ε) (call : Nat) (stage : Guarding τ ε) : QuotaPlane τ ε :=
  { s with calls := Function.update s.calls call stage }

variable (verdict : ε → QuotaVerdict)

def step (s : QuotaPlane τ ε) : QuotaAction τ ε → Unit × QuotaPlane τ ε
  | .tick amount => ((), { s with clock := s.clock + amount })
  | .enter call =>
    match s.calls call with
    | .idle => ((), s.moved call (.entered s.clock))
    | _ => ((), s)
  | .gate call =>
    match s.calls call with
    | .entered now =>
      match s.window.gate now with
      | (.error why, window) =>
        ((), { s.moved call (.returned (.error (.refused why))) with window })
      | (.ok probe, window) => ((), { s.moved call (.signing now probe) with window })
    | _ => ((), s)
  | .sign call outcome =>
    match s.calls call with
    | .signing now probe => ((), s.moved call (.signed now probe outcome))
    | _ => ((), s)
  | .settle call =>
    match s.calls call with
    | .signed _ probe (.ok value) =>
      ((), { s.moved call (.returned (.ok value)) with window := s.window.releaseProbe probe })
    | .signed now _ (.error error) =>
      match verdict error with
      | .exhausted => ((), s.moved call (.arming now s.clock error))
      | .unrelated => ((), s.moved call (.returned (.error (.call error))))
    | _ => ((), s)
  | .arm call =>
    match s.calls call with
    | .arming _ reading error =>
      ((), { s.moved call (.returned (.error (.call error))) with window := s.window.arm reading })
    | _ => ((), s)

end QuotaPlane

end

end McpRe.Handshake

import McpRe.Http.Verify.Body
import McpRe.Replay.Etcd

/-!
# Leases of the etcd store outlast their keys

A lease that a call grants lasts until the call's retain-until, since the clock it took the TTL from
is behind the time of the grant (`Holds`, `holds_of_grant`); so does a key that is put under it
(`Retained`). Neither is lost by anything that happens later (`Later`), whichever request lands
late, is given up or is tried again, and every call rests on such leases only (`Sound`). What
follows for the reports of a run is `fresh_keys_outlast`.
-/

namespace McpRe.Replay

open Lib Lib.Text Lib.Run
open McpRe.Http (Json)

/-! ## Bodies and replies -/

theorem Etcd.readGrant_build (ttlSecs : I64) :
    Etcd.readGrant (buildLeaseGrantBody ttlSecs) = some ttlSecs.val.toNat := by
  simp [Etcd.readGrant, buildLeaseGrantBody, Json.get_field, Json.asI64_ofI64]

theorem Etcd.readTxn_txnBody {ρ : Type} (call : EtcdCall ρ) (leaseId : I64) :
    Etcd.readTxn (call.txnBody leaseId) = some ⟨utf8 call.key, utf8 call.key, leaseId⟩ := by
  simp [Etcd.readTxn, Etcd.readKey, EtcdCall.txnBody, buildTxnBody, Json.get_field, Json.asStr,
    Base64.decode_encode, I64.fromStr_display]

theorem eq_of_parseLeaseId {print : Json → Str} {reply : Json} {id granted : I64}
    (hsaid : Etcd.saysGranted reply id = true) (h : parseLeaseId print reply = .ok granted) :
    granted = id := by
  unfold Etcd.saysGranted at hsaid
  split at hsaid
  next s hid =>
    rw [beq_iff_eq] at hsaid
    rw [parseLeaseId, hid, hsaid] at h
    dsimp only [readLeaseId] at h
    rw [I64.fromStr_display] at h
    dsimp only at h
    split_ifs at h
    exact (Except.ok.inj h).symm
  next => cases hsaid

theorem decisionFromTxn_eq_fresh {reply : Json} {succeeded : Bool}
    (hsaid : Etcd.saysSucceeded reply succeeded = true) :
    decisionFromTxn reply = .fresh ↔ succeeded = true := by
  unfold Etcd.saysSucceeded at hsaid
  unfold decisionFromTxn
  split at hsaid
  next b hb =>
    rw [beq_iff_eq] at hsaid
    subst hsaid
    rw [hb]
    cases b <;> simp
  next hnone =>
    rw [hnone]
    cases succeeded <;> simp at hsaid ⊢
  next => cases hsaid

/-! ## What a step can do -/

def Insertion.call? {ρ : Type} : Insertion ρ → Option (EtcdCall ρ)
  | .idle => none
  | .begun call | .granting call | .txning call _ _ | .returned call _ => some call

namespace EtcdFleet

variable {γ ρ : Type} [DecidableEq γ] [DecidableEq ρ] {print : Json → Str}

/-- The moves of time, etcd and the calls, with what each finds and changes. -/
inductive Move (print : Json → Str) (s : EtcdFleet γ ρ) :
    Option (Shown γ) → EtcdFleet γ ρ → Prop where
  | tick (time : Nat) (hle : s.time ≤ time) : Move print s none { s with time := time }
  | expire (lease : I64) (kept : Nat) (hkept : s.etcd.leases lease = some kept)
      (hdue : kept ≤ s.time) : Move print s none { s with etcd := s.etcd.expire lease }
  | call (c : γ) (node : ρ) (insert : ReplayInsert) (hidle : s.calls c = .idle) :
      Move print s none (s.stand c (.begun ⟨node, insert.key, insert.expiresAtUnix, s.clock⟩))
  /-- A call returns, and `Fresh` only on what etcd said. -/
  | report (c : γ) (call : EtcdCall ρ) (result : Except ReplayStoreError ReplayDecision)
      (hcall : (s.calls c).call? = some call)
      (hfresh : result = .ok .fresh → ∃ leaseId reused reply,
        s.calls c = .txning call leaseId reused ∧ s.posts c (.txn reused) = .answered reply ∧
        decisionFromTxn reply = .fresh) :
      Move print s (some (.reported c result)) (s.stand c (.returned call result))
  | reuse (c : γ) (call : EtcdCall ρ) (pooled : I64) (hbegun : s.calls c = .begun call)
      (hwindow : isStalePreStore call.expiresAtUnix call.now = false)
      (hpooled : (LeasePool.live (s.leases call.node) call.now).lookup call.expiresAtUnix
        = some pooled) :
      Move print s none
        ((s.setPool call.node (LeasePool.live (s.leases call.node) call.now)).askTxn c call pooled
          true)
  | ask (c : γ) (call : EtcdCall ρ) (hbegun : s.calls c = .begun call)
      (hwindow : isStalePreStore call.expiresAtUnix call.now = false) :
      Move print s none
        ((s.setPool call.node (LeasePool.live (s.leases call.node) call.now)).askGrant c call)
  | granted (c : γ) (call : EtcdCall ρ) (reply : Json) (leaseId : I64)
      (hgranting : s.calls c = .granting call) (hanswered : s.posts c .grant = .answered reply)
      (hparse : parseLeaseId print reply = .ok leaseId) :
      Move print s none
        ((s.setPool call.node (LeasePool.poolLease (s.leases call.node) call.expiresAtUnix
          leaseId)).askTxn c call leaseId false)
  | retry (c : γ) (call : EtcdCall ρ) (leaseId : I64)
      (htxning : s.calls c = .txning call leaseId true) :
      Move print s none
        ((s.setPool call.node (LeasePool.forgetLease (s.leases call.node) call.expiresAtUnix
          leaseId)).askGrant c call)
  | refuse (c : γ) (post : Post) (body : Json) (hflying : s.posts c post = .flying body) :
      Move print s none (s.posting c post .refused)
  | grant (c : γ) (body : Json) (ttl : Nat) (id : I64) (reply : Json)
      (hflying : s.posts c .grant = .flying body) (hread : Etcd.readGrant body = some ttl)
      (hfree : s.etcd.leases id = none) (hsaid : Etcd.saysGranted reply id = true) :
      Move print s none
        { s.posting c .grant (.answered reply) with etcd := s.etcd.grant s.time ttl id }
  | put (c : γ) (reused : Bool) (body : Json) (t : PutIfAbsent) (kept : Nat) (reply : Json)
      (hflying : s.posts c (.txn reused) = .flying body) (hread : Etcd.readTxn body = some t)
      (habsent : s.etcd.keys t.compared = none) (hlive : s.etcd.leases t.lease = some kept)
      (hsaid : Etcd.saysSucceeded reply true = true) :
      Move print s (some (.put c reused))
        { s.posting c (.txn reused) (.answered reply) with
          etcd := { s.etcd with keys := Function.update s.etcd.keys t.key (some t.lease) } }
  | present (c : γ) (reused : Bool) (body : Json) (reply : Json)
      (hflying : s.posts c (.txn reused) = .flying body)
      (hsaid : Etcd.saysSucceeded reply false = true) :
      Move print s none (s.posting c (.txn reused) (.answered reply))

theorem poll_cases (s : EtcdFleet γ ρ) (c : γ) :
    s.poll c = (none, s) ∨ Move print s (s.poll c).1 (s.poll c).2 := by
  unfold poll
  split
  next call hbegun =>
    split_ifs with hstale
    · exact .inr (.report c call _ (by rw [hbegun]; rfl) nofun)
    · rw [Bool.not_eq_true] at hstale
      dsimp only
      split
      next pooled hpooled => exact .inr (.reuse c call pooled hbegun hstale hpooled)
      next => exact .inr (.ask c call hbegun hstale)
  next => exact .inl rfl

theorem deliver_cases (s : EtcdFleet γ ρ) (c : γ) :
    s.deliver print c = (none, s) ∨ Move print s (s.deliver print c).1 (s.deliver print c).2 := by
  unfold deliver
  split
  next call hgranting =>
    split
    next reply hanswered =>
      split
      next e herror => exact .inr (.report c call _ (by rw [hgranting]; rfl) nofun)
      next leaseId hparse => exact .inr (.granted c call reply leaseId hgranting hanswered hparse)
    next => exact .inl rfl
  next call leaseId reused htxning =>
    split
    next reply hanswered =>
      refine .inr (.report c call _ (by rw [htxning]; rfl) fun hfresh => ?_)
      exact ⟨leaseId, reused, reply, htxning, hanswered, Except.ok.inj hfresh⟩
    next => exact .inl rfl
  next => exact .inl rfl

theorem fail_cases (s : EtcdFleet γ ρ) (c : γ) (details : Str) :
    s.fail c details = (none, s) ∨ Move print s (s.fail c details).1 (s.fail c details).2 := by
  unfold fail
  split
  next call hgranting => exact .inr (.report c call _ (by rw [hgranting]; rfl) nofun)
  next call leaseId htxning => exact .inr (.retry c call leaseId htxning)
  next call leaseId htxning => exact .inr (.report c call _ (by rw [htxning]; rfl) nofun)
  next => exact .inl rfl

theorem land_cases (s : EtcdFleet γ ρ) (c : γ) (post : Post) (id : I64) (reply : Json) :
    s.land c post id reply = (none, s) ∨
      Move print s (s.land c post id reply).1 (s.land c post id reply).2 := by
  unfold land
  split
  next body hflying =>
    cases post with
    | grant =>
      dsimp only
      split
      next => exact .inr (.refuse c .grant body hflying)
      next ttl hread =>
        split_ifs with hguard
        · have hfree := Option.isNone_iff_eq_none.1 hguard.1
          exact .inr (.grant c body ttl id reply hflying hread hfree hguard.2)
        · exact .inl rfl
    | txn reused =>
      dsimp only
      split
      next => exact .inr (.refuse c (.txn reused) body hflying)
      next succeeded etcd hbind =>
        obtain ⟨t, hread, htxn⟩ := Option.bind_eq_some_iff.1 hbind
        split_ifs with hsaid hsucceeded
        · unfold Etcd.txn at htxn
          split_ifs at htxn with habsent hlive
          · obtain ⟨kept, hkept⟩ := Option.isSome_iff_exists.1 hlive
            cases htxn
            exact .inr (.put c reused body t kept reply hflying hread
              (Option.isNone_iff_eq_none.1 habsent) hkept hsaid)
          · cases htxn
            cases hsucceeded
        · rw [Bool.not_eq_true] at hsucceeded
          subst hsucceeded
          unfold Etcd.txn at htxn
          split_ifs at htxn with habsent hlive
          · cases htxn
          · cases htxn
            exact .inr (.present c reused body reply hflying hsaid)
        · exact .inl rfl
  next => exact .inl rfl

variable (print) in
theorem step_cases (s : EtcdFleet γ ρ) (e : EtcdEvent γ ρ) :
    s.step print e = (none, s) ∨ Move print s (s.step print e).1 (s.step print e).2 := by
  cases e with
  | tick time =>
    simp only [step]
    split_ifs with hle
    · exact .inr (.tick time hle)
    · exact .inl rfl
  | expire lease =>
    simp only [step]
    split
    next kept hkept =>
      split_ifs with hdue
      · exact .inr (.expire lease kept hkept hdue)
      · exact .inl rfl
    next => exact .inl rfl
  | call c node insert =>
    simp only [step]
    split
    next hidle => exact .inr (.call c node insert hidle)
    next => exact .inl rfl
  | poll c => exact poll_cases s c
  | land c post id reply => exact land_cases s c post id reply
  | deliver c => exact deliver_cases s c
  | fail c details => exact fail_cases s c details

/-! ## Leases and keys that last -/

end EtcdFleet

def instant (t : I64) : Int := t.val * Etcd.second

theorem instant_le_of_ttl {expiresAtUnix now : I64} {time : Nat} (hpos : 0 ≤ now.val)
    (hclock : instant now ≤ time) (hwindow : now < expiresAtUnix) :
    instant expiresAtUnix ≤
      ((time + (computeTtlSecs expiresAtUnix now).val.toNat * Etcd.second : Nat) : Int) := by
  have hlt := I64.lt_iff.1 hwindow
  have hmax := expiresAtUnix.le_max
  have httl : (computeTtlSecs expiresAtUnix now).val = expiresAtUnix.val - now.val := by
    have hone : (1 : I64).val = 1 := rfl
    rw [computeTtlSecs, I64.val_max, I64.val_saturatingSub, hone]
    omega
  rw [httl]
  unfold instant Etcd.second at *
  have hnat : ((expiresAtUnix.val - now.val).toNat : Int) = expiresAtUnix.val - now.val :=
    Int.toNat_of_nonneg (by omega)
  push_cast
  rw [hnat]
  omega

theorem lt_of_isStalePreStore_eq_false {expiresAtUnix now : I64}
    (h : isStalePreStore expiresAtUnix now = false) : now < expiresAtUnix := by
  rw [isStalePreStore, decide_eq_false_iff_not, I64.le_iff, I64.val_saturatingSub] at h
  have hzero : (0 : I64).val = 0 := rfl
  rw [hzero] at h
  rw [I64.lt_iff]
  omega

namespace LeasePool

theorem lookup_live {leases : LeasePool} {now retainUntil leaseId : I64}
    (h : (live leases now).lookup retainUntil = some leaseId) :
    leases.lookup retainUntil = some leaseId := by
  rw [live, Table.lookup_retain] at h
  exact (Option.filter_eq_some_iff.1 h).1

theorem lookup_poolLease {leases : LeasePool} {retainUntil retainUntil' leaseId leaseId' : I64}
    (h : (poolLease leases retainUntil leaseId).lookup retainUntil' = some leaseId') :
    leases.lookup retainUntil' = some leaseId' ∨
      (retainUntil' = retainUntil ∧ leaseId' = leaseId) := by
  by_cases hsame : retainUntil' = retainUntil
  · subst hsame
    rw [poolLease, AList.lookup_insert] at h
    exact .inr ⟨rfl, (Option.some.inj h).symm⟩
  · rw [poolLease, AList.lookup_insert_ne hsame] at h
    exact .inl h

theorem lookup_forgetLease {leases : LeasePool} {retainUntil retainUntil' leaseId leaseId' : I64}
    (h : (forgetLease leases retainUntil leaseId).lookup retainUntil' = some leaseId') :
    leases.lookup retainUntil' = some leaseId' := by
  unfold forgetLease at h
  split_ifs at h
  · by_cases hsame : retainUntil' = retainUntil
    · subst hsame
      rw [AList.lookup_erase] at h
      cases h
    · rwa [AList.lookup_erase_ne hsame] at h
  · exact h

end LeasePool

namespace EtcdFleet

section

variable {γ ρ : Type}

/-- The lease lasts until the instant, or that is past. -/
def Holds (s : EtcdFleet γ ρ) (retainUntil leaseId : I64) : Prop :=
  instant retainUntil ≤ s.time ∨
    ∃ kept : Nat, s.etcd.leases leaseId = some kept ∧ instant retainUntil ≤ kept

/-- The key is there under a lease that lasts until the instant, or that is past. -/
def Retained (s : EtcdFleet γ ρ) (key : Bytes) (retainUntil : I64) : Prop :=
  instant retainUntil ≤ s.time ∨ ∃ leaseId, ∃ kept : Nat, s.etcd.keys key = some leaseId ∧
    s.etcd.leases leaseId = some kept ∧ instant retainUntil ≤ kept

/-- What every step keeps: a lease until its time is over, and a key with its lease. -/
structure Later (s s' : EtcdFleet γ ρ) : Prop where
  time : s.time ≤ s'.time
  leases : ∀ leaseId kept, s.etcd.leases leaseId = some kept →
    s'.etcd.leases leaseId = some kept ∨ kept ≤ s'.time
  keys : ∀ key leaseId kept, s.etcd.keys key = some leaseId →
    s.etcd.leases leaseId = some kept → s'.etcd.keys key = some leaseId ∨ kept ≤ s'.time

theorem Later.of_eq {s s' : EtcdFleet γ ρ} (htime : s'.time = s.time) (hetcd : s'.etcd = s.etcd) :
    Later s s' where
  time := htime.ge
  leases := fun _ _ hkept => .inl (hetcd ▸ hkept)
  keys := fun _ _ _ hkey _ => .inl (hetcd ▸ hkey)

theorem Holds.later {s s' : EtcdFleet γ ρ} {retainUntil leaseId : I64}
    (h : Holds s retainUntil leaseId) (hlater : Later s s') : Holds s' retainUntil leaseId := by
  have htime : (s.time : Int) ≤ s'.time := Int.ofNat_le.2 hlater.time
  rcases h with hpast | ⟨kept, hkept, hlasts⟩
  · exact .inl (hpast.trans htime)
  · rcases hlater.leases leaseId kept hkept with hkept | hdue
    · exact .inr ⟨kept, hkept, hlasts⟩
    · exact .inl (hlasts.trans (Int.ofNat_le.2 hdue))

theorem Retained.later {s s' : EtcdFleet γ ρ} {key : Bytes} {retainUntil : I64}
    (h : Retained s key retainUntil) (hlater : Later s s') : Retained s' key retainUntil := by
  have htime : (s.time : Int) ≤ s'.time := Int.ofNat_le.2 hlater.time
  rcases h with hpast | ⟨leaseId, kept, hkey, hkept, hlasts⟩
  · exact .inl (hpast.trans htime)
  · rcases hlater.keys key leaseId kept hkey hkept with hkey | hdue
    · rcases hlater.leases leaseId kept hkept with hkept | hdue
      · exact .inr ⟨leaseId, kept, hkey, hkept, hlasts⟩
      · exact .inl (hlasts.trans (Int.ofNat_le.2 hdue))
    · exact .inl (hlasts.trans (Int.ofNat_le.2 hdue))

/-! ## What the calls rest on -/

/-- What a request of a call asks for, and what its answer has given. -/
def PostSound (s : EtcdFleet γ ρ) (call : EtcdCall ρ) : Post → Posting → Prop
  | .grant, .flying body =>
    body = buildLeaseGrantBody call.ttlSecs ∧ call.now < call.expiresAtUnix
  | .grant, .answered reply =>
    ∃ id, Etcd.saysGranted reply id = true ∧ Holds s call.expiresAtUnix id
  | .txn _, .flying body =>
    ∃ leaseId, body = call.txnBody leaseId ∧ Holds s call.expiresAtUnix leaseId
  | .txn _, .answered reply =>
    decisionFromTxn reply = .fresh → Retained s (utf8 call.key) call.expiresAtUnix
  | _, _ => True

theorem PostSound.later {s s' : EtcdFleet γ ρ} {call : EtcdCall ρ} {post : Post} {posting : Posting}
    (h : PostSound s call post posting) (hlater : Later s s') : PostSound s' call post posting := by
  cases post with
  | grant =>
    cases posting with
    | answered reply =>
      obtain ⟨id, hsaid, hholds⟩ := h
      exact ⟨id, hsaid, hholds.later hlater⟩
    | _ => exact h
  | txn reused =>
    cases posting with
    | flying body =>
      obtain ⟨leaseId, hbody, hholds⟩ := h
      exact ⟨leaseId, hbody, hholds.later hlater⟩
    | answered reply => exact fun hfresh => (h hfresh).later hlater
    | _ => exact h

end

end EtcdFleet

/-- Past the staleness guard, and not refused since. -/
def Insertion.admitted {ρ : Type} : Insertion ρ → Bool
  | .granting _ | .txning _ _ _ | .returned _ (.ok .fresh) => true
  | _ => false

namespace EtcdFleet

section

variable {γ ρ : Type}

/-- One call, with its requests. -/
structure CallSound (s : EtcdFleet γ ρ) (c : γ) : Prop where
  idle : (s.calls c).call? = none → ∀ post, s.posts c post = .unsent
  clock : ∀ call, (s.calls c).call? = some call → 0 ≤ call.now.val ∧ instant call.now ≤ s.time
  posts : ∀ call, (s.calls c).call? = some call →
    ∀ post, PostSound s call post (s.posts c post)
  admitted : ∀ call, (s.calls c).call? = some call → (s.calls c).admitted = true →
    call.now < call.expiresAtUnix
  fresh : ∀ call, s.calls c = .returned call (.ok .fresh) →
    Retained s (utf8 call.key) call.expiresAtUnix

theorem CallSound.later {s s' : EtcdFleet γ ρ} {c : γ} (h : CallSound s c) (hlater : Later s s')
    (hcalls : s'.calls c = s.calls c) (hposts : s'.posts c = s.posts c) : CallSound s' c where
  idle := by
    rw [hcalls, hposts]
    exact h.idle
  clock := by
    rw [hcalls]
    intro call hcall
    obtain ⟨hpos, hclock⟩ := h.clock call hcall
    exact ⟨hpos, hclock.trans (Int.ofNat_le.2 hlater.time)⟩
  posts := by
    rw [hcalls, hposts]
    exact fun call hcall post => (h.posts call hcall post).later hlater
  admitted := by
    rw [hcalls]
    exact h.admitted
  fresh := by
    rw [hcalls]
    exact fun call hcall => (h.fresh call hcall).later hlater

theorem CallSound.go {s s' : EtcdFleet γ ρ} {c : γ} {call : EtcdCall ρ} (h : CallSound s c)
    (hlater : Later s s') (hcall : (s.calls c).call? = some call)
    (hcall' : (s'.calls c).call? = some call)
    (hposts : ∀ post, s'.posts c post = s.posts c post ∨ PostSound s' call post (s'.posts c post))
    (hadmitted : (s'.calls c).admitted = true → call.now < call.expiresAtUnix)
    (hfresh : s'.calls c = .returned call (.ok .fresh) →
      Retained s' (utf8 call.key) call.expiresAtUnix) : CallSound s' c where
  idle := fun hnone => by
    rw [hcall'] at hnone
    cases hnone
  clock := fun other hother => by
    obtain rfl := Option.some.inj (hcall'.symm.trans hother)
    obtain ⟨hpos, hclock⟩ := h.clock call hcall
    exact ⟨hpos, hclock.trans (Int.ofNat_le.2 hlater.time)⟩
  posts := fun other hother post => by
    obtain rfl := Option.some.inj (hcall'.symm.trans hother)
    rcases hposts post with hsame | hsound
    · rw [hsame]
      exact (h.posts call hcall post).later hlater
    · exact hsound
  admitted := fun other hother => by
    obtain rfl := Option.some.inj (hcall'.symm.trans hother)
    exact hadmitted
  fresh := fun other hother => by
    have hsame : some other = some call := by
      rw [← hcall', hother]
      rfl
    obtain rfl := Option.some.inj hsame
    exact hfresh hother

/-- The pools and the calls rest on leases that last. -/
structure Sound (s : EtcdFleet γ ρ) : Prop where
  pools : ∀ node retainUntil leaseId, (s.leases node).lookup retainUntil = some leaseId →
    Holds s retainUntil leaseId
  calls : ∀ c, CallSound s c

theorem CallSound.of_idle {s : EtcdFleet γ ρ} {c : γ} (hidle : s.calls c = .idle)
    (hposts : ∀ post, s.posts c post = .unsent) : CallSound s c where
  idle := fun _ => hposts
  clock := fun call hcall => by
    rw [hidle] at hcall
    cases hcall
  posts := fun call hcall => by
    rw [hidle] at hcall
    cases hcall
  admitted := fun call hcall => by
    rw [hidle] at hcall
    cases hcall
  fresh := fun call hcall => by
    rw [hidle] at hcall
    cases hcall

theorem CallSound.of_begun {s : EtcdFleet γ ρ} {c : γ} {call : EtcdCall ρ}
    (hbegun : s.calls c = .begun call) (hposts : ∀ post, s.posts c post = .unsent)
    (hclock : 0 ≤ call.now.val ∧ instant call.now ≤ s.time) : CallSound s c where
  idle := fun _ => hposts
  clock := fun other hother => by
    rw [hbegun] at hother
    cases hother
    exact hclock
  posts := fun _ _ post => by
    rw [hposts]
    cases post <;> trivial
  admitted := fun _ _ hadmitted => by
    rw [hbegun] at hadmitted
    cases hadmitted
  fresh := fun _ hreturned => by
    rw [hbegun] at hreturned
    cases hreturned

theorem Sound.new : Sound (EtcdFleet.new : EtcdFleet γ ρ) where
  pools := fun node retainUntil leaseId h => by
    have hnone : ((EtcdFleet.new : EtcdFleet γ ρ).leases node).lookup retainUntil = none :=
      AList.lookup_empty retainUntil
    rw [hnone] at h
    cases h
  calls := fun c => .of_idle rfl fun _ => rfl

end

variable {γ ρ : Type} [DecidableEq γ] [DecidableEq ρ] {print : Json → Str}

omit [DecidableEq γ] [DecidableEq ρ] in
theorem CallSound.txn {s : EtcdFleet γ ρ} {c : γ} {reused : Bool} {body : Json} {t : PutIfAbsent}
    (h : CallSound s c) (hflying : s.posts c (.txn reused) = .flying body)
    (hread : Etcd.readTxn body = some t) :
    ∃ call, (s.calls c).call? = some call ∧ t.compared = utf8 call.key ∧ t.key = utf8 call.key ∧
      Holds s call.expiresAtUnix t.lease := by
  cases hcall : (s.calls c).call? with
  | none =>
    rw [h.idle hcall] at hflying
    cases hflying
  | some call =>
    have hpost := h.posts call hcall (.txn reused)
    rw [hflying] at hpost
    obtain ⟨leaseId, rfl, hholds⟩ := hpost
    rw [Etcd.readTxn_txnBody] at hread
    cases hread
    exact ⟨call, rfl, rfl, rfl, hholds⟩

/-- **Nothing is lost early**: whatever happens, leases and keys stay until their time is over. -/
theorem Move.later {s s' : EtcdFleet γ ρ} {shown : Option (Shown γ)} (h : Move print s shown s')
    (hsound : Sound s) : Later s s' := by
  cases h with
  | tick time hle => exact ⟨hle, fun _ _ => .inl, fun _ _ _ hkey _ => .inl hkey⟩
  | expire lease kept hkept hdue =>
    refine ⟨Nat.le_refl _, fun leaseId kept' hkept' => ?_, fun key leaseId kept' hkey hkept' => ?_⟩
    · by_cases hlease : leaseId = lease
      · subst hlease
        cases hkept.symm.trans hkept'
        exact .inr hdue
      · exact .inl ((Function.update_of_ne hlease ..).trans hkept')
    · by_cases hlease : leaseId = lease
      · subst hlease
        cases hkept.symm.trans hkept'
        exact .inr hdue
      · have hne : s.etcd.keys key ≠ some lease := fun heq =>
          hlease (Option.some.inj (hkey.symm.trans heq))
        exact .inl ((if_neg hne).trans hkey)
  | grant c body ttl id reply hflying hread hfree hsaid =>
    refine ⟨Nat.le_refl _, fun leaseId kept hkept => .inl ?_, fun _ _ _ hkey _ => .inl hkey⟩
    have hne : leaseId ≠ id := by
      rintro rfl
      rw [hfree] at hkept
      cases hkept
    exact (Function.update_of_ne hne ..).trans hkept
  | put c reused body t kept reply hflying hread habsent hlive hsaid =>
    refine ⟨Nat.le_refl _, fun _ _ => .inl, fun key leaseId _ hkey _ => .inl ?_⟩
    obtain ⟨call, -, hcompared, hput, -⟩ := (hsound.calls c).txn hflying hread
    have hne : key ≠ t.key := by
      rintro rfl
      rw [hcompared, ← hput, hkey] at habsent
      cases habsent
    exact (Function.update_of_ne hne ..).trans hkey
  | _ => exact .of_eq rfl rfl

omit [DecidableEq γ] [DecidableEq ρ] in
theorem posts_of_update {s s' : EtcdFleet γ ρ} {c : γ} {call : EtcdCall ρ} {post : Post}
    {posting : Posting} (hposts : s'.posts c = Function.update (s.posts c) post posting)
    (hsound : PostSound s' call post posting) (post' : Post) :
    s'.posts c post' = s.posts c post' ∨ PostSound s' call post' (s'.posts c post') := by
  rw [hposts]
  by_cases hpost : post' = post
  · subst hpost
    rw [Function.update_self]
    exact .inr hsound
  · exact .inl (Function.update_of_ne hpost ..)

omit [DecidableEq ρ] in
theorem Sound.one {s s' : EtcdFleet γ ρ} (hsound : Sound s) (hlater : Later s s') (c : γ)
    (hpools : ∀ node retainUntil leaseId, (s'.leases node).lookup retainUntil = some leaseId →
      (s.leases node).lookup retainUntil = some leaseId ∨ Holds s' retainUntil leaseId)
    (hother : ∀ c', c' ≠ c → s'.calls c' = s.calls c' ∧ s'.posts c' = s.posts c')
    (hself : CallSound s' c) : Sound s' where
  pools := fun node retainUntil leaseId hlookup => by
    rcases hpools node retainUntil leaseId hlookup with hbefore | hholds
    · exact (hsound.pools node retainUntil leaseId hbefore).later hlater
    · exact hholds
  calls := fun c' => by
    by_cases hc : c' = c
    · rw [hc]
      exact hself
    · obtain ⟨hcalls, hposts⟩ := hother c' hc
      exact (hsound.calls c').later hlater hcalls hposts

theorem lookup_of_update {leases : ρ → LeasePool} {node node' : ρ} {pool : LeasePool}
    {retainUntil leaseId : I64} {P : Prop}
    (hpool : pool.lookup retainUntil = some leaseId →
      (leases node).lookup retainUntil = some leaseId ∨ P)
    (h : (Function.update leases node pool node').lookup retainUntil = some leaseId) :
    (leases node').lookup retainUntil = some leaseId ∨ P := by
  by_cases hnode : node' = node
  · subst hnode
    rw [Function.update_self] at h
    exact hpool h
  · rw [Function.update_of_ne hnode] at h
    exact .inl h

omit [DecidableEq γ] [DecidableEq ρ] in
theorem CallSound.askTxn {s s' : EtcdFleet γ ρ} {c : γ} {call : EtcdCall ρ} {leaseId : I64}
    {reused : Bool} (h : CallSound s c) (hlater : Later s s')
    (hcall : (s.calls c).call? = some call) (hwindow : call.now < call.expiresAtUnix)
    (hholds : Holds s' call.expiresAtUnix leaseId)
    (hcalls : s'.calls c = .txning call leaseId reused)
    (hposts : s'.posts c =
      Function.update (s.posts c) (.txn reused) (.flying (call.txnBody leaseId))) :
    CallSound s' c := by
  refine h.go hlater hcall ?_ ?_ (fun _ => hwindow) fun hreturned => ?_
  · rw [hcalls]
    rfl
  · exact posts_of_update hposts ⟨leaseId, rfl, hholds⟩
  · rw [hcalls] at hreturned
    cases hreturned

omit [DecidableEq γ] [DecidableEq ρ] in
theorem CallSound.askGrant {s s' : EtcdFleet γ ρ} {c : γ} {call : EtcdCall ρ} (h : CallSound s c)
    (hlater : Later s s') (hcall : (s.calls c).call? = some call)
    (hwindow : call.now < call.expiresAtUnix) (hcalls : s'.calls c = .granting call)
    (hposts : s'.posts c =
      Function.update (s.posts c) .grant (.flying (buildLeaseGrantBody call.ttlSecs))) :
    CallSound s' c := by
  refine h.go hlater hcall ?_ ?_ (fun _ => hwindow) fun hreturned => ?_
  · rw [hcalls]
    rfl
  · exact posts_of_update hposts ⟨rfl, hwindow⟩
  · rw [hcalls] at hreturned
    cases hreturned

omit [DecidableEq γ] [DecidableEq ρ] in
theorem CallSound.answer {s s' : EtcdFleet γ ρ} {c : γ} {post : Post} {posting : Posting}
    (h : CallSound s c) (hlater : Later s s') (hcalls : s'.calls c = s.calls c)
    (hposts : s'.posts c = Function.update (s.posts c) post posting)
    (hsent : s.posts c post ≠ .unsent)
    (hsound : ∀ call, (s.calls c).call? = some call → PostSound s' call post posting) :
    CallSound s' c := by
  cases hcall : (s.calls c).call? with
  | none => exact absurd (h.idle hcall post) hsent
  | some call =>
    refine h.go hlater hcall (hcalls ▸ hcall) (posts_of_update hposts (hsound call hcall)) ?_ ?_
    · rw [hcalls]
      exact h.admitted call hcall
    · rw [hcalls]
      exact fun hreturned => (h.fresh call hreturned).later hlater

omit [DecidableEq γ] [DecidableEq ρ] in
theorem instant_clock_le (s : EtcdFleet γ ρ) : 0 ≤ s.clock.val ∧ instant s.clock ≤ s.time := by
  unfold instant clock I64.clamp Etcd.second
  have hdiv := Nat.div_mul_le_self s.time (10 ^ 9)
  dsimp only
  constructor
  · omega
  · have hmin : max (-2 ^ 63) (min ((s.time / 10 ^ 9 : Nat) : Int) (2 ^ 63 - 1)) ≤
        ((s.time / 10 ^ 9 : Nat) : Int) := by omega
    calc max (-2 ^ 63) (min ((s.time / 10 ^ 9 : Nat) : Int) (2 ^ 63 - 1)) * ((10 ^ 9 : Nat) : Int)
        ≤ ((s.time / 10 ^ 9 : Nat) : Int) * ((10 ^ 9 : Nat) : Int) :=
          Int.mul_le_mul_of_nonneg_right hmin (by decide)
      _ ≤ s.time := by exact_mod_cast hdiv

theorem Sound.move {s s' : EtcdFleet γ ρ} {shown : Option (Shown γ)} (hsound : Sound s)
    (h : Move print s shown s') : Sound s' := by
  have hlater := h.later hsound
  cases h with
  | tick | expire =>
    refine ⟨fun node retainUntil leaseId hlookup => ?_, fun c => ?_⟩
    · exact (hsound.pools node retainUntil leaseId hlookup).later hlater
    · exact (hsound.calls c).later hlater rfl rfl
  | call c node insert hidle =>
    refine hsound.one hlater c (fun _ _ _ => .inl) (fun c' hc => ?_) ?_
    · exact ⟨Function.update_of_ne hc .., rfl⟩
    · have hunsent := (hsound.calls c).idle (by rw [hidle]; rfl)
      have hstage : (s.stand c (.begun ⟨node, insert.key, insert.expiresAtUnix, s.clock⟩)).calls c
          = .begun ⟨node, insert.key, insert.expiresAtUnix, s.clock⟩ := Function.update_self ..
      exact .of_begun hstage hunsent s.instant_clock_le
  | report c call result hcall hfresh =>
    refine hsound.one hlater c (fun _ _ _ => .inl) (fun c' hc => ?_) ?_
    · exact ⟨Function.update_of_ne hc .., rfl⟩
    · have hstage : (s.stand c (.returned call result)).calls c = .returned call result :=
        Function.update_self ..
      have hretained : result = .ok .fresh →
          Retained s (utf8 call.key) call.expiresAtUnix ∧ call.now < call.expiresAtUnix := by
        intro hok
        obtain ⟨leaseId, reused, reply, htxning, hanswered, hdecision⟩ := hfresh hok
        have hpost := (hsound.calls c).posts call hcall (.txn reused)
        rw [hanswered] at hpost
        exact ⟨hpost hdecision, (hsound.calls c).admitted call hcall (by rw [htxning]; rfl)⟩
      refine (hsound.calls c).go hlater hcall (by rw [hstage]; rfl) (fun _ => .inl rfl) ?_ ?_
      · rw [hstage]
        intro hadmitted
        cases result with
        | error e => cases hadmitted
        | ok decision =>
          cases decision with
          | fresh => exact (hretained rfl).2
          | replay => cases hadmitted
      · rw [hstage]
        intro heq
        cases heq
        exact (hretained rfl).1.later hlater
  | reuse c call pooled hbegun hwindow hpooled =>
    have hcall : (s.calls c).call? = some call := by rw [hbegun]; rfl
    refine hsound.one hlater c ?_ (fun c' hc => ?_) ?_
    · intro node retainUntil leaseId
      exact lookup_of_update fun hlookup => .inl (LeasePool.lookup_live hlookup)
    · exact ⟨Function.update_of_ne hc .., Function.update_of_ne hc ..⟩
    · have hholds := hsound.pools _ _ _ (LeasePool.lookup_live hpooled)
      exact (hsound.calls c).askTxn hlater hcall (lt_of_isStalePreStore_eq_false hwindow)
        (hholds.later hlater) (Function.update_self ..) (Function.update_self ..)
  | ask c call hbegun hwindow =>
    have hcall : (s.calls c).call? = some call := by rw [hbegun]; rfl
    refine hsound.one hlater c ?_ (fun c' hc => ?_) ?_
    · intro node retainUntil leaseId
      exact lookup_of_update fun hlookup => .inl (LeasePool.lookup_live hlookup)
    · exact ⟨Function.update_of_ne hc .., Function.update_of_ne hc ..⟩
    · exact (hsound.calls c).askGrant hlater hcall (lt_of_isStalePreStore_eq_false hwindow)
        (Function.update_self ..) (Function.update_self ..)
  | granted c call reply leaseId hgranting hanswered hparse =>
    have hcall : (s.calls c).call? = some call := by rw [hgranting]; rfl
    have hwindow := (hsound.calls c).admitted call hcall (by rw [hgranting]; rfl)
    have hpost := (hsound.calls c).posts call hcall .grant
    rw [hanswered] at hpost
    obtain ⟨id, hsaid, hholds⟩ := hpost
    obtain rfl := eq_of_parseLeaseId hsaid hparse
    refine hsound.one hlater c ?_ (fun c' hc => ?_) ?_
    · intro node retainUntil leaseId'
      refine lookup_of_update fun hlookup => ?_
      rcases LeasePool.lookup_poolLease hlookup with hbefore | ⟨rfl, rfl⟩
      · exact .inl hbefore
      · exact .inr (hholds.later hlater)
    · exact ⟨Function.update_of_ne hc .., Function.update_of_ne hc ..⟩
    · exact (hsound.calls c).askTxn hlater hcall hwindow (hholds.later hlater)
        (Function.update_self ..) (Function.update_self ..)
  | retry c call leaseId htxning =>
    have hcall : (s.calls c).call? = some call := by rw [htxning]; rfl
    have hwindow := (hsound.calls c).admitted call hcall (by rw [htxning]; rfl)
    refine hsound.one hlater c ?_ (fun c' hc => ?_) ?_
    · intro node retainUntil leaseId'
      exact lookup_of_update fun hlookup => .inl (LeasePool.lookup_forgetLease hlookup)
    · exact ⟨Function.update_of_ne hc .., Function.update_of_ne hc ..⟩
    · exact (hsound.calls c).askGrant hlater hcall hwindow (Function.update_self ..)
        (Function.update_self ..)
  | refuse c post body hflying =>
    refine hsound.one hlater c (fun _ _ _ => .inl) (fun c' hc => ?_) ?_
    · exact ⟨rfl, Function.update_of_ne hc ..⟩
    · refine (hsound.calls c).answer hlater rfl (Function.update_self ..) ?_ fun call _ => ?_
      · rw [hflying]
        exact nofun
      · cases post <;> trivial
  | grant c body ttl id reply hflying hread hfree hsaid =>
    refine hsound.one hlater c (fun _ _ _ => .inl) (fun c' hc => ?_) ?_
    · exact ⟨rfl, Function.update_of_ne hc ..⟩
    · refine (hsound.calls c).answer hlater rfl (Function.update_self ..) ?_ fun call hcall => ?_
      · rw [hflying]
        exact nofun
      · -- the clock the TTL was computed from is not ahead of the time of the grant
        have hpost := (hsound.calls c).posts call hcall .grant
        rw [hflying] at hpost
        obtain ⟨rfl, hwindow⟩ := hpost
        obtain ⟨hpos, hclock⟩ := (hsound.calls c).clock call hcall
        rw [Etcd.readGrant_build] at hread
        obtain rfl := Option.some.inj hread
        exact ⟨id, hsaid, .inr ⟨_, Function.update_self .., instant_le_of_ttl hpos hclock hwindow⟩⟩
  | put c reused body t kept reply hflying hread habsent hlive hsaid =>
    refine hsound.one hlater c (fun _ _ _ => .inl) (fun c' hc => ?_) ?_
    · exact ⟨rfl, Function.update_of_ne hc ..⟩
    · refine (hsound.calls c).answer hlater rfl (Function.update_self ..) ?_ fun call hcall => ?_
      · rw [hflying]
        exact nofun
      · intro _
        obtain ⟨call', hcall', -, hkey, hholds⟩ := (hsound.calls c).txn hflying hread
        obtain rfl := Option.some.inj (hcall.symm.trans hcall')
        rcases hholds with hpast | ⟨kept', hkept', hlasts⟩
        · exact .inl hpast
        · refine .inr ⟨t.lease, kept', ?_, hkept', hlasts⟩
          rw [← hkey]
          exact Function.update_self ..
  | present c reused body reply hflying hsaid =>
    refine hsound.one hlater c (fun _ _ _ => .inl) (fun c' hc => ?_) ?_
    · exact ⟨rfl, Function.update_of_ne hc ..⟩
    · refine (hsound.calls c).answer hlater rfl (Function.update_self ..) ?_ fun call _ => ?_
      · rw [hflying]
        exact nofun
      · intro hfresh
        cases (decisionFromTxn_eq_fresh hsaid).1 hfresh

/-! ## Every run -/

theorem Sound.step (s : EtcdFleet γ ρ) (e : EtcdEvent γ ρ) (h : Sound s) :
    Sound (s.step print e).2 := by
  rcases step_cases print s e with hsame | hmove
  · rwa [hsame]
  · exact h.move hmove

theorem later_step {s : EtcdFleet γ ρ} (h : Sound s) (e : EtcdEvent γ ρ) :
    Later s (s.step print e).2 := by
  rcases step_cases print s e with hsame | hmove
  · rw [hsame]
    exact .of_eq rfl rfl
  · exact hmove.later h

/-- A transaction takes effect only where its key is absent, and its key is retained from then
on. -/
theorem Move.put_inv {s s' : EtcdFleet γ ρ} {c : γ} {reused : Bool} (hsound : Sound s)
    (h : Move print s (some (.put c reused)) s') :
    ∃ call, (s.calls c).call? = some call ∧ s.etcd.keys (utf8 call.key) = none ∧
      Retained s' (utf8 call.key) call.expiresAtUnix := by
  have hsound' := hsound.move h
  cases h with
  | put c reused body t kept reply hflying hread habsent hlive hsaid =>
    obtain ⟨call, hcall, hcompared, -, -⟩ := (hsound.calls c).txn hflying hread
    refine ⟨call, hcall, hcompared ▸ habsent, ?_⟩
    have hpost := (hsound'.calls c).posts call hcall (.txn reused)
    have hanswered : (s.posting c (.txn reused) (.answered reply)).posts c (.txn reused)
        = .answered reply := by
      simp only [posting, Function.update_self]
    dsimp only at hpost
    rw [hanswered] at hpost
    exact hpost ((decisionFromTxn_eq_fresh hsaid).2 rfl)

omit [DecidableEq ρ] in
theorem of_posting_answered {s : EtcdFleet γ ρ} {c c' : γ} {post post' : Post} {posting : Posting}
    {reply : Json} (h : (s.posting c' post' posting).posts c post = .answered reply) :
    s.posts c post = .answered reply ∨ (c = c' ∧ post = post' ∧ posting = .answered reply) := by
  by_cases hc : c = c'
  · subst hc
    by_cases hpost : post = post'
    · subst hpost
      simp only [EtcdFleet.posting, Function.update_self] at h
      exact .inr ⟨rfl, rfl, h⟩
    · simp only [EtcdFleet.posting, Function.update_self, Function.update_of_ne hpost] at h
      exact .inl h
  · simp only [EtcdFleet.posting, Function.update_of_ne hc] at h
    exact .inl h

theorem put_inv {s s' : EtcdFleet γ ρ} {e : EtcdEvent γ ρ} {shown : Option (Shown γ)} {c : γ}
    {reused : Bool} (hsound : Sound s) (hstep : s.step print e = (shown, s'))
    (hput : shown = some (.put c reused)) :
    ∃ call, (s.calls c).call? = some call ∧ s.etcd.keys (utf8 call.key) = none ∧
      Retained s' (utf8 call.key) call.expiresAtUnix ∧ Sound s' := by
  have hcases := step_cases print s e
  rw [hstep, hput] at hcases
  rcases hcases with hsame | hmove
  · cases hsame
  · obtain ⟨call, hcall, habsent, hretained⟩ := hmove.put_inv hsound
    exact ⟨call, hcall, habsent, hretained, hsound.move hmove⟩

theorem retained_step {key : Bytes} {retainUntil : I64} (s : EtcdFleet γ ρ) (e : EtcdEvent γ ρ)
    (h : Sound s ∧ Retained s key retainUntil) :
    Sound (s.step print e).2 ∧ Retained (s.step print e).2 key retainUntil :=
  ⟨h.1.step s e, h.2.later (later_step h.1 e)⟩

theorem past_step {t : Int} (s : EtcdFleet γ ρ) (e : EtcdEvent γ ρ)
    (h : Sound s ∧ t ≤ s.time) :
    Sound (s.step print e).2 ∧ t ≤ (s.step print e).2.time :=
  ⟨h.1.step s e, h.2.trans (Int.ofNat_le.2 (later_step h.1 e).time)⟩

/-- A `Fresh` is reported on what etcd said. -/
theorem Move.report_inv {s s' : EtcdFleet γ ρ} {c : γ}
    (h : Move print s (some (.reported c (.ok .fresh))) s') :
    ∃ call leaseId reused reply, s.calls c = .txning call leaseId reused ∧
      s.posts c (.txn reused) = .answered reply ∧ decisionFromTxn reply = .fresh := by
  cases h with
  | report c call result hcall hfresh => exact ⟨call, hfresh rfl⟩

theorem Move.answered {s s' : EtcdFleet γ ρ} {shown : Option (Shown γ)} {c : γ} {reused : Bool}
    {reply : Json} (h : Move print s shown s') (hfresh : decisionFromTxn reply = .fresh)
    (hanswered : s'.posts c (.txn reused) = .answered reply) :
    s.posts c (.txn reused) = .answered reply ∨ shown = some (.put c reused) := by
  cases h with
  | reuse | ask | granted | retry | refuse =>
    rcases of_posting_answered hanswered with hbefore | ⟨-, -, hnot⟩
    · exact .inl hbefore
    · cases hnot
  | grant =>
    rcases of_posting_answered hanswered with hbefore | ⟨-, hnot, -⟩
    · exact .inl hbefore
    · cases hnot
  | put =>
    rcases of_posting_answered hanswered with hbefore | ⟨rfl, hpost, -⟩
    · exact .inl hbefore
    · cases hpost
      exact .inr rfl
  | present c' reused' body reply' hflying hsaid =>
    rcases of_posting_answered hanswered with hbefore | ⟨-, -, hreply⟩
    · exact .inl hbefore
    · cases hreply
      cases (decisionFromTxn_eq_fresh hsaid).1 hfresh
  | _ => exact .inl hanswered

omit [DecidableEq ρ] in
theorem call?_of_update {s : EtcdFleet γ ρ} {c c' : γ} {call call' : EtcdCall ρ}
    {stage : Insertion ρ} (hcall : (s.calls c').call? = some call')
    (hstage : stage.call? = some call') (h : (Function.update s.calls c' stage c).call? = some call) :
    (s.calls c).call? = some call := by
  by_cases hc : c = c'
  · subst hc
    rw [Function.update_self, hstage] at h
    rwa [hcall]
  · rwa [Function.update_of_ne hc] at h

/-- What a call has captured does not change. -/
theorem Move.call? {s s' : EtcdFleet γ ρ} {shown : Option (Shown γ)} {c : γ} {call : EtcdCall ρ}
    (h : Move print s shown s') (hcall : (s'.calls c).call? = some call) :
    (s.calls c).call? = some call ∨ (s.calls c).call? = none ∧ s'.posts c = s.posts c := by
  cases h with
  | call c' node insert hidle =>
    by_cases hc : c = c'
    · subst hc
      rw [hidle]
      exact .inr ⟨rfl, rfl⟩
    · have hsame : (s.stand c' (.begun ⟨node, insert.key, insert.expiresAtUnix, s.clock⟩)).calls c
          = s.calls c := Function.update_of_ne hc ..
      exact .inl (hsame ▸ hcall)
  | report c' call' result hcall' => exact .inl (call?_of_update hcall' rfl hcall)
  | reuse c' call' _ hstage | ask c' call' hstage | granted c' call' _ _ hstage
  | retry c' call' _ hstage =>
    have hcall' : (s.calls c').call? = some call' := by rw [hstage]; rfl
    exact .inl (call?_of_update hcall' rfl hcall)
  | _ => exact .inl hcall

/-- Step `u` is where the transaction took effect that step `w` reports `Fresh`. -/
def Effect (u w : Step (EtcdFleet γ ρ) (EtcdEvent γ ρ) (Option (Shown γ))) (call : EtcdCall ρ) :
    Prop :=
  ∃ c leaseId reused, u.answer = some (.put c reused) ∧ (u.before.calls c).call? = some call ∧
    w.answer = some (.reported c (.ok .fresh)) ∧ w.before.calls c = .txning call leaseId reused

/-- Every answer that says `Fresh` comes from a transaction that took effect. -/
def Traced (past : List (Step (EtcdFleet γ ρ) (EtcdEvent γ ρ) (Option (Shown γ))))
    (s : EtcdFleet γ ρ) : Prop :=
  Sound s ∧ ∀ c reused reply call, s.posts c (.txn reused) = .answered reply →
    decisionFromTxn reply = .fresh → (s.calls c).call? = some call →
    ∃ u ∈ past, u.answer = some (.put c reused) ∧ (u.before.calls c).call? = some call

omit [DecidableEq γ] [DecidableEq ρ] in
theorem Traced.new : Traced [] (EtcdFleet.new : EtcdFleet γ ρ) := by
  refine ⟨.new, fun c reused reply call hanswered => ?_⟩
  have hunsent : (EtcdFleet.new : EtcdFleet γ ρ).posts c (.txn reused) = .unsent := rfl
  rw [hunsent] at hanswered
  cases hanswered

theorem Traced.step (past : List (Step (EtcdFleet γ ρ) (EtcdEvent γ ρ) (Option (Shown γ))))
    (s : EtcdFleet γ ρ) (e : EtcdEvent γ ρ) (h : Traced past s) :
    Traced (past ++ [⟨s, e, (s.step print e).1, (s.step print e).2⟩]) (s.step print e).2 := by
  obtain ⟨hsound, htraced⟩ := h
  refine ⟨hsound.step s e, fun c reused reply call hanswered hfresh hcall => ?_⟩
  have hearlier : s.posts c (.txn reused) = .answered reply → (s.calls c).call? = some call →
      ∃ u ∈ past ++ [⟨s, e, (s.step print e).1, (s.step print e).2⟩],
        u.answer = some (.put c reused) ∧ (u.before.calls c).call? = some call := by
    intro hbefore hcall
    obtain ⟨u, hu, hput⟩ := htraced c reused reply call hbefore hfresh hcall
    exact ⟨u, List.mem_append_left _ hu, hput⟩
  rcases step_cases print s e with hsame | hmove
  · rw [hsame] at hanswered hcall
    exact hearlier hanswered hcall
  · rcases hmove.call? hcall with hcall | ⟨hnone, hposts⟩
    · rcases hmove.answered hfresh hanswered with hbefore | hput
      · exact hearlier hbefore hcall
      · exact ⟨_, List.mem_append_right _ List.mem_cons_self, hput, hcall⟩
    · rw [hposts, (hsound.calls c).idle hnone] at hanswered
      cases hanswered

/-- **The keys of an etcd fleet last as long as they must**: in every run of calls on any number of
replicas,
- a key that was reported `Fresh` is present until its retain-until;
- every `Fresh` is the report of a transaction that took effect before, and of two such reports of
  one key the one whose transaction took effect later is not made before the other's retain-until;
- a call whose retain-until is not after the reading it took of the clock never reports `Fresh`. -/
theorem fresh_keys_outlast (print : Json → Str) (es : List (EtcdEvent γ ρ)) :
    let run := trace (step print) (EtcdFleet.new : EtcdFleet γ ρ) es
    let s := final (step print) (EtcdFleet.new : EtcdFleet γ ρ) es
    (∀ c call, s.calls c = .returned call (.ok .fresh) →
      (s.time : Int) < instant call.expiresAtUnix → (s.etcd.keys (utf8 call.key)).isSome) ∧
    (∀ pre w post c, run = pre ++ w :: post → w.answer = some (.reported c (.ok .fresh)) →
      ∃ u ∈ pre, ∃ call, Effect u w call) ∧
    (∀ pre u mid u' post w w' call call', run = pre ++ u :: (mid ++ u' :: post) → w' ∈ post →
      Effect u w call → Effect u' w' call' → call.key = call'.key →
      instant call.expiresAtUnix ≤ w'.before.time) ∧
    ∀ c call, s.calls c = .returned call (.ok .fresh) → call.now < call.expiresAtUnix := by
  intro run s
  have hstep : ∀ (s : EtcdFleet γ ρ) (e : EtcdEvent γ ρ), Sound s → Sound (s.step print e).2 :=
    Sound.step
  have hsound : Sound s := (invariant hstep .new es).2
  refine ⟨fun c call hreturned hbefore => ?_, fun pre w post c hrun hreport => ?_, ?_,
    fun c call hreturned => ?_⟩
  · rcases (hsound.calls c).fresh call hreturned with hpast | ⟨leaseId, kept, hkey, -, -⟩
    · omega
    · rw [hkey]
      rfl
  · obtain ⟨-, htraced⟩ : Traced pre w.before := history Traced.step .new hrun
    have hw : w ∈ run := hrun ▸ List.mem_append_right _ List.mem_cons_self
    obtain ⟨-, hanswer⟩ := step_eq_of_mem_trace _ hw
    have hcases := step_cases print w.before w.event
    rw [hanswer, hreport] at hcases
    rcases hcases with hsame | hmove
    · cases hsame
    · obtain ⟨call, leaseId, reused, reply, htxning, hanswered, hfresh⟩ := hmove.report_inv
      have hcall : (w.before.calls c).call? = some call := by rw [htxning]; rfl
      obtain ⟨u, hu, hput, hcall'⟩ := htraced c reused reply call hanswered hfresh hcall
      exact ⟨u, hu, call, c, leaseId, reused, hput, hcall', hreport, htxning⟩
  · intro pre u mid u' post w w' call call' hrun hw' heffect heffect' hkey
    obtain ⟨c, -, reused, hput, hcall, -⟩ := heffect
    obtain ⟨c', -, reused', hput', hcall', -⟩ := heffect'
    obtain ⟨start, later, hstart, hlater⟩ := exists_around _ hrun
    obtain ⟨between, rest, hbetween, hrest⟩ := exists_around _ hlater
    have hu : u ∈ run := hrun ▸ List.mem_append_right _ List.mem_cons_self
    have hu' : u' ∈ trace (EtcdFleet.step print) u.after later :=
      hlater ▸ List.mem_append_right _ List.mem_cons_self
    -- from the one transaction to the other the key is retained
    have hbefore : Sound u.before := hstart ▸ (invariant hstep .new start).2
    obtain ⟨known, hknown, -, hretained, hsound₁⟩ :=
      put_inv hbefore (step_eq_of_mem_trace _ hu).2 hput
    obtain rfl := Option.some.inj (hcall.symm.trans hknown)
    obtain ⟨hsound₂, hretained₂⟩ : Sound u'.before ∧
        Retained u'.before (utf8 call.key) call.expiresAtUnix :=
      hbetween ▸ (invariant retained_step ⟨hsound₁, hretained⟩ between).2
    obtain ⟨known', hknown', habsent, -, hsound₃⟩ :=
      put_inv hsound₂ (step_eq_of_mem_trace _ hu').2 hput'
    obtain rfl := Option.some.inj (hcall'.symm.trans hknown')
    -- the other finds it absent, so the retain-until is past
    have hpast : instant call.expiresAtUnix ≤ u'.before.time := by
      rcases hretained₂ with hpast | ⟨leaseId, kept, hpresent, -, -⟩
      · exact hpast
      · rw [hkey, habsent] at hpresent
        cases hpresent
    have htime : Later u'.before u'.after := by
      have hlast : Later u'.before (u'.before.step print u'.event).2 :=
        later_step hsound₂ u'.event
      rwa [(step_eq_of_mem_trace _ hu').2] at hlast
    have hafter : instant call.expiresAtUnix ≤ u'.after.time :=
      hpast.trans (Int.ofNat_le.2 htime.time)
    exact (((invariant past_step ⟨hsound₃, hafter⟩ rest).1 w' (hrest ▸ hw')).1).2
  · refine (hsound.calls c).admitted call ?_ ?_
    · rw [hreturned]
      rfl
    · rw [hreturned]
      rfl

/-! ## Reports out of order -/

/-- What a report of `Fresh` says: the key, its retain-until, and the time of the report. -/
def freshReport (u : Step (EtcdFleet γ ρ) (EtcdEvent γ ρ) (Option (Shown γ))) :
    Option (Str × I64 × Nat) :=
  match u.answer with
  | some (.reported c (.ok .fresh)) =>
    match u.after.calls c with
    | .returned call _ => some (call.key, call.expiresAtUnix, u.before.time)
    | _ => none
  | _ => none

namespace EtcdSample

def idReply (id : String) : Json := .object [Json.field "ID" (.string id.toList)]

def succeededReply : Json := .object [Json.field "succeeded" (.bool true)]

/-- One call of the key is answered a second late; by then its lease is gone, and another call of
the key has come and reported. -/
def lateReply : List (EtcdEvent Bool Unit) :=
  [.call false () ⟨['k'], ['a'], 1, 0⟩, .poll false, .land false .grant 7 (idReply "7"),
    .deliver false, .land false (.txn false) 0 succeededReply, .tick (10 ^ 9), .expire 7,
    .call true () ⟨['k'], ['a'], 100, 0⟩, .poll true, .land true .grant 8 (idReply "8"),
    .deliver true, .land true (.txn false) 0 succeededReply, .deliver true, .deliver false]

theorem reported_twice_early :
    (trace (step fun _ => []) EtcdFleet.new lateReply).filterMap freshReport
      = [(['k'], 100, 10 ^ 9), (['k'], 1, 10 ^ 9)] ∧ ((10 ^ 9 : Nat) : Int) < instant 100 := by
  decide +kernel

end EtcdSample

end EtcdFleet

end McpRe.Replay

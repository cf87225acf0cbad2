import McpRe.Http.Verify.Custody
import McpRe.Lib.Code
import McpRe.Lib.Trail

/-!
# The custody machine's audit trail

The events are written by three transitions: an adoption, a declined approach after the key in
service has expired, and a commanded issuance that supersedes the key in service. Each is an opening
or a closing of the trail of `Lib.Trail`, with the active key as the slot; that an adopted credential
opens a new key rests on the ordinal at the end of its id.
-/

namespace McpRe.Http

open Lib Lib.Result Lib.Run Lib.Text

/-- What an event records of a credential. -/
structure KeyRecord where
  delegatedKid : Str
  jti : Str
  nbf : I64
  exp : I64
  deriving DecidableEq, Repr

def ActiveDelegatedKey.record {P : Platform} (a : ActiveDelegatedKey P) : KeyRecord :=
  ⟨a.delegatedKid, a.jti, a.nbf, a.exp⟩

def KeyLifecycleEvent.record (e : KeyLifecycleEvent) : KeyRecord :=
  ⟨e.delegatedKid, e.jti, e.nbf, e.exp⟩

def minted (audit : List KeyLifecycleEvent) : List KeyRecord :=
  (audit.filter fun e => decide (e.eventType ≠ .retired)).map KeyLifecycleEvent.record

def retiredIds (audit : List KeyLifecycleEvent) : List Str :=
  (audit.filter fun e => decide (e.eventType = .retired)).map KeyLifecycleEvent.jti

/-- Issued and rotated events open, retired events close. -/
def reading : Trail.Reading KeyLifecycleEvent KeyRecord Str where
  opens e := decide (e.eventType ≠ .retired)
  record := KeyLifecycleEvent.record
  key := KeyRecord.jti

theorem openings_reading (audit : List KeyLifecycleEvent) :
    Trail.openings reading audit = minted audit := rfl

theorem closedKeys_reading (audit : List KeyLifecycleEvent) :
    Trail.closedKeys reading audit = retiredIds audit := by
  unfold Trail.closedKeys retiredIds reading
  simp only [ne_eq, decide_not, Bool.not_not]
  rfl

/-! ## Credential ids -/

/-- A credential id of an issuer: a key id and an ordinal. -/
def credentialId (issuerKid kid : Str) (ordinal : Nat) : Str :=
  issuerKid ++ '#' :: kid ++ '#' :: Nat.toDigits 10 ordinal

/-- The ordinal can be read off the end of the id. -/
theorem ordinal_eq {issuer issuer' kid kid' : Str} {m n : Nat}
    (h : credentialId issuer kid m = credentialId issuer' kid' n) : m = n :=
  Code.toDigits_injective
    (Code.append_cons_inj_right h (Code.notMem_toDigits rfl m) (Code.notMem_toDigits rfl n)).2

theorem issued_claims {P : Platform} {key : DelegatedSigningKey} {requested : IssuanceRequest}
    {credential : Str} {a : ActiveDelegatedKey P}
    (h : issued P key requested credential = .ok a) :
    a.claims.jti = requested.claims.jti := by
  unfold issued at h
  split at h
  · cases h
  · split at h
    · cases h
    · dsimp only at h
      split_ifs at h with _ _ hrequested
      obtain rfl := Except.ok.inj h
      have hjti := congrArg DelegationClaims.jti hrequested.2
      exact hjti

theorem toNat_of_checkedIncrement {counter next : UInt64}
    (h : checkedIncrement counter = some next) : next.toNat = counter.toNat + 1 := by
  unfold checkedIncrement at h
  split_ifs at h with hlt
  obtain rfl := Option.some.inj h
  rw [UInt64.toNat_add]
  exact Nat.mod_eq_of_lt hlt

theorem toNat_of_mintable {now ttl exp : I64} {counter next : UInt64}
    (h : mintable now ttl counter = .ok (exp, next)) : next.toNat = counter.toNat + 1 := by
  unfold mintable at h
  split at h
  · next hnext =>
    obtain ⟨-, rfl⟩ := Prod.mk.inj (Except.ok.inj h)
    exact toNat_of_checkedIncrement hnext
  · cases h

namespace DelegatedSigningCustody

variable {P : Platform} {c c' : DelegatedSigningCustody P} {root : Root} {now : I64}

theorem jti_of_granted {exp : I64} {a : ActiveDelegatedKey P}
    (h : c.granted root now exp = some a) :
    ∃ kid, a.jti = credentialId c.cfg.issuerKid kid c.counter.toNat := by
  obtain ⟨credential, -, hissued⟩ := Option.bind_eq_some_iff.1 h
  have hok : issued P root.fresh (c.build now exp root.fresh) credential = .ok a := by
    cases hverdict : issued P root.fresh (c.build now exp root.fresh) credential with
    | error e =>
      rw [hverdict] at hissued
      cases hissued
    | ok b =>
      rw [hverdict] at hissued
      rw [Option.some.inj hissued]
  exact ⟨_, issued_claims hok⟩

/-! ## What a call writes down -/

/-- Everything one issuance can do to the active key and the audit events. -/
inductive Issues (c c' : DelegatedSigningCustody P) : Prop
  | kept (hactive : c'.active = c.active) (haudit : c'.audit = c.audit)
  | minted (now : I64) (kind : KeyEvent) (a : ActiveDelegatedKey P) (kid : Str)
      (hkind : kind ≠ .retired) (hactive : c'.active = some a)
      (haudit : c'.audit = c.audit ++ [c.event now kind a])
      (hjti : a.jti = credentialId c.cfg.issuerKid kid c'.counter.toNat)
      (hcounter : c.counter.toNat < c'.counter.toNat)
  | retired (now : I64) (a : ActiveDelegatedKey P) (hactive : c.active = some a)
      (hnone : c'.active = none) (haudit : c'.audit = c.audit ++ [c.event now .retired a])

/-- The issuer stays, and ordinals are not given back. -/
structure Frame (c c' : DelegatedSigningCustody P) : Prop where
  issuerKid : c'.cfg.issuerKid = c.cfg.issuerKid
  counter : c.counter.toNat ≤ c'.counter.toNat

theorem issueIf_issues (c : DelegatedSigningCustody P) (root : Root) (now : I64) (needs : Bool) :
    Frame c (c.issueIf root now needs).2 ∧ Issues c (c.issueIf root now needs).2 := by
  cases hneeds : needs && c.attemptAllowed now with
  | false =>
    rw [issueIf_left hneeds]
    exact ⟨⟨rfl, le_rfl⟩, .kept rfl rfl⟩
  | true =>
    cases hmint : mintable now c.cfg.window.ttl c.counter with
    | error e =>
      rw [issueIf_unmintable hneeds hmint]
      exact ⟨⟨rfl, le_rfl⟩, .kept rfl rfl⟩
    | ok terms =>
      obtain ⟨exp, next⟩ := terms
      have hnext : next.toNat = c.counter.toNat + 1 := toNat_of_mintable hmint
      have hlt : c.counter.toNat < next.toNat := by omega
      cases hgrant : (c.charged next).granted root now exp with
      | some a =>
        rw [issueIf_granted hneeds hmint hgrant]
        obtain ⟨kid, hjti⟩ := jti_of_granted hgrant
        refine ⟨⟨rfl, hlt.le⟩, .minted now _ a kid ?_ rfl rfl hjti hlt⟩
        split <;> decide
      | none =>
        rw [issueIf_declined hneeds hmint hgrant]
        refine ⟨⟨rfl, hlt.le⟩, ?_⟩
        have hcharged : (c.charged next).serves now = c.serves now := rfl
        cases hserves : c.serves now with
        | true =>
          refine .kept ?_ ?_
          all_goals
            rw [heldOff, hcharged, hserves]
            rfl
        | false =>
          cases hactive : c.active with
          | none =>
            refine .kept ?_ ?_
            · rw [heldOff, hcharged, hserves, hactive]
              rfl
            · have hcharged' : (c.charged next).active = none := hactive
              rw [heldOff, hcharged, hserves, hcharged']
              exact List.append_nil _
          | some a =>
            have hcharged' : (c.charged next).active = some a := hactive
            refine .retired now a hactive ?_ ?_
            · rw [heldOff, hcharged, hserves]
              rfl
            · rw [heldOff, hcharged, hserves, hcharged']
              rfl

/-- One operation on the machine, and what the closures answer during it. -/
inductive Operation where
  | ensureActive (root : Root) (now : I64)
  | reissue (root : Root) (now : I64)
  | signResponse (sd : Serde) (root : Root) (now : I64) (response : HttpResponse)
      (request : HttpRequest) (evidence : RequestEvidence)
  | setTrustEpoch (epoch : Str)

def operate (c : DelegatedSigningCustody P) : Operation → DelegatedSigningCustody P
  | .ensureActive root now => (c.ensureActive root now).2
  | .reissue root now => (c.reissue root now).2
  | .signResponse sd root now response request evidence =>
    (c.signResponse sd root now response request evidence).2
  | .setTrustEpoch epoch => c.setTrustEpoch epoch

theorem signResponse_snd (sd : Serde) (response : HttpResponse) (request : HttpRequest)
    (evidence : RequestEvidence) :
    (c.signResponse sd root now response request evidence).2 = (c.ensureActive root now).2 := by
  unfold signResponse
  rcases c.ensureActive root now with ⟨answer, after⟩
  cases answer with
  | error e => rfl
  | ok u =>
    dsimp only
    split <;> rfl

theorem reissue_cases (c : DelegatedSigningCustody P) (root : Root) (now : I64) :
    (c.reissue root now).2 = (c.issueNow root now).2 ∨
      ∃ p a, c.active = some p ∧ (c.issueNow root now).2.active = some a ∧
        p.credential ≠ a.credential ∧
        (c.reissue root now).2 = { (c.issueNow root now).2 with
          audit := (c.issueNow root now).2.audit ++ [(c.issueNow root now).2.retired now p] } := by
  unfold reissue
  rcases c.issueNow root now with ⟨answer, after⟩
  cases answer with
  | error e => exact .inl rfl
  | ok u =>
    dsimp only
    split
    · next successor p hsuccessor hprevious =>
      rw [Option.filter_eq_some_iff, hprevious] at hsuccessor
      exact .inr ⟨p, successor, hprevious, hsuccessor.1, by simpa using hsuccessor.2, rfl⟩
    · exact .inl rfl

/-- Everything an operation can do to the active key and the audit events. -/
inductive Moves (c c' : DelegatedSigningCustody P) : Prop
  | issues (h : Issues c c')
  | replaced (mid : DelegatedSigningCustody P) (now : I64) (p a : ActiveDelegatedKey P)
      (hissues : Issues c mid) (hframe : Frame c mid) (hprevious : c.active = some p)
      (hactive : mid.active = some a) (hne : p.credential ≠ a.credential)
      (h : c' = { mid with audit := mid.audit ++ [mid.event now .retired p] })

theorem operate_moves (c : DelegatedSigningCustody P) (op : Operation) :
    Frame c (c.operate op) ∧ Moves c (c.operate op) := by
  cases op with
  | ensureActive root now =>
    obtain ⟨hframe, hissues⟩ := c.issueIf_issues root now (c.needsIssuance now)
    exact ⟨hframe, .issues hissues⟩
  | signResponse sd root now response request evidence =>
    obtain ⟨hframe, hissues⟩ := c.issueIf_issues root now (c.needsIssuance now)
    change Frame c (c.signResponse sd root now response request evidence).2 ∧
      Moves c (c.signResponse sd root now response request evidence).2
    rw [signResponse_snd]
    exact ⟨hframe, .issues hissues⟩
  | setTrustEpoch epoch => exact ⟨⟨rfl, le_rfl⟩, .issues (.kept rfl rfl)⟩
  | reissue root now =>
    -- Clearing the gate changes neither the key nor the events.
    have hissueNow : Frame c (c.issueNow root now).2 ∧ Issues c (c.issueNow root now).2 := by
      obtain ⟨hframe, hissues⟩ := issueIf_issues { c with nextAttemptAt := none } root now true
      refine ⟨⟨hframe.issuerKid, hframe.counter⟩, ?_⟩
      cases hissues with
      | kept hactive haudit => exact .kept hactive haudit
      | minted now' kind a kid hkind hactive haudit hjti hcounter =>
        exact .minted now' kind a kid hkind hactive haudit hjti hcounter
      | retired now' a hactive hnone haudit => exact .retired now' a hactive hnone haudit
    obtain ⟨hframe, hissues⟩ := hissueNow
    change Frame c (c.reissue root now).2 ∧ Moves c (c.reissue root now).2
    obtain heq | ⟨p, a, hprevious, hactive, hne, heq⟩ := c.reissue_cases root now
    · rw [heq]
      exact ⟨hframe, .issues hissues⟩
    · rw [heq]
      exact ⟨⟨hframe.issuerKid, hframe.counter⟩,
        .replaced _ now p a hissues hframe hprevious hactive hne rfl⟩

/-! ## The trail is sound -/

/-- The audit events are a trail of the active key, and their ids carry ordinals already spent. -/
structure Audited (c : DelegatedSigningCustody P) : Prop where
  sound : Trail.Sound reading c.audit (c.active.map ActiveDelegatedKey.record)
  ordinals : ∀ r ∈ minted c.audit, ∃ kid n, n ≤ c.counter.toNat ∧
    r.jti = credentialId c.cfg.issuerKid kid n

theorem Audited.new (cfg : CustodyConfig) : Audited (new cfg : DelegatedSigningCustody P) :=
  ⟨.nil _, fun r hr => by cases hr⟩

theorem minted_append_of_ne {audit : List KeyLifecycleEvent} {e : KeyLifecycleEvent}
    (h : e.eventType ≠ .retired) : minted (audit ++ [e]) = minted audit ++ [e.record] := by
  simp [minted, h]

theorem minted_append_retired {audit : List KeyLifecycleEvent} {e : KeyLifecycleEvent}
    (h : e.eventType = .retired) : minted (audit ++ [e]) = minted audit := by
  simp [minted, h]

theorem Audited.of_active (h : Audited c) {a : ActiveDelegatedKey P} (ha : c.active = some a) :
    (minted c.audit).getLast? = some a.record ∧ a.jti ∉ retiredIds c.audit := by
  have hslot : c.active.map ActiveDelegatedKey.record = some a.record := by rw [ha]; rfl
  obtain ⟨hlast, hlive⟩ := h.sound.slot_eq_some_iff.1 hslot
  rw [closedKeys_reading] at hlive
  exact ⟨hlast, hlive⟩

theorem Audited.issues (h : Audited c) (hframe : Frame c c') (hissues : Issues c c') :
    Audited c' := by
  have hspent : ∀ r ∈ Http.minted c.audit, ∃ kid n, n ≤ c'.counter.toNat ∧
      r.jti = credentialId c'.cfg.issuerKid kid n := by
    intro r hr
    obtain ⟨kid, n, hn, hjti⟩ := h.ordinals r hr
    exact ⟨kid, n, hn.trans hframe.counter, hframe.issuerKid ▸ hjti⟩
  cases hissues with
  | kept hactive haudit =>
    refine ⟨?_, ?_⟩
    · rw [hactive, haudit]
      exact h.sound
    · rwa [haudit]
  | minted now kind a kid hkind hactive haudit hjti hcounter =>
    have hopens : (c.event now kind a).eventType ≠ .retired := hkind
    refine ⟨?_, ?_⟩
    · rw [hactive, haudit]
      refine h.sound.open (decide_eq_true hopens) ?_
      -- An id with this ordinal is not among the ids of ordinals spent before.
      intro hmem
      obtain ⟨r, hr, heq⟩ := List.mem_map.1 hmem
      obtain ⟨kid', n, hn, hr'⟩ := h.ordinals r hr
      have hids : credentialId c.cfg.issuerKid kid' n
          = credentialId c.cfg.issuerKid kid c'.counter.toNat := by
        rw [← hr', ← hjti]
        exact heq
      have := ordinal_eq hids
      omega
    · rw [haudit, minted_append_of_ne hopens]
      intro r hr
      rcases List.mem_append.1 hr with hr | hr
      · exact hspent r hr
      · obtain rfl := List.mem_singleton.1 hr
        exact ⟨kid, _, le_rfl, hframe.issuerKid ▸ hjti⟩
  | retired now a hactive hnone haudit =>
    obtain ⟨hlast, hlive⟩ := h.of_active hactive
    have hcloses : (c.event now .retired a).eventType = .retired := rfl
    refine ⟨?_, ?_⟩
    · have hclosed := h.sound.close (e := c.event now .retired a) (by rfl)
        (List.mem_of_getLast? hlast) (by rwa [closedKeys_reading])
      rw [hnone, haudit]
      rw [hactive] at hclosed
      simpa [reading, event, KeyLifecycleEvent.record, ActiveDelegatedKey.record, Option.filter]
        using hclosed
    · rwa [haudit, minted_append_retired hcloses]

theorem Audited.moves (h : Audited c) (hframe : Frame c c') (hmoves : Moves c c') :
    Audited c' := by
  cases hmoves with
  | issues hissues => exact h.issues hframe hissues
  | replaced mid now p a hissues hframe' hprevious hactive hne heq =>
    obtain rfl := heq
    have hmid : Audited mid := h.issues hframe' hissues
    obtain ⟨hlast, hlive⟩ := h.of_active hprevious
    cases hissues with
    | kept hsame _ =>
      rw [hsame, hprevious] at hactive
      exact absurd (congrArg ActiveDelegatedKey.credential (Option.some.inj hactive)) hne
    | retired _ _ _ hnone _ =>
      rw [hnone] at hactive
      cases hactive
    | minted now' kind b kid hkind hb haudit _ _ =>
      obtain rfl : b = a := Option.some.inj (hb.symm.trans hactive)
      have hopens : (c.event now' kind b).eventType ≠ .retired := hkind
      have hminted : Http.minted mid.audit = Http.minted c.audit ++ [b.record] := by
        rw [haudit, minted_append_of_ne hopens]
        rfl
      have hopened : p.record ∈ Http.minted c.audit := List.mem_of_getLast? hlast
      have hids : b.jti ≠ p.jti := by
        have hdistinct := hmid.sound.distinct
        rw [openings_reading, hminted, List.map_append, List.nodup_append] at hdistinct
        exact fun heq => hdistinct.2.2 _ (List.mem_map_of_mem hopened) _
          (List.mem_singleton.2 rfl) heq.symm
      have hlive' : p.jti ∉ retiredIds mid.audit := by
        rw [haudit]
        simpa [retiredIds, hopens] using hlive
      have hcloses : (mid.event now .retired p).eventType = .retired := rfl
      refine ⟨?_, ?_⟩
      · have hclosed := hmid.sound.close (e := mid.event now .retired p) (by rfl)
          (by rw [openings_reading, hminted]; exact List.mem_append_left _ hopened)
          (by rwa [closedKeys_reading])
        rw [hactive] at hclosed
        dsimp only
        rw [hactive]
        simpa [reading, event, KeyLifecycleEvent.record, ActiveDelegatedKey.record, Option.filter,
          hids] using hclosed
      · dsimp only
        rw [minted_append_retired hcloses]
        exact hmid.ordinals

theorem Moves.minted_cases (h : Moves c c') {r : KeyRecord} (hr : r ∈ minted c'.audit) :
    r ∈ minted c.audit ∨ ∃ a, c'.active = some a ∧ a.record = r := by
  have hissued (mid : DelegatedSigningCustody P) (hissues : Issues c mid)
      (hr : r ∈ Http.minted mid.audit) :
      r ∈ Http.minted c.audit ∨ ∃ a, mid.active = some a ∧ a.record = r := by
    cases hissues with
    | kept _ haudit => exact .inl (haudit ▸ hr)
    | minted now kind a kid hkind hactive haudit _ _ =>
      have hopens : (c.event now kind a).eventType ≠ .retired := hkind
      rw [haudit, minted_append_of_ne hopens] at hr
      rcases List.mem_append.1 hr with hr | hr
      · exact .inl hr
      · exact .inr ⟨a, hactive, (List.mem_singleton.1 hr).symm⟩
    | retired now a _ _ haudit =>
      rw [haudit, minted_append_retired rfl] at hr
      exact .inl hr
  cases h with
  | issues hissues => exact hissued c' hissues hr
  | replaced mid now p a hissues _ _ _ _ heq =>
    obtain rfl := heq
    rw [minted_append_retired rfl] at hr
    exact hissued mid hissues hr

/-! ## The audit trail of a run -/

def run (c : DelegatedSigningCustody P) (op : Operation) : Unit × DelegatedSigningCustody P :=
  ((), c.operate op)

/-- The audit trail of a run agrees with the machine it ends in. -/
structure AuditTrail (past : List (Run.Step (DelegatedSigningCustody P) Operation Unit))
    (c : DelegatedSigningCustody P) : Prop where
  distinct : ((minted c.audit).map KeyRecord.jti).Nodup
  /-- A retired event carries the id and the window of exactly one earlier event. -/
  matched : ∀ (pre : List KeyLifecycleEvent) (e : KeyLifecycleEvent) post,
    c.audit = pre ++ e :: post → e.eventType = .retired →
    ((minted pre).countP fun m => decide (m.jti = e.jti ∧ m.nbf = e.nbf ∧ m.exp = e.exp)) = 1
  once : (retiredIds c.audit).Nodup
  active_iff : (∃ a, c.active = some a) ↔
    ∃ m, (minted c.audit).getLast? = some m ∧ m.jti ∉ retiredIds c.audit
  active_named : ∀ a, c.active = some a → (minted c.audit).getLast? = some a.record
  /-- Every window is that of a credential the machine has published. -/
  published : ∀ e ∈ c.audit, ∃ t ∈ past, ∃ a : ActiveDelegatedKey P, t.after.active = some a ∧
    a.jti = e.jti ∧ parseCredential P a.credential = .ok (a.header, a.claims) ∧
    e.nbf = a.claims.nbf ∧ e.exp = a.claims.exp

/-- Ids tell records apart, so a record is found once. -/
theorem countP_eq_one {l : List KeyRecord} (hnodup : (l.map KeyRecord.jti).Nodup) {m : KeyRecord}
    (hm : m ∈ l) :
    (l.countP fun m' => decide (m'.jti = m.jti ∧ m'.nbf = m.nbf ∧ m'.exp = m.exp)) = 1 := by
  induction l with
  | nil => cases hm
  | cons x l ih =>
    rw [List.map_cons, List.nodup_cons] at hnodup
    rcases List.mem_cons.1 hm with rfl | hm
    · have hrest : (l.countP fun m' =>
          decide (m'.jti = m.jti ∧ m'.nbf = m.nbf ∧ m'.exp = m.exp)) = 0 := by
        rw [List.countP_eq_zero]
        intro m' hm' heq
        exact hnodup.1 ((decide_eq_true_iff.1 heq).1 ▸ List.mem_map_of_mem hm')
      rw [List.countP_cons, hrest]
      simp
    · have hne : x.jti ≠ m.jti := fun heq => hnodup.1 (heq ▸ List.mem_map_of_mem hm)
      rw [List.countP_cons, ih hnodup.2 hm]
      simp [hne]

/-- What a step keeps: the trail is sound, and every minted key was in service after some step. -/
def Recorded (past : List (Run.Step (DelegatedSigningCustody P) Operation Unit))
    (c : DelegatedSigningCustody P) : Prop :=
  Audited c ∧ ∀ r ∈ minted c.audit, ∃ t ∈ past, ∃ a : ActiveDelegatedKey P,
    t.after.active = some a ∧ a.record = r

theorem Recorded.step {past : List (Run.Step (DelegatedSigningCustody P) Operation Unit)}
    (h : Recorded past c) (op : Operation) :
    Recorded (past ++ [⟨c, op, (run c op).1, (run c op).2⟩]) (run c op).2 := by
  obtain ⟨haudited, hpublished⟩ := h
  obtain ⟨hframe, hmoves⟩ := c.operate_moves op
  refine ⟨haudited.moves hframe hmoves, fun r hr => ?_⟩
  rcases hmoves.minted_cases hr with hold | ⟨a, ha, heq⟩
  · obtain ⟨t, ht, a, ha, heq⟩ := hpublished r hold
    exact ⟨t, List.mem_append_left _ ht, a, ha, heq⟩
  · exact ⟨_, List.mem_append_right _ (List.mem_singleton.2 rfl), a, ha, heq⟩

theorem Recorded.matched {past : List (Run.Step (DelegatedSigningCustody P) Operation Unit)}
    (h : Recorded past c) {pre post : List KeyLifecycleEvent} {e : KeyLifecycleEvent}
    (heq : c.audit = pre ++ e :: post) (hretired : e.eventType = .retired) :
    e.record ∈ minted pre :=
  h.1.sound.matched pre e post heq (by simp [reading, hretired])

/-- **The audit trail of every run.** -/
theorem custody_audit_trail (cfg : CustodyConfig) (ops : List Operation) :
    AuditTrail (trace run (new cfg : DelegatedSigningCustody P) ops)
      (final run (new cfg : DelegatedSigningCustody P) ops) := by
  have hnew : Recorded [] (new cfg : DelegatedSigningCustody P) :=
    ⟨.new cfg, fun r hr => by cases hr⟩
  have hrecorded := history_final (I := Recorded) (fun _ _ op h => h.step op) hnew ops
  rw [List.nil_append] at hrecorded
  generalize final run (new cfg : DelegatedSigningCustody P) ops = c at hrecorded ⊢
  generalize trace run (new cfg : DelegatedSigningCustody P) ops = past at hrecorded ⊢
  obtain ⟨haudited, hpublished⟩ := id hrecorded
  have hsound := haudited.sound
  refine ⟨hsound.distinct, ?_, ?_, ?_, fun a ha => (haudited.of_active ha).1, ?_⟩
  · intro pre e post heq hretired
    have hpre : ((minted pre).map KeyRecord.jti).Nodup := by
      have hdistinct := hsound.distinct
      rw [heq, Trail.openings_append, List.map_append] at hdistinct
      exact (List.nodup_append.1 hdistinct).1
    exact countP_eq_one hpre (hrecorded.matched heq hretired)
  · rw [← closedKeys_reading]
    exact hsound.once
  · constructor
    · rintro ⟨a, ha⟩
      exact ⟨a.record, haudited.of_active ha⟩
    · rintro ⟨m, hlast, hlive⟩
      rw [← closedKeys_reading] at hlive
      have hsome := hsound.slot_eq_some_iff.2 ⟨hlast, hlive⟩
      obtain ⟨a, ha, -⟩ := Option.map_eq_some_iff.1 hsome
      exact ⟨a, ha⟩
  · intro e he
    have hminted : e.record ∈ minted c.audit := by
      by_cases hretired : e.eventType = .retired
      · obtain ⟨pre, post, heq⟩ := List.append_of_mem he
        have hpre := hrecorded.matched heq hretired
        rw [heq, ← openings_reading, Trail.openings_append]
        exact List.mem_append_left _ hpre
      · exact List.mem_map_of_mem (List.mem_filter.2 ⟨he, decide_eq_true hretired⟩)
    obtain ⟨t, ht, a, ha, heq⟩ := hpublished _ hminted
    exact ⟨t, ht, a, ha, congrArg KeyRecord.jti heq, a.parsed, (congrArg KeyRecord.nbf heq).symm,
      (congrArg KeyRecord.exp heq).symm⟩

end DelegatedSigningCustody

end McpRe.Http

import McpRe.Handshake.Ocsp

/-!
# What a good answer rests on

A response is read as good on the strength of the first single response that binds to the
certificate asked about. What the responder says of the same certificate further down is not looked
at, so a response that says good first and revoked afterwards reads as good
(`good_is_unanimous_iff`).
-/

namespace McpRe.Handshake

open Lib.Result Lib.Text

variable (X : Pki)

/-! ## SHA-1 -/

example : sha1Hash (utf8 "abc".toList) = [0xa9, 0x99, 0x3e, 0x36, 0x47, 0x06, 0x81, 0x6a, 0xba, 0x3e,
    0x25, 0x71, 0x78, 0x50, 0xc2, 0x6c, 0x9c, 0xd0, 0xd8, 0x9d] := by decide +kernel

/-! ## Freshness -/

def SingleResponse.upper (single : SingleResponse) (maxAge : Nat) : Nat :=
  match single.nextUpdate with
  | some next => min next.toUnixDuration (single.thisUpdate.toUnixDuration + maxAge)
  | none => single.thisUpdate.toUnixDuration + maxAge

/-- Fresh at `now`: no earlier than `thisUpdate - skew`, no later than the upper bound plus the
skew. -/
def FreshAt (single : SingleResponse) (now : Int) : Prop :=
  (single.thisUpdate.toUnixDuration : Int) - ocspFreshnessSkew ≤ now ∧
    now ≤ (single.upper ocspMaxResponseAge : Int) + ocspFreshnessSkew

theorem toUnixDuration_lt (d : DateTime) : d.toUnixDuration < nanos 253402300800 :=
  Nat.mul_lt_mul_of_pos_right d.unixSecs_lt (by decide)

theorem upper_le (single : SingleResponse) (maxAge : Nat) :
    single.upper maxAge ≤ single.thisUpdate.toUnixDuration + maxAge := by
  rw [SingleResponse.upper]
  cases single.nextUpdate with
  | none => exact Nat.le_refl _
  | some next => exact Nat.min_le_right _ _

theorem ite_false_ite (a b : Prop) [Decidable a] [Decidable b] :
    (if a then false else if b then false else true) = (!decide a && !decide b) := by
  by_cases a <;> by_cases b <;> simp [*]

theorem isFresh_eq (single : SingleResponse) (n skew maxAge : Nat)
    (hcap : saturatingAdd single.thisUpdate.toUnixDuration maxAge
      = single.thisUpdate.toUnixDuration + maxAge) :
    isFresh single n skew maxAge
      = (!decide (saturatingAdd n skew < single.thisUpdate.toUnixDuration) &&
        !decide (saturatingAdd (single.upper maxAge) skew < n)) := by
  have hnow : 0 ≤ (n : Int) := Int.natCast_nonneg n
  obtain ⟨certId, status, thisUpdate, nextUpdate⟩ := single
  cases nextUpdate with
  | none | some =>
    simp only [isFresh, systemTimeToUnix, if_pos hnow, Int.toNat_natCast, hcap,
      SingleResponse.upper, ite_false_ite]
    congr

/-- From the epoch on the test for freshness is exact: dates end so early that nothing
saturates. -/
theorem isFresh_iff (single : SingleResponse) {now : Int} (hnow : 0 ≤ now) :
    isFresh single now ocspFreshnessSkew ocspMaxResponseAge = true ↔ FreshAt single now := by
  have hthis := toUnixDuration_lt single.thisUpdate
  have hupper := upper_le single ocspMaxResponseAge
  have hcap : saturatingAdd single.thisUpdate.toUnixDuration ocspMaxResponseAge
      = single.thisUpdate.toUnixDuration + ocspMaxResponseAge := by
    simp only [saturatingAdd, durationMax, ocspMaxResponseAge, nanos] at *
    omega
  obtain ⟨n, rfl⟩ := Int.eq_ofNat_of_zero_le hnow
  simp only [isFresh_eq single n _ _ hcap, FreshAt, Bool.and_eq_true, Bool.not_eq_true', decide_eq_false_iff_not]
  simp only [saturatingAdd, durationMax, ocspFreshnessSkew, ocspMaxResponseAge, nanos] at *
  omega

theorem nonneg_of_isFresh {single : SingleResponse} {now : Int} {skew maxAge : Nat}
    (h : isFresh single now skew maxAge = true) : 0 ≤ now := by
  by_contra hneg
  simp only [isFresh, systemTimeToUnix, if_neg hneg, Bool.false_eq_true] at h

/-! ## What an answer rests on -/

/-- The response decodes to `basic`, whose signature verifies under a key that its responder id
names, and which has no nonce or the one that was sent. -/
def Vouched (responseDer issuerDer requestNonce : Bytes) (now : Int) (basic : BasicOcspResponse) :
    Prop :=
  ∃ response responseBytes signer, X.ocspResponse responseDer = .ok response ∧
    response.responseStatus = .successful ∧ response.responseBytes = some responseBytes ∧
    X.basicOcspResponse responseBytes = .ok basic ∧
    verifyResponderSignature X basic issuerDer now = .ok signer ∧
    responderIdMatches X basic.responderId signer = true ∧
    (basic.nonce = none ∨ basic.nonce = some requestNonce)

theorem nonceOk_iff {basic : BasicOcspResponse} {requestNonce : Bytes} :
    nonceOk basic requestNonce = true ↔ basic.nonce = none ∨ basic.nonce = some requestNonce := by
  rw [nonceOk]
  cases basic.nonce <;> simp

section

variable {X} {responseDer issuerDer requestNonce : Bytes} {now : Int} {expected : CertId}

theorem Vouched.unique {basic basic' : BasicOcspResponse}
    (h : Vouched X responseDer issuerDer requestNonce now basic)
    (h' : Vouched X responseDer issuerDer requestNonce now basic') : basic = basic' := by
  obtain ⟨response, responseBytes, _, hresponse, _, hbytes, hbasic, _⟩ := h
  obtain ⟨response', responseBytes', _, hresponse', _, hbytes', hbasic', _⟩ := h'
  obtain rfl : response = response' := Except.ok.inj (hresponse.symm.trans hresponse')
  obtain rfl : responseBytes = responseBytes' := Option.some.inj (hbytes.symm.trans hbytes')
  exact Except.ok.inj (hbasic.symm.trans hbasic')

theorem verifyAndMapResponse_eq_ok {answer : TrustedRevocationAnswer} :
    verifyAndMapResponse X responseDer issuerDer expected requestNonce now = .ok answer ↔
      ∃ basic single, Vouched X responseDer issuerDer requestNonce now basic ∧
        selectMatchingSingleResponse basic expected = some single ∧
        isFresh single now ocspFreshnessSkew ocspMaxResponseAge = true ∧
        answer = ⟨mapCertStatus single.certStatus⟩ := by
  simp only [verifyAndMapResponse, bind_eq_ok, mapError_eq_ok, ensure_eq_ok, okOr_eq_ok, nonceOk_iff,
    beq_iff_eq, Except.ok.injEq]
  constructor
  · rintro ⟨response, hresponse, _, hstatus, bytes, hbytes, basic, hbasic, signer, hsigner, _, hid,
      _, hnonce, single, hsingle, _, hfresh, rfl⟩
    exact ⟨basic, single, ⟨response, bytes, signer, hresponse, hstatus, hbytes, hbasic, hsigner, hid,
      hnonce⟩, hsingle, hfresh, rfl⟩
  · rintro ⟨basic, single, ⟨response, bytes, signer, hresponse, hstatus, hbytes, hbasic, hsigner,
      hid, hnonce⟩, hsingle, hfresh, rfl⟩
    exact ⟨response, hresponse, (), hstatus, bytes, hbytes, basic, hbasic, signer, hsigner, (), hid,
      (), hnonce, single, hsingle, (), hfresh, rfl⟩

end

/-! ## Single responses that disagree -/

/-- A single response about the certificate asked about, fresh at `now`. -/
def Answers (expected : CertId) (now : Int) (single : SingleResponse) : Prop :=
  certIdsBind single.certId expected = true ∧ FreshAt single now

/-- The clock is past the epoch, the first single response about the certificate is fresh and says
good, and a later one is fresh and says otherwise. -/
def GoodThenOtherwise (basic : BasicOcspResponse) (expected : CertId) (now : Int) : Prop :=
  0 ≤ now ∧ ∃ before first after, basic.responses = before ++ first :: after ∧
    (∀ single ∈ before, certIdsBind single.certId expected = false) ∧
    Answers expected now first ∧ first.certStatus = .good ∧
    ∃ other ∈ after, Answers expected now other ∧ other.certStatus ≠ .good

theorem mapCertStatus_eq_good {status : CertStatus} : mapCertStatus status = .good ↔ status = .good := by
  cases status <;> simp [mapCertStatus]

section

variable {expected : CertId} {now : Int} {basic : BasicOcspResponse}

theorem selectMatchingSingleResponse_eq_some {single : SingleResponse} :
    selectMatchingSingleResponse basic expected = some single ↔
      certIdsBind single.certId expected = true ∧
        ∃ before after, basic.responses = before ++ single :: after ∧
          ∀ other ∈ before, certIdsBind other.certId expected = false := by
  simp [selectMatchingSingleResponse, List.find?_eq_some_iff_append]

theorem all_good {single : SingleResponse}
    (hselected : selectMatchingSingleResponse basic expected = some single)
    (hnow : 0 ≤ now) (hfresh : FreshAt single now) (hgood : single.certStatus = .good)
    (hagree : ¬GoodThenOtherwise basic expected now) :
    ∀ other ∈ basic.responses, Answers expected now other → other.certStatus = .good := by
  obtain ⟨hbinds, before, after, hresponses, hbefore⟩ :=
    selectMatchingSingleResponse_eq_some.1 hselected
  intro other hother hanswers
  rw [hresponses] at hother
  rcases List.mem_append.1 hother with hmem | hmem
  · exact absurd hanswers.1 (by rw [hbefore other hmem]; exact Bool.false_ne_true)
  rcases List.mem_cons.1 hmem with rfl | hlater
  · exact hgood
  · by_contra hne
    exact hagree ⟨hnow, before, single, after, hresponses, hbefore, ⟨hbinds, hfresh⟩, hgood, other, hlater,
      hanswers, hne⟩

end

/-- **A response that is read as good is good throughout**: its signer is the one its responder id
names, its nonce is absent or the one sent, a single response about the certificate is fresh and
says good, and none that is fresh says otherwise. This holds of a response exactly if it is not one
that says good of the certificate first and otherwise later. -/
theorem good_is_unanimous_iff (responseDer issuerDer : Bytes) (expected : CertId)
    (requestNonce : Bytes) (now : Int) :
    (verifyAndMapResponse X responseDer issuerDer expected requestNonce now = .ok ⟨.good⟩ →
      ∃ basic, Vouched X responseDer issuerDer requestNonce now basic ∧
        (∃ single ∈ basic.responses, Answers expected now single ∧ single.certStatus = .good) ∧
        ∀ single ∈ basic.responses, Answers expected now single → single.certStatus = .good) ↔
      ¬∃ basic, Vouched X responseDer issuerDer requestNonce now basic ∧
        GoodThenOtherwise basic expected now := by
  constructor
  · rintro hunanimous ⟨basic, hvouched, hnow, before, first, after, hresponses, hbefore, hfirst,
      hgood, other, hother, hanswers, hne⟩
    have hselected : selectMatchingSingleResponse basic expected = some first :=
      selectMatchingSingleResponse_eq_some.2 ⟨hfirst.1, before, after, hresponses, hbefore⟩
    have hread := verifyAndMapResponse_eq_ok.2
      ⟨basic, first, hvouched, hselected, (isFresh_iff first hnow).2 hfirst.2, rfl⟩
    rw [mapCertStatus_eq_good.2 hgood] at hread
    obtain ⟨basic', hvouched', _, hall⟩ := hunanimous hread
    obtain rfl := hvouched.unique hvouched'
    refine hne (hall other ?_ hanswers)
    rw [hresponses]
    exact List.mem_append_right _ (List.mem_cons_of_mem _ hother)
  · intro hagree hread
    obtain ⟨basic, single, hvouched, hselected, hfresh, hanswer⟩ :=
      verifyAndMapResponse_eq_ok.1 hread
    have hgood : single.certStatus = .good :=
      mapCertStatus_eq_good.1 (TrustedRevocationAnswer.mk.inj hanswer).symm
    have hnow := nonneg_of_isFresh hfresh
    have hat : FreshAt single now := (isFresh_iff single hnow).1 hfresh
    have hall := all_good hselected hnow hat hgood fun hother => hagree ⟨basic, hvouched, hother⟩
    have hbinds := (selectMatchingSingleResponse_eq_some.1 hselected).1
    exact ⟨basic, hvouched, ⟨single, List.mem_of_find?_eq_some hselected,
      ⟨hbinds, hat⟩, hgood⟩, hall⟩

/-! ## A response that says both -/

namespace OcspSample

def responseDer : Bytes := [0x30, 1]
def basicDer : Bytes := [0x30, 2]
def issuerDer : Bytes := [0x30, 3]
def tbsDer : Bytes := [0x30, 4]
def algorithmDer : Bytes := [0x30, 5]
def signature : Bytes := [6]
def issuerKey : Bytes := [7]
def issuerName : Bytes := [8]
def nonce : Bytes := [9]

def asked : CertId := ⟨"2.16.840.1.101.3.4.2.1".toList, [10], [11], [12]⟩

/-- An hour old, and due again an hour from now. -/
def single (status : CertStatus) : SingleResponse :=
  ⟨asked, status, ⟨1790000000, by decide⟩, some ⟨1790007200, by decide⟩⟩

def now : Int := nanos 1790003600

def basic : BasicOcspResponse where
  responderId := .byName issuerName
  responses := [single .good, single .revoked]
  nonce := some nonce
  tbsDer := .ok tbsDer
  signatureAlgorithmDer := .ok algorithmDer
  signature := signature
  certs := none

/-- The issuer has signed it. -/
def pki : Pki where
  ocspResponse := fun der =>
    if der = responseDer then .ok ⟨.successful, some basicDer⟩ else .error "not DER".toList
  basicOcspResponse := fun der => if der = basicDer then .ok basic else .error "not DER".toList
  x509Certificate := fun der =>
    if der = issuerDer then .ok ⟨0, 4000000000, none, issuerKey⟩ else .error "not DER".toList
  algorithmIdentifier := fun der => .ok der
  certificate := fun der => if der = issuerDer then some ⟨issuerName, issuerKey⟩ else none
  nameDer := some
  asn1Time := some
  verifySignature := fun key _ sig signed =>
    key == issuerKey && sig == signature && signed == tbsDer
  certificateSignature := fun _ _ => false

theorem revoked_read_as_good :
    verifyAndMapResponse pki responseDer issuerDer asked nonce now = .ok ⟨.good⟩ ∧
      single .revoked ∈ basic.responses ∧ Answers asked now (single .revoked) ∧
      decideAllow .good false = true := by
  refine ⟨by decide +kernel, by simp [basic], ⟨by decide, ?_⟩, rfl⟩
  exact (isFresh_iff _ (by decide)).1 (by decide +kernel)

end OcspSample

end McpRe.Handshake

import McpRe.Http.BoundResponse
import McpRe.Http.Verify.Chain
import McpRe.Http.Verify.Sign

/-!
# A bound response answers one request

The signature of a bound response covers the request through its `;req` components. So the
response that was signed for one request is accepted only with requests that agree with it on
method, target and the two covered headers. The body and the evidence handle are not components:
they follow from the digest header where that is checked, and from the block where it is compared.
-/

namespace McpRe.Http

open Lib Lib.Result Lib.Text

def SameField (a b : HttpRequest) (name : String) : Prop :=
  ∃ v w, requiredHeader a.headers name = .ok v ∧ requiredHeader b.headers name = .ok w ∧
    trim v = trim w

/-- The digest header of the request is that of its body. -/
def DigestHolds (P : Platform) (r : HttpRequest) : Prop :=
  ∃ v, requiredHeader r.headers "content-digest" = .ok v ∧
    verifyContentDigestSha256 P v r.body = .ok ()

theorem SameField.body_eq {P : Platform} {a b : HttpRequest} (h : SameField a b "content-digest")
    (hsha : P.sha256 a.body = P.sha256 b.body → a.body = b.body) (ha : DigestHolds P a)
    (hb : DigestHolds P b) : a.body = b.body := by
  obtain ⟨v, w, hv, hw, htrim⟩ := h
  obtain ⟨v', hv', hva⟩ := ha
  obtain ⟨w', hw', hwb⟩ := hb
  rw [hv] at hv'
  rw [hw] at hw'
  cases hv'
  cases hw'
  exact hsha (sha256_eq_of_trim_eq htrim hva hwb)

/-! ## The two sides -/

theorem signResponseWithSigner_eq_ok {P : Platform} {response signed : HttpResponse}
    {request : HttpRequest} {signBase : Signer} {keyId : Str} {created expires : I64} {base : Bytes}
    (h : signResponseWithSigner P response request signBase keyId created expires
      = .ok (signed, base)) :
    ∃ sigBytes cs params, signBase base = .ok sigBytes ∧
      signatureValueB64url signed.headers "response signature" responseLabel.toList
        = .ok (b64urlEncode sigBytes) ∧
      signatureBase cs params (.response { response with
        headers := setHeader response.headers "Content-Digest" (contentDigestSha256 P response.body) }
        request) = .ok base := by
  simp only [signResponseWithSigner, bind_eq_ok, Except.ok.injEq, Prod.mk.injEq] at h
  obtain ⟨-, -, _, hbase, headers, hemit, rfl, rfl⟩ := h
  obtain ⟨sigBytes, value, hsig, -, -, hout⟩ := emitSignature_eq_ok hemit
  exact ⟨sigBytes, _, _, hsig, hout.signatureValueB64url_eq isLabel_responseLabel _, hbase⟩

/-- What an accepted bound response has passed. -/
structure BoundAccepted (P : Platform) (response : HttpResponse) (request : HttpRequest)
    (out : CryptographicFloorVerifiedBoundResponse) (parsed : ParsedSignatureInput) (base : Bytes) :
    Prop where
  digest : ∃ v, requiredHeader response.headers "content-digest" = .ok v ∧
    verifyContentDigestSha256 P v response.body = .ok ()
  plain : ∀ n ∈ requiredResponseComponents, (⟨n, false⟩ : CoveredComponent) ∈ parsed.components
  bound : ∀ n ∈ requiredResponseReqComponents, (⟨n, true⟩ : CoveredComponent) ∈ parsed.components
  base_eq : signatureBase parsed.components parsed.params (.response response request) = .ok base
  signature : ∃ sig, signatureValueB64url response.headers "response signature" responseLabel.toList
      = .ok sig ∧ verifyEd25519With P base sig out.resolvedServerActor.verificationKey = true

theorem floorBoundResponse_eq_ok {P : Platform} {response : HttpResponse} {request : HttpRequest}
    {resolveActor : Resolver} {policy : VerifierPolicy} {now : I64}
    {out : CryptographicFloorVerifiedBoundResponse}
    (h : floorBoundResponse P response request resolveActor policy now = .ok out) :
    ∃ parsed base, BoundAccepted P response request out parsed base := by
  simp only [floorBoundResponse, openResponse, bind_eq_ok, mapError_eq_ok, requireComponents,
    requireAll_eq_ok, Except.ok.injEq] at h
  obtain ⟨parsed, ⟨-, -, -, -, v, hv, ⟨⟩, hdigest, -⟩, -, ⟨-, hplain, hbound⟩, checked, -, actor, -,
    base, hbase, sig, hsig, _, hverify, rfl⟩ := h
  refine ⟨parsed, base, ⟨v, hv, hdigest⟩, hplain, hbound, hbase, sig, hsig, ?_⟩
  cases halg : checked.algorithm
  rw [halg, verifyUnder, ensure_eq_ok] at hverify
  exact hverify

theorem BoundAccepted.verifyStrict_eq {P : Platform} {response : HttpResponse}
    {request : HttpRequest} {out : CryptographicFloorVerifiedBoundResponse}
    {parsed : ParsedSignatureInput} {base sigBytes : Bytes}
    (h : BoundAccepted P response request out parsed base)
    (hsig : signatureValueB64url response.headers "response signature" responseLabel.toList
      = .ok (b64urlEncode sigBytes)) :
    P.verifyStrict out.resolvedServerActor.verificationKey base sigBytes = true := by
  obtain ⟨sig, hread, hverify⟩ := h.signature
  rw [hsig] at hread
  cases hread
  simp only [verifyEd25519With, b64urlDecode, b64urlEncode, Base64.decode_encode,
    Bool.and_eq_true] at hverify
  exact hverify.2

/-! ## Components bound from the request -/

theorem componentValue_req (n : ComponentName) (response : HttpResponse) (request : HttpRequest) :
    componentValue ⟨n, true⟩ (.response response request)
      = componentValue ⟨n, false⟩ (.request request) :=
  rfl

theorem sameField_of_componentValue {a b : HttpRequest} {rsp rsp' : HttpResponse}
    {n : ComponentName} (hn : isDerived n = false) {v : Str}
    (ha : componentValue ⟨n, true⟩ (.response rsp a) = .ok v)
    (hb : componentValue ⟨n, true⟩ (.response rsp' b) = .ok v) : SameField a b n.text := by
  rw [componentValue_req] at ha hb
  obtain ⟨w₁, w₂, hw₁, hw₂, htrim⟩ := fieldValues_of_componentValue hn ha hb
  exact ⟨w₁, w₂, requiredHeader_eq_ok.2 hw₁, requiredHeader_eq_ok.2 hw₂, htrim⟩

theorem response_eq_of_componentValue {a b : HttpRequest} {rsp rsp' : HttpResponse} {v d : Str}
    (hstatus : componentValue ⟨.status, false⟩ (.response rsp a) = .ok v)
    (hstatus' : componentValue ⟨.status, false⟩ (.response rsp' b) = .ok v)
    (hdigest : componentValue ⟨.contentDigest, false⟩ (.response rsp a) = .ok d)
    (hdigest' : componentValue ⟨.contentDigest, false⟩ (.response rsp' b) = .ok d) :
    rsp.status = rsp'.status ∧
      ∃ w w', requiredHeader rsp.headers "content-digest" = .ok w ∧
        requiredHeader rsp'.headers "content-digest" = .ok w' ∧ trim w = trim w' := by
  constructor
  · have h := (componentValue_eq_ok.1 hstatus).1.trans (componentValue_eq_ok.1 hstatus').1.symm
    exact UInt16.toNat.inj (Code.toDigits_injective (Except.ok.inj h))
  · obtain ⟨w, hw, rfl⟩ := fieldComponent_eq_ok.1 (componentValue_eq_ok.1 hdigest).1
    obtain ⟨w', hw', htrim⟩ := fieldComponent_eq_ok.1 (componentValue_eq_ok.1 hdigest').1
    exact ⟨w, w', requiredHeader_eq_ok.2 hw, requiredHeader_eq_ok.2 hw', htrim⟩

/-- **A bound response answers one request**: the signature made for `a` is accepted with `b` only
where the two agree on method, target, digest header and content type, and only on the status and
body it was made for. The bodies agree where each request's digest header is that of its body, and
the handle in the block is that of `b` where the block is compared. -/
theorem bound_response_answers_one_request {P : Platform} {response signed received : HttpResponse}
    {a b : HttpRequest} {signBase : Signer} {keyId : Str} {created expires now : I64} {base : Bytes}
    {resolveActor : Resolver} {policy : VerifierPolicy}
    {out : CryptographicFloorVerifiedBoundResponse}
    (hsigned : signResponseWithSigner P response a signBase keyId created expires
      = .ok (signed, base))
    (hcarried : fieldValues received.headers "signature" = fieldValues signed.headers "signature")
    (haccepted : floorBoundResponse P received b resolveActor policy now = .ok out)
    (hideal : ∀ m m' s, signBase m = .ok s →
      P.verifyStrict out.resolvedServerActor.verificationKey m' s = true → m' = m)
    (hsha : Set.InjOn P.sha256 {response.body, received.body, a.body, b.body}) :
    a.method = b.method ∧ a.targetUri = b.targetUri ∧ SameField a b "content-type" ∧
      SameField a b "content-digest" ∧ (DigestHolds P a → DigestHolds P b → a.body = b.body) ∧
      received.status = response.status ∧ received.body = response.body ∧
      ∀ full, fullBoundResponse P received b resolveActor policy now = .ok full →
        ∃ block, extractMetaBlock P HttpResponseEvidenceBlock.read received.body
            responseEvidenceBlockKey "response evidence block" = .ok block ∧
          requestEvidenceOf P b = .ok block.requestEvidence := by
  obtain ⟨sigBytes, cs, params, hsig, hread, hbase⟩ := signResponseWithSigner_eq_ok hsigned
  obtain ⟨parsed, base', hacc⟩ := floorBoundResponse_eq_ok haccepted
  -- the signature verifies over one base only
  have hsame : base' = base := by
    apply hideal base base' sigBytes hsig
    apply hacc.verifyStrict_eq
    exact signatureValueB64url_congr hcarried hread
  rw [hsame] at hacc
  obtain ⟨rfl, rfl, hvalues⟩ := signatureBase_injective hbase hacc.base_eq
  have hbound : ∀ n ∈ requiredResponseReqComponents, ∃ v, _ := fun n hn =>
    hvalues _ (hacc.bound n hn)
  have hfield : ∀ n ∈ requiredResponseReqComponents, isDerived n = false → SameField a b n.text := by
    intro n hn hderived
    obtain ⟨v, hva, hvb⟩ := hbound n hn
    exact sameField_of_componentValue hderived hva hvb
  obtain ⟨m, hma, hmb⟩ := hbound .method (by decide)
  obtain ⟨u, hua, hub⟩ := hbound .targetUri (by decide)
  obtain ⟨st, hst, hst'⟩ := hvalues _ (hacc.plain .status (by decide))
  obtain ⟨d, hd, hd'⟩ := hvalues _ (hacc.plain .contentDigest (by decide))
  obtain ⟨hstatus, w, w', hw, hw', htrim⟩ := response_eq_of_componentValue hst hst' hd hd'
  refine ⟨?_, ?_, hfield .contentType (by decide) (by decide),
    hfield .contentDigest (by decide) (by decide), ?_, hstatus.symm, ?_, ?_⟩
  · exact Except.ok.inj ((componentValue_eq_ok.1 hma).1.trans (componentValue_eq_ok.1 hmb).1.symm)
  · exact Except.ok.inj ((componentValue_eq_ok.1 hua).1.trans (componentValue_eq_ok.1 hub).1.symm)
  · exact (hfield .contentDigest (by decide) (by decide)).body_eq (hsha (by simp) (by simp))
  · obtain ⟨w'', hw'', hverified⟩ := hacc.digest
    rw [hw'] at hw''
    cases hw''
    rw [requiredHeader_eq_ok, fieldValues_setHeader_self (by decide), List.singleton_inj] at hw
    rw [← hw] at htrim
    exact hsha (by simp) (by simp) (sha256_eq_of_trim_eq htrim.symm hverified
      (verifyContentDigestSha256_written P response.body))
  · intro full hfull
    simp only [fullBoundResponse, bind_eq_ok, ensure_eq_ok, beq_iff_eq] at hfull
    obtain ⟨-, -, block, hblock, -, -, bound, hevidence, -, -, -, hsame', -⟩ := hfull
    exact ⟨block, hblock, by rw [hsame', hevidence]⟩

/-! An answer to the sample request: digests, key and signature are the real ones. -/

section Answer

open TwoHops

def answerHandle : Bytes :=
  [69, 123, 179, 118, 1, 149, 245, 176, 31, 254, 49, 89, 226, 246, 98, 161, 122, 114, 69, 211, 131,
   80, 59, 142, 207, 193, 224, 205, 28, 64, 65, 40]

def answerJson : Json :=
  .object [field "_meta" (.object [field responseEvidenceBlockKey (.object [
    field "profile" (str profileTag),
    field "server_signer" (.object [field "role" (str "server"), field "trust_domain" (str "t"),
      field "subject" (str "s"), field "keyid" (str "d")]),
    field "request_evidence" (digestJson answerHandle)])])]

def answerBlock : HttpResponseEvidenceBlock where
  profile := profileTag.toList
  serverSigner := ⟨"server".toList, ['t'], ['s'], ['d']⟩
  serverDelegation := none
  requestEvidence := ⟨evidenceDigestAlg.toList, b64urlEncode answerHandle⟩

def answer : HttpResponse where
  status := 200
  headers := [("Content-Type".toList, jsonMediaType.toList)]
  body := body answerJson

def answerDigest : Bytes :=
  [79, 164, 53, 30, 45, 237, 108, 0, 157, 142, 89, 168, 5, 232, 106, 204, 160, 197, 120, 9, 48, 112,
   202, 249, 179, 78, 162, 96, 234, 43, 8, 17]

def answerBase : Bytes :=
  (signatureBase responseComponents (profileParams none ['d'] 110 210)
    (.response { answer with headers := answer.headers ++ [("Content-Digest".toList,
      sha256Member.toList ++ ':' :: Base64.encode Base64.standard answerDigest ++ [':'])] }
      (sampleRequest []))).toOption.getD []

def answerSignature : Bytes :=
  [71, 231, 177, 97, 218, 83, 55, 42, 104, 118, 184, 59, 249, 98, 211, 254, 115, 102, 146, 232, 224,
   207, 112, 73, 135, 146, 36, 9, 57, 57, 178, 27, 247, 138, 218, 113, 151, 192, 161, 222, 206,
   212, 246, 86, 13, 254, 207, 18, 21, 77, 191, 43, 90, 84, 93, 236, 65, 142, 71, 240, 172, 188,
   62, 3]

def answerSigner : Signer := fun m =>
  if m = answerBase then .ok answerSignature else .error .invalidSignature

def tracedRequest : HttpRequest := sampleRequest [("X-Trace".toList, ['7'])]

def otherRequest : HttpRequest :=
  { sampleRequest [] with
    headers :=
      setHeader (setHeader (sampleRequest []).headers "Content-Type" (jsonMediaType.toList ++ [' ']))
        "Signature-Input" (requestLabel.toList ++ '=' :: ((SignatureParams.serializeWith
          { sampleParams with nonce := some ['m'] } sampleComponents).toOption.getD []))
    body := [1] }

def otherHandle : Bytes :=
  [97, 149, 184, 229, 79, 182, 153, 65, 171, 8, 245, 248, 250, 191, 198, 176, 85, 62, 82, 172, 99,
   211, 72, 94, 126, 247, 230, 75, 2, 93, 237, 176]

def handlePreimage (r : HttpRequest) : Bytes :=
  labeledPreimage evidenceLabelRequest ((requestBaseOf r).toOption.getD [])

def answerPlatform : Platform where
  sha256 b :=
    if b = [123, 125] then sampleSha256 b
    else if b = [1] then toDigest certDigest
    else if b = answer.body then toDigest answerDigest
    else if b = handlePreimage (sampleRequest []) then toDigest answerHandle
    else if b = handlePreimage otherRequest then toDigest otherHandle
    else ⟨List.replicate 32 0, length_zeros⟩
  fromSlice b := if b = answer.body then some answerJson else none
  readDocument b := if b = answer.body then some answerJson else none
  isPoint b := b == delegatedKey
  verifyStrict key preimage signature :=
    key.bytes == delegatedKey && signature == answerSignature && preimage == answerBase

def answerResolver : Resolver := fun keyId slot =>
  if keyId = ['d'] ∧ slot = .response then
    .resolved ⟨⟨"server".toList, ['t'], ['s'], keyId⟩, ⟨delegatedKey⟩, slot⟩
  else .notTrusted

theorem answerSigner_ideal (key : VerificationKey) (m m' s : Bytes) (hs : answerSigner m = .ok s)
    (hverify : answerPlatform.verifyStrict key m' s = true) : m' = m := by
  have hm : m = answerBase := by
    by_contra hne
    rw [answerSigner, if_neg hne] at hs
    cases hs
  have hm' : m' = answerBase := eq_of_beq (Bool.and_eq_true_iff.1 hverify).2
  rw [hm, hm']

def answerBodies : List Bytes := [answer.body, [123, 125], [1]]

/-- What the answer evaluates to, in one evaluation: it is signed for the sample request, accepted
by the full check with the same request and by the floor with the other one; the digests of the
bodies involved are different, the two requests have different handles, and the block carries the
first of them. -/
theorem answer_evaluated :
    (match signResponseWithSigner answerPlatform answer (sampleRequest []) answerSigner ['d'] 110
      210 with
      | .ok p => decide (p.1.body = answer.body) &&
        (fullBoundResponse answerPlatform p.1 tracedRequest answerResolver .default 150).isOk &&
        (floorBoundResponse answerPlatform p.1 otherRequest answerResolver .default 150).isOk
      | .error _ => false) = true ∧
    (answerBodies.map answerPlatform.sha256).Nodup ∧
    requestEvidenceOf answerPlatform (sampleRequest []) = .ok answerBlock.requestEvidence ∧
    requestEvidenceOf answerPlatform otherRequest
      = .ok ⟨evidenceDigestAlg.toList, b64urlEncode otherHandle⟩ ∧
    extractMetaBlock answerPlatform HttpResponseEvidenceBlock.read answer.body
      responseEvidenceBlockKey "response evidence block" = .ok answerBlock ∧
    requiredHeader (sampleRequest []).headers "content-type"
      ≠ requiredHeader otherRequest.headers "content-type" ∧
    (⟨evidenceDigestAlg.toList, b64urlEncode otherHandle⟩ : RequestEvidence)
      ≠ answerBlock.requestEvidence := by
  decide +kernel

theorem injOn_answerBodies {received b : Bytes} (hreceived : received = answer.body)
    (hb : b ∈ answerBodies) :
    Set.InjOn answerPlatform.sha256 {answer.body, received, (sampleRequest []).body, b} := by
  subst hreceived
  have hnodup := answer_evaluated.2.1
  have hmem : ∀ x ∈ ({answer.body, answer.body, (sampleRequest []).body, b} : Set Bytes),
      x ∈ answerBodies := by
    rintro x (rfl | rfl | rfl | rfl)
    · exact List.mem_cons_self
    · exact List.mem_cons_self
    · exact .tail _ List.mem_cons_self
    · exact hb
  intro x hx y hy heq
  exact List.inj_on_of_nodup_map hnodup (hmem x hx) (hmem y hy) heq

/-- The answer signed for the sample request, accepted by floor and full check with the same
request, and by the floor with the other one. -/
theorem answer_accepted :
    ∃ signed base full out,
      signResponseWithSigner answerPlatform answer (sampleRequest []) answerSigner ['d'] 110 210
        = .ok (signed, base) ∧ signed.body = answer.body ∧
      fullBoundResponse answerPlatform signed tracedRequest answerResolver .default 150 = .ok full ∧
      floorBoundResponse answerPlatform signed otherRequest answerResolver .default 150
        = .ok out := by
  have hruns := answer_evaluated.1
  split at hruns
  next p hsigned =>
    rw [Bool.and_eq_true, Bool.and_eq_true, decide_eq_true_eq] at hruns
    obtain ⟨⟨hbody, hfull⟩, hfloor⟩ := hruns
    obtain ⟨full, hfull⟩ := exists_of_isOk hfull
    obtain ⟨out, hout⟩ := exists_of_isOk hfloor
    exact ⟨p.1, p.2, full, out, hsigned, hbody, hfull, hout⟩
  next => cases hruns

theorem bound_response_answers_one_request_traced :
    ∃ signed base out full,
      signResponseWithSigner answerPlatform answer (sampleRequest []) answerSigner ['d'] 110 210
        = .ok (signed, base) ∧
      floorBoundResponse answerPlatform signed tracedRequest answerResolver .default 150 = .ok out ∧
      fullBoundResponse answerPlatform signed tracedRequest answerResolver .default 150 = .ok full ∧
      (sampleRequest []).method = tracedRequest.method ∧
      SameField (sampleRequest []) tracedRequest "content-type" ∧
      ∃ block, extractMetaBlock answerPlatform HttpResponseEvidenceBlock.read signed.body
          responseEvidenceBlockKey "response evidence block" = .ok block ∧
        requestEvidenceOf answerPlatform tracedRequest = .ok block.requestEvidence := by
  obtain ⟨signed, base, full, -, hsigned, hbody, hfull, -⟩ := answer_accepted
  have hfloor := hfull
  simp only [fullBoundResponse, bind_eq_ok] at hfloor
  obtain ⟨out, hout, -⟩ := hfloor
  obtain ⟨hmethod, -, htype, -, -, -, -, hhandle⟩ :=
    bound_response_answers_one_request hsigned rfl hout (answerSigner_ideal _)
      (injOn_answerBodies hbody (.tail _ List.mem_cons_self))
  exact ⟨signed, base, out, full, hsigned, hout, hfull, hmethod, htype, hhandle full hfull⟩

/-- The floor alone leaves the body, the nonce and the whitespace around the content type open: the
answer to the sample request, which carries that request's handle, is accepted with a request that
differs in all three and has another handle. -/
theorem floor_leaves_body_and_handle_open :
    ∃ signed base out block handle,
      signResponseWithSigner answerPlatform answer (sampleRequest []) answerSigner ['d'] 110 210
        = .ok (signed, base) ∧
      floorBoundResponse answerPlatform signed otherRequest answerResolver .default 150 = .ok out ∧
      (∀ m m' s, answerSigner m = .ok s →
        answerPlatform.verifyStrict out.resolvedServerActor.verificationKey m' s = true → m' = m) ∧
      Set.InjOn answerPlatform.sha256
        {answer.body, signed.body, (sampleRequest []).body, otherRequest.body} ∧
      (sampleRequest []).body ≠ otherRequest.body ∧
      requiredHeader (sampleRequest []).headers "content-type"
        ≠ requiredHeader otherRequest.headers "content-type" ∧
      extractMetaBlock answerPlatform HttpResponseEvidenceBlock.read signed.body
        responseEvidenceBlockKey "response evidence block" = .ok block ∧
      requestEvidenceOf answerPlatform (sampleRequest []) = .ok block.requestEvidence ∧
      requestEvidenceOf answerPlatform otherRequest = .ok handle ∧
      handle ≠ block.requestEvidence := by
  obtain ⟨signed, base, -, out, hsigned, hbody, -, hout⟩ := answer_accepted
  obtain ⟨-, -, hfirst, hother, hblock, htype, hhandle⟩ := answer_evaluated
  refine ⟨signed, base, out, answerBlock, _, hsigned, hout, answerSigner_ideal _,
    injOn_answerBodies hbody (.tail _ (.tail _ List.mem_cons_self)), ?_, ?_, ?_, hfirst, hother, ?_⟩
  · decide
  · exact htype
  · rw [hbody, hblock]
  · exact hhandle

end Answer

end McpRe.Http

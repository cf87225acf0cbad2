import McpRe.Http.Verify.Body
import McpRe.Http.Verify.BoundResponse
import McpRe.Http.Verify.Custody

/-!
# Responses signed by the custody machine

A signed response is described as its verifier reads it: the credential in its evidence block, the
`Signature-Input` member and the signature under the label. `response_signed_inside_credential` says
that the signature stays within the credential it is made under, except that nothing in the machine
looks at the credential's `nbf` once it has been adopted.
-/

namespace McpRe.Http

open Lib Lib.Result Lib.Text

/-! ## The signed response -/

def boundResponseComponents : List CoveredComponent :=
  (requiredResponseComponents.map fun n => ⟨n, false⟩)
    ++ requiredResponseReqComponents.map fun n => ⟨n, true⟩

theorem responseComponent_field {n : ComponentName} (h : isDerived n = false) (rsp : HttpResponse) :
    responseComponent rsp n = fieldComponent rsp.headers n := by
  cases n <;> first | rfl | simp [isDerived] at h

theorem responseBase_of_emitted {label : String} {value : Str} {sigBytes : Bytes}
    (rsp rsp' : HttpResponse) (h : Emitted label value sigBytes rsp.headers rsp'.headers)
    (hstatus : rsp'.status = rsp.status) {request : HttpRequest} {cs : List CoveredComponent}
    {p : SignatureParams} {base : Bytes}
    (hbase : signatureBase cs p (.response rsp request) = .ok base) :
    signatureBase cs p (.response rsp' request) = .ok base := by
  apply signatureBase_mono _ hbase
  intro c v hv
  obtain ⟨n, req⟩ := c
  cases req with
  | true => exact hv
  | false =>
    simp only [resolveComponentValue, Bool.false_eq_true, if_false] at hv ⊢
    cases hn : isDerived n with
    | false =>
      rw [responseComponent_field hn] at hv ⊢
      exact fieldComponent_congr (h.component_eq n) hv
    | true =>
      cases n with
      | status => simpa [responseComponent, hstatus] using hv
      | method => cases hv
      | targetUri => cases hv
      | authority => cases hv
      | path => cases hv
      | _ => simp [isDerived] at hn

/-- What the response signer leaves, as the verifier reads it. -/
structure SignedResponse (response signed : HttpResponse) (request : HttpRequest)
    (params : SignatureParams) (base sigBytes : Bytes) : Prop where
  body : signed.body = response.body
  input : parseSignatureInputFor signed.headers responseLabel.toList "response signature-input"
    = .ok ⟨boundResponseComponents, params⟩
  signature : signatureValueB64url signed.headers "response signature" responseLabel.toList
    = .ok (b64urlEncode sigBytes)
  base_eq : signatureBase boundResponseComponents params (.response signed request) = .ok base

theorem signedResponse_of_sign {P : Platform} {response signed : HttpResponse}
    {request : HttpRequest} {signBase : Signer} {keyId : Str} {created expires : I64} {base : Bytes}
    (h : signResponseWithSigner P response request signBase keyId created expires
      = .ok (signed, base)) :
    ∃ sigBytes, signBase base = .ok sigBytes ∧
      SignedResponse response signed request (profileParams none keyId created expires) base
        sigBytes := by
  simp only [signResponseWithSigner, bind_eq_ok, Except.ok.injEq, Prod.mk.injEq] at h
  obtain ⟨-, -, _, hbase, headers, hemit, rfl, rfl⟩ := h
  obtain ⟨sigBytes, value, hsig, -, hvalue, hout⟩ := emitSignature_eq_ok hemit
  obtain ⟨hmember, hparsed⟩ := signature_input_round_trip isLabel_responseLabel (by decide) hvalue
  refine ⟨sigBytes, hsig, rfl, ?_, hout.signatureValueB64url_eq isLabel_responseLabel _, ?_⟩
  · simp only [parseSignatureInputFor, requiredHeader_eq_ok.2 hout.input, Except.mapError, ok_bind,
      hmember, hparsed]
    rfl
  · exact responseBase_of_emitted { response with headers := setHeader response.headers _ _ }
      { response with headers } hout rfl hbase

theorem HttpResponseEvidenceBlock.read_toValue (block : HttpResponseEvidenceBlock) :
    HttpResponseEvidenceBlock.read block.toValue = some block := by
  obtain ⟨profile, ⟨role, trustDomain, subject, keyid⟩, delegation, ⟨alg, value⟩⟩ := block
  cases delegation <;> rfl

theorem HttpResponseEvidenceBlock.depth_toValue (block : HttpResponseEvidenceBlock) :
    block.toValue.depth = 2 := by
  cases hdelegation : block.serverDelegation <;> simp [toValue, hdelegation, Json.depth,
    Json.depthMembers]

/-! ## Inside the credential -/

/-- The response carries a credential, and the key the credential names signed it. -/
structure SignedUnder (P : Platform) (request : HttpRequest) (signed : HttpResponse)
    (claims : DelegationClaims) (expires : I64) : Prop where
  credential : ∃ block jws header,
    extractMetaBlock P HttpResponseEvidenceBlock.read signed.body responseEvidenceBlockKey
      "response evidence block" = .ok block ∧
    block.serverDelegation = some jws ∧ parseCredential P jws = .ok (header, claims) ∧
    block.serverSigner.keyid = claims.delegatedKid
  signature : ∃ (key : DelegatedSigningKey) (parsed : ParsedSignatureInput) (base : Bytes),
    claims.delegatedKey P = .ok key.publicKey ∧
    parseSignatureInputFor signed.headers responseLabel.toList "response signature-input"
      = .ok parsed ∧
    parsed.params.keyid = some claims.delegatedKid ∧ parsed.params.expires = some expires ∧
    signatureBase parsed.components parsed.params (.response signed request) = .ok base ∧
    signatureValueB64url signed.headers "response signature" responseLabel.toList
      = .ok (b64urlEncode (key.sign base))

theorem SignedUnder.claims_eq {P : Platform} {request : HttpRequest} {signed : HttpResponse}
    {claims claims' : DelegationClaims} {expires expires' : I64}
    (h : SignedUnder P request signed claims expires)
    (h' : SignedUnder P request signed claims' expires') : claims = claims' := by
  obtain ⟨block, jws, header, hblock, hjws, hparsed, -⟩ := h.credential
  obtain ⟨block', jws', header', hblock', hjws', hparsed', -⟩ := h'.credential
  rw [hblock] at hblock'
  cases hblock'
  rw [hjws] at hjws'
  cases hjws'
  rw [hparsed] at hparsed'
  cases hparsed'
  rfl

theorem signatureValidUntil_bounds {now ttl exp : I64} (httl : 0 < ttl.val) (h : now < exp) :
    now < signatureValidUntil now ttl exp ∧ signatureValidUntil now ttl exp ≤ exp := by
  rw [signatureValidUntil]
  cases hbound : I64.ofInt? (now.val + ttl.val) with
  | none => exact ⟨h, le_rfl⟩
  | some bound =>
    have hval := I64.ofInt?_eq_some.1 hbound
    refine ⟨lt_min ?_ h, min_le_right _ _⟩
    rw [I64.lt_iff]
    omega

theorem signedUnder_of_sign {P : Platform} {sd : Serde} (hcarrier : Carrier P sd)
    (a : ActiveDelegatedKey P) {response signed : HttpResponse} {request : HttpRequest}
    {evidence : RequestEvidence} {now expires : I64} {base : Bytes}
    (h : signDelegatedResponseFull P sd response request evidence a.serverSigner a.credential
      a.key.toSigningKey a.delegatedKid now expires = .ok (signed, base)) :
    SignedUnder P request signed a.claims expires := by
  rw [signDelegatedResponseFull, bind_eq_ok] at h
  obtain ⟨body, hbody, h⟩ := h
  obtain ⟨sigBytes, hsig, hsigned⟩ := signedResponse_of_sign h
  have hblock := extractMetaBlock_of_insert hcarrier
    (by rw [HttpResponseEvidenceBlock.depth_toValue]; decide) hbody
    HttpResponseEvidenceBlock.read "response evidence block"
  rw [HttpResponseEvidenceBlock.read_toValue, okOr_some] at hblock
  constructor
  · rw [hsigned.body]
    exact ⟨_, a.credential, a.header, hblock, rfl, a.parsed, a.keyid⟩
  · have hkey : sigBytes = a.key.sign base := by
      rw [localSig, b64urlDecode, b64urlEncode, Base64.decode_encode, okOr_some] at hsig
      exact (Except.ok.inj hsig).symm
    exact ⟨a.key, _, base, a.held, hsigned.input, rfl, rfl, hsigned.base_eq,
      hkey ▸ hsigned.signature⟩

namespace DelegatedSigningCustody

variable {P : Platform} (c : DelegatedSigningCustody P) (root : Root) (now : I64)

/-- The key a call at this instant signs with: the one the root grants during it, or the one in
service. -/
def signsWith : Option (ActiveDelegatedKey P) :=
  if c.reachesRoot now then (c.grantAt root now).or c.active else c.active

variable {c root now}

theorem serves_of_verdict (h : c.verdict now = .ok ()) : ∃ a, c.active = some a ∧ now < a.exp := by
  rw [verdict] at h
  split_ifs at h with hserves
  exact serves_iff.1 hserves

theorem active_of_ensureActive_ok (h : (c.ensureActive root now).1 = .ok ()) :
    ∃ a, (c.ensureActive root now).2.active = some a ∧ now < a.exp ∧
      c.signsWith root now = some a := by
  rw [ensureActive] at h ⊢
  cases hneeds : c.needsIssuance now && c.attemptAllowed now with
  | false =>
    rw [issueIf_left hneeds] at h ⊢
    obtain ⟨a, hactive, hexp⟩ := serves_of_verdict h
    have hreach : c.reachesRoot now = false := by rw [reachesRoot, hneeds, Bool.false_and]
    exact ⟨a, hactive, hexp, by rw [signsWith, hreach]; exact hactive⟩
  | true =>
    cases hmint : mintable now c.cfg.window.ttl c.counter with
    | error e =>
      rw [issueIf_unmintable hneeds hmint] at h
      cases h
    | ok terms =>
      obtain ⟨exp, next⟩ := terms
      have hreach : c.reachesRoot now = true := by rw [reachesRoot, hneeds, hmint]; rfl
      have hgrantAt : c.grantAt root now = (c.charged next).granted root now exp := by
        rw [grantAt, hmint]
        rfl
      cases hgrant : (c.charged next).granted root now exp with
      | some a =>
        rw [issueIf_granted hneeds hmint hgrant] at h ⊢
        obtain ⟨b, hactive, hexp⟩ := serves_of_verdict h
        cases hactive
        exact ⟨a, rfl, hexp, by rw [signsWith, hreach, hgrantAt, hgrant]; rfl⟩
      | none =>
        rw [issueIf_declined hneeds hmint hgrant] at h ⊢
        obtain ⟨a, hactive, hexp⟩ := serves_of_verdict h
        have hserves : (c.charged next).serves now = true := serves_iff.2 ⟨a, hactive, hexp⟩
        refine ⟨a, ?_, hexp, by rw [signsWith, hreach, hgrantAt, hgrant]; exact hactive⟩
        rw [heldOff, hserves]
        exact hactive

theorem signResponse_eq_ok {sd : Serde} {response signed : HttpResponse} {request : HttpRequest}
    {evidence : RequestEvidence}
    (h : (c.signResponse sd root now response request evidence).1 = .ok signed) :
    ∃ a ttl base, c.signsWith root now = some a ∧ now < a.exp ∧ 0 < ttl.val ∧
      signDelegatedResponseFull P sd response request evidence a.serverSigner a.credential
        a.key.toSigningKey a.delegatedKid now (signatureValidUntil now ttl a.exp)
        = .ok (signed, base) := by
  rw [signResponse] at h
  cases hensure : c.ensureActive root now with
  | mk answer after =>
    rw [hensure] at h
    cases answer with
    | error e => cases h
    | ok u =>
      have hensured : (c.ensureActive root now).1 = .ok () := by rw [hensure]
      obtain ⟨a, hafter, hexp, hsigns⟩ := active_of_ensureActive_ok hensured
      have hactive : after.active = some a := by
        rw [hensure] at hafter
        exact hafter
      simp only [hactive, mapError_eq_ok] at h
      have httl : 0 < after.cfg.window.ttl.val :=
        after.cfg.window.overlap_pos.trans after.cfg.window.overlap_lt_ttl
      refine ⟨a, after.cfg.window.ttl, ?_⟩
      cases hsign : signDelegatedResponseFull P sd response request evidence a.serverSigner
          a.credential a.key.toSigningKey a.delegatedKid now
          (signatureValidUntil now after.cfg.window.ttl a.exp) with
      | error e =>
        rw [hsign] at h
        cases h
      | ok result =>
        rw [hsign] at h
        cases h
        exact ⟨result.2, hsigns, hexp, httl, rfl⟩

end DelegatedSigningCustody

theorem signResponse_signedUnder {P : Platform} {sd : Serde} (hcarrier : Carrier P sd)
    {c : DelegatedSigningCustody P} {root : Root} {now : I64} {response signed : HttpResponse}
    {request : HttpRequest} {evidence : RequestEvidence}
    (h : (c.signResponse sd root now response request evidence).1 = .ok signed) :
    ∃ a expires, c.signsWith root now = some a ∧ now < a.exp ∧
      SignedUnder P request signed a.claims expires ∧ now < expires ∧ expires ≤ a.exp := by
  obtain ⟨a, ttl, base, hsigns, hexp, httl, hsign⟩ := DelegatedSigningCustody.signResponse_eq_ok h
  exact ⟨a, _, hsigns, hexp, signedUnder_of_sign hcarrier a hsign,
    signatureValidUntil_bounds httl hexp⟩

theorem response_signed_inside_credential {P : Platform} {sd : Serde} (hcarrier : Carrier P sd)
    (c : DelegatedSigningCustody P) (root : Root) (now : I64) {response signed : HttpResponse}
    {request : HttpRequest} {evidence : RequestEvidence}
    (hok : (c.signResponse sd root now response request evidence).1 = .ok signed) :
    (∃ claims expires, SignedUnder P request signed claims expires ∧ now < claims.exp ∧
      now < expires ∧ expires ≤ claims.exp) ∧
    ((∃ claims expires, SignedUnder P request signed claims expires ∧
        (claims.nbf ≤ now ∧ now < claims.exp) ∧ now < expires ∧ expires ≤ claims.exp) ↔
      ∀ a, c.signsWith root now = some a → a.nbf ≤ now) := by
  obtain ⟨a, expires, hsigns, hexp, hunder, hlater, hwithin⟩ := signResponse_signedUnder hcarrier hok
  refine ⟨⟨a.claims, expires, hunder, hexp, hlater, hwithin⟩, ?_⟩
  constructor
  · intro h b hb
    obtain ⟨claims, _, hattached, ⟨hnbf, -⟩, -⟩ := h
    rw [hsigns, Option.some.injEq] at hb
    rw [← hb]
    rwa [hattached.claims_eq hunder] at hnbf
  · intro h
    exact ⟨a.claims, expires, hunder, ⟨h a hsigns, hexp⟩, hlater, hwithin⟩

/-! ## Two grants for one response

The digests and the signatures are the real ones. -/

namespace CustodySample

open TwoHops DelegatedSigningCustody

def response : HttpResponse where
  status := 200
  headers := [("Content-Type".toList, jsonMediaType.toList)]
  body := body (.object [field "id" (.number ['1'])])

def evidence : RequestEvidence := ⟨evidenceDigestAlg.toList, b64urlEncode answerHandle⟩

/-- A grant, the digest of the response's body with its credential, and the signature over both. -/
structure Signing where
  grant : Grant
  digest : Bytes
  signature : Bytes
  length_signature : signature.length = 64

/-- Granted as it was asked for. -/
def current : Signing where
  grant := ⟨1, 1000, 1000, 1300⟩
  digest :=
    [108, 3, 35, 125, 154, 250, 232, 150, 107, 44, 134, 55, 9, 4, 67, 81, 49, 111, 91, 8, 76, 49, 64,
     68, 145, 194, 104, 254, 187, 164, 34, 71]
  signature :=
    [18, 205, 196, 220, 222, 94, 167, 204, 209, 17, 227, 218, 221, 138, 48, 105, 99, 5, 89, 34, 24,
     6, 52, 112, 64, 176, 244, 65, 139, 175, 167, 157, 178, 97, 82, 147, 11, 166, 214, 24, 124, 218,
     98, 135, 177, 31, 11, 161, 43, 178, 135, 14, 184, 83, 216, 194, 73, 101, 59, 136, 51, 23, 85, 5]
  length_signature := rfl

/-- Granted from 1100 on, when it is asked for at 1000. -/
def early : Signing where
  grant := ⟨1, 1000, 1100, 1400⟩
  digest :=
    [3, 112, 204, 13, 108, 225, 251, 96, 158, 7, 205, 118, 66, 12, 229, 140, 253, 153, 150, 226, 253,
     142, 10, 41, 185, 51, 213, 157, 216, 207, 164, 48]
  signature :=
    [2, 255, 184, 149, 50, 106, 30, 234, 120, 192, 105, 204, 6, 106, 116, 47, 174, 152, 96, 156, 126,
     239, 180, 39, 62, 200, 224, 90, 210, 12, 47, 191, 122, 20, 33, 134, 209, 35, 16, 85, 174, 131,
     67, 138, 240, 111, 34, 74, 82, 243, 226, 27, 38, 142, 234, 55, 102, 114, 4, 65, 32, 140, 178, 6]
  length_signature := rfl

namespace Signing

variable (s : Signing)

def credential : Str :=
  b64urlEncode (body (headerValue header)) ++ '.'
    :: b64urlEncode (body (claimsValue (claims s.grant))) ++ '.' :: ['A', 'A']

def block : HttpResponseEvidenceBlock where
  profile := profileTag.toList
  serverSigner := ⟨"server".toList, ['t'], ['s'], kid⟩
  serverDelegation := some s.credential
  requestEvidence := evidence

def value : Json :=
  withBlock responseEvidenceBlockKey s.block.toValue [field "id" (.number ['1'])] []

def base : Bytes :=
  (signatureBase boundResponseComponents (profileParams none kid 1000 1300)
    (.response { response with headers := response.headers ++ [("Content-Digest".toList,
      sha256Member.toList ++ ':' :: Base64.encode Base64.standard s.digest ++ [':'])] }
      (sampleRequest []))).toOption.getD []

def signer : DelegatedSigningKey where
  sign m := if m = s.base then s.signature else List.replicate 64 0
  length_sign m := by
    split_ifs
    · exact s.length_signature
    · exact List.length_replicate
  publicKey := ⟨delegatedKey⟩

def root : Root := { grants s.grant.nbf s.grant.exp with fresh := s.signer }

def documents : List (Bytes × Json) :=
  [(response.body, .object [field "id" (.number ['1'])]), (body s.value, s.value)]

def platform : Platform :=
  { CustodySample.platform [s.grant] with
    sha256 := fun b =>
      if b = body s.value then toDigest s.digest else (CustodySample.platform []).sha256 b
    fromSlice := fun b => (s.documents.find? fun d => d.1 == b).map Prod.snd }

def serde : Serde := tableSerde s.documents

theorem carrier (htexts : (s.documents.map Prod.fst).Nodup) : Carrier s.platform s.serde := by
  refine carrier_tableSerde (fun _ => rfl) htexts ?_
  have hvalue : s.value.depth ≤ max (s.block.toValue.depth + 2) 1 := depth_withBlock_le rfl
  rw [HttpResponseEvidenceBlock.depth_toValue] at hvalue
  intro d hd
  rcases List.mem_cons.1 hd with rfl | hd
  · decide
  · rw [List.mem_singleton.1 hd]
    exact hvalue.trans (by decide)

end Signing

theorem response_signed_inside_credential_current :
    ∃ signed, ((new cfg : DelegatedSigningCustody current.platform).signResponse current.serde
        current.root 1000 response (sampleRequest []) evidence).1 = .ok signed ∧
      ∃ claims expires, SignedUnder current.platform (sampleRequest []) signed claims expires ∧
        (claims.nbf ≤ 1000 ∧ 1000 < claims.exp) ∧ 1000 < expires ∧ expires ≤ claims.exp := by
  have hrun : (current.documents.map Prod.fst).Nodup ∧
      ((new cfg : DelegatedSigningCustody current.platform).signResponse current.serde current.root
        1000 response (sampleRequest []) evidence).1.isOk = true ∧
      ((new cfg : DelegatedSigningCustody current.platform).signsWith current.root 1000).all
        (fun a => decide (a.nbf ≤ 1000)) = true := by decide +kernel
  obtain ⟨htexts, hok, hnbf⟩ := hrun
  obtain ⟨signed, hsigned⟩ := exists_of_isOk hok
  refine ⟨signed, hsigned, (response_signed_inside_credential (current.carrier htexts) _ _ _
    hsigned).2.2 ?_⟩
  intro a ha
  rw [ha, Option.all_some, decide_eq_true_eq] at hnbf
  exact hnbf

/-- The response is signed at 1000 under a credential that begins at 1100. -/
theorem response_signed_before_credential :
    ∃ signed, ((new cfg : DelegatedSigningCustody early.platform).signResponse early.serde
        early.root 1000 response (sampleRequest []) evidence).1 = .ok signed ∧
      (∃ claims expires, SignedUnder early.platform (sampleRequest []) signed claims expires) ∧
      ∀ claims expires, SignedUnder early.platform (sampleRequest []) signed claims expires →
        ¬(claims.nbf ≤ 1000 ∧ 1000 < claims.exp) := by
  have hrun : (early.documents.map Prod.fst).Nodup ∧
      ((new cfg : DelegatedSigningCustody early.platform).signResponse early.serde early.root
        1000 response (sampleRequest []) evidence).1.isOk = true ∧
      ((new cfg : DelegatedSigningCustody early.platform).signsWith early.root 1000).all
        (fun a => decide (1000 < a.nbf)) = true := by decide +kernel
  obtain ⟨htexts, hok, hnbf⟩ := hrun
  obtain ⟨signed, hsigned⟩ := exists_of_isOk hok
  obtain ⟨a, expires, hsigns, -, hunder, -, -⟩ :=
    signResponse_signedUnder (early.carrier htexts) hsigned
  refine ⟨signed, hsigned, ⟨a.claims, expires, hunder⟩, ?_⟩
  intro claims expires' hattached hwithin
  rw [hattached.claims_eq hunder] at hwithin
  rw [hsigns, Option.all_some, decide_eq_true_eq] at hnbf
  exact absurd hwithin.1 (not_le.2 hnbf)

end CustodySample

end McpRe.Http

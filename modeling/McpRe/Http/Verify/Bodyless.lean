import McpRe.Http.Bodyless
import McpRe.Http.Verify.BoundResponse

/-!
# One acknowledgement, one transmission

The header with the request's digest is covered by the signature of an acknowledgement, and the
verifier compares it with the digest it derives itself. So the acknowledgement that was signed for
one request is accepted only with a request that has the same signature base
(`acknowledges_one_transmission`), and a base says its components, their values and the parameters.
-/

namespace McpRe.Http

open Lib Lib.Result Lib.Text

/-! ## The covered digest -/

theorem encode_urlSafe_char {bs : Bytes} {c : Char} (h : c ∈ b64urlEncode bs) :
    isWhitespace c = false := by
  rcases Base64.mem_encode Base64.urlSafeNoPad h with rfl | ⟨i, rfl⟩
  · decide
  · exact (show ∀ i, isWhitespace (Base64.urlSafeNoPad.char i) = false by decide) i

theorem trim_b64urlEncode (bs : Bytes) : trim (b64urlEncode bs) = b64urlEncode bs := by
  apply trim_eq_self
  exact ⟨fun c hc => encode_urlSafe_char (List.mem_of_mem_head? hc),
    fun c hc => encode_urlSafe_char (List.mem_of_mem_getLast? hc)⟩

theorem digest_of_componentValue {response : HttpResponse} {request : HttpRequest} {bs : Bytes}
    {v : Str}
    (hheader : fieldValues response.headers mcpReRequestEvidenceHeader = [b64urlEncode bs])
    (h : componentValue ⟨.mcpReRequestEvidence, false⟩ (.response response request) = .ok v) :
    v = b64urlEncode bs := by
  obtain ⟨w, hw, rfl⟩ := fieldComponent_eq_ok.1 (componentValue_eq_ok.1 h).1
  have hsame : [w] = [b64urlEncode bs] := hw.symm.trans hheader
  rw [List.singleton_inj.1 hsame, trim_b64urlEncode]

/-! ## The two sides -/

theorem signDelegatedAccepted202_eq_ok {P : Platform} {request : HttpRequest}
    {serverDelegation delegatedKid : Str} {delegatedKey : SigningKey} {created expires : I64}
    {signed : HttpResponse}
    (h : signDelegatedAccepted202 P request serverDelegation delegatedKey delegatedKid created
      expires = .ok signed) :
    ∃ requestBase response components params base, requestBaseOf request = .ok requestBase ∧
      fieldValues response.headers mcpReRequestEvidenceHeader
        = [labeledDigestValue P evidenceLabelRequest requestBase] ∧
      signatureBase components params (.response response request) = .ok base ∧
      signatureValueB64url signed.headers "signature" responseLabel.toList
        = .ok (b64urlEncode (delegatedKey.sign base)) := by
  simp only [signDelegatedAccepted202, requestEvidenceHeader, requestEvidenceOf, emit, bind_eq_ok,
    Except.ok.injEq] at h
  obtain ⟨-, -, _, ⟨evidence, ⟨requestBase, hrequest, rfl⟩, rfl⟩, base, hbase, headers, hemit,
    rfl⟩ := h
  obtain ⟨sigBytes, value, hsig, -, -, hout⟩ := emitSignature_eq_ok hemit
  obtain rfl : sigBytes = delegatedKey.sign base := by
    simp only [localSig, b64urlDecode, b64urlEncode, Base64.decode_encode, okOr_eq_ok] at hsig
    exact (Option.some.inj hsig).symm
  exact ⟨requestBase, _, _, _, base, hrequest, rfl, hbase,
    hout.signatureValueB64url_eq isLabel_responseLabel _⟩

theorem verifyDelegatedAccepted202_eq_ok {P : Platform} {response : HttpResponse}
    {request : HttpRequest} {resolveActor : Resolver} {policy : VerifierPolicy}
    {expect : DelegationExpectations} {isRevoked : Str → Bool} {now : I64}
    {out : AcknowledgedDelegation}
    (h : verifyDelegatedAccepted202 P response request resolveActor policy expect isRevoked now
      = .ok out) :
    ∃ requestBase base sig, ∃ parsed : ParsedSignatureInput,
      requestBaseOf request = .ok requestBase ∧
      fieldValues response.headers mcpReRequestEvidenceHeader
        = [labeledDigestValue P evidenceLabelRequest requestBase] ∧
      (⟨.mcpReRequestEvidence, false⟩ : CoveredComponent) ∈ parsed.components ∧
      signatureBase parsed.components parsed.params (.response response request) = .ok base ∧
      signatureValueB64url response.headers "signature" responseLabel.toList = .ok sig ∧
      verifyEd25519With P base sig out.actor.verificationKey = true := by
  simp only [verifyDelegatedAccepted202, checkEnvelope, checkRequestEvidence, checkCoverage,
    requestEvidenceOf, bind_eq_ok, mapError_eq_ok, ensure_eq_ok, beq_iff_eq, requireComponents,
    requireAll_eq_ok, Except.ok.injEq, Prod.exists, Prod.mk.injEq, requiredHeader_eq_ok] at h
  obtain ⟨-, ⟨-, -, -, -, -, -, -, -, -, -, claimed, hclaimed, derived, ⟨requestBase, hrequest,
    rfl⟩, rfl⟩, credential, -, _, _, ⟨parsed, -, -, ⟨-, hplain, -⟩, -, -, checked, -, rfl, rfl⟩,
    verified, serverSigner, -, -, -, base, hbase, sig, hsig, _, hverify, rfl⟩ := h
  refine ⟨requestBase, base, sig, parsed, hrequest, hclaimed, hplain _ (by decide), hbase, hsig, ?_⟩
  cases halg : checked.algorithm
  rw [halg, verifyUnder, ensure_eq_ok] at hverify
  exact hverify

/-- **One acknowledgement, one transmission**: the signature that was made for `a` is accepted with
`b` only where the two requests have one signature base, and so the same covered components with the
same values and the same parameters, the nonce among them. -/
theorem acknowledges_one_transmission {P : Platform} {a b : HttpRequest}
    {signed received : HttpResponse} {serverDelegation delegatedKid : Str}
    {delegatedKey : SigningKey} {created expires now : I64} {resolveActor : Resolver}
    {policy : VerifierPolicy} {expect : DelegationExpectations} {isRevoked : Str → Bool}
    {out : AcknowledgedDelegation}
    (hsigned : signDelegatedAccepted202 P a serverDelegation delegatedKey delegatedKid created
      expires = .ok signed)
    (hcarried : signatureValueB64url received.headers "signature" responseLabel.toList
      = signatureValueB64url signed.headers "signature" responseLabel.toList)
    (haccepted : verifyDelegatedAccepted202 P received b resolveActor policy expect isRevoked now
      = .ok out)
    (hideal : ∀ m m', P.verifyStrict out.actor.verificationKey m' (delegatedKey.sign m) = true →
      m' = m)
    (hsha : Set.InjOn P.sha256 {preimage | ∃ request ∈ [a, b], ∃ base,
      requestBaseOf request = .ok base ∧ preimage = labeledPreimage evidenceLabelRequest base}) :
    ∃ base, requestBaseOf a = .ok base ∧ requestBaseOf b = .ok base ∧
      ∃ parsed parsed' : ParsedSignatureInput,
        parseSignatureInputFor a.headers requestLabel.toList "request signature-input"
          = .ok parsed ∧
        parseSignatureInputFor b.headers requestLabel.toList "request signature-input"
          = .ok parsed' ∧
        parsed.components = parsed'.components ∧
        (∀ c ∈ parsed.components, ∃ v, componentValue c (.request a) = .ok v ∧
          componentValue c (.request b) = .ok v) ∧
        parsed.params.nonce = parsed'.params.nonce ∧
        parsed.params.created = parsed'.params.created ∧
        parsed.params.expires = parsed'.params.expires := by
  obtain ⟨baseA, response, cs, params, base, hbaseA, hheaderA, hbase, hread⟩ :=
    signDelegatedAccepted202_eq_ok hsigned
  obtain ⟨baseB, base', sig, parsed, hbaseB, hheaderB, hcovered, hbase', hsig, hverify⟩ :=
    verifyDelegatedAccepted202_eq_ok haccepted
  -- the signature verifies over one base only
  have hsame : base' = base := by
    rw [hcarried, hread] at hsig
    cases hsig
    simp only [verifyEd25519With, b64urlDecode, b64urlEncode, Base64.decode_encode,
      Bool.and_eq_true] at hverify
    exact hideal base base' hverify.2
  rw [hsame] at hbase'
  obtain ⟨rfl, rfl, hvalues⟩ := signatureBase_injective hbase hbase'
  -- so the covered digest is that of both requests
  obtain ⟨v, hva, hvb⟩ := hvalues _ hcovered
  have hdigest := (digest_of_componentValue hheaderA hva).symm.trans
    (digest_of_componentValue hheaderB hvb)
  have hsha' : P.sha256 (labeledPreimage evidenceLabelRequest baseA)
      = P.sha256 (labeledPreimage evidenceLabelRequest baseB) :=
    Digest.ext_iff.2 (Base64.encode_injective Base64.urlSafeNoPad hdigest)
  obtain rfl : baseA = baseB := labeledPreimage_injective _
    (hsha ⟨a, by simp, baseA, hbaseA, rfl⟩ ⟨b, by simp, baseB, hbaseB, rfl⟩ hsha')
  refine ⟨baseA, hbaseA, hbaseB, ?_⟩
  simp only [requestBaseOf, bind_eq_ok] at hbaseA hbaseB
  obtain ⟨parsedA, hparsedA, hbaseA⟩ := hbaseA
  obtain ⟨parsedB, hparsedB, hbaseB⟩ := hbaseB
  obtain ⟨hcomponents, hparams, hequal⟩ := signatureBase_injective hbaseA hbaseB
  exact ⟨parsedA, parsedB, hparsedA, hparsedB, hcomponents, hequal, by rw [hparams],
    by rw [hparams], by rw [hparams]⟩

/-! ## An acknowledgement of the first request

Digest, key and signature are the real ones. -/

namespace Acknowledgement

open TwoHops

def emptyDigest : Bytes :=
  [227, 176, 196, 66, 152, 252, 28, 20, 154, 251, 244, 200, 153, 111, 185, 36, 39, 174, 65, 228,
    100, 155, 147, 76, 164, 149, 153, 27, 120, 82, 184, 85]

def ackSignature : Bytes :=
  [128, 108, 205, 85, 186, 69, 191, 84, 201, 102, 99, 80, 94, 61, 73, 26, 189, 205, 198, 144, 60,
    63, 20, 200, 106, 110, 39, 188, 239, 230, 32, 252, 167, 144, 45, 60, 247, 177, 53, 105, 188, 33,
    153, 118, 176, 120, 53, 98, 108, 254, 65, 11, 28, 148, 223, 151, 227, 160, 145, 47, 125, 247,
    85, 14]

def request : HttpRequest := first.hop.request

def traced : HttpRequest :=
  { request with headers := request.headers ++ [("X-Trace".toList, ['7'])] }

def acknowledgement : HttpResponse where
  status := 202
  headers := [("Content-Digest".toList,
      sha256Member.toList ++ ':' :: Base64.encode Base64.standard emptyDigest ++ [':']),
    ("mcp-re-delegation".toList, credential),
    ("mcp-re-request-evidence".toList, b64urlEncode firstRequest)]
  body := []

def base : Bytes :=
  (signatureBase ((bodylessDelegatedResponseComponents.map fun n => ⟨n, false⟩)
    ++ requiredResponseReqComponents.map fun n => ⟨n, true⟩)
    (profileParams none ['d'] 110 210) (.response acknowledgement request)).toOption.getD []

def key : SigningKey where
  sign m := if m = base then ackSignature else List.replicate 64 0
  length_sign m := by
    split_ifs
    · rfl
    · exact List.length_replicate

def platform : Platform :=
  { TwoHops.platform with
    sha256 := fun b => if b = [] then toDigest emptyDigest else TwoHops.platform.sha256 b
    verifyStrict := fun key preimage signature =>
      [(rootKey, utf8 signingInput, credentialSignature),
        (delegatedKey, base, ackSignature)].contains (key.bytes, preimage, signature) }

def received (signed : HttpResponse) : HttpResponse :=
  { signed with headers := ("X-Via".toList, ['p']) :: signed.headers }

def verify (signed : HttpResponse) : Verdict AcknowledgedDelegation :=
  verifyDelegatedAccepted202 platform (received signed) traced verification.verifier.resolveActor
    .default verification.expect verification.isRevoked 150

theorem key_ideal (k : VerificationKey) (m m' : Bytes)
    (h : platform.verifyStrict k m' (key.sign m) = true) : m' = m := by
  have hzero : ackSignature ≠ List.replicate 64 0 := by decide
  have hzero' : credentialSignature ≠ List.replicate 64 0 := by decide
  have hother : credentialSignature ≠ ackSignature := by decide
  simp only [platform, key, List.contains_eq_mem, List.mem_cons, Prod.mk.injEq, List.not_mem_nil,
    or_false, decide_eq_true_eq] at h
  split_ifs at h with hm
  · rcases h with ⟨-, -, hsig⟩ | ⟨-, hbase, -⟩
    · exact absurd hsig.symm hother
    · exact hbase.trans hm.symm
  · rcases h with ⟨-, -, hsig⟩ | ⟨-, -, hsig⟩
    · exact absurd hsig.symm hzero'
    · exact absurd hsig.symm hzero

theorem acknowledges_one_transmission_traced :
    ∃ signed out, signDelegatedAccepted202 platform request credential key ['d'] 110 210
        = .ok signed ∧ verify signed = .ok out ∧
      ∃ base, requestBaseOf request = .ok base ∧ requestBaseOf traced = .ok base := by
  obtain ⟨hrun, hsame⟩ : (match signDelegatedAccepted202 platform request credential key ['d'] 110
      210 with
      | .ok signed => (verify signed).isOk &&
        decide (signatureValueB64url (received signed).headers "signature" responseLabel.toList
          = signatureValueB64url signed.headers "signature" responseLabel.toList)
      | .error _ => false) = true ∧ requestBaseOf request = requestBaseOf traced := by
    decide +kernel
  split at hrun
  next signed hsigned =>
    rw [Bool.and_eq_true, decide_eq_true_eq] at hrun
    obtain ⟨out, hout⟩ := exists_of_isOk hrun.1
    have hinj : Set.InjOn platform.sha256 {preimage | ∃ r ∈ [request, traced], ∃ base,
        requestBaseOf r = .ok base ∧ preimage = labeledPreimage evidenceLabelRequest base} := by
      have hone : ∀ r ∈ [request, traced], requestBaseOf r = requestBaseOf request := by
        intro r hr
        rcases List.mem_cons.1 hr with rfl | hr
        · rfl
        · rw [List.mem_singleton.1 hr, hsame]
      rintro _ ⟨r, hr, b, hb, rfl⟩ _ ⟨r', hr', b', hb', rfl⟩ -
      rw [hone r hr] at hb
      rw [hone r' hr', hb] at hb'
      rw [Except.ok.inj hb']
    obtain ⟨base, hbase, hbase', -⟩ := acknowledges_one_transmission hsigned hrun.2 hout
      (key_ideal _) hinj
    exact ⟨signed, out, hsigned, hout, base, hbase, hbase'⟩
  next => cases hrun

end Acknowledgement

end McpRe.Http

import McpRe.Http.Verify.ChainVerdict

/-!
# Continuations of a complete chain

`link_to_predecessor` compares a continuation's two handles with those of the hop before it, where
the serving path runs `HttpContinuation::verify` on the bases. On a complete chain the two agree on
the handles, and they part on the continuation type, which only the serving path reads
(`complete_chain_continuations_verify`).
-/

namespace McpRe.Http

open Lib Lib.Result Lib.Text Lib.Chain

/-- The signature base of a response as its own `Signature-Input` describes it. -/
def responseBaseOf (response : HttpResponse) (request : HttpRequest) : Verdict Bytes := do
  let parsed ← parseSignatureInputFor response.headers responseLabel.toList
    "response signature-input"
  signatureBase parsed.components parsed.params (.response response request)

def continuationOf (P : Platform) (request : HttpRequest) : Option HttpContinuation := do
  let block ← (extractMetaBlock P HttpRequestEvidenceBlock.read request.body
    requestEvidenceBlockKey "request evidence block").toOption
  block.continuation

/-- `verify` accepts the continuation's type and its two handles over the bases: what it answers is
then decided by the request state alone. -/
structure AcceptedLink (P : Platform) (c : HttpContinuation) (requestBase responseBase : Bytes) :
    Prop where
  request : c.previousRequestEvidence.matchesLabeled P evidenceLabelRequest requestBase = true
  response : c.inputRequiredResponseEvidence.matchesLabeled P evidenceLabelResponse responseBase
    = true
  verdict : ∀ requestState, c.verify P requestBase responseBase requestState =
    ensure (c.requestStateDigest.matchesLabeled P evidenceLabelRequestState requestState)
      .continuationBindingFailed

theorem acceptedLink_iff {P : Platform} {c : HttpContinuation} {requestBase responseBase : Bytes}
    (hrequest : c.previousRequestEvidence.matchesLabeled P evidenceLabelRequest requestBase = true)
    (hresponse : c.inputRequiredResponseEvidence.matchesLabeled P evidenceLabelResponse responseBase
      = true) :
    AcceptedLink P c requestBase responseBase ↔
      c.continuationType = continuationTypeMcpMrt.toList := by
  constructor
  · intro h
    by_contra hne
    have hverdict := h.verdict []
    have htype : (c.continuationType == continuationTypeMcpMrt.toList) = false := by simpa using hne
    rw [HttpContinuation.verify, htype] at hverdict
    cases hstate : c.requestStateDigest.matchesLabeled P evidenceLabelRequestState [] with
    | false =>
      rw [hstate] at hverdict
      cases hverdict
    | true =>
      rw [hstate] at hverdict
      cases hverdict
  · intro htype
    refine ⟨hrequest, hresponse, ?_⟩
    intro requestState
    simp [HttpContinuation.verify, htype, hrequest, hresponse, ensure]

section

variable {P : Platform} {V : ChainVerification}

/-! ## What a verified hop's evidence commits to -/

theorem VerifiedHop.continuationOf_eq (v : VerifiedHop P V) :
    continuationOf P v.hop.request = v.continuation := by
  obtain ⟨-, -, -, block, -, hblock, -, hcontinuation⟩ := v.request_checked
  simp [continuationOf, hblock, hcontinuation, Except.toOption]

theorem VerifiedHop.request_base (v : VerifiedHop P V) :
    ∃ base, requestBaseOf v.hop.request = .ok base ∧
      v.evidence.requestEvidence = .fromSignatureBase P base := by
  obtain ⟨_, _, out, _, hacc, -, hevidence, -⟩ := v.request_checked
  exact ⟨_, hacc.requestBaseOf_eq, hevidence⟩

theorem delegatedBoundResponse_base {response : HttpResponse} {request : HttpRequest}
    {resolveActor : Resolver} {policy : VerifierPolicy} {expect : DelegationExpectations}
    {isRevoked : Str → Bool} {now : I64} {out : VerifiedDelegatedMcpResponse}
    (h : delegatedBoundResponse P response request resolveActor policy expect isRevoked now
      = .ok out) :
    ∃ base, responseBaseOf response request = .ok base ∧
      out.signatureFacts.responseSignatureBaseDigest = .fromResponseSignatureBase P base := by
  simp only [delegatedBoundResponse, openResponse, bind_eq_ok, Except.ok.injEq] at h
  obtain ⟨parsed, ⟨_, -, _, -, _, -, _, -, hparsed⟩, _, -, _, -, _, -, _, -, _, -, _, -, _, -, base,
    hbase, _, -, _, -, _, -, _, -, rfl⟩ := h
  refine ⟨base, ?_, rfl⟩
  rw [responseBaseOf, hparsed, ok_bind, hbase]

theorem VerifiedHop.response_base (v : VerifiedHop P V) :
    ∃ base, responseBaseOf v.hop.response v.hop.request = .ok base ∧
      v.evidence.responseEvidence = .fromResponseSignatureBase P base := by
  have h := v.verified
  simp only [hopFacts, bind_eq_ok, mapError_eq_ok, Except.ok.injEq, Prod.exists,
    Prod.mk.injEq] at h
  obtain ⟨_, _, -, _, _, -, rsp, hrsp, hevidence, -⟩ := h
  obtain ⟨base, hbase, hdigest⟩ := delegatedBoundResponse_base hrsp
  exact ⟨base, hbase, by rw [← hevidence, ← hdigest]⟩

/-! ## The continuations of a complete chain -/

variable (P) in
/-- The continuation of `hop` is accepted over the bases of `prev`. -/
def ContinuationVerifies (prev hop : RetainedHop) : Prop :=
  ∃ c requestBase responseBase, continuationOf P hop.request = some c ∧
    requestBaseOf prev.request = .ok requestBase ∧
    responseBaseOf prev.response prev.request = .ok responseBase ∧
    AcceptedLink P c requestBase responseBase

/-- A hop that points back at another carries a continuation, and `verify` accepts it over the
other's bases exactly when it has the type of the profile. -/
theorem continuationVerifies_iff {v w : VerifiedHop P V} (hback : v.back = some w.evidence) :
    ∃ c, continuationOf P v.hop.request = some c ∧
      (ContinuationVerifies P w.hop v.hop ↔
        c.continuationType = continuationTypeMcpMrt.toList) := by
  obtain ⟨c, hc, hevidence⟩ := Option.map_eq_some_iff.1 hback
  obtain ⟨requestBase, hrb, hrequest⟩ := w.request_base
  obtain ⟨responseBase, hsb, hresponse⟩ := w.response_base
  have hcont : continuationOf P v.hop.request = some c := v.continuationOf_eq.trans hc
  rw [← hevidence] at hrequest hresponse
  have hlink : AcceptedLink P c requestBase responseBase ↔
      c.continuationType = continuationTypeMcpMrt.toList := by
    apply acceptedLink_iff
    · rw [show c.previousRequestEvidence = _ from hrequest]
      exact RequestEvidence.matchesLabeled_overLabeled _ _ _
    · rw [show c.inputRequiredResponseEvidence = _ from hresponse]
      exact RequestEvidence.matchesLabeled_overLabeled _ _ _
  refine ⟨c, hcont, ?_⟩
  rw [← hlink]
  constructor
  · rintro ⟨c', rb', sb', hc', hrb', hsb', haccepted⟩
    rw [hcont] at hc'
    rw [hrb] at hrb'
    rw [hsb] at hsb'
    cases hc'
    cases hrb'
    cases hsb'
    exact haccepted
  · intro haccepted
    exact ⟨c, requestBase, responseBase, hcont, hrb, hsb, haccepted⟩

theorem exists_back_of_complete {hops : List RetainedHop}
    (hcomplete : (reconstructChain P V hops).label = .complete) {i : Nat} {prev hop : RetainedHop}
    (hprev : hops[i]? = some prev) (hhop : hops[i + 1]? = some hop) :
    ∃ v w : VerifiedHop P V, v.hop = hop ∧ w.hop = prev ∧ v.back = some w.evidence := by
  have hne : hops ≠ [] := by
    rintro rfl
    cases hprev
  have hanswer := answers_reconstructChain (P := P) (V := V) hne
  rw [hcomplete] at hanswer
  cases hanswer with
  | complete hholds _ =>
    obtain ⟨hlt, -⟩ := List.getElem?_eq_some_iff.1 hhop
    obtain ⟨v, hv, ⟨w, hw, hback⟩, -⟩ := hholds (i + 1) hlt
    rw [hhop] at hv
    rw [hprev] at hw
    exact ⟨v, w, (Option.some.inj hv).symm, (Option.some.inj hw).symm, hback⟩

/-- **Where a complete chain is what the serving path accepts**: exactly where every continuation
after the first hop has the type of the profile. -/
theorem complete_chain_continuations_verify {hops : List RetainedHop}
    (hcomplete : (reconstructChain P V hops).label = .complete) :
    (∀ i prev hop, hops[i]? = some prev → hops[i + 1]? = some hop →
      ContinuationVerifies P prev hop) ↔
    ∀ i hop c, hops[i + 1]? = some hop → continuationOf P hop.request = some c →
      c.continuationType = continuationTypeMcpMrt.toList := by
  constructor
  · intro hall i hop c hhop hc
    obtain ⟨prev, hprev⟩ : ∃ prev, hops[i]? = some prev := by
      obtain ⟨hlt, -⟩ := List.getElem?_eq_some_iff.1 hhop
      exact ⟨_, List.getElem?_eq_getElem (Nat.lt_of_succ_lt hlt)⟩
    obtain ⟨v, w, rfl, rfl, hback⟩ := exists_back_of_complete hcomplete hprev hhop
    obtain ⟨c', hc', hiff⟩ := continuationVerifies_iff hback
    rw [hc] at hc'
    cases hc'
    exact hiff.1 (hall i _ _ hprev hhop)
  · intro htypes i prev hop hprev hhop
    obtain ⟨v, w, rfl, rfl, hback⟩ := exists_back_of_complete hcomplete hprev hhop
    obtain ⟨c, hc, hiff⟩ := continuationVerifies_iff hback
    exact hiff.2 (htypes i _ c hhop hc)

end

/-! The chain of two hops, with a continuation of another type in the second. -/

namespace TwoHops

def retypedRequest : Bytes :=
  [24, 33, 208, 5, 133, 62, 121, 94, 156, 4, 183, 28, 182, 230, 132, 159, 37, 4, 244, 28, 181, 110,
   228, 80, 86, 2, 80, 121, 187, 228, 184, 59]

def retyped : Seed where
  requestBody := requestJson [field "continuation" (.object [field "type" (str "other"),
    field "previous_request_evidence" (digestJson firstRequest),
    field "input_required_response_evidence" (digestJson firstResponse),
    field "request_state_digest" (digestJson stateDigest)])]
  requestAt := 150
  requestDigest :=
    [139, 172, 60, 18, 87, 161, 124, 182, 10, 144, 28, 58, 154, 29, 3, 228, 143, 199, 80, 121, 159,
     152, 72, 176, 196, 249, 244, 56, 149, 75, 12, 5]
  requestSignature :=
    [120, 223, 7, 221, 70, 49, 128, 194, 107, 59, 135, 228, 117, 160, 113, 187, 146, 160, 157, 103,
     61, 1, 14, 73, 5, 220, 1, 36, 16, 108, 95, 247, 186, 217, 129, 157, 161, 92, 137, 170, 82, 22,
     207, 192, 5, 188, 185, 46, 15, 46, 216, 116, 143, 48, 61, 248, 90, 221, 164, 19, 112, 233, 24,
     5]
  requestHandle := retypedRequest
  responseBody := responseJson completeResultType retypedRequest
  responseDigest :=
    [251, 206, 180, 66, 27, 167, 191, 66, 181, 112, 52, 70, 168, 174, 216, 124, 205, 162, 159, 79,
     194, 177, 180, 252, 235, 98, 132, 198, 169, 104, 176, 85]
  responseSignature :=
    [209, 8, 141, 119, 115, 136, 137, 148, 207, 147, 236, 149, 51, 15, 10, 145, 157, 52, 17, 121,
     217, 80, 25, 22, 215, 245, 51, 125, 249, 31, 172, 92, 244, 140, 188, 173, 34, 35, 5, 231, 12,
     81, 85, 224, 45, 91, 180, 244, 135, 96, 109, 170, 164, 81, 136, 22, 11, 109, 193, 0, 128, 21,
     84, 10]
  responseHandle :=
    [242, 229, 24, 29, 166, 246, 151, 74, 25, 16, 127, 123, 247, 23, 241, 22, 205, 131, 127, 190,
     60, 135, 62, 118, 216, 123, 153, 84, 73, 183, 221, 195]

def retypedPlatform : Platform := platformOf [first, retyped]
  [17, 197, 168, 187, 145, 62, 119, 69, 112, 149, 3, 59, 249, 110, 171, 146, 101, 150, 97, 39, 216,
   5, 35, 177, 12, 25, 62, 146, 17, 250, 169, 248]

theorem retyped_evaluated :
    (reconstructChain retypedPlatform verification [first.hop, retyped.hop]).label = .complete ∧
      (continuationOf retypedPlatform retyped.hop.request).map HttpContinuation.continuationType
        = some "other".toList := by
  decide +kernel

theorem retyped_complete :
    (reconstructChain retypedPlatform verification [first.hop, retyped.hop]).label = .complete :=
  retyped_evaluated.1

theorem retyped_continuation :
    (continuationOf retypedPlatform retyped.hop.request).map HttpContinuation.continuationType
      = some "other".toList :=
  retyped_evaluated.2

theorem retyped_type {c : HttpContinuation}
    (hc : continuationOf retypedPlatform retyped.hop.request = some c) :
    c.continuationType ≠ continuationTypeMcpMrt.toList := by
  have htype := retyped_continuation
  rw [hc] at htype
  rw [Option.some.inj htype]
  decide

theorem complete_chain_continuations_verify_retyped :
    (reconstructChain retypedPlatform verification [first.hop, retyped.hop]).label = .complete ∧
      ¬∀ i prev hop, [first.hop, retyped.hop][i]? = some prev →
        [first.hop, retyped.hop][i + 1]? = some hop →
        ContinuationVerifies retypedPlatform prev hop := by
  refine ⟨retyped_complete, ?_⟩
  intro hall
  obtain ⟨c, hc, -⟩ := Option.map_eq_some_iff.1 retyped_continuation
  exact retyped_type hc
    ((complete_chain_continuations_verify retyped_complete).1 hall 0 retyped.hop c rfl hc)

/-- The chain is complete, and `verify` refuses the type of its continuation whatever the request
state. -/
theorem complete_chain_with_refused_continuation :
    (reconstructChain retypedPlatform verification [first.hop, retyped.hop]).label = .complete ∧
      ¬ContinuationVerifies retypedPlatform first.hop retyped.hop ∧
      ∃ c, continuationOf retypedPlatform retyped.hop.request = some c ∧
        ∀ requestBase responseBase requestState,
          c.verify retypedPlatform requestBase responseBase requestState
            = .error (malformed "continuation type") := by
  obtain ⟨c, hc, -⟩ := Option.map_eq_some_iff.1 retyped_continuation
  have hne := retyped_type hc
  refine ⟨retyped_complete, ?_, c, hc, ?_⟩
  · have hprev : [first.hop, retyped.hop][0]? = some first.hop := rfl
    have hhop : [first.hop, retyped.hop][0 + 1]? = some retyped.hop := rfl
    obtain ⟨v, w, hv, hw, hback⟩ := exists_back_of_complete retyped_complete hprev hhop
    obtain ⟨c', hc', hiff⟩ := continuationVerifies_iff hback
    rw [hv, hc] at hc'
    cases hc'
    rw [hv, hw] at hiff
    exact fun hverifies => hne (hiff.1 hverifies)
  · intro requestBase responseBase requestState
    have htype' : (c.continuationType == continuationTypeMcpMrt.toList) = false := by simpa using hne
    rw [HttpContinuation.verify, htype']
    rfl

end TwoHops

end McpRe.Http

import McpRe.Http.Chain
import McpRe.Http.Verify.Floor
import McpRe.Lib.Chain

/-!
# Complete chains

`reconstructChain_complete`: a list of hops is labelled complete exactly when it is not empty, every
hop verifies, and the verified hops are linked and shaped. From it and the linked chains of
`Lib.Chain`, a complete chain can neither lose a hop nor have its hops reordered
(`no_omission_or_reordering`).
-/

namespace McpRe.Http

open Lib Lib.Result Lib.Text Lib.Chain

/-! ## The parts of a hop's verdict -/

section

variable {P : Platform} {V : ChainVerification}

variable (P V) in
/-- What `verify_hop` establishes about a hop wherever it stands: its evidence, and the continuation
its request carries. -/
def hopFacts (hop : RetainedHop) :
    Except IncompleteReason (HopEvidence × Option HttpContinuation) := do
  let (requestAt, responseAt) ← V.instants hop
  let (requestEvidence, block) ← V.verifyRequest P hop requestAt
  let verifiedRsp ← (delegatedBoundResponse P hop.response hop.request V.verifier.resolveActor
    V.verifier.policy V.expect V.isRevoked responseAt).mapError .responseUnverifiable
  .ok (⟨requestEvidence, verifiedRsp.signatureFacts.responseSignatureBaseDigest⟩,
    block.continuation)

theorem verifyHop_eq_ok {hop : RetainedHop} {position : HopPosition} {e : HopEvidence} :
    V.verifyHop P hop position = .ok e ↔
      ∃ c, hopFacts P V hop = .ok (e, c) ∧ linkToPredecessor position c = .ok () ∧
        checkChainShape P position.isLast hop.response.body = .ok () := by
  simp only [ChainVerification.verifyHop, hopFacts, bind_eq_ok, Except.ok.injEq, Prod.mk.injEq,
    Prod.exists]
  constructor
  · rintro ⟨a, b, hat, r, block, hreq, rsp, hrsp, u, hlink, u', hshape, rfl⟩
    exact ⟨_, ⟨a, b, hat, r, block, hreq, rsp, hrsp, rfl, rfl⟩, hlink, hshape⟩
  · rintro ⟨c, ⟨a, b, hat, r, block, hreq, rsp, hrsp, rfl, rfl⟩, hlink, hshape⟩
    exact ⟨a, b, hat, r, block, hreq, rsp, hrsp, (), hlink, (), hshape, rfl⟩

/-- The evidence a continuation names. -/
def HttpContinuation.evidence (c : HttpContinuation) : HopEvidence :=
  ⟨c.previousRequestEvidence, c.inputRequiredResponseEvidence⟩

/-- Where only the first position has no predecessor, a continuation links exactly when it names
the predecessor's evidence. -/
theorem linkToPredecessor_eq_ok {position : HopPosition} {c : Option HttpContinuation} {u : Unit}
    (hfirst : position.index = 0 ↔ position.previous = none) :
    linkToPredecessor position c = .ok u ↔ c.map HttpContinuation.evidence = position.previous := by
  obtain ⟨index, previous, isLast⟩ := position
  cases index with
  | zero =>
    obtain rfl : previous = none := hfirst.1 rfl
    cases c <;> simp [linkToPredecessor]
  | succ i =>
    cases previous with
    | none => simp at hfirst
    | some prev =>
      obtain ⟨⟨alg, value⟩, ⟨alg', value'⟩⟩ := prev
      cases c with
      | none => simp [linkToPredecessor]
      | some c =>
        simp only [linkToPredecessor, ensure_eq_ok, Bool.and_eq_true, beq_iff_eq, Option.map_some,
          HttpContinuation.evidence, Option.some.injEq, HopEvidence.mk.injEq]
        obtain ⟨_, ⟨a, v⟩, ⟨a', v'⟩, _⟩ := c
        simp only [RequestEvidence.mk.injEq]
        tauto

theorem checkChainShape_eq_ok {isLast : Bool} {body : Bytes} {u : Unit} :
    checkChainShape P isLast body = .ok u ↔
      classifyVerifiedResponse P body = if isLast then .terminal else .inputRequired := by
  cases isLast <;> cases h : classifyVerifiedResponse P body <;> simp [checkChainShape, h]

end

/-! ## Verified hops -/

/-- A hop that verifies, with what that establishes. -/
structure VerifiedHop (P : Platform) (V : ChainVerification) where
  hop : RetainedHop
  evidence : HopEvidence
  continuation : Option HttpContinuation
  verified : hopFacts P V hop = .ok (evidence, continuation)

namespace VerifiedHop

variable {P : Platform} {V : ChainVerification}

def back (v : VerifiedHop P V) : Option HopEvidence :=
  v.continuation.map HttpContinuation.evidence

def outcome (v : VerifiedHop P V) : HopOutcome := classifyVerifiedResponse P v.hop.response.body

def EndsInputRequired (v : VerifiedHop P V) : Prop := v.outcome = .inputRequired

def EndsTerminal (v : VerifiedHop P V) : Prop := v.outcome = .terminal

theorem hop_injective : Function.Injective (hop : VerifiedHop P V → RetainedHop) := by
  rintro ⟨hop, e, c, h⟩ ⟨hop', e', c', h'⟩ rfl
  rw [h] at h'
  cases h'
  rfl

end VerifiedHop

/-- What a list of verified hops must be for the chain to be complete. -/
structure CompleteFrom {P : Platform} {V : ChainVerification} (p : Option HopEvidence)
    (l : List (VerifiedHop P V)) : Prop where
  linked : LinkedFrom VerifiedHop.evidence VerifiedHop.back p l
  shaped : Shaped VerifiedHop.EndsInputRequired VerifiedHop.EndsTerminal l

/-! ## When a chain is complete -/

section

variable {P : Platform} {V : ChainVerification}

theorem completeFrom_nil (p : Option HopEvidence) :
    CompleteFrom p ([] : List (VerifiedHop P V)) :=
  ⟨trivial, trivial⟩

theorem completeFrom_cons {p : Option HopEvidence} {v : VerifiedHop P V}
    {l : List (VerifiedHop P V)} :
    CompleteFrom p (v :: l) ↔
      v.back = p ∧ v.outcome = (if l.isEmpty then .terminal else .inputRequired) ∧
        CompleteFrom (some v.evidence) l := by
  cases l with
  | nil =>
    constructor
    · rintro ⟨⟨hback, -⟩, hlast⟩
      exact ⟨hback, hlast, completeFrom_nil _⟩
    · rintro ⟨hback, hlast, -⟩
      exact ⟨⟨hback, trivial⟩, hlast⟩
  | cons w l =>
    constructor
    · rintro ⟨⟨hback, hlinked⟩, hmid, hshaped⟩
      exact ⟨hback, hmid, hlinked, hshaped⟩
    · rintro ⟨hback, hmid, hlinked, hshaped⟩
      exact ⟨⟨hback, hlinked⟩, hmid, hshaped⟩

/-- One turn of the loop: the hop verifies at its position exactly when it is a verified hop that
points back at the evidence before it and ends as its position asks. -/
theorem verifyHop_turn {hop : RetainedHop} {evidence : List HopEvidence} {last : Bool}
    {e : HopEvidence} :
    V.verifyHop P hop ⟨evidence.length, evidence.getLast?, last⟩ = .ok e ↔
      ∃ v : VerifiedHop P V, v.hop = hop ∧ v.evidence = e ∧ v.back = evidence.getLast? ∧
        v.outcome = if last then .terminal else .inputRequired := by
  have hfirst : evidence.length = 0 ↔ evidence.getLast? = none := by simp
  rw [verifyHop_eq_ok]
  constructor
  · rintro ⟨c, hfacts, hlink, hshape⟩
    exact ⟨⟨hop, e, c, hfacts⟩, rfl, rfl, (linkToPredecessor_eq_ok hfirst).1 hlink,
      checkChainShape_eq_ok.1 hshape⟩
  · rintro ⟨v, rfl, rfl, hback, houtcome⟩
    exact ⟨v.continuation, v.verified, (linkToPredecessor_eq_ok hfirst).2 hback,
      checkChainShape_eq_ok.2 houtcome⟩

/-- The loop runs to the end exactly when the remaining hops are verified ones that carry on from
the evidence so far; it then adds theirs. -/
theorem reconstructFrom_eq_complete (evidence out : List HopEvidence) (hops : List RetainedHop) :
    reconstructFrom P V (evidence.length + hops.length) evidence.length evidence hops
        = (.complete, out) ↔
      ∃ l : List (VerifiedHop P V), l.map VerifiedHop.hop = hops ∧
        CompleteFrom evidence.getLast? l ∧ out = evidence ++ l.map VerifiedHop.evidence := by
  induction hops generalizing evidence with
  | nil =>
    rw [reconstructFrom]
    constructor
    · intro h
      cases h
      exact ⟨[], rfl, completeFrom_nil _, by simp⟩
    · rintro ⟨l, hmap, -, rfl⟩
      obtain rfl := List.map_eq_nil_iff.1 hmap
      simp
  | cons hop hops ih =>
    have hlast : decide (evidence.length + 1 = evidence.length + (hop :: hops).length)
        = hops.isEmpty := by
      cases hops <;> simp
    have hstep : ∀ e, reconstructFrom P V (evidence.length + (hop :: hops).length)
        (evidence.length + 1) (evidence ++ [e]) hops
        = reconstructFrom P V ((evidence ++ [e]).length + hops.length) (evidence ++ [e]).length
          (evidence ++ [e]) hops := by
      intro e
      simp only [List.length_append, List.length_cons, List.length_nil]
      congr 1
      omega
    rw [reconstructFrom, hlast]
    constructor
    · intro h
      cases hv : V.verifyHop P hop ⟨evidence.length, evidence.getLast?, hops.isEmpty⟩ with
      | error reason => simp [hv] at h
      | ok e =>
        simp only [hv, hstep, ih] at h
        obtain ⟨l, rfl, hl, rfl⟩ := h
        obtain ⟨v, rfl, rfl, hback, houtcome⟩ := verifyHop_turn.1 hv
        refine ⟨v :: l, rfl, completeFrom_cons.2 ⟨hback, ?_, by simpa using hl⟩, by simp⟩
        simpa using houtcome
    · rintro ⟨l, hmap, hl, rfl⟩
      cases l with
      | nil => cases hmap
      | cons v l =>
        obtain ⟨rfl, rfl⟩ := List.cons_eq_cons.1 hmap
        obtain ⟨hback, houtcome, hrest⟩ := completeFrom_cons.1 hl
        have hv : V.verifyHop P v.hop
            ⟨evidence.length, evidence.getLast?, (l.map VerifiedHop.hop).isEmpty⟩
            = .ok v.evidence :=
          verifyHop_turn.2 ⟨v, rfl, rfl, hback, by simpa using houtcome⟩
        simp only [hv, hstep]
        exact (ih _).2 ⟨l, rfl, by simpa using hrest, by simp⟩

end

/-- **When a chain is complete**: it has hops, and they are verified ones, the first pointing at
nothing, each later one at the evidence before it, with only the last response terminal. -/
theorem reconstructChain_complete {P : Platform} {V : ChainVerification}
    {hops : List RetainedHop} :
    (reconstructChain P V hops).label = .complete ↔
      hops ≠ [] ∧ ∃ l : List (VerifiedHop P V), l.map VerifiedHop.hop = hops ∧
        CompleteFrom none l := by
  have hloop : ∀ out, reconstructFrom P V hops.length 0 [] hops = (.complete, out) ↔
      ∃ l : List (VerifiedHop P V), l.map VerifiedHop.hop = hops ∧ CompleteFrom none l ∧
        out = l.map VerifiedHop.evidence := by
    intro out
    simpa using reconstructFrom_eq_complete [] out hops
  cases hops with
  | nil => simp [reconstructChain]
  | cons hop hops =>
    simp only [reconstructChain, List.isEmpty_cons, Bool.false_eq_true, if_false]
    constructor
    · intro h
      obtain ⟨l, hmap, hl, -⟩ := (hloop _).1 (Prod.ext h rfl)
      exact ⟨List.cons_ne_nil hop hops, l, hmap, hl⟩
    · rintro ⟨-, l, hmap, hl⟩
      rw [(hloop _).2 ⟨l, hmap, hl, rfl⟩]

/-! ## A handle fixes what it points back at -/

section

variable {P : Platform} {V : ChainVerification}

theorem VerifiedHop.request_checked (v : VerifiedHop P V) :
    ∃ at_ parsed out block,
      FloorAccepted P v.hop.request V.verifier.policy at_ parsed out ∧
      extractMetaBlock P HttpRequestEvidenceBlock.read v.hop.request.body requestEvidenceBlockKey
        "request evidence block" = .ok block ∧
      v.evidence.requestEvidence = .fromSignatureBase P out.requestSignatureBase ∧
      v.continuation = block.continuation := by
  have h := v.verified
  simp only [hopFacts, ChainVerification.verifyRequest, ChainVerification.checkRequest, bind_eq_ok,
    mapError_eq_ok, Except.ok.injEq, Prod.exists, Prod.mk.injEq] at h
  obtain ⟨at_, -, -, evidence, block, ⟨out, hfloor, block', hblock, -, -, -, -, rfl, rfl⟩, _, -,
    hevidence, hcontinuation⟩ := h
  obtain ⟨parsed, hacc⟩ := floorRequest_eq_ok hfloor
  refine ⟨at_, parsed, out, block', hacc, hblock, ?_, hcontinuation.symm⟩
  rw [← hevidence]
  exact hacc.evidence

theorem FloorAccepted.requestBaseOf_eq {r : HttpRequest} {policy : VerifierPolicy} {now : I64}
    {parsed : ParsedSignatureInput} {out : CryptographicFloorVerifiedRequest}
    (h : FloorAccepted P r policy now parsed out) :
    requestBaseOf r = .ok out.requestSignatureBase := by
  have hinput := h.input
  simp only [requestSignatureInput, bind_eq_ok] at hinput
  obtain ⟨header, hheader, value, hvalue, hparse⟩ := hinput
  simp only [requestBaseOf, parseSignatureInputFor, bind_eq_ok, mapError_eq_ok]
  exact ⟨parsed, ⟨header, hheader, value, hvalue, hparse⟩, h.base⟩

end

/-- The inputs of the hash that the linkage of the hops rests on: the bodies, behind the content
digest, and the preimages of the request handles. -/
def linkageInputs (hops : List RetainedHop) : Set Bytes :=
  {b | ∃ hop ∈ hops, b = hop.request.body ∨
    ∃ base, requestBaseOf hop.request = .ok base ∧ b = labeledPreimage evidenceLabelRequest base}

theorem fixed_of_injOn {P : Platform} {V : ChainVerification} {l : List (VerifiedHop P V)}
    (hsha : Set.InjOn P.sha256 (linkageInputs (l.map VerifiedHop.hop))) :
    Fixed VerifiedHop.evidence VerifiedHop.back l := by
  intro v hv w hw heq
  obtain ⟨atv, pv, ov, bv, hav, hblockv, hev, hcv⟩ := v.request_checked
  obtain ⟨atw, pw, ow, bw, haw, hblockw, hew, hcw⟩ := w.request_checked
  have hmem : ∀ x ∈ l, x.hop ∈ l.map VerifiedHop.hop := fun x hx => List.mem_map_of_mem hx
  -- equal handles: one base
  have hbase : ov.requestSignatureBase = ow.requestSignatureBase := by
    have hdigest := overLabeled_inj (hev.symm.trans ((congrArg _ heq).trans hew))
    refine labeledPreimage_injective _ (hsha ?_ ?_ hdigest)
    · exact ⟨v.hop, hmem v hv, .inr ⟨_, hav.requestBaseOf_eq, rfl⟩⟩
    · exact ⟨w.hop, hmem w hw, .inr ⟨_, haw.requestBaseOf_eq, rfl⟩⟩
  -- one base: one body, which holds the block with the continuation
  have hbody : v.hop.request.body = w.hop.request.body := by
    refine hav.body_eq (hsha.mono ?_) haw hbase
    rintro b (rfl | rfl)
    · exact ⟨v.hop, hmem v hv, .inl rfl⟩
    · exact ⟨w.hop, hmem w hw, .inl rfl⟩
  rw [hbody, hblockw] at hblockv
  cases hblockv
  rw [VerifiedHop.back, VerifiedHop.back, hcv, hcw]

/-! ## Omission and reordering -/

section

variable {P : Platform} {V : ChainVerification} {hops : List RetainedHop}

theorem nodup_of_complete (hsha : Set.InjOn P.sha256 (linkageInputs hops))
    (hcomplete : (reconstructChain P V hops).label = .complete) : hops.Nodup := by
  obtain ⟨-, l, rfl, hl⟩ := reconstructChain_complete.1 hcomplete
  have hnodup : l.Nodup := Linked.nodup hl.linked (fixed_of_injOn hsha)
  exact hnodup.map VerifiedHop.hop_injective

theorem eq_of_complete_of_subset (hsha : Set.InjOn P.sha256 (linkageInputs hops))
    (hcomplete : (reconstructChain P V hops).label = .complete) {hops' : List RetainedHop}
    (hcomplete' : (reconstructChain P V hops').label = .complete) (hsub : hops' ⊆ hops) :
    hops' = hops := by
  obtain ⟨-, l, rfl, hl⟩ := reconstructChain_complete.1 hcomplete
  obtain ⟨hne, l', rfl, hl'⟩ := reconstructChain_complete.1 hcomplete'
  have hsub' : l' ⊆ l := by
    intro v hv
    obtain ⟨w, hw, heq⟩ := List.mem_map.1 (hsub (List.mem_map_of_mem hv))
    exact VerifiedHop.hop_injective heq ▸ hw
  have hends : ∀ v : VerifiedHop P V, v.EndsInputRequired → ¬v.EndsTerminal := by
    intro v hmid hlast
    cases hmid.symm.trans hlast
  have heq : l' = l :=
    Linked.eq_of_subset hends hl.linked (fixed_of_injOn hsha) hl.shaped hl'.linked hl'.shaped
      (fun hnil => hne (by rw [hnil]; rfl)) hsub'
  rw [heq]

/-- **No omission or reordering**: where the hash does not confuse the inputs the linkage rests on,
a complete chain is no longer complete after deleting hops from it, as long as some are left, or
after permuting them in any way that moves one. -/
theorem no_omission_or_reordering (hsha : Set.InjOn P.sha256 (linkageInputs hops))
    (hcomplete : (reconstructChain P V hops).label = .complete) :
    (∀ kept : List RetainedHop, kept.Sublist hops → kept ≠ [] → kept.length < hops.length →
      (reconstructChain P V kept).label ≠ .complete) ∧
    ∀ σ : Equiv.Perm (Fin hops.length), σ ≠ 1 →
      (reconstructChain P V (List.ofFn fun i => hops.get (σ i))).label ≠ .complete := by
  constructor
  · intro kept hkept _ hlt hcomplete'
    have heq := eq_of_complete_of_subset hsha hcomplete hcomplete' hkept.subset
    rw [heq] at hlt
    exact absurd hlt (lt_irrefl _)
  · intro σ hσ hcomplete'
    have heq : (List.ofFn fun i => hops.get (σ i)) = hops := by
      apply eq_of_complete_of_subset hsha hcomplete hcomplete'
      intro hop hmem
      obtain ⟨i, rfl⟩ := List.mem_ofFn.1 hmem
      exact List.get_mem hops (σ i)
    -- distinct hops: a permutation that gives back the list moves nothing
    have hget : ∀ i, hops.get (σ i) = hops.get i := by
      intro i
      have := congrFun (List.ofFn_injective (heq.trans (List.ofFn_get hops).symm)) i
      exact this
    refine hσ (Equiv.ext fun i => ?_)
    exact (List.nodup_iff_injective_get.1 (nodup_of_complete hsha hcomplete)) (hget i)

end

/-! ## A chain of two hops

The keys, digests and signatures are those of a real exchange of this shape. -/

namespace TwoHops

mutual

/-- The compact text of a value whose strings need no escape. -/
def text : Json → Str
  | .null => "null".toList
  | .bool b => (if b then "true" else "false").toList
  | .number n => n
  | .string s => '"' :: s ++ ['"']
  | .array items => '[' :: itemsText items ++ [']']
  | .object fields => Char.ofNat 123 :: fieldsText fields ++ [Char.ofNat 125]

def itemsText : List Json → Str
  | [] => []
  | [j] => text j
  | j :: js => text j ++ ',' :: itemsText js

def fieldsText : List (Str × Json) → Str
  | [] => []
  | [(k, j)] => '"' :: k ++ '"' :: ':' :: text j
  | (k, j) :: rest => '"' :: k ++ '"' :: ':' :: text j ++ ',' :: fieldsText rest

end

def body (j : Json) : Bytes := utf8 (text j)

def field (name : String) (value : Json) : Str × Json := (name.toList, value)

def str (s : String) : Json := .string s.toList

def clientKey : Bytes :=
  [215, 90, 152, 1, 130, 177, 10, 183, 213, 75, 254, 211, 201, 100, 7, 58, 14, 225, 114, 243, 218,
   166, 35, 37, 175, 2, 26, 104, 247, 7, 81, 26]

def rootKey : Bytes :=
  [61, 64, 23, 195, 232, 67, 137, 90, 146, 183, 10, 167, 77, 27, 126, 188, 156, 152, 44, 207, 46,
   196, 150, 140, 192, 205, 85, 241, 42, 244, 102, 12]

def delegatedKey : Bytes :=
  [252, 81, 205, 142, 98, 24, 161, 163, 141, 164, 126, 208, 2, 48, 240, 88, 8, 22, 237, 19, 186,
   51, 3, 172, 93, 235, 145, 21, 72, 144, 128, 37]

def certDigest : Bytes :=
  [75, 245, 18, 47, 52, 69, 84, 197, 59, 222, 46, 187, 140, 210, 183, 227, 209, 96, 10, 214, 49,
   195, 133, 165, 215, 204, 226, 60, 119, 133, 69, 154]

def stateDigest : Bytes :=
  [87, 138, 23, 219, 135, 95, 151, 241, 95, 67, 68, 134, 44, 172, 213, 135, 75, 150, 118, 89, 208,
   28, 38, 128, 0, 30, 80, 86, 51, 225, 8, 135]

def credentialSignature : Bytes :=
  [190, 215, 60, 82, 178, 104, 168, 222, 241, 198, 42, 113, 238, 67, 119, 59, 113, 146, 5, 82, 42,
   207, 201, 229, 126, 145, 121, 224, 22, 245, 187, 55, 131, 161, 13, 236, 206, 36, 120, 138, 88,
   101, 165, 252, 85, 33, 169, 110, 215, 253, 180, 24, 236, 53, 252, 198, 82, 132, 69, 167, 60,
   168, 188, 11]

/-! The bodies. -/

def digestJson (digest : Bytes) : Json :=
  .object [field "digest_alg" (str "sha256"), field "digest_value" (.string (b64urlEncode digest))]

def requestJson (continuation : List (Str × Json)) : Json :=
  .object [field "_meta" (.object [field requestEvidenceBlockKey (.object (
    field "profile" (str profileTag)
      :: field "audience" (.object [field "audience_id" (str "a"),
        field "target_uri" (str "https://a/b")])
      :: field "artifact_bindings" (.array [.object [field "artifact_type" (str "oauth-mtls"),
        field "binding_type" (str "opaque-digest"), field "digest_alg" (str "sha256"),
        field "digest_value" (.string (b64urlEncode certDigest))]])
      :: continuation))])]

def headerJson : Json :=
  .object [field "typ" (str delegationTyp), field "alg" (str delegationAlg), field "kid" (str "r")]

def claimsJson : Json :=
  .object [field "iss" (str "i"), field "iat" (.number "100".toList),
    field "nbf" (.number "100".toList), field "exp" (.number "400".toList), field "jti" (str "j"),
    field "aud" (str "v"), field "mcp_re_profile" (str profileTag),
    field "mcp_re_audience_hash" (str "h"), field "mcp_re_server_signer" (str "server:t:s:d"),
    field "mcp_re_key_use" (str keyUseResponseSigning), field "delegated_kid" (str "d"),
    field "issuer_kid" (str "r"), field "trust_epoch" (str "e"),
    field "cnf" (.object [field "jwk" (.object [field "kty" (str jwkKtyOkp),
      field "crv" (str jwkCrvEd25519), field "kid" (str "d"),
      field "x" (.string (b64urlEncode delegatedKey))])])]

def signingInput : Str :=
  b64urlEncode (body headerJson) ++ '.' :: b64urlEncode (body claimsJson)

def credential : Str := signingInput ++ '.' :: b64urlEncode credentialSignature

def responseJson (resultType : String) (requestHandle : Bytes) : Json :=
  .object [field "result" (.object [field "resultType" (str resultType)]),
    field "_meta" (.object [field responseEvidenceBlockKey (.object [
      field "profile" (str profileTag),
      field "server_signer" (.object [field "role" (str "server"), field "trust_domain" (str "t"),
        field "subject" (str "s"), field "keyid" (str "d")]),
      field "server_delegation" (.string credential),
      field "request_evidence" (digestJson requestHandle)])])]

/-! The messages. -/

/-- What a hop is made from: its bodies, the instant of its request, and the digests and signatures
of both messages. -/
structure Seed where
  requestBody : Json
  responseBody : Json
  requestAt : I64
  requestDigest : Bytes
  requestSignature : Bytes
  requestHandle : Bytes
  responseDigest : Bytes
  responseSignature : Bytes
  responseHandle : Bytes

def signedHeaders (label : String) (components : List CoveredComponent) (params : SignatureParams)
    (digest signature : Bytes) : Headers :=
  [("content-type".toList, jsonMediaType.toList),
    ("content-digest".toList,
      sha256Member.toList ++ ':' :: Base64.encode Base64.standard digest ++ [':']),
    ("signature-input".toList,
      label.toList ++ '=' :: (params.serializeWith components).toOption.getD []),
    ("signature".toList, label.toList ++ '=' :: ':' :: Base64.encode Base64.standard signature ++ [':'])]

def responseComponents : List CoveredComponent :=
  (requiredResponseComponents.map fun n => ⟨n, false⟩)
    ++ requiredResponseReqComponents.map fun n => ⟨n, true⟩

def window (created : I64) (nonce : Option Str) (keyid : Str) : SignatureParams :=
  ⟨some created, some (created.saturatingAdd 100), nonce, some keyid, some algEd25519.toList,
    some profileTag.toList⟩

def Seed.hop (s : Seed) : RetainedHop where
  request := {
    method := "POST".toList
    targetUri := "https://a/b".toList
    headers := signedHeaders requestLabel sampleComponents (window s.requestAt (some ['n']) ['c'])
      s.requestDigest s.requestSignature
    body := body s.requestBody }
  response := {
    status := 200
    headers := signedHeaders responseLabel responseComponents
      (window (s.requestAt.saturatingAdd 10) none ['d']) s.responseDigest s.responseSignature
    body := body s.responseBody }

def firstRequest : Bytes :=
  [188, 146, 114, 247, 48, 188, 65, 171, 102, 87, 200, 184, 240, 59, 241, 71, 42, 224, 118, 46, 56,
   212, 240, 155, 87, 85, 36, 160, 99, 162, 250, 103]

def firstResponse : Bytes :=
  [251, 2, 13, 82, 45, 191, 17, 179, 246, 187, 177, 29, 112, 77, 22, 101, 96, 246, 113, 90, 132,
   125, 60, 233, 203, 111, 28, 144, 60, 126, 199, 178]

def first : Seed where
  requestBody := requestJson []
  requestAt := 100
  requestDigest :=
    [25, 170, 104, 180, 64, 253, 13, 5, 61, 168, 110, 27, 179, 24, 137, 1, 124, 146, 160, 240, 66,
     24, 138, 153, 92, 193, 49, 136, 12, 52, 89, 170]
  requestSignature :=
    [213, 182, 223, 152, 13, 182, 141, 228, 245, 82, 246, 195, 254, 155, 159, 209, 158, 209, 58,
     216, 59, 64, 95, 226, 207, 190, 100, 71, 41, 38, 13, 3, 111, 47, 76, 51, 95, 201, 124, 27,
     176, 89, 96, 154, 15, 165, 142, 227, 103, 62, 65, 82, 209, 17, 197, 223, 112, 1, 123, 121,
     236, 235, 62, 1]
  requestHandle := firstRequest
  responseBody := responseJson inputRequiredResultType firstRequest
  responseDigest :=
    [43, 29, 95, 122, 48, 109, 187, 127, 151, 219, 17, 222, 238, 54, 120, 238, 40, 177, 120, 197,
     240, 172, 234, 32, 114, 41, 249, 226, 94, 17, 113, 141]
  responseSignature :=
    [54, 254, 101, 89, 89, 192, 12, 64, 8, 248, 9, 69, 146, 118, 66, 159, 6, 117, 100, 184, 114, 4,
     75, 246, 50, 135, 123, 65, 59, 214, 75, 238, 230, 226, 124, 50, 68, 90, 185, 160, 142, 229,
     250, 91, 236, 142, 225, 39, 171, 125, 25, 225, 50, 89, 191, 239, 94, 226, 177, 52, 205, 46,
     127, 12]
  responseHandle := firstResponse

def secondRequest : Bytes :=
  [198, 49, 130, 252, 60, 249, 74, 146, 250, 52, 35, 55, 5, 186, 130, 74, 81, 247, 181, 212, 96,
   238, 114, 143, 191, 87, 33, 82, 14, 96, 225, 229]

def secondResponse : Bytes :=
  [124, 23, 110, 87, 69, 102, 218, 132, 20, 48, 14, 41, 23, 13, 151, 136, 3, 110, 162, 233, 225,
   18, 40, 154, 111, 155, 129, 228, 142, 127, 104, 235]

def second : Seed where
  requestBody := requestJson [field "continuation" (.object [field "type" (str "mcp-mrt"),
    field "previous_request_evidence" (digestJson firstRequest),
    field "input_required_response_evidence" (digestJson firstResponse),
    field "request_state_digest" (digestJson stateDigest)])]
  requestAt := 150
  requestDigest :=
    [227, 231, 175, 56, 145, 26, 175, 58, 105, 95, 193, 55, 201, 22, 176, 11, 98, 140, 239, 10,
     254, 188, 225, 131, 116, 29, 209, 167, 3, 141, 22, 54]
  requestSignature :=
    [205, 192, 121, 126, 108, 8, 89, 251, 103, 192, 21, 73, 133, 237, 254, 225, 30, 160, 123, 88,
     117, 28, 193, 175, 94, 164, 61, 142, 62, 9, 59, 240, 251, 11, 205, 174, 29, 115, 198, 93, 54,
     247, 75, 54, 178, 107, 108, 128, 184, 218, 175, 95, 168, 26, 73, 134, 179, 237, 70, 74, 58,
     115, 226, 8]
  requestHandle := secondRequest
  responseBody := responseJson completeResultType secondRequest
  responseDigest :=
    [43, 0, 193, 216, 113, 31, 191, 19, 71, 66, 74, 141, 198, 203, 118, 177, 34, 198, 114, 208,
     221, 90, 28, 147, 207, 197, 222, 189, 10, 128, 70, 31]
  responseSignature :=
    [133, 247, 81, 44, 155, 22, 209, 199, 191, 207, 109, 30, 205, 154, 154, 136, 133, 252, 92, 118,
     170, 205, 77, 220, 226, 179, 86, 115, 87, 74, 73, 169, 159, 246, 154, 91, 165, 89, 240, 40,
     168, 179, 125, 101, 204, 30, 186, 96, 255, 124, 82, 48, 217, 88, 189, 79, 71, 88, 186, 110,
     128, 230, 53, 5]
  responseHandle := secondResponse

def submittedDigest : Bytes :=
  [202, 173, 64, 124, 19, 13, 159, 155, 132, 143, 194, 11, 89, 59, 220, 93, 25, 254, 99, 71, 227,
   48, 88, 157, 200, 111, 134, 27, 72, 88, 53, 65]

def hops : List RetainedHop := [first.hop, second.hop]

/-! The verifier and its platform. -/

def Seed.requestBase (s : Seed) : Bytes :=
  (signatureBase sampleComponents (window s.requestAt (some ['n']) ['c'])
    (.request s.hop.request)).toOption.getD []

def Seed.responseBase (s : Seed) : Bytes :=
  (signatureBase responseComponents (window (s.requestAt.saturatingAdd 10) none ['d'])
    (.response s.hop.response s.hop.request)).toOption.getD []

def hashed : List (Bytes × Bytes) :=
  ([first, second].flatMap fun s =>
    [(body s.requestBody, s.requestDigest), (body s.responseBody, s.responseDigest)])
  ++ ([first, second].flatMap fun s =>
    [(labeledPreimage evidenceLabelRequest s.requestBase, s.requestHandle),
      (labeledPreimage evidenceLabelResponse s.responseBase, s.responseHandle)])
  ++ [([1], certDigest), (submittedPreimage hops, submittedDigest)]

def toDigest (b : Bytes) : Digest :=
  if h : b.length = 32 then ⟨b, h⟩ else ⟨List.replicate 32 0, length_zeros⟩

def documents : List Json :=
  [headerJson, claimsJson] ++ [first, second].flatMap fun s => [s.requestBody, s.responseBody]

def signed : List (Bytes × Bytes × Bytes) :=
  (rootKey, utf8 signingInput, credentialSignature) :: [first, second].flatMap fun s =>
      [(clientKey, s.requestBase, s.requestSignature),
        (delegatedKey, s.responseBase, s.responseSignature)]

def platform : Platform where
  sha256 b := toDigest (((hashed.find? fun e => e.1 == b).map Prod.snd).getD [])
  fromSlice b := documents.find? fun j => body j == b
  readDocument b := documents.find? fun j => body j == b
  isPoint b := [clientKey, rootKey, delegatedKey].contains b
  verifyStrict key preimage signature := signed.contains (key.bytes, preimage, signature)

def verification : ChainVerification where
  verifier := {
    resolveActor := fun keyId slot =>
      if keyId = ['c'] ∧ slot = .request then
        .resolved ⟨⟨"client".toList, ['t'], ['u'], keyId⟩, ⟨clientKey⟩, slot⟩
      else if keyId = ['r'] ∧ slot = .response then
        .resolved ⟨⟨"root".toList, ['t'], ['s'], keyId⟩, ⟨rootKey⟩, slot⟩
      else .notTrusted
    policy := .default }
  expect := ⟨[['v']], ['h'], [['e']], 30⟩
  audit := ⟨⟨['a'], "https://a/b".toList, none⟩, fun _ => some [1]⟩
  isRevoked _ := false
  now := 1000

/-! The instance. -/

def inputs : List Bytes :=
  [first, second].flatMap fun s =>
    [body s.requestBody, labeledPreimage evidenceLabelRequest s.requestBase]

theorem hops_evaluated :
    requestBaseOf first.hop.request = .ok first.requestBase ∧
      requestBaseOf second.hop.request = .ok second.requestBase ∧
      (inputs.map platform.sha256).Nodup ∧
      (reconstructChain platform verification hops).label = .complete := by
  decide +kernel

theorem mem_inputs {b : Bytes} (h : b ∈ linkageInputs hops) : b ∈ inputs := by
  obtain ⟨hfirst, hsecond, -⟩ := hops_evaluated
  obtain ⟨hop, hhop, hb⟩ := h
  have hinputs : inputs = [body first.requestBody,
      labeledPreimage evidenceLabelRequest first.requestBase, body second.requestBody,
      labeledPreimage evidenceLabelRequest second.requestBase] := rfl
  rw [hinputs]
  rcases List.mem_cons.1 hhop with rfl | hhop
  · rcases hb with rfl | ⟨base, hbase, rfl⟩
    · exact List.mem_cons_self
    · cases hfirst.symm.trans hbase
      simp
  · obtain rfl := List.mem_singleton.1 hhop
    rcases hb with rfl | ⟨base, hbase, rfl⟩
    · exact .tail _ (.tail _ List.mem_cons_self)
    · cases hsecond.symm.trans hbase
      simp

theorem injOn_linkageInputs : Set.InjOn platform.sha256 (linkageInputs hops) := by
  intro x hx y hy heq
  exact List.inj_on_of_nodup_map hops_evaluated.2.2.1 (mem_inputs hx) (mem_inputs hy) heq

theorem hops_complete : (reconstructChain platform verification hops).label = .complete :=
  hops_evaluated.2.2.2

theorem no_omission_or_reordering_two_hops :
    (reconstructChain platform verification hops).label = .complete ∧
      (reconstructChain platform verification [first.hop]).label ≠ .complete ∧
      (reconstructChain platform verification [second.hop]).label ≠ .complete ∧
      (reconstructChain platform verification [second.hop, first.hop]).label ≠ .complete := by
  obtain ⟨homit, hmove⟩ := no_omission_or_reordering injOn_linkageInputs hops_complete
  refine ⟨hops_complete, homit [first.hop] (.cons_cons _ (List.nil_sublist _)) (by simp) ?_,
    homit [second.hop] (.cons _ (.refl _)) (by simp) ?_, ?_⟩
  · exact Nat.lt_succ_self 1
  · exact Nat.lt_succ_self 1
  · let σ : Equiv.Perm (Fin hops.length) := Equiv.swap ⟨0, Nat.zero_lt_two⟩ ⟨1, Nat.one_lt_two⟩
    have hσ : σ ≠ 1 := by decide
    have hswap : (List.ofFn fun i => hops.get (σ i)) = [second.hop, first.hop] := rfl
    rw [← hswap]
    exact hmove σ hσ

end TwoHops

end McpRe.Http

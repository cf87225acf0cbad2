import McpRe.Http.Floor
import McpRe.Http.Verify.BaseInjective

/-!
# The request floor is tamper evident

`floorRequest_eq_ok` says once what an accepted request has passed. From it and the injectivity of
the signature base, two accepted requests with one base agree on everything the profile covers
(`floor_tamper_evident`).
-/

namespace McpRe.Http

open Lib Lib.Result Lib.Text Lib.QuoteSplit

/-! ## The checks -/

theorem requireAll_eq_ok {covered : List CoveredComponent} {req : Bool}
    {names : List ComponentName} {u : Unit} :
    requireAll covered req names = .ok u ↔ ∀ n ∈ names, (⟨n, req⟩ : CoveredComponent) ∈ covered := by
  induction names with
  | nil => simp [requireAll]
  | cons n names ih => simp [requireAll, ih]

theorem requireCoverage_eq_ok {headers : Headers} {covered : List CoveredComponent}
    {names : List ComponentName} {u : Unit} :
    requireCoverage headers covered names = .ok u ↔
      ∀ n ∈ names, ∃ v, singleHeader headers n.text = .ok v ∧
        (v.isSome = true → (⟨n, false⟩ : CoveredComponent) ∈ covered) := by
  induction names with
  | nil => simp [requireCoverage]
  | cons n names ih =>
    simp only [requireCoverage, bind_eq_ok, ensure_eq_ok, ih, List.mem_cons, forall_eq_or_imp]
    constructor
    · rintro ⟨v, hv, _, hcov, hrest⟩
      refine ⟨⟨v, hv, fun hsome => ?_⟩, hrest⟩
      simpa [hsome] using hcov
    · rintro ⟨⟨v, hv, hcov⟩, hrest⟩
      refine ⟨v, hv, (), ?_, hrest⟩
      cases hsome : v.isSome
      · rfl
      · simp [hcov hsome]

/-- What an accepted request has passed. -/
structure FloorAccepted (P : Platform) (r : HttpRequest) (policy : VerifierPolicy) (now : I64)
    (parsed : ParsedSignatureInput) (out : CryptographicFloorVerifiedRequest) : Prop where
  digest : ∃ v u, requiredHeader r.headers "content-digest" = .ok v ∧
    verifyContentDigestSha256 P v r.body = .ok u
  input : requestSignatureInput r = .ok parsed
  required : ∀ n ∈ requiredRequestComponents, (⟨n, false⟩ : CoveredComponent) ∈ parsed.components
  noReq : ∀ c ∈ parsed.components, c.req = false
  conditional : ∀ n ∈ conditionallyCoveredRequestHeaders,
    ∃ v, singleHeader r.headers n.text = .ok v ∧
      (v.isSome = true → (⟨n, false⟩ : CoveredComponent) ∈ parsed.components)
  params : ∃ checked, checkParams parsed.params policy now true = .ok checked ∧
    out.created = checked.created ∧ out.expires = checked.expires
  base : signatureBase parsed.components parsed.params (.request r)
    = .ok out.requestSignatureBase
  profile : out.profileId = profileTag.toList
  evidence : out.evidence = .fromSignatureBase P out.requestSignatureBase

theorem floorRequest_eq_ok {P : Platform} {r : HttpRequest} {resolveActor : Resolver}
    {policy : VerifierPolicy} {now : I64} {out : CryptographicFloorVerifiedRequest}
    (h : floorRequest P r resolveActor policy now = .ok out) :
    ∃ parsed, FloorAccepted P r policy now parsed out := by
  unfold floorRequest at h
  simp only [bind_eq_ok, ensure_eq_ok, requireComponents, requireAll_eq_ok,
    requireConditionalCoverage, requireCoverage_eq_ok, Except.ok.injEq] at h
  obtain ⟨-, -, -, -, v, hv, u, hu, parsed, hparsed, -, ⟨-, hreq, -⟩, -, hnoReq, -, hcond,
    checked, hchecked, -, -, base, hbase, -, -, -, -, -, -, -, -, rfl⟩ := h
  refine ⟨parsed, ⟨v, u, hv, hu⟩, hparsed, hreq, ?_, hcond, ⟨checked, hchecked, rfl, rfl⟩, hbase,
    rfl, rfl⟩
  intro c hc
  simp only [Bool.not_eq_true', List.any_eq_false] at hnoReq
  simpa using hnoReq c hc

/-! ## Fields -/

theorem fieldComponent_eq_ok {headers : Headers} {n : ComponentName} {v : Str} :
    fieldComponent headers n = .ok v ↔ ∃ w, fieldValues headers n.text = [w] ∧ v = trim w := by
  simp only [fieldComponent, bind_eq_ok, okOr_eq_ok, findField_eq_ok]
  constructor
  · rintro ⟨_, ⟨-, rfl⟩ | ⟨-, w, hw, rfl⟩, hv⟩
    · cases hv
    · exact ⟨w, hw, (Option.some.inj hv).symm⟩
  · rintro ⟨w, hw, rfl⟩
    exact ⟨_, .inr ⟨trivial, w, hw, rfl⟩, rfl⟩

/-- The derived components; the others are header fields. -/
def isDerived (n : ComponentName) : Bool :=
  n == .method || n == .targetUri || n == .authority || n == .path || n == .status

theorem requestComponent_field {n : ComponentName} (h : isDerived n = false) (r : HttpRequest) :
    requestComponent r n = fieldComponent r.headers n := by
  cases n <;> first | rfl | simp [isDerived] at h

/-- Two requests that give one value to a field component carry it once each, alike up to
surrounding whitespace. -/
theorem fieldValues_of_componentValue {r₁ r₂ : HttpRequest} {n : ComponentName}
    (hn : isDerived n = false) {v : Str}
    (h₁ : componentValue ⟨n, false⟩ (.request r₁) = .ok v)
    (h₂ : componentValue ⟨n, false⟩ (.request r₂) = .ok v) :
    ∃ w₁ w₂, fieldValues r₁.headers n.text = [w₁] ∧ fieldValues r₂.headers n.text = [w₂] ∧
      trim w₁ = trim w₂ := by
  have hr₁ := (componentValue_eq_ok.1 h₁).1
  have hr₂ := (componentValue_eq_ok.1 h₂).1
  simp only [resolveComponentValue, Bool.false_eq_true, if_false, requestComponent_field hn,
    fieldComponent_eq_ok] at hr₁ hr₂
  obtain ⟨w₁, hw₁, rfl⟩ := hr₁
  obtain ⟨w₂, hw₂, heq⟩ := hr₂
  exact ⟨w₁, w₂, hw₁, hw₂, heq⟩

theorem find_sha256Member (v : Str) :
    ((v.splitOn ',').find? isSha256Member).map trim
      = (((v.splitOn ',').map trim).find? fun m => (stripPrefix sha256Member.toList m).isSome) := by
  rw [List.find?_map]
  rfl

theorem sha256_eq_of_trim_eq {P : Platform} {v₁ v₂ : Str} {b₁ b₂ : Bytes} {u₁ u₂ : Unit}
    (htrim : trim v₁ = trim v₂) (h₁ : verifyContentDigestSha256 P v₁ b₁ = .ok u₁)
    (h₂ : verifyContentDigestSha256 P v₂ b₂ = .ok u₂) : P.sha256 b₁ = P.sha256 b₂ := by
  obtain ⟨m₁, hfind₁, hm₁⟩ := verifyContentDigestSha256_eq_ok h₁
  obtain ⟨m₂, hfind₂, hm₂⟩ := verifyContentDigestSha256_eq_ok h₂
  have hsep : isWhitespace ',' = false := by decide
  have hmembers : (v₁.splitOn ',').map trim = (v₂.splitOn ',').map trim := by
    rw [map_trim_splitOn hsep, htrim, ← map_trim_splitOn hsep]
  have hfound := find_sha256Member v₁
  rw [hmembers, ← find_sha256Member v₂, hfind₁, hfind₂] at hfound
  have hm : trim m₁ = trim m₂ := by simpa using hfound
  exact contentDigestSha256_inj (by rw [← hm₁, ← hm₂, hm])

/-! ## Tamper evidence -/

/-- Two requests agree on everything the profile covers. -/
structure SameCovered (r₁ r₂ : HttpRequest) : Prop where
  method : r₁.method = r₂.method
  targetUri : r₁.targetUri = r₂.targetUri
  body : r₁.body = r₂.body
  contentType : ∃ v₁ v₂, requiredHeader r₁.headers "content-type" = .ok v₁ ∧
    requiredHeader r₂.headers "content-type" = .ok v₂ ∧ trim v₁ = trim v₂
  params : ∃ p₁ p₂, requestSignatureInput r₁ = .ok p₁ ∧ requestSignatureInput r₂ = .ok p₂ ∧
    p₁.params = p₂.params
  conditional : ∀ n ∈ conditionallyCoveredRequestHeaders,
    ∃ v₁ v₂, singleHeader r₁.headers n.text = .ok v₁ ∧ singleHeader r₂.headers n.text = .ok v₂ ∧
      v₁.map trim = v₂.map trim

theorem isDerived_conditional :
    ∀ n ∈ conditionallyCoveredRequestHeaders, isDerived n = false := by
  decide

theorem singleHeader_of_fieldValues {headers : Headers} {name : String} {v : Option Str} {w : Str}
    (hv : singleHeader headers name = .ok v) (hw : fieldValues headers name = [w]) :
    v = some w := by
  rcases singleHeader_eq_ok.1 hv with ⟨hnil, -⟩ | ⟨x, hx, rfl⟩
  · rw [hw] at hnil
    cases hnil
  · rw [hw] at hx
    rw [List.singleton_inj.1 hx]

section

variable {P : Platform} {r₁ r₂ : HttpRequest} {policy₁ policy₂ : VerifierPolicy} {now₁ now₂ : I64}
  {parsed₁ parsed₂ : ParsedSignatureInput} {out₁ out₂ : CryptographicFloorVerifiedRequest}

theorem FloorAccepted.shared (ha₁ : FloorAccepted P r₁ policy₁ now₁ parsed₁ out₁)
    (ha₂ : FloorAccepted P r₂ policy₂ now₂ parsed₂ out₂)
    (hbase : out₁.requestSignatureBase = out₂.requestSignatureBase) :
    parsed₁ = parsed₂ ∧ ∀ c ∈ parsed₁.components,
      ∃ v, componentValue c (.request r₁) = .ok v ∧ componentValue c (.request r₂) = .ok v := by
  have hb₂ := ha₂.base
  rw [← hbase] at hb₂
  obtain ⟨hcs, hp, hvalues⟩ := signatureBase_injective ha₁.base hb₂
  refine ⟨?_, hvalues⟩
  cases parsed₁
  cases parsed₂
  cases hcs
  cases hp
  rfl

theorem FloorAccepted.body_eq (hsha : Set.InjOn P.sha256 {r₁.body, r₂.body})
    (ha₁ : FloorAccepted P r₁ policy₁ now₁ parsed₁ out₁)
    (ha₂ : FloorAccepted P r₂ policy₂ now₂ parsed₂ out₂)
    (hbase : out₁.requestSignatureBase = out₂.requestSignatureBase) : r₁.body = r₂.body := by
  obtain ⟨-, hvalues⟩ := ha₁.shared ha₂ hbase
  obtain ⟨v, hv₁, hv₂⟩ := hvalues _ (ha₁.required .contentDigest (by decide))
  obtain ⟨w₁, w₂, hw₁, hw₂, htrim⟩ := fieldValues_of_componentValue (by decide) hv₁ hv₂
  obtain ⟨d₁, u₁, hd₁, hok₁⟩ := ha₁.digest
  obtain ⟨d₂, u₂, hd₂, hok₂⟩ := ha₂.digest
  have e₁ := requiredHeader_eq_ok.1 hd₁
  have e₂ := requiredHeader_eq_ok.1 hd₂
  obtain rfl : d₁ = w₁ := List.singleton_inj.1 (e₁.symm.trans hw₁)
  obtain rfl : d₂ = w₂ := List.singleton_inj.1 (e₂.symm.trans hw₂)
  exact hsha (by simp) (by simp) (sha256_eq_of_trim_eq htrim hok₁ hok₂)

end

/-- **Tamper evidence of the request floor**: two accepted requests with one signature base agree
on everything the profile covers, when the digest does not confuse their bodies. -/
theorem floor_tamper_evident {P : Platform} {r₁ r₂ : HttpRequest} {resolve₁ resolve₂ : Resolver}
    {policy₁ policy₂ : VerifierPolicy} {now₁ now₂ : I64}
    {out₁ out₂ : CryptographicFloorVerifiedRequest}
    (hsha : Set.InjOn P.sha256 {r₁.body, r₂.body})
    (h₁ : floorRequest P r₁ resolve₁ policy₁ now₁ = .ok out₁)
    (h₂ : floorRequest P r₂ resolve₂ policy₂ now₂ = .ok out₂)
    (hbase : out₁.requestSignatureBase = out₂.requestSignatureBase) : SameCovered r₁ r₂ := by
  obtain ⟨parsed, ha₁⟩ := floorRequest_eq_ok h₁
  obtain ⟨parsed₂, ha₂⟩ := floorRequest_eq_ok h₂
  obtain ⟨rfl, hvalues⟩ := ha₁.shared ha₂ hbase
  have hcover : ∀ n ∈ requiredRequestComponents,
      ∃ v, componentValue ⟨n, false⟩ (.request r₁) = .ok v ∧
        componentValue ⟨n, false⟩ (.request r₂) = .ok v :=
    fun n hn => hvalues _ (ha₁.required n hn)
  refine ⟨?_, ?_, ha₁.body_eq hsha ha₂ hbase, ?_, ⟨_, _, ha₁.input, ha₂.input, rfl⟩, ?_⟩
  · obtain ⟨v, hv₁, hv₂⟩ := hcover .method (by decide)
    have heq := (componentValue_eq_ok.1 hv₁).1.trans (componentValue_eq_ok.1 hv₂).1.symm
    exact Except.ok.inj heq
  · obtain ⟨v, hv₁, hv₂⟩ := hcover .targetUri (by decide)
    have heq := (componentValue_eq_ok.1 hv₁).1.trans (componentValue_eq_ok.1 hv₂).1.symm
    exact Except.ok.inj heq
  · obtain ⟨v, hv₁, hv₂⟩ := hcover .contentType (by decide)
    obtain ⟨w₁, w₂, hw₁, hw₂, htrim⟩ := fieldValues_of_componentValue (by decide) hv₁ hv₂
    exact ⟨w₁, w₂, requiredHeader_eq_ok.2 hw₁, requiredHeader_eq_ok.2 hw₂, htrim⟩
  · -- a present header is covered, and a covered one is present in both
    intro n hn
    obtain ⟨v₁, hv₁, hc₁⟩ := ha₁.conditional n hn
    obtain ⟨v₂, hv₂, hc₂⟩ := ha₂.conditional n hn
    refine ⟨v₁, v₂, hv₁, hv₂, ?_⟩
    by_cases hmem : (⟨n, false⟩ : CoveredComponent) ∈ parsed.components
    · obtain ⟨v, hval₁, hval₂⟩ := hvalues _ hmem
      obtain ⟨w₁, w₂, hw₁, hw₂, htrim⟩ :=
        fieldValues_of_componentValue (isDerived_conditional n hn) hval₁ hval₂
      rw [singleHeader_of_fieldValues hv₁ hw₁, singleHeader_of_fieldValues hv₂ hw₂]
      exact congrArg some htrim
    · have hnone₁ : v₁ = none := by
        rw [← Option.not_isSome_iff_eq_none]
        exact fun hsome => hmem (hc₁ hsome)
      have hnone₂ : v₂ = none := by
        rw [← Option.not_isSome_iff_eq_none]
        exact fun hsome => hmem (hc₂ hsome)
      rw [hnone₁, hnone₂]

/-! A signed request: the digest of its body, its key and its signature are the real ones. -/

def sampleSha256 (b : Bytes) : Digest :=
  if b = [123, 125] then
    ⟨[68, 19, 111, 163, 85, 179, 103, 138, 17, 70, 173, 22, 247, 232, 100, 158, 148, 251, 79, 194,
      31, 231, 126, 131, 16, 192, 96, 246, 28, 170, 255, 138], rfl⟩
  else ⟨List.replicate 32 0, length_zeros⟩

def sampleKey : VerificationKey :=
  ⟨[215, 90, 152, 1, 130, 177, 10, 183, 213, 75, 254, 211, 201, 100, 7, 58, 14, 225, 114, 243, 218,
    166, 35, 37, 175, 2, 26, 104, 247, 7, 81, 26]⟩

def sampleSignature : Bytes :=
  [186, 180, 39, 201, 144, 163, 72, 248, 196, 110, 179, 227, 70, 58, 159, 117, 35, 71, 204, 219, 135,
    42, 233, 177, 91, 253, 35, 254, 29, 80, 51, 36, 12, 192, 153, 73, 57, 13, 144, 211, 3, 241, 13,
    224, 90, 19, 146, 21, 186, 16, 133, 64, 230, 9, 140, 250, 48, 230, 160, 146, 129, 199, 44, 12]

def sampleParams : SignatureParams :=
  ⟨some 100, some 200, some ['n'], some ['k'], some algEd25519.toList, some profileTag.toList⟩

def sampleComponents : List CoveredComponent := requiredRequestComponents.map fun n => ⟨n, false⟩

def sampleRequest (extra : Headers) : HttpRequest where
  method := "POST".toList
  targetUri := "https://a/b".toList
  headers :=
    ("Content-Type".toList, "application/json".toList)
      :: ("Content-Digest".toList,
        "sha-256=:".toList ++ Base64.encode Base64.standard (sampleSha256 [123, 125]).bytes ++ [':'])
      :: ("Signature-Input".toList,
        requestLabel.toList ++ '=' :: ((sampleParams.serializeWith sampleComponents).toOption.getD []))
      :: ("Signature".toList,
        requestLabel.toList ++ '=' :: ':' :: Base64.encode Base64.standard sampleSignature ++ [':'])
      :: extra
  body := [123, 125]

def samplePlatform : Platform where
  sha256 := sampleSha256
  fromSlice b := if b = [123, 125] then some (.object []) else none
  readDocument b := if b = [123, 125] then some (.object []) else none
  isPoint b := b == sampleKey.bytes
  verifyStrict key preimage signature :=
    key == sampleKey && signature == sampleSignature
      && (signatureBase sampleComponents sampleParams (.request (sampleRequest []))).toOption
        == some preimage

def sampleResolver : Resolver := fun keyId slot =>
  if keyId = ['k'] ∧ slot = .request then
    .resolved ⟨⟨"client".toList, "d".toList, "s".toList, keyId⟩, sampleKey, slot⟩
  else .notTrusted

theorem floor_tamper_evident_extra_header :
    ∃ out₁ out₂,
      floorRequest samplePlatform (sampleRequest []) sampleResolver .default 150 = .ok out₁ ∧
      floorRequest samplePlatform (sampleRequest [("X-Trace".toList, ['7'])]) sampleResolver
        .default 199 = .ok out₂ ∧
      SameCovered (sampleRequest []) (sampleRequest [("X-Trace".toList, ['7'])]) := by
  obtain ⟨hok₁, hok₂, hbase⟩ :
      (floorRequest samplePlatform (sampleRequest []) sampleResolver .default 150).isOk = true ∧
      (floorRequest samplePlatform (sampleRequest [("X-Trace".toList, ['7'])]) sampleResolver
        .default 199).isOk = true ∧
      (floorRequest samplePlatform (sampleRequest []) sampleResolver .default 150).map
          (fun out => out.requestSignatureBase)
        = (floorRequest samplePlatform (sampleRequest [("X-Trace".toList, ['7'])]) sampleResolver
          .default 199).map (fun out => out.requestSignatureBase) := by decide +kernel
  obtain ⟨out₁, h₁⟩ := exists_of_isOk hok₁
  obtain ⟨out₂, h₂⟩ := exists_of_isOk hok₂
  rw [h₁, h₂] at hbase
  refine ⟨out₁, out₂, h₁, h₂, floor_tamper_evident ?_ h₁ h₂ (Except.ok.inj hbase)⟩
  simp [sampleRequest]

end McpRe.Http

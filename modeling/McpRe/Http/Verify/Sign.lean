import McpRe.Http.Sign
import McpRe.Http.Verify.Floor

/-!
# What is signed is accepted

What each stage of the signer leaves is what a stage of the verifier reads: the digest header, the
`Signature-Input` member and the signature under the label, and every other field as it was. The
verifier then builds the base that was signed, and `sign_then_verify` joins the two sides.
-/

namespace McpRe.Http

open Lib Lib.Result Lib.Text Lib.QuoteSplit

/-! ## Headers -/

theorem fieldValues_setHeader_self {headers : Headers} {name : String} {value : Str}
    {read : String} (h : eqIgnoreAsciiCase name.toList read.toList = true) :
    fieldValues (setHeader headers name value) read = [value] := by
  have hread : isField read (name.toList, value) = true := h
  have hsame : ∀ kv : Str × Str, isField read kv = true → isField name kv = true := by
    intro kv hkv
    simp only [isField, eqIgnoreAsciiCase, beq_iff_eq] at h hkv ⊢
    exact hkv.trans h.symm
  have hgone : (headers.filter fun kv => !isField name kv).filter (isField read) = [] := by
    rw [List.filter_eq_nil_iff]
    intro kv hkv hmatch
    have hkept := (List.mem_filter.1 hkv).2
    rw [hsame kv hmatch] at hkept
    cases hkept
  simp [fieldValues, setHeader, hgone, hread]

theorem fieldValues_setHeader_other {headers : Headers} {name : String} {value : Str}
    {read : String} (h : eqIgnoreAsciiCase name.toList read.toList = false) :
    fieldValues (setHeader headers name value) read = fieldValues headers read := by
  have hread : isField read (name.toList, value) = false := h
  have hkeep : ∀ kv : Str × Str, isField read kv = true → isField name kv = false := by
    intro kv hkv
    rw [Bool.eq_false_iff] at h ⊢
    intro hname
    apply h
    simp only [isField, eqIgnoreAsciiCase, beq_iff_eq] at hkv hname ⊢
    exact hname.symm.trans hkv
  have hfilter : (headers.filter fun kv => !isField name kv).filter (isField read)
      = headers.filter (isField read) := by
    rw [List.filter_filter]
    apply List.filter_congr
    intro kv _
    cases hkv : isField read kv
    · rfl
    · simp [hkeep kv hkv]
  simp [fieldValues, setHeader, hfilter, hread]

theorem rejectContentEncoding_setHeader {headers : Headers} {name : String} {value : Str} {u : Unit}
    (hname : eqIgnoreAsciiCase name.toList "content-encoding".toList = false)
    (h : rejectContentEncoding headers = .ok u) :
    rejectContentEncoding (setHeader headers name value) = .ok u := by
  simp only [rejectContentEncoding, ensure_eq_ok, List.all_eq_true] at h ⊢
  intro kv hkv
  rcases List.mem_append.1 hkv with hkv | hkv
  · exact h kv (List.mem_filter.1 hkv).1
  · have hfield : isField "content-encoding" kv = false := by
      rw [List.mem_singleton.1 hkv]
      exact hname
    rw [hfield]
    rfl

theorem singleHeader_congr {headers headers' : Headers} {name : String} {v : Option Str}
    (hfields : fieldValues headers' name = fieldValues headers name)
    (h : singleHeader headers name = .ok v) : singleHeader headers' name = .ok v := by
  rw [singleHeader_eq_ok] at h ⊢
  rwa [hfields]

theorem requireJsonMediaType_congr {headers headers' : Headers} {what : String} {u : Unit}
    (hfields : fieldValues headers' "content-type" = fieldValues headers "content-type")
    (h : requireJsonMediaType headers what = .ok u) : requireJsonMediaType headers' what = .ok u := by
  simp only [requireJsonMediaType, bind_eq_ok, mapError_eq_ok, requiredHeader_eq_ok, hfields] at h ⊢
  exact h

theorem signatureValueB64url_congr {headers headers' : Headers} {headerError : String} {label v : Str}
    (hfields : fieldValues headers' "signature" = fieldValues headers "signature")
    (h : signatureValueB64url headers headerError label = .ok v) :
    signatureValueB64url headers' headerError label = .ok v := by
  simp only [signatureValueB64url, bind_eq_ok, mapError_eq_ok, requiredHeader_eq_ok, hfields] at h ⊢
  exact h

/-! ## The digest header -/

theorem encode_standard_char {bs : Bytes} {c : Char} (h : c ∈ Base64.encode Base64.standard bs) :
    c ≠ ',' ∧ c ≠ '"' ∧ isWhitespace c = false := by
  rcases Base64.mem_encode Base64.standard h with rfl | ⟨i, rfl⟩
  · decide
  · exact (show ∀ i, Base64.standard.char i ≠ ',' ∧ Base64.standard.char i ≠ '"' ∧
      isWhitespace (Base64.standard.char i) = false by decide) i

theorem verifyContentDigestSha256_written (P : Platform) (body : Bytes) :
    verifyContentDigestSha256 P (contentDigestSha256 P body) body = .ok () := by
  have hcomma : ',' ∉ contentDigestSha256 P body := by
    intro h
    simp only [contentDigestSha256, List.mem_append, List.mem_cons, List.not_mem_nil, or_false] at h
    rcases h with (h | h | h) | h
    · exact absurd h (by decide)
    · exact absurd h (by decide)
    · exact (encode_standard_char h).1 rfl
    · exact absurd h (by decide)
  have htrim : trim (contentDigestSha256 P body) = contentDigestSha256 P body := by
    apply trim_eq_self
    apply Trimmed.append (by simp) (by simp)
    · simp [sha256Member]
      decide
    · simp
      decide
  have hmember : isSha256Member (contentDigestSha256 P body) = true := by
    rw [isSha256Member, htrim, Option.isSome_iff_exists]
    exact ⟨_, stripPrefix_eq_some.2 (List.append_assoc _ _ _)⟩
  simp [verifyContentDigestSha256, List.splitOn_eq_singleton hcomma, hmember, htrim, ensure]

/-! ## The signature -/

/-- What `emit_signature` leaves in the headers. -/
structure Emitted (label : String) (value : Str) (sigBytes : Bytes) (before after : Headers) :
    Prop where
  input : fieldValues after "signature-input" = [label.toList ++ '=' :: value]
  signature : fieldValues after "signature" =
    [label.toList ++ '=' :: (':' :: Base64.encode Base64.standard sigBytes ++ [':'])]
  others : ∀ name : String, eqIgnoreAsciiCase "Signature-Input".toList name.toList = false →
    eqIgnoreAsciiCase "Signature".toList name.toList = false →
    fieldValues after name = fieldValues before name
  encoding : rejectContentEncoding before = .ok () → rejectContentEncoding after = .ok ()

theorem emitSignature_eq_ok {headers headers' : Headers} {label : String}
    {components : List CoveredComponent} {params : SignatureParams} {base : Bytes}
    {signBase : Signer}
    (h : emitSignature headers label components params base signBase = .ok headers') :
    ∃ sigBytes value, signBase base = .ok sigBytes ∧ sigBytes.length = ed25519SignatureLen ∧
      params.serializeWith components = .ok value ∧
      Emitted label value sigBytes headers headers' := by
  simp only [emitSignature, bind_eq_ok, ensure_eq_ok, decide_eq_true_eq, Except.ok.injEq] at h
  obtain ⟨sigBytes, hsig, -, hlen, value, hvalue, rfl⟩ := h
  refine ⟨sigBytes, value, hsig, hlen, hvalue, ?_, ?_, ?_, ?_⟩
  · rw [fieldValues_setHeader_other (by decide), fieldValues_setHeader_self (by decide)]
  · exact fieldValues_setHeader_self (by decide)
  · intro name hinput hsignature
    rw [fieldValues_setHeader_other hsignature, fieldValues_setHeader_other hinput]
  · intro hencoding
    apply rejectContentEncoding_setHeader (by decide)
    exact rejectContentEncoding_setHeader (by decide) hencoding

theorem Emitted.signatureValueB64url_eq {label : String} {value : Str} {sigBytes : Bytes}
    {before after : Headers} (h : Emitted label value sigBytes before after)
    (hlabel : IsLabel label.toList) (headerError : String) :
    signatureValueB64url after headerError label.toList = .ok (b64urlEncode sigBytes) := by
  obtain ⟨member, hmember⟩ : ∃ m, m = ':' :: Base64.encode Base64.standard sigBytes ++ [':'] :=
    ⟨_, rfl⟩
  have hsignature := h.signature
  rw [← hmember] at hsignature
  have hchar : ∀ c ∈ member, c ≠ ',' ∧ c ≠ '"' := by
    intro c hc
    simp only [hmember, List.cons_append, List.mem_cons, List.mem_append, List.not_mem_nil,
      or_false] at hc
    rcases hc with rfl | hc | rfl
    · decide
    · exact ⟨(encode_standard_char hc).1, (encode_standard_char hc).2.1⟩
    · decide
  have hclosed : Closed (· == ',') member := by
    apply Closed.of_plain
    · exact fun hc => (hchar _ hc).2 rfl
    · intro c hc
      simpa using (hchar c hc).1
  have htrim : Trimmed member := by
    rw [hmember]
    apply Trimmed.append (by simp) (by simp)
    · simp
      decide
    · simp
      decide
  have hread := memberValue_single hlabel hclosed htrim (by simp [hmember])
  have hstrip : (stripPrefix [':'] member).bind (stripSuffix [':'])
      = some (Base64.encode Base64.standard sigBytes) := by
    rw [Option.bind_eq_some_iff]
    exact ⟨_, stripPrefix_eq_some.2 hmember, stripSuffix_eq_some.2 rfl⟩
  simp only [signatureValueB64url, requiredHeader_eq_ok.2 hsignature, Except.mapError, ok_bind,
    hread, hstrip, okOr_some, Base64.decode_encode]

/-! ## The base -/

theorem signatureBase_mono {cs : List CoveredComponent} {p : SignatureParams}
    {source source' : SourceMessage} {base : Bytes}
    (hvalues : ∀ c v, resolveComponentValue c source = .ok v → resolveComponentValue c source' = .ok v)
    (h : signatureBase cs p source = .ok base) : signatureBase cs p source' = .ok base := by
  simp only [signatureBase, bind_eq_ok, mapM_eq_ok] at h ⊢
  obtain ⟨lines, hlines, hrest⟩ := h
  refine ⟨lines, hlines.imp ?_, hrest⟩
  intro c line hline
  rw [componentLine_eq_ok] at hline ⊢
  obtain ⟨v, hv, hline⟩ := hline
  rw [componentValue_eq_ok] at hv
  exact ⟨v, componentValue_eq_ok.2 ⟨hvalues c v hv.1, hv.2⟩, hline⟩

theorem fieldComponent_congr {headers headers' : Headers} {n : ComponentName} {v : Str}
    (hfields : fieldValues headers' n.text = fieldValues headers n.text)
    (h : fieldComponent headers n = .ok v) : fieldComponent headers' n = .ok v := by
  rw [fieldComponent_eq_ok] at h ⊢
  rwa [hfields]

theorem Emitted.component_eq {label : String} {value : Str} {sigBytes : Bytes}
    {before after : Headers} (h : Emitted label value sigBytes before after) (n : ComponentName) :
    fieldValues after n.text = fieldValues before n.text := by
  apply h.others
  · cases n <;> decide
  · cases n <;> decide

theorem signatureBase_of_emitted {label : String} {value : Str} {sigBytes : Bytes}
    (r r' : HttpRequest) (h : Emitted label value sigBytes r.headers r'.headers)
    (hmethod : r'.method = r.method) (huri : r'.targetUri = r.targetUri)
    {cs : List CoveredComponent} {p : SignatureParams} {base : Bytes}
    (hbase : signatureBase cs p (.request r) = .ok base) :
    signatureBase cs p (.request r') = .ok base := by
  apply signatureBase_mono _ hbase
  intro c v hv
  obtain ⟨n, req⟩ := c
  cases req
  · simp only [resolveComponentValue, Bool.false_eq_true, if_false] at hv ⊢
    cases hn : isDerived n
    · rw [requestComponent_field hn] at hv ⊢
      exact fieldComponent_congr (h.component_eq n) hv
    · cases n with
      | method => simpa [requestComponent, hmethod] using hv
      | targetUri => simpa [requestComponent, huri] using hv
      | authority => simpa [requestComponent, huri] using hv
      | path => simpa [requestComponent, huri] using hv
      | status => cases hv
      | _ => simp [isDerived] at hn
  · exact hv

/-! ## Components -/

theorem presentComponents_eq_ok {headers : Headers} {names : List ComponentName}
    {cs : List CoveredComponent} (h : presentComponents headers names = .ok cs) :
    cs.Sublist (names.map fun n => ⟨n, false⟩) ∧
      ∀ n ∈ names, ∃ v, singleHeader headers n.text = .ok v ∧
        (v.isSome = true → (⟨n, false⟩ : CoveredComponent) ∈ cs) := by
  induction names generalizing cs with
  | nil =>
    cases h
    simp
  | cons n names ih =>
    simp only [presentComponents, bind_eq_ok, Except.ok.injEq] at h
    obtain ⟨v, hv, rest, hrest, rfl⟩ := h
    obtain ⟨hsub, hcover⟩ := ih hrest
    cases hsome : v.isSome
    · refine ⟨.cons _ hsub, ?_⟩
      intro m hm
      rcases List.mem_cons.1 hm with rfl | hm
      · exact ⟨v, hv, fun h => by simp [hsome] at h⟩
      · exact hcover m hm
    · refine ⟨.cons_cons _ hsub, ?_⟩
      intro m hm
      rcases List.mem_cons.1 hm with rfl | hm
      · exact ⟨v, hv, fun _ => List.mem_cons_self⟩
      · obtain ⟨w, hw, hmem⟩ := hcover m hm
        exact ⟨w, hw, fun h => List.mem_cons_of_mem _ (hmem h)⟩

theorem requestComponents_eq_ok {r : HttpRequest} {cs : List CoveredComponent}
    (h : requestComponents r = .ok cs) :
    cs.Nodup ∧ (∀ n ∈ requiredRequestComponents, (⟨n, false⟩ : CoveredComponent) ∈ cs) ∧
      (∀ c ∈ cs, c.req = false) ∧
      ∀ n ∈ conditionallyCoveredRequestHeaders, ∃ v, singleHeader r.headers n.text = .ok v ∧
        (v.isSome = true → (⟨n, false⟩ : CoveredComponent) ∈ cs) := by
  simp only [requestComponents, conditionalRequestComponents, bind_eq_ok, Except.ok.injEq] at h
  obtain ⟨conditional, hcond, rfl⟩ := h
  obtain ⟨hsub, hcover⟩ := presentComponents_eq_ok hcond
  have hall := hsub.append_left (requiredRequestComponents.map fun n => (⟨n, false⟩ : CoveredComponent))
  refine ⟨hall.nodup (by decide), ?_, ?_, ?_⟩
  · intro n hn
    exact List.mem_append_left _ (List.mem_map_of_mem hn)
  · intro c hc
    have hplain : ∀ d ∈ (requiredRequestComponents.map fun n => (⟨n, false⟩ : CoveredComponent))
        ++ conditionallyCoveredRequestHeaders.map fun n => ⟨n, false⟩, d.req = false := by decide
    exact hplain c (hall.subset hc)
  · intro n hn
    obtain ⟨v, hv, hmem⟩ := hcover n hn
    exact ⟨v, hv, fun hsome => List.mem_append_right _ (hmem hsome)⟩

/-! ## The transport contract -/

/-- The request's `mcp-method` and, where the policy maps it, `mcp-name` agree with its body. -/
structure HeadersAgree (P : Platform) (policy : VerifierPolicy) (request : HttpRequest) : Prop where
  method : ∀ h ∈ fieldValues request.headers mcpMethodHeader,
    ∃ body, P.fromSlice request.body = some body ∧
      (body.get "method").bind Json.asStr = some (trim h)
  name : ∀ t body method entry, policy.mcpTransport = some t →
    P.fromSlice request.body = some body → (body.get "method").bind Json.asStr = some method →
    t.mcpNameRequired.find? (fun m => m.1 == method) = some entry →
    ∀ h ∈ fieldValues request.headers mcpNameHeader,
      ((body.get "params").bind fun p => entry.2.extract p) = some (trim h)

/-- The request carries no transport header and the contract lets such a request pass. -/
def Excused (t : McpTransportPolicy) (request : HttpRequest) : Prop :=
  t.allowLegacyHeaderOmission = true ∧ fieldValues request.headers mcpMethodHeader = [] ∧
    fieldValues request.headers mcpProtocolVersionHeader = [] ∧
    fieldValues request.headers mcpNameHeader = []

/-- What a transport contract asks of a request beyond that agreement: a body that is JSON, the
required headers, and a supported protocol version that the body does not contradict. -/
structure MeetsContract (P : Platform) (t : McpTransportPolicy) (request : HttpRequest) :
    Prop where
  body : ∃ body, P.fromSlice request.body = some body
  method : t.requireMcpMethod = true → fieldValues request.headers mcpMethodHeader = [] →
    Excused t request
  versionPresent : t.requireProtocolVersionHeader = true →
    fieldValues request.headers mcpProtocolVersionHeader = [] → Excused t request
  version : ∀ body, P.fromSlice request.body = some body →
    ∀ h ∈ fieldValues request.headers mcpProtocolVersionHeader,
      trim h ∈ t.supportedProtocolVersions ∧
        ∀ v, t.bodyProtocolVersion body (body.get "params") = some v → v = trim h
  name : ∀ body method, P.fromSlice request.body = some body →
    (body.get "method").bind Json.asStr = some method →
    (t.mcpNameRequired.find? fun m => m.1 == method).isSome = true →
    fieldValues request.headers mcpNameHeader = [] → Excused t request

theorem fieldValues_of_singleHeader {headers : Headers} {name : String} {v : Option Str}
    (h : singleHeader headers name = .ok v) : fieldValues headers name = v.toList := by
  rcases singleHeader_eq_ok.1 h with ⟨hnil, rfl⟩ | ⟨w, hw, rfl⟩
  · exact hnil
  · exact hw

section

variable {P : Platform} {policy : VerifierPolicy} {request : HttpRequest}

theorem HeadersAgree.rejectMcpMethodDivergence_eq (ha : HeadersAgree P policy request)
    {method : Option Str} (hm : singleHeader request.headers mcpMethodHeader = .ok method) :
    rejectMcpMethodDivergence P request = .ok () := by
  rw [rejectMcpMethodDivergence, hm, ok_bind]
  cases method with
  | none => rfl
  | some h =>
    obtain ⟨body, hbody, hmethod⟩ := ha.method h (by simp [fieldValues_of_singleHeader hm])
    simp [hbody, hmethod, ensure]

/-- The transport headers as the contract's checks see them. -/
structure HeadersRead (t : McpTransportPolicy) (request : HttpRequest) (headers : TransportHeaders) :
    Prop where
  method : fieldValues request.headers mcpMethodHeader = headers.method.toList
  version : fieldValues request.headers mcpProtocolVersionHeader = headers.version.toList
  name : fieldValues request.headers mcpNameHeader = headers.name.toList
  legacy : Excused t request → headers.legacy = true

theorem exists_headersRead {t : McpTransportPolicy} {method version name : Option Str}
    (hm : singleHeader request.headers mcpMethodHeader = .ok method)
    (hv : singleHeader request.headers mcpProtocolVersionHeader = .ok version)
    (hn : singleHeader request.headers mcpNameHeader = .ok name) :
    ∃ headers, t.read request = .ok headers ∧ HeadersRead t request headers := by
  have fm := fieldValues_of_singleHeader hm
  have fv := fieldValues_of_singleHeader hv
  have fn := fieldValues_of_singleHeader hn
  refine ⟨⟨method, version, name, _⟩, by simp [McpTransportPolicy.read, hm, hv, hn]; rfl, fm, fv, fn, ?_⟩
  intro hex
  obtain ⟨hallow, hem, hev, hen⟩ := hex
  rw [fm, Option.toList_eq_nil_iff] at hem
  rw [fv, Option.toList_eq_nil_iff] at hev
  rw [fn, Option.toList_eq_nil_iff] at hen
  simp [hallow, hem, hev, hen]

variable {t : McpTransportPolicy} {headers : TransportHeaders} {body : Json}

theorem MeetsContract.checkMethod_eq (hc : MeetsContract P t request)
    (ha : HeadersAgree P policy request) (hr : HeadersRead t request headers)
    (hbody : P.fromSlice request.body = some body) :
    t.checkMethod headers ((body.get "method").bind Json.asStr) = .ok () := by
  unfold McpTransportPolicy.checkMethod
  cases hm : headers.method with
  | none =>
    have habsent : fieldValues request.headers mcpMethodHeader = [] := by rw [hr.method, hm]; rfl
    cases hreq : t.requireMcpMethod
    · rfl
    · rw [hr.legacy (hc.method hreq habsent)]
      rfl
  | some h =>
    obtain ⟨b, hb, hagree⟩ := ha.method h (by simp [hr.method, hm])
    rw [hbody] at hb
    cases hb
    simp [hagree, ensure]

theorem MeetsContract.checkProtocolVersion_eq (hc : MeetsContract P t request)
    (hr : HeadersRead t request headers) (hbody : P.fromSlice request.body = some body) :
    t.checkProtocolVersion headers body (body.get "params") = .ok () := by
  unfold McpTransportPolicy.checkProtocolVersion
  cases hv : headers.version with
  | none =>
    have habsent : fieldValues request.headers mcpProtocolVersionHeader = [] := by
      rw [hr.version, hv]
      rfl
    cases hreq : t.requireProtocolVersionHeader
    · rfl
    · rw [hr.legacy (hc.versionPresent hreq habsent)]
      rfl
  | some h =>
    obtain ⟨hsupported, hagree⟩ := hc.version body hbody h (by simp [hr.version, hv])
    cases hbv : t.bodyProtocolVersion body (body.get "params") with
    | none => simp [hsupported, ensure]
    | some v => simp [hsupported, hagree v hbv, ensure]

theorem MeetsContract.checkName_eq (ht : policy.mcpTransport = some t)
    (hc : MeetsContract P t request) (ha : HeadersAgree P policy request)
    (hr : HeadersRead t request headers) (hbody : P.fromSlice request.body = some body) :
    t.checkName headers ((body.get "method").bind Json.asStr) (body.get "params") = .ok () := by
  unfold McpTransportPolicy.checkName
  cases hmethod : (body.get "method").bind Json.asStr with
  | none => rfl
  | some method =>
    cases hentry : t.mcpNameRequired.find? fun m => m.1 == method with
    | none => simp [hentry]
    | some entry =>
      cases hn : headers.name with
      | none =>
        have habsent : fieldValues request.headers mcpNameHeader = [] := by rw [hr.name, hn]; rfl
        have hex := hc.name body method hbody hmethod (by rw [hentry]; rfl) habsent
        simp [hentry, hr.legacy hex, ensure]
      | some h =>
        have hagree := ha.name t body method entry ht hbody hmethod hentry h
          (by simp [hr.name, hn])
        simp [hentry, hagree, ensure]

theorem MeetsContract.enforce_eq (ht : policy.mcpTransport = some t)
    (hc : MeetsContract P t request) (ha : HeadersAgree P policy request)
    (hread : t.read request = .ok headers) (hr : HeadersRead t request headers) :
    t.enforce P request = .ok () := by
  obtain ⟨body, hbody⟩ := hc.body
  simp [McpTransportPolicy.enforce, hbody, hread, hc.checkMethod_eq ha hr hbody,
    hc.checkProtocolVersion_eq hr hbody, hc.checkName_eq ht ha hr hbody]

end

/-! ## The signed request -/

/-- What the signer leaves: the request with its three evidence headers, over the base signed. -/
structure SignedRequest (P : Platform) (request signed : HttpRequest) (cs : List CoveredComponent)
    (params : SignatureParams) (base sigBytes : Bytes) : Prop where
  body : signed.body = request.body
  encoding : rejectContentEncoding signed.headers = .ok ()
  digest : fieldValues signed.headers "content-digest" = [contentDigestSha256 P request.body]
  input : requestSignatureInput signed = .ok ⟨cs, params⟩
  signature : signatureValueB64url signed.headers "signature" requestLabel.toList
    = .ok (b64urlEncode sigBytes)
  others : ∀ n : ComponentName, n ≠ .contentDigest →
    fieldValues signed.headers n.text = fieldValues request.headers n.text
  required : ∀ n ∈ requiredRequestComponents, (⟨n, false⟩ : CoveredComponent) ∈ cs
  noReq : ∀ c ∈ cs, c.req = false
  conditional : ∀ n ∈ conditionallyCoveredRequestHeaders,
    ∃ v, singleHeader signed.headers n.text = .ok v ∧
      (v.isSome = true → (⟨n, false⟩ : CoveredComponent) ∈ cs)
  base_eq : signatureBase cs params (.request signed) = .ok base

theorem signRequestWithSigner_eq_ok {P : Platform} {request signed : HttpRequest}
    {signBase : Signer} {keyId nonce : Str} {created expires : I64} {evidence : RequestEvidence}
    (h : signRequestWithSigner P request signBase keyId created expires nonce
      = .ok (signed, evidence)) :
    ∃ cs base sigBytes, signBase base = .ok sigBytes ∧ sigBytes.length = ed25519SignatureLen ∧
      evidence = .fromSignatureBase P base ∧
      SignedRequest P request signed cs (profileParams (some nonce) keyId created expires) base
        sigBytes := by
  simp only [signRequestWithSigner, bind_eq_ok, Except.ok.injEq, Prod.mk.injEq] at h
  obtain ⟨⟨⟩, hencoding, cs, hcs, base, hbase, headers, hemit, rfl, rfl⟩ := h
  obtain ⟨sigBytes, value, hsig, hlen, hvalue, hout⟩ := emitSignature_eq_ok hemit
  obtain ⟨hnodup, hrequired, hnoReq, hcond⟩ := requestComponents_eq_ok hcs
  obtain ⟨hmember, hparsed⟩ := signature_input_round_trip isLabel_requestLabel hnodup hvalue
  refine ⟨cs, base, sigBytes, hsig, hlen, rfl, rfl, ?_, ?_, ?_, ?_, ?_, hrequired, hnoReq, ?_, ?_⟩
  · exact hout.encoding (rejectContentEncoding_setHeader (by decide) hencoding)
  · exact (hout.component_eq .contentDigest).trans (fieldValues_setHeader_self (by decide))
  · simp only [requestSignatureInput, requiredHeader_eq_ok.2 hout.input, ok_bind, hmember, hparsed]
  · exact hout.signatureValueB64url_eq isLabel_requestLabel "signature"
  · intro n hn
    refine (hout.component_eq n).trans (fieldValues_setHeader_other ?_)
    cases n <;> first | exact absurd rfl hn | decide
  · intro n hn
    obtain ⟨v, hv, hmem⟩ := hcond n hn
    exact ⟨v, singleHeader_congr (hout.component_eq n) hv, hmem⟩
  · exact signatureBase_of_emitted { request with headers := setHeader request.headers _ _ }
      { request with headers } hout rfl rfl hbase

/-! ## The verifier's view -/

theorem acceptedAlgorithm_ed25519 (policy : VerifierPolicy) :
    policy.acceptedAlgorithm algEd25519.toList = some .ed25519 := by
  have hmem : ProfileAlgorithm.ed25519 ∈ policy.algorithms := by
    obtain ⟨a, rest, hcons⟩ := List.exists_cons_of_ne_nil policy.algorithms_ne_nil
    cases a
    simp [hcons]
  simp [VerifierPolicy.acceptedAlgorithm, ProfileAlgorithm.fromToken, hmem]

theorem checkParams_profileParams {policy : VerifierPolicy} {keyId nonce : Str}
    {created expires now : I64} (hwidth : created < expires)
    (hvalid : expires.saturatingSub created ≤ policy.maxSignatureValidity)
    (hfrom : created.saturatingSub policy.maxClockSkew ≤ now)
    (hto : now < expires.saturatingAdd policy.maxClockSkew) :
    checkParams (profileParams (some nonce) keyId created expires) policy now true
      = .ok ⟨created, expires, nonce, keyId, .ed25519⟩ := by
  have hwindow : windowAdmits created expires now policy.maxClockSkew = true := by
    simp [windowAdmits, hfrom, hto, hwidth]
  have hceiling : ¬ policy.maxSignatureValidity < expires.saturatingSub created := not_lt.2 hvalid
  simp [checkParams, profileParams, acceptedAlgorithm_ed25519, hwindow, hceiling, ensure]

theorem HeadersAgree.of_signed {P : Platform} {policy : VerifierPolicy}
    {request signed : HttpRequest} (hbody : signed.body = request.body)
    (hfields : ∀ n : ComponentName, n ≠ .contentDigest →
      fieldValues signed.headers n.text = fieldValues request.headers n.text)
    (h : HeadersAgree P policy request) : HeadersAgree P policy signed := by
  have hm : fieldValues signed.headers mcpMethodHeader = fieldValues request.headers mcpMethodHeader :=
    hfields .mcpMethod (by decide)
  have hn : fieldValues signed.headers mcpNameHeader = fieldValues request.headers mcpNameHeader :=
    hfields .mcpName (by decide)
  constructor
  · rw [hm, hbody]
    exact h.method
  · rw [hn, hbody]
    exact h.name

theorem MeetsContract.of_signed {P : Platform} {t : McpTransportPolicy}
    {request signed : HttpRequest} (hbody : signed.body = request.body)
    (hfields : ∀ n : ComponentName, n ≠ .contentDigest →
      fieldValues signed.headers n.text = fieldValues request.headers n.text)
    (h : MeetsContract P t request) : MeetsContract P t signed := by
  have hm : fieldValues signed.headers mcpMethodHeader = fieldValues request.headers mcpMethodHeader :=
    hfields .mcpMethod (by decide)
  have hn : fieldValues signed.headers mcpNameHeader = fieldValues request.headers mcpNameHeader :=
    hfields .mcpName (by decide)
  have hv : fieldValues signed.headers mcpProtocolVersionHeader
      = fieldValues request.headers mcpProtocolVersionHeader :=
    hfields .mcpProtocolVersion (by decide)
  have hexcused : Excused t signed ↔ Excused t request := by simp only [Excused, hm, hn, hv]
  constructor
  · rw [hbody]
    exact h.body
  · rw [hm, hexcused]
    exact h.method
  · rw [hv, hexcused]
    exact h.versionPresent
  · rw [hv, hbody]
    exact h.version
  · rw [hn, hbody, hexcused]
    exact h.name

theorem SignedRequest.transport {P : Platform} {policy : VerifierPolicy}
    {request signed : HttpRequest} {cs : List CoveredComponent} {params : SignatureParams}
    {base sigBytes : Bytes} (hs : SignedRequest P request signed cs params base sigBytes)
    (hagree : HeadersAgree P policy request)
    (hcontract : ∀ t, policy.mcpTransport = some t → MeetsContract P t request) :
    rejectMcpMethodDivergence P signed = .ok () ∧ policy.enforceMcpTransport P signed = .ok () := by
  obtain ⟨method, hm, -⟩ := hs.conditional .mcpMethod (by decide)
  obtain ⟨name, hn, -⟩ := hs.conditional .mcpName (by decide)
  obtain ⟨version, hv, -⟩ := hs.conditional .mcpProtocolVersion (by decide)
  have hagree' := hagree.of_signed hs.body hs.others
  refine ⟨hagree'.rejectMcpMethodDivergence_eq hm, ?_⟩
  unfold VerifierPolicy.enforceMcpTransport
  cases ht : policy.mcpTransport with
  | none => rfl
  | some t =>
    obtain ⟨headers, hread, hr⟩ := exists_headersRead (t := t) hm hv hn
    exact ((hcontract t ht).of_signed hs.body hs.others).enforce_eq ht hagree' hread hr

/-- **What is signed is accepted**: at every instant its window admits, the floor accepts a request
the signer signed, under a resolver that returns a key the signatures verify with, and gives it the
handle the signer gave it. -/
theorem sign_then_verify {P : Platform} {request signed : HttpRequest} {key : SigningKey}
    {keyId nonce : Str} {created expires now : I64} {evidence : RequestEvidence}
    {resolveActor : Resolver} {actor : ResolvedActor} {policy : VerifierPolicy}
    (hsign : signRequest P request key keyId created expires nonce = .ok (signed, evidence))
    (hideal : ∀ m, P.verifyStrict actor.verificationKey m (key.sign m) = true)
    (hjson : requireJsonMediaType request.headers "request content-type" = .ok ())
    (hagree : HeadersAgree P policy request)
    (hcontract : ∀ t, policy.mcpTransport = some t → MeetsContract P t request)
    (hwidth : created < expires)
    (hvalid : expires.saturatingSub created ≤ policy.maxSignatureValidity)
    (hfrom : created.saturatingSub policy.maxClockSkew ≤ now)
    (hto : now < expires.saturatingAdd policy.maxClockSkew)
    (hresolve : resolveActor keyId .request = .resolved actor) (hslot : actor.slot = .request) :
    ∃ out, floorRequest P signed resolveActor policy now = .ok out ∧ out.evidence = evidence := by
  obtain ⟨cs, base, sigBytes, hsig, hlen, rfl, hs⟩ := signRequestWithSigner_eq_ok hsign
  obtain ⟨hmethod, htransport⟩ := hs.transport hagree hcontract
  have hraw : key.sign base = sigBytes := by
    rw [localSig, okOr_eq_ok, b64urlDecode, b64urlEncode, Base64.decode_encode] at hsig
    exact Option.some.inj hsig
  subst hraw
  have hverify : verifyEd25519With P base (b64urlEncode (key.sign base)) actor.verificationKey
      = true := by
    simp only [verifyEd25519With, b64urlDecode, b64urlEncode, Base64.decode_encode, hlen, hideal]
    rfl
  have hmedia := requireJsonMediaType_congr (hs.others .contentType (by decide)) hjson
  have hdigest : verifyContentDigestSha256 P (contentDigestSha256 P request.body) signed.body
      = .ok () := by
    rw [hs.body]
    exact verifyContentDigestSha256_written P request.body
  have hcomponents : requireComponents cs requiredRequestComponents [] = .ok () := by
    simp only [requireComponents, bind_eq_ok, requireAll_eq_ok]
    exact ⟨(), hs.required, by simp⟩
  have hplain : (cs.any fun c => c.req) = false := by
    rw [List.any_eq_false]
    intro c hc
    simp [hs.noReq c hc]
  have hcoverage : requireConditionalCoverage signed.headers cs = .ok () :=
    requireCoverage_eq_ok.2 hs.conditional
  have hactor : resolveActorForSlot resolveActor keyId .request = .ok actor := by
    simp [resolveActorForSlot, hresolve, hslot]
  have hnoReq : ensure (!cs.any fun c => c.req) (malformed "req component on a request") = .ok () := by
    rw [hplain]
    rfl
  have hunder : verifyUnder P .ed25519 base (b64urlEncode (key.sign base)) actor.verificationKey
      .invalidSignature = .ok () := by
    rw [verifyUnder, hverify]
    rfl
  -- the stages of the floor, in its order
  rw [floorRequest, hs.encoding, ok_bind, hmedia, ok_bind, requiredHeader_eq_ok.2 hs.digest, ok_bind,
    hdigest, ok_bind, hs.input, ok_bind, hcomponents, ok_bind, hnoReq, ok_bind, hcoverage, ok_bind,
    checkParams_profileParams hwidth hvalid hfrom hto, ok_bind, hactor, ok_bind, hs.base_eq, ok_bind,
    hs.signature, ok_bind, hunder, ok_bind, hmethod, ok_bind, htransport, ok_bind]
  exact ⟨_, rfl, rfl⟩

/-! A `ping` request: its digests, its key and its signature are the real ones. -/

def pingBody : Bytes :=
  [123, 34, 109, 101, 116, 104, 111, 100, 34, 58, 34, 112, 105, 110, 103, 34, 125]

def pingRequest : HttpRequest where
  method := "POST".toList
  targetUri := "https://a/b".toList
  headers := [("Content-Type".toList, jsonMediaType.toList), ("Mcp-Method".toList, "ping".toList)]
  body := pingBody

def pingDigest : Digest :=
  ⟨[46, 177, 110, 49, 192, 24, 42, 91, 223, 40, 0, 180, 190, 255, 178, 172, 245, 9, 189, 225, 22, 4,
    189, 8, 123, 179, 19, 112, 46, 205, 220, 201], rfl⟩

def pingBase : Bytes :=
  (signatureBase ((requiredRequestComponents ++ [ComponentName.mcpMethod]).map fun n => ⟨n, false⟩)
    (profileParams (some ['n']) ['k'] 100 200)
    (.request { pingRequest with headers := pingRequest.headers ++ [("Content-Digest".toList,
      sha256Member.toList ++ ':' :: Base64.encode Base64.standard pingDigest.bytes ++ [':'])] })
  ).toOption.getD []

def pingSignature : Bytes :=
  [154, 97, 176, 14, 240, 21, 1, 12, 187, 54, 50, 118, 214, 174, 221, 167, 79, 81, 157, 194, 167,
    150, 210, 247, 36, 189, 21, 78, 194, 119, 192, 236, 175, 176, 175, 55, 182, 144, 195, 197, 238,
    127, 88, 49, 121, 57, 86, 115, 146, 223, 159, 172, 43, 4, 199, 41, 122, 239, 31, 165, 12, 216,
    240, 11]

def pingHandle : Digest :=
  ⟨[64, 36, 253, 186, 140, 201, 246, 86, 73, 103, 127, 238, 119, 232, 243, 172, 97, 80, 37, 8, 111,
    131, 130, 155, 50, 101, 110, 245, 65, 89, 81, 203], rfl⟩

def pingKey : SigningKey where
  sign m := if m = pingBase then pingSignature else List.replicate 64 0
  length_sign m := by
    split_ifs
    · rfl
    · exact List.length_replicate

def pingPlatform : Platform where
  sha256 b := if b = pingBody then pingDigest
    else if b = labeledPreimage evidenceLabelRequest pingBase then pingHandle
    else ⟨List.replicate 32 0, length_zeros⟩
  fromSlice b := if b = pingBody then some (.object [("method".toList, .string "ping".toList)])
    else none
  readDocument b := if b = pingBody then some (.object [("method".toList, .string "ping".toList)])
    else none
  isPoint b := b == sampleKey.bytes
  verifyStrict key preimage signature := key == sampleKey && signature == pingKey.sign preimage

def pingPolicy (strict : Bool) : VerifierPolicy :=
  { VerifierPolicy.default with
    mcpTransport := some ⟨["1".toList], strict, true, [], false, "v"⟩ }

theorem ping_verifies (m : Bytes) :
    pingPlatform.verifyStrict sampleKey m (pingKey.sign m) = true := by
  change (sampleKey == sampleKey && pingKey.sign m == pingKey.sign m) = true
  rw [beq_self_eq_true, beq_self_eq_true, Bool.and_self]

theorem ping_agrees (strict : Bool) : HeadersAgree pingPlatform (pingPolicy strict) pingRequest where
  method h hh := by
    have hvalues : fieldValues pingRequest.headers mcpMethodHeader = ["ping".toList] := by decide
    rw [hvalues, List.mem_singleton] at hh
    rw [hh]
    exact ⟨_, rfl, by decide⟩
  name t body method entry ht _ _ hentry := by
    cases ht
    cases hentry

theorem ping_evaluated :
    ∃ signed evidence,
      signRequest pingPlatform pingRequest pingKey ['k'] 100 200 ['n'] = .ok (signed, evidence) ∧
      floorRequest pingPlatform signed sampleResolver (pingPolicy true) 150
        = .error (.mcpTransportHeaderMissing mcpProtocolVersionHeader) := by
  have hrun : (signRequest pingPlatform pingRequest pingKey ['k'] 100 200 ['n']).map
        (fun p => floorRequest pingPlatform p.1 sampleResolver (pingPolicy true) 150)
      = .ok (.error (.mcpTransportHeaderMissing mcpProtocolVersionHeader)) := by decide +kernel
  cases hsign : signRequest pingPlatform pingRequest pingKey ['k'] 100 200 ['n'] with
  | error e =>
    rw [hsign] at hrun
    cases hrun
  | ok p =>
    rw [hsign] at hrun
    exact ⟨p.1, p.2, rfl, Except.ok.inj hrun⟩

theorem sign_then_verify_ping :
    ∃ signed evidence,
      signRequest pingPlatform pingRequest pingKey ['k'] 100 200 ['n'] = .ok (signed, evidence) ∧
      ∃ out, floorRequest pingPlatform signed sampleResolver (pingPolicy false) 199 = .ok out ∧
        out.evidence = evidence := by
  obtain ⟨signed, evidence, hsign, -⟩ := ping_evaluated
  have hresolve : sampleResolver ['k'] .request
      = .resolved ⟨⟨"client".toList, "d".toList, "s".toList, ['k']⟩, sampleKey, .request⟩ := rfl
  refine ⟨signed, evidence, hsign, sign_then_verify hsign ping_verifies (by decide)
    (ping_agrees false) ?_ (by decide) (by decide) (by decide) (by decide) hresolve rfl⟩
  intro t ht
  cases ht
  have hmethod : fieldValues pingRequest.headers mcpMethodHeader = ["ping".toList] := by decide
  have hversion : fieldValues pingRequest.headers mcpProtocolVersionHeader = [] := by decide
  constructor
  · exact ⟨_, rfl⟩
  · intro _ habsent
    rw [hmethod] at habsent
    cases habsent
  · intro hreq
    cases hreq
  · intro body _ h hh
    rw [hversion] at hh
    cases hh
  · intro body method _ _ hentry
    cases hentry

/-- Agreement with the body is not all that an attached contract asks for: this one requires a
protocol version, which the request does not carry. -/
theorem signed_request_outside_contract :
    ∃ signed evidence,
      signRequest pingPlatform pingRequest pingKey ['k'] 100 200 ['n'] = .ok (signed, evidence) ∧
      (∀ m, pingPlatform.verifyStrict sampleKey m (pingKey.sign m) = true) ∧
      (∀ name, (fieldValues pingRequest.headers name).length ≤ 1) ∧
      requireJsonMediaType pingRequest.headers "request content-type" = .ok () ∧
      HeadersAgree pingPlatform (pingPolicy true) pingRequest ∧
      checkParams (profileParams (some ['n']) ['k'] 100 200) (pingPolicy true) 150 true
        = .ok ⟨100, 200, ['n'], ['k'], .ed25519⟩ ∧
      floorRequest pingPlatform signed sampleResolver (pingPolicy true) 150
        = .error (.mcpTransportHeaderMissing mcpProtocolVersionHeader) := by
  obtain ⟨signed, evidence, hsign, hfloor⟩ := ping_evaluated
  refine ⟨signed, evidence, hsign, ping_verifies, ?_, by decide, ping_agrees true, ?_, hfloor⟩
  · -- the names of the two headers differ, so no name reads both
    intro name
    have hnames : eqIgnoreAsciiCase "Content-Type".toList "Mcp-Method".toList = false := by decide
    rw [fieldValues, List.length_map, pingRequest]
    by_cases hfirst : isField name ("Content-Type".toList, jsonMediaType.toList) = true
    · have hsecond : isField name ("Mcp-Method".toList, "ping".toList) = false := by
        rw [Bool.eq_false_iff]
        intro hsecond
        rw [Bool.eq_false_iff] at hnames
        apply hnames
        simp only [isField, eqIgnoreAsciiCase, beq_iff_eq] at hfirst hsecond ⊢
        exact hfirst.trans hsecond.symm
      rw [List.filter_cons_of_pos hfirst, List.filter_cons_of_neg (by rw [hsecond]; decide)]
      exact le_rfl
    · rw [List.filter_cons_of_neg hfirst]
      exact List.length_filter_le _ _
  · exact checkParams_profileParams (by decide) (by decide) (by decide) (by decide)

end McpRe.Http

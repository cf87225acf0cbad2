import McpRe.Admission.Record
import McpRe.Http.Verify.Body
import McpRe.Http.Verify.Chain
import McpRe.Lib.Code
import McpRe.Lib.Run

/-!
# What a store can make a verifier accept

The bytes of a stored record are anybody's. What is accepted is nevertheless what the authority
signed (`vouched_of_verdict`): the text under a valid signature was printed by the authority, the
artifact type keeps its other artifacts apart, and the printed claims read back. The two clauses of
`checkCurrentness` bound the age (`window_of_currentness`), and the floor only rises, under every
interleaving (`Above.step`).
-/

namespace McpRe.Admission

open Lib Lib.Result Lib.Text Lib.Run Http

/-! ## Printed values read back -/

theorem AdmissionStatus.read_token (status : AdmissionStatus) :
    AdmissionStatus.read (.string status.token.toList) = some status := by
  cases status <;> rfl

theorem AdmissionStateHeader.read_toValue (header : AdmissionHeader) :
    AdmissionStateHeader.read header.toValue = some ⟨header.typ, header.alg, header.kid⟩ := by
  have hmembers : Json.members [.need "typ", .need "alg", .need "kid"] header.toValue
      = some fun name => header.toValue.get name := by
    rw [AdmissionHeader.toValue, Json.members, if_pos]
    simp [Json.field, Json.Member.need]
  rw [read, hmembers, Option.bind_eq_bind, Option.bind_some]
  simp [AdmissionHeader.toValue, Json.get_field, Json.needed, Json.asStr]

theorem AdmissionStateClaims.read_toValue {claims : AdmissionStateClaims}
    (hgeneration : claims.mcpReAdmissionGeneration < 2 ^ 64)
    (hrevision : claims.mcpReStateRevision < 2 ^ 64) :
    AdmissionStateClaims.read claims.toValue = some claims := by
  have hmembers : Json.members [.need "iss", .need "iat", .need "nbf", .need "exp",
      .need "mcp_re_profile", .need "mcp_re_admission_id", .need "mcp_re_admission_generation",
      .need "mcp_re_admission_status", .need "mcp_re_state_revision", .need "issuer_kid"]
      claims.toValue = some fun name => claims.toValue.get name := by
    rw [toValue, Json.members, if_pos]
    simp [Json.field, Json.Member.need]
  rw [read, hmembers, Option.bind_eq_bind, Option.bind_some]
  simp [toValue, Json.get_field, Json.needed, Json.asStr, Json.asI64_ofI64, AdmissionStatus.read_token,
    Json.asU64_ofU64 hgeneration, Json.asU64_ofU64 hrevision]

theorem AdmissionHeader.depth_toValue (header : AdmissionHeader) : header.toValue.depth = 1 := by
  simp [toValue, Json.field, Json.depth, Json.depthMembers]

theorem AdmissionStateClaims.depth_toValue (claims : AdmissionStateClaims) :
    claims.toValue.depth = 1 := by
  simp [toValue, Json.field, Json.ofI64, Json.ofU64, Json.depth, Json.depthMembers]

/-! ## What the authority signs -/

/-- The other artifacts of an authority: a header of another `typ`, before any payload. -/
def OtherArtifact (sd : Serde) (text : Str) : Prop :=
  ∃ (header : AdmissionHeader) (h p : Bytes), header.typ ≠ admissionStateTyp.toList ∧
    sd.toVec header.toValue = some h ∧ text = b64urlEncode h ++ '.' :: b64urlEncode p

/-- An authority over an ideal signature scheme: what verifies under a configured key was signed
with it, as one of the records or as another artifact. -/
structure IdealAuthority (P : Platform) (sd : Serde) (V : AdmissionRecordVerifier)
    (records : Set AdmissionStateClaims) : Prop where
  /-- `serde_json` reads back what it printed. -/
  readBack : ∀ value text, value.depth ≤ recursionLimit → sd.toVec value = some text →
    P.readDocument text = some value
  unforgeable : ∀ kid key message sig, V.resolveAuthority kid = some key →
    P.verifyStrict key message sig = true → ∃ text, message = utf8 text ∧
      ((∃ c ∈ records, recordSigningInput sd c = .ok text) ∨ OtherArtifact sd text)
  /-- The counters of a record are `u64`. -/
  counters : ∀ c ∈ records, c.mcpReAdmissionGeneration < 2 ^ 64 ∧ c.mcpReStateRevision < 2 ^ 64

theorem recordSigningInput_eq_ok {sd : Serde} {claims : AdmissionStateClaims} {text : Str}
    (h : recordSigningInput sd claims = .ok text) :
    ∃ hbytes pbytes, sd.toVec claims.toValue = some pbytes ∧
      text = b64urlEncode hbytes ++ '.' :: b64urlEncode pbytes := by
  simp only [recordSigningInput, bind_eq_ok, okOr_eq_ok, Except.ok.injEq] at h
  obtain ⟨hbytes, -, pbytes, hclaims, rfl⟩ := h
  exact ⟨hbytes, pbytes, hclaims, rfl⟩

theorem dot_notMem_b64urlEncode (bytes : Bytes) : '.' ∉ b64urlEncode bytes := by
  intro hmem
  rcases Base64.mem_encode _ hmem with heq | ⟨i, heq⟩
  · exact absurd heq (by decide)
  · revert i
    decide

theorem splitRecord_eq_ok {jws h p s : Str} (hsplit : splitRecord jws = .ok (h, p, s)) :
    '.' ∉ h ∧ '.' ∉ p := by
  unfold splitRecord at hsplit
  split at hsplit
  next h' p' s' hsegments =>
    split_ifs at hsplit
    cases hsplit
    have hdot : ∀ q ∈ jws.splitOn '.', '.' ∉ q := fun q => notMem_of_mem_splitOn
    rw [hsegments] at hdot
    exact ⟨hdot h (by simp), hdot p (by simp)⟩
  next => cases hsplit

theorem decodeRecord_b64urlEncode {α : Type} (P : Platform) (read : Json → Option α)
    (bytes : Bytes) :
    decodeRecord P read (b64urlEncode bytes)
      = okOr ((P.readDocument bytes).bind read) .malformed := by
  rw [decodeRecord, b64urlDecode, b64urlEncode, Base64.decode_encode, okOr_some, ok_bind]

section

variable {P : Platform} {sd : Serde} {V : AdmissionRecordVerifier}
  {records : Set AdmissionStateClaims}

/-- **Origin.** Under a valid signature, a header of the record's type stands before claims that the
authority signed as a record. -/
theorem IdealAuthority.mem_records (hauth : IdealAuthority P sd V records) {h p : Str}
    (hh : '.' ∉ h) (hp : '.' ∉ p) {header : AdmissionStateHeader} {claims : AdmissionStateClaims}
    (hheader : decodeRecord P AdmissionStateHeader.read h = .ok header)
    (htyp : header.typ = admissionStateTyp.toList)
    (hclaims : decodeRecord P AdmissionStateClaims.read p = .ok claims) {kid : Str}
    {key : VerificationKey} {sig : Bytes} (hkey : V.resolveAuthority kid = some key)
    (hverifies : P.verifyStrict key (utf8 (h ++ '.' :: p)) sig = true) : claims ∈ records := by
  obtain ⟨text, htext, hsigned⟩ := hauth.unforgeable _ _ _ _ hkey hverifies
  replace htext := utf8_injective htext
  rcases hsigned with ⟨c, hc, hinput⟩ | ⟨other, hbytes, pbytes, hother, hprinted, rfl⟩
  · obtain ⟨hbytes, pbytes, hprinted, rfl⟩ := recordSigningInput_eq_ok hinput
    obtain ⟨-, rfl⟩ := Code.append_cons_inj_left htext hh (dot_notMem_b64urlEncode _)
    have hdepth : c.toValue.depth ≤ recursionLimit := by rw [c.depth_toValue]; decide
    have hread := hauth.readBack _ _ hdepth hprinted
    rw [decodeRecord_b64urlEncode, hread, Option.bind_some,
      AdmissionStateClaims.read_toValue (hauth.counters c hc).1 (hauth.counters c hc).2] at hclaims
    cases hclaims
    exact hc
  · obtain ⟨rfl, -⟩ := Code.append_cons_inj_left htext hh (dot_notMem_b64urlEncode _)
    have hdepth : other.toValue.depth ≤ recursionLimit := by rw [other.depth_toValue]; decide
    have hread := hauth.readBack _ _ hdepth hprinted
    rw [decodeRecord_b64urlEncode, hread, Option.bind_some,
      AdmissionStateHeader.read_toValue] at hheader
    cases hheader
    exact absurd htyp hother

/-- **The window.** The two clauses of the currentness check bound the age of a record by the
budget, in exact integers. -/
theorem window_of_currentness {claims : AdmissionStateClaims} {c : AdmissionStateCurrentness}
    {now : I64} (hage : c.maxRecordAge.val < 2 ^ 63 - 1)
    (h : checkCurrentness claims c now = .ok ()) :
    claims.iat.val - c.maxClockSkew.val ≤ now.val ∧
      now.val < claims.iat.val + c.maxRecordAge.val + c.maxClockSkew.val := by
  simp only [checkCurrentness, bind_eq_ok, ensure_eq_ok, Bool.not_eq_true', Bool.or_eq_false_iff,
    decide_eq_false_iff_not, not_lt, not_le, I64.lt_iff, I64.le_iff, I64.val_saturatingAdd,
    I64.val_saturatingSub] at h
  obtain ⟨-, ⟨⟨⟨hnbf, hexp⟩, -⟩, hiat⟩, hspan⟩ := h
  have hnow := now.min_le
  have hnow' := now.le_max
  have hiat' := claims.iat.le_max
  have hnbf' := claims.nbf.min_le
  have hskew := c.maxClockSkew.min_le
  constructor
  · -- where the sum saturates below, the clause on `nbf` refuses the record
    omega
  · -- the budget is below the largest `i64`, so the difference has not saturated above
    omega

/-! ## One verification -/

/-- A record of the authority that says what was accepted, of the workload the call names, and that
is inside the budget at the instant of the call. -/
structure Vouches (V : AdmissionRecordVerifier) (c : AdmissionStateClaims) (call : VerifyCall)
    (accepted : CurrentAdmissionState) : Prop where
  subject : c.mcpReAdmissionId = call.admissionId
  profile : c.mcpReProfile = V.profile
  state : accepted.state
    = ⟨call.admissionId, c.mcpReAdmissionGeneration, c.mcpReAdmissionStatus⟩
  revision : accepted.revision = c.mcpReStateRevision
  notBefore : c.iat.val - V.currentness.maxClockSkew.val ≤ call.now.val
  before : call.now.val
    < c.iat.val + V.currentness.maxRecordAge.val + V.currentness.maxClockSkew.val

/-- The authority signed a record that vouches for what was accepted. -/
def Vouched (V : AdmissionRecordVerifier) (records : Set AdmissionStateClaims) (call : VerifyCall)
    (accepted : CurrentAdmissionState) : Prop :=
  ∃ c ∈ records, Vouches V c call accepted

theorem verifyEd25519With_eq_true {preimage : Bytes} {signature : Str} {key : VerificationKey}
    (h : verifyEd25519With P preimage signature key = true) :
    ∃ sig, P.verifyStrict key preimage sig = true := by
  unfold verifyEd25519With at h
  split at h
  · cases h
  · exact ⟨_, (Bool.and_eq_true_iff.1 h).2⟩

theorem vouched_of_verdict (hauth : IdealAuthority P sd V records)
    (hage : V.currentness.maxRecordAge.val < 2 ^ 63 - 1) {s : VerifierState} {call : VerifyCall}
    {accepted : CurrentAdmissionState} (h : s.verdict P V call = .ok accepted) :
    Vouched V records call accepted ∧
      ∀ floor, s.observed call.admissionId = some floor → floor ≤ accepted.revision := by
  simp only [VerifierState.verdict, verifyAdmissionStateRecord, bind_eq_ok, ensure_eq_ok,
    okOr_eq_ok, Bool.and_eq_true, beq_iff_eq, Bool.not_eq_true', Except.ok.injEq] at h
  obtain ⟨⟨hseg, pseg, sseg⟩, hsplit, header, hheader, -, ⟨htyp, -⟩, claims, hclaims, -, -, key,
    hkey, signature, -, -, hsignature, -, hprofile, -, hsubject, ⟨⟩, hcurrent, -, hfloor, rfl⟩ := h
  obtain ⟨sig, hverifies⟩ := verifyEd25519With_eq_true hsignature
  obtain ⟨hdot, hdot'⟩ := splitRecord_eq_ok hsplit
  have hmem := hauth.mem_records hdot hdot' hheader htyp hclaims hkey hverifies
  obtain ⟨hfrom, huntil⟩ := window_of_currentness hage hcurrent
  refine ⟨⟨claims, hmem, hsubject, hprofile, by rw [hsubject], rfl, hfrom, huntil⟩, ?_⟩
  intro floor hobserved
  simpa [hobserved] using hfloor

/-! ## The calls of a process -/

/-- What a step of the verifier can be. -/
inductive Move (P : Platform) (V : AdmissionRecordVerifier) (s : VerifierState) :
    VerifierAction → Option VerifyReturn × VerifierState → Prop where
  | stay (action : VerifierAction) : Move P V s action (none, s)
  | begin (thread : Nat) (call : VerifyCall) (hidle : s.calls thread = .idle) :
    Move P V s (.begin thread call) (none, s.moved thread (.begun call))
  | accept (thread : Nat) (call : VerifyCall) (accepted : CurrentAdmissionState)
    (hverdict : s.verdict P V call = .ok accepted) :
    Move P V s (.check thread) (none, s.moved thread (.verified call accepted))
  | refuse (thread : Nat) (call : VerifyCall) (refusal : AdmissionRecordRefusal) :
    Move P V s (.check thread) (some ⟨call, .error refusal⟩, s.moved thread .idle)
  | record (thread : Nat) (call : VerifyCall) (accepted : CurrentAdmissionState)
    (hverified : s.calls thread = .verified call accepted) :
    Move P V s (.record thread) (some ⟨call, .ok accepted⟩,
      { s.moved thread .idle with
        observed := recordObserved s.observed call.admissionId accepted.revision })

theorem move_step (s : VerifierState) (action : VerifierAction) :
    Move P V s action (s.step P V action) := by
  cases action with
  | begin thread call =>
    cases hcall : s.calls thread with
    | idle => simpa only [VerifierState.step, hcall] using .begin thread call hcall
    | begun | verified => simpa only [VerifierState.step, hcall] using .stay _
  | check thread =>
    cases hcall : s.calls thread with
    | begun call =>
      cases hverdict : s.verdict P V call with
      | ok accepted =>
        simpa only [VerifierState.step, hcall, hverdict] using .accept thread call accepted hverdict
      | error refusal =>
        simpa only [VerifierState.step, hcall, hverdict] using .refuse thread call refusal
    | idle | verified => simpa only [VerifierState.step, hcall] using .stay _
  | record thread =>
    cases hcall : s.calls thread with
    | verified call accepted =>
      simpa only [VerifierState.step, hcall] using .record thread call accepted hcall
    | idle | begun => simpa only [VerifierState.step, hcall] using .stay _

theorem calls_moved (s : VerifierState) (thread thread' : Nat) (stage : Verifying) :
    (s.moved thread stage).calls thread' = if thread' = thread then stage else s.calls thread' :=
  Function.update_apply ..

/-- What is accepted and not yet recorded has a record of the authority behind it. -/
def Backed (V : AdmissionRecordVerifier) (records : Set AdmissionStateClaims)
    (s : VerifierState) : Prop :=
  ∀ thread call accepted, s.calls thread = .verified call accepted →
    Vouched V records call accepted

theorem Backed.step (hauth : IdealAuthority P sd V records)
    (hage : V.currentness.maxRecordAge.val < 2 ^ 63 - 1) {s : VerifierState}
    (h : Backed V records s) (action : VerifierAction) :
    Backed V records (s.step P V action).2 := by
  intro thread' call' accepted' hstage
  generalize hnext : s.step P V action = next at hstage
  have hmove := hnext ▸ move_step (P := P) (V := V) s action
  cases hmove with
  | stay => exact h _ _ _ hstage
  | begin thread call | refuse thread call =>
    rw [calls_moved] at hstage
    split_ifs at hstage
    exact h _ _ _ hstage
  | accept thread call accepted hverdict =>
    rw [calls_moved] at hstage
    split_ifs at hstage
    · cases hstage
      exact (vouched_of_verdict hauth hage hverdict).1
    · exact h _ _ _ hstage
  | record thread call accepted hverified =>
    rw [calls_moved] at hstage
    split_ifs at hstage
    exact h _ _ _ hstage

/-! ## The floor -/

def Floored (admissionId : Str) (revision : Nat) (s : VerifierState) : Prop :=
  ∃ floor, s.observed admissionId = some floor ∧ revision ≤ floor

theorem floored_recordObserved (s : VerifierState) (call : VerifyCall) (revision : Nat) :
    ∃ floor, recordObserved s.observed call.admissionId revision call.admissionId = some floor ∧
      revision ≤ floor :=
  ⟨_, Function.update_self .., le_max_right _ _⟩

theorem Floored.step {admissionId : Str} {revision : Nat} {s : VerifierState}
    (h : Floored admissionId revision s) (action : VerifierAction) :
    Floored admissionId revision (s.step P V action).2 := by
  have hmove := move_step (P := P) (V := V) s action
  generalize s.step P V action = next at hmove
  cases hmove with
  | stay | begin | accept | refuse => exact h
  | record thread call accepted hverified =>
    obtain ⟨floor, hfloor, hle⟩ := h
    by_cases hid : admissionId = call.admissionId
    · subst hid
      refine ⟨_, Function.update_self .., hle.trans ?_⟩
      rw [hfloor, Option.getD_some]
      exact le_max_left _ _
    · exact ⟨floor, (Function.update_of_ne hid ..).trans hfloor, hle⟩

/-- The floor has reached a revision, and so has what a thread is about to return. -/
structure Above (thread : Nat) (admissionId : Str) (revision : Nat) (s : VerifierState) :
    Prop where
  floored : Floored admissionId revision s
  verified : ∀ call accepted, s.calls thread = .verified call accepted →
    call.admissionId = admissionId → revision ≤ accepted.revision

theorem Above.step (hauth : IdealAuthority P sd V records)
    (hage : V.currentness.maxRecordAge.val < 2 ^ 63 - 1) {thread : Nat} {admissionId : Str}
    {revision : Nat} {s : VerifierState} (h : Above thread admissionId revision s)
    (action : VerifierAction) : Above thread admissionId revision (s.step P V action).2 := by
  refine ⟨h.floored.step action, ?_⟩
  intro call' accepted' hstage hid
  generalize hnext : s.step P V action = next at hstage
  have hmove := hnext ▸ move_step (P := P) (V := V) s action
  cases hmove with
  | stay => exact h.verified _ _ hstage hid
  | begin | refuse | record =>
    rw [calls_moved] at hstage
    split_ifs at hstage
    exact h.verified _ _ hstage hid
  | accept thread' call accepted hverdict =>
    rw [calls_moved] at hstage
    split_ifs at hstage
    · cases hstage
      obtain ⟨floor, hfloor, hle⟩ := h.floored
      exact hle.trans ((vouched_of_verdict hauth hage hverdict).2 floor (hid ▸ hfloor))
    · exact h.verified _ _ hstage hid

abbrev VerifierStep := Step VerifierState VerifierAction (Option VerifyReturn)

theorem record_of_answer {t : VerifierStep}
    (ht : t.before.step P V t.event = (t.answer, t.after)) {call : VerifyCall}
    {accepted : CurrentAdmissionState} (hanswer : t.answer = some ⟨call, .ok accepted⟩) :
    ∃ thread, t.event = .record thread ∧ t.before.calls thread = .verified call accepted ∧
      Floored call.admissionId accepted.revision t.after := by
  obtain ⟨before, event, answer, after⟩ := t
  dsimp only at ht hanswer ⊢
  have hmove := move_step (P := P) (V := V) before event
  rw [ht] at hmove
  cases hmove with
  | stay | begin | accept | refuse => cases hanswer
  | record thread call accepted hverified =>
    cases hanswer
    exact ⟨thread, rfl, hverified, floored_recordObserved ..⟩

end

/-- **A party that can write the store cannot un-revoke.** Whatever the store hands to the calls of
a process, and however they interleave: what is accepted the authority signed, for that workload and
profile and inside the budget; and after an accepted state has been returned, a call that begins
returns no smaller revision for the same workload. -/
theorem store_cannot_unrevoke (P : Platform) (sd : Serde) (V : AdmissionRecordVerifier)
    (records : Set AdmissionStateClaims) (hauth : IdealAuthority P sd V records)
    (hage : V.currentness.maxRecordAge.val < 2 ^ 63 - 1) (events : List VerifierAction) :
    (∀ t ∈ trace (VerifierState.step P V) .new events,
      ∀ (call : VerifyCall) (accepted : CurrentAdmissionState),
      t.answer = some ⟨call, .ok accepted⟩ → ∃ c ∈ records, Vouches V c call accepted) ∧
    ∀ (pre : List VerifierStep) (t : VerifierStep) (mid : List VerifierStep) (s : VerifierStep)
      (later : List VerifierStep) (u : VerifierStep) (post : List VerifierStep) (thread : Nat)
      (call call' call'' : VerifyCall) (accepted accepted' : CurrentAdmissionState),
      trace (VerifierState.step P V) .new events
        = pre ++ t :: (mid ++ s :: (later ++ u :: post)) →
      t.answer = some ⟨call, .ok accepted⟩ →
      s.event = .begin thread call' → s.before.calls thread = .idle →
      u.event = .record thread → u.answer = some ⟨call'', .ok accepted'⟩ →
      call''.admissionId = call.admissionId → accepted.revision ≤ accepted'.revision := by
  constructor
  · intro t ht call accepted hanswer
    have hnew : Backed V records .new := fun _ _ _ hstage => by cases hstage
    have hbacked := (invariant (fun s action hs => hs.step hauth hage action) hnew events).1 t ht
    obtain ⟨thread, -, hverified, -⟩ := record_of_answer (step_eq_of_mem_trace _ ht).2 hanswer
    exact hbacked.1 thread call accepted hverified
  · intro pre t mid s later u post thread call call' call'' accepted accepted' hrun hanswer hbegin
      hidle hrecord hanswer' hid
    have hmem : ∀ v ∈ [t, s, u], v ∈ trace (VerifierState.step P V) .new events := by
      simp [hrun]
    have ht := (step_eq_of_mem_trace _ (hmem t (by simp))).2
    have hs := (step_eq_of_mem_trace _ (hmem s (by simp))).2
    have hu := (step_eq_of_mem_trace _ (hmem u (by simp))).2
    -- from the step that returns to the one that begins, the floor stays
    obtain ⟨-, -, -, hfloor⟩ := record_of_answer ht hanswer
    obtain ⟨-, between, -, -, hbefore⟩ := exists_between _ hrun
    have hfloored : Floored call.admissionId accepted.revision s.before :=
      hbefore ▸ (invariant (I := Floored call.admissionId accepted.revision)
        (fun _ action hs => hs.step action) hfloor between).2
    -- and from there on it binds the thread
    have habove : Above thread call.admissionId accepted.revision s.before :=
      ⟨hfloored, fun _ _ hstage => by rw [hidle] at hstage; cases hstage⟩
    have hafter : Above thread call.admissionId accepted.revision s.after := by
      have hnext := habove.step hauth hage s.event
      rwa [hs] at hnext
    have hrun' : trace (VerifierState.step P V) .new events
        = (pre ++ t :: mid) ++ s :: (later ++ u :: post) := by
      rw [hrun, List.append_assoc, List.cons_append]
    obtain ⟨-, rest, -, -, hreached⟩ := exists_between _ hrun'
    have hfinal : Above thread call.admissionId accepted.revision u.before :=
      hreached ▸ (invariant (I := Above thread call.admissionId accepted.revision)
        (fun _ action hs => hs.step hauth hage action) hafter rest).2
    obtain ⟨thread', hrecord', hverified, -⟩ := record_of_answer hu hanswer'
    obtain rfl : thread' = thread := by
      rw [hrecord] at hrecord'
      exact (VerifierAction.record.inj hrecord').symm
    exact hfinal.verified call'' accepted' hverified hid

/-! ## A revocation, and the record before it replayed

The signatures are real ones. -/

namespace RecordSample

open TwoHops (body toDigest rootKey)

def header : AdmissionHeader := ⟨admissionStateTyp.toList, admissionStateAlg.toList, ['r']⟩

def claims (status : AdmissionStatus) (revision : Nat) (iat exp : I64) : AdmissionStateClaims where
  iss := ['i']
  iat := iat
  nbf := iat
  exp := exp
  mcpReProfile := profileTag.toList
  mcpReAdmissionId := ['w']
  mcpReAdmissionGeneration := 1
  mcpReAdmissionStatus := status
  mcpReStateRevision := revision
  issuerKid := ['r']

def admitted : AdmissionStateClaims := claims .admitted 1 100 160

def revoked : AdmissionStateClaims := claims .revoked 2 110 170

def admittedSignature : Bytes :=
  [178, 55, 162, 129, 147, 204, 181, 185, 88, 64, 127, 248, 253, 251, 57, 14, 131, 117, 151, 194,
   139, 105, 220, 251, 23, 104, 229, 107, 196, 115, 49, 252, 86, 157, 99, 176, 45, 120, 254, 110,
   235, 189, 126, 17, 189, 129, 248, 113, 120, 240, 84, 163, 29, 97, 122, 166, 128, 89, 190, 17,
   8, 175, 151, 15]

def revokedSignature : Bytes :=
  [59, 207, 241, 26, 190, 90, 49, 104, 89, 245, 237, 86, 45, 142, 95, 102, 58, 221, 108, 154, 222,
   222, 171, 5, 39, 36, 178, 247, 39, 28, 141, 8, 253, 23, 62, 102, 133, 191, 182, 223, 6, 103,
   176, 128, 182, 132, 110, 120, 9, 177, 79, 151, 98, 214, 112, 104, 33, 245, 180, 27, 197, 33,
   116, 12]

def documents : List (Bytes × Json) :=
  [header.toValue, admitted.toValue, revoked.toValue].map fun j => (body j, j)

def signingInput (claims : AdmissionStateClaims) : Str :=
  b64urlEncode (body header.toValue) ++ '.' :: b64urlEncode (body claims.toValue)

def platform : Platform where
  sha256 _ := toDigest []
  fromSlice _ := none
  readDocument b := (documents.find? fun d => d.1 == b).map Prod.snd
  isPoint b := b == rootKey
  verifyStrict key message sig :=
    key.bytes == rootKey &&
      (message == utf8 (signingInput admitted) && sig == admittedSignature
        || message == utf8 (signingInput revoked) && sig == revokedSignature)

def verifier : AdmissionRecordVerifier where
  resolveAuthority kid := if kid = ['r'] then some ⟨rootKey⟩ else none
  profile := profileTag.toList
  currentness := ⟨60, 5⟩

def stored (claims : AdmissionStateClaims) (signature : Bytes) : VerifyCall where
  admissionId := ['w']
  raw := signingInput claims ++ '.' :: b64urlEncode signature
  now := 120

def older : VerifyCall := stored admitted admittedSignature

def newer : VerifyCall := stored revoked revokedSignature

def events : List VerifierAction :=
  [.begin 0 older, .check 0, .record 0, .begin 1 newer, .check 1, .record 1, .begin 0 older,
    .check 0]

def run : List VerifierStep := trace (VerifierState.step platform verifier) .new events

theorem idealAuthority :
    IdealAuthority platform (tableSerde documents) verifier {admitted, revoked} where
  readBack := by
    have hcarrier : Carrier { platform with fromSlice := platform.readDocument }
        (tableSerde documents) :=
      carrier_tableSerde (fun _ => rfl) (by decide +kernel) (by decide +kernel)
    exact hcarrier.read_back
  unforgeable := by
    intro kid key message sig _ hverifies
    simp only [platform, Bool.and_eq_true, Bool.or_eq_true, beq_iff_eq] at hverifies
    rcases hverifies with ⟨-, ⟨rfl, -⟩ | ⟨rfl, -⟩⟩
    · refine ⟨signingInput admitted, rfl, .inl ⟨admitted, .inl rfl, ?_⟩⟩
      decide +kernel
    · refine ⟨signingInput revoked, rfl, .inl ⟨revoked, .inr rfl, ?_⟩⟩
      decide +kernel
  counters := by
    rintro c (rfl | rfl) <;> decide

/-- **The revocation is accepted after the admission, and the admission not after it.** -/
theorem admission_not_replayed :
    run.map Step.answer =
        [none, none, some ⟨older, .ok ⟨⟨['w'], 1, .admitted⟩, 1⟩⟩, none, none,
          some ⟨newer, .ok ⟨⟨['w'], 1, .revoked⟩, 2⟩⟩, none,
          some ⟨older, .error .revisionRewound⟩] ∧
      ∃ c ∈ ({admitted, revoked} : Set AdmissionStateClaims),
        Vouches verifier c newer ⟨⟨['w'], 1, .revoked⟩, 2⟩ := by
  have hanswers : run.map Step.answer =
      [none, none, some ⟨older, .ok ⟨⟨['w'], 1, .admitted⟩, 1⟩⟩, none, none,
        some ⟨newer, .ok ⟨⟨['w'], 1, .revoked⟩, 2⟩⟩, none,
        some ⟨older, .error .revisionRewound⟩] := by decide +kernel
  refine ⟨hanswers, ?_⟩
  obtain ⟨t, ht, hanswer⟩ : ∃ t ∈ run, t.answer = some ⟨newer, .ok ⟨⟨['w'], 1, .revoked⟩, 2⟩⟩ :=
    List.mem_map.1 (hanswers ▸ by simp)
  exact (store_cannot_unrevoke platform (tableSerde documents) verifier {admitted, revoked}
    idealAuthority (by decide) events).1 t ht newer _ hanswer

end RecordSample

end McpRe.Admission

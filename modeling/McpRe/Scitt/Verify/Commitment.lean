import McpRe.Http.Verify.Chain
import McpRe.Lib.Delimited
import McpRe.Scitt.Commitment

/-!
# Retained evidence and the commitment

A submission's preimage determines it, so where the hash tells the submissions apart a matching
submission digest means the same hops. Of a record with a verified hop everything else is compared as
well; of a record with none, only the submission is.

* `submittedPreimage_eq_iff`: one preimage, one submission;
* `retained_evidence_iff`: retained evidence corresponds to exactly what was committed, for just the
  submissions whose first hop verifies.
-/

namespace McpRe.Scitt

open Lib Lib.Result Lib.Text
open McpRe.Http

/-! ## The submission's preimage -/

theorem length_beBytes64 (n : Nat) : (beBytes64 n).length = 8 := by
  simp [beBytes64]

theorem beBytes64_delimits : Delimits beBytes64 {n | n < 2 ^ 64} := by
  refine Delimits.of_length ?_ fun n _ => length_beBytes64 n
  intro a ha b hb heq
  have hbyte : ∀ i < 8, a / 256 ^ (7 - i) % 256 = b / 256 ^ (7 - i) % 256 := by
    intro i hi
    have hget := congrArg (fun bytes : Bytes => bytes[i]?) heq
    simp only [beBytes64, List.getElem?_map, List.getElem?_range hi, Option.map_some,
      Option.some.injEq] at hget
    simpa using congrArg UInt8.toNat hget
  have hmod : ∀ k ≤ 8, a % 256 ^ k = b % 256 ^ k := by
    intro k hk
    induction k with
    | zero => rw [pow_zero, Nat.mod_one, Nat.mod_one]
    | succ k ih =>
      have hdigit := hbyte (7 - k) (by omega)
      have hindex : 7 - (7 - k) = k := by omega
      rw [hindex] at hdigit
      rw [Nat.mod_pow_succ, Nat.mod_pow_succ, ih (by omega), hdigit]
  have hpow : 256 ^ 8 = 2 ^ 64 := by norm_num
  have hall := hmod 8 le_rfl
  rwa [hpow, Nat.mod_eq_of_lt ha, Nat.mod_eq_of_lt hb] at hall

/-- The length of a Rust value fits its 8 octets. -/
def Fits (bytes : Bytes) : Prop := bytes.length < 2 ^ 64

theorem lengthPrefixed_delimits : Delimits lengthPrefixed {part | Fits part} :=
  beBytes64_delimits.lengthPrefixed

def TextFits (s : Str) : Prop := Fits (utf8 s)

theorem text_delimits : Delimits (fun s => lengthPrefixed (utf8 s)) {s | TextFits s} :=
  lengthPrefixed_delimits.comap utf8_injective (fun _ => rfl) fun _ hs => hs

def HeadersFit (headers : Headers) : Prop :=
  headers.length < 2 ^ 64 ∧ ∀ kv ∈ headers, TextFits kv.1 ∧ TextFits kv.2

theorem headersBytes_delimits : Delimits headersBytes {headers | HeadersFit headers} :=
  (text_delimits.append text_delimits).counted beBytes64_delimits

/-- The lengths in a hop fit. -/
@[mk_iff]
structure HopFits (hop : RetainedHop) : Prop where
  method : TextFits hop.request.method
  targetUri : TextFits hop.request.targetUri
  requestBody : Fits hop.request.body
  responseBody : Fits hop.response.body
  requestHeaders : HeadersFit hop.request.headers
  responseHeaders : HeadersFit hop.response.headers

/-- What a hop's bytes are the bytes of, in their order. -/
def layout (hop : RetainedHop) :
    Nat × (Str × Str × Bytes × Bytes) × Headers × Headers :=
  (hop.response.status.toNat,
    (hop.request.method, hop.request.targetUri, hop.request.body, hop.response.body),
    hop.request.headers, hop.response.headers)

theorem layout_injective : Function.Injective layout := by
  rintro ⟨⟨m, t, h, b⟩, ⟨s, h', b'⟩⟩ ⟨⟨m', t', k, c⟩, ⟨s', k', c'⟩⟩ heq
  simp only [layout, Prod.mk.injEq] at heq
  obtain ⟨hs, ⟨rfl, rfl, rfl, rfl⟩, rfl, rfl⟩ := heq
  obtain rfl := UInt16.toNat_inj.1 hs
  rfl

theorem bytes_delimits : Delimits RetainedHop.bytes {hop | HopFits hop} := by
  have hparts := text_delimits.append
    (text_delimits.append (lengthPrefixed_delimits.append lengthPrefixed_delimits))
  have hheaders := headersBytes_delimits.append headersBytes_delimits
  refine (beBytes64_delimits.append (hparts.append hheaders)).comap layout_injective
    (fun hop => by simp [RetainedHop.bytes, layout]) fun hop hfits => ?_
  have hstatus : hop.response.status.toNat < 2 ^ 64 :=
    hop.response.status.toNat_lt.trans (by norm_num)
  exact ⟨hstatus, ⟨hfits.method, hfits.targetUri, hfits.requestBody, hfits.responseBody⟩,
    hfits.requestHeaders, hfits.responseHeaders⟩

theorem bytes_ne_nil (hop : RetainedHop) : hop.bytes ≠ [] := by
  intro hnil
  have hlength := congrArg List.length hnil
  rw [RetainedHop.bytes, List.length_append, List.length_append, length_beBytes64,
    List.length_nil] at hlength
  omega

/-- The hops are read off the preimage. The count in front of them is not needed for it, so it does
not matter how many there are. -/
theorem eq_of_submittedPreimage_eq {a b : List RetainedHop} (ha : ∀ hop ∈ a, HopFits hop)
    (hb : ∀ hop ∈ b, HopFits hop) (h : submittedPreimage a = submittedPreimage b) : a = b := by
  unfold submittedPreimage at h
  rw [List.append_assoc, List.append_assoc] at h
  have hcounted := List.append_cancel_left h
  have hcount : (beBytes64 a.length).length = (beBytes64 b.length).length := by
    rw [length_beBytes64, length_beBytes64]
  exact bytes_delimits.flatMap_injOn (fun hop _ => bytes_ne_nil hop) ha hb
    (List.append_inj hcounted hcount).2

/-- **A submission names exactly the retained bytes**: one preimage, the same hops. Of the hops only
the lengths are assumed to be those of Rust values, which are below `2 ^ 64`. -/
theorem submittedPreimage_eq_iff {a b : List RetainedHop} (ha : ∀ hop ∈ a, HopFits hop)
    (hb : ∀ hop ∈ b, HopFits hop) : submittedPreimage a = submittedPreimage b ↔ a = b :=
  ⟨eq_of_submittedPreimage_eq ha hb, congrArg submittedPreimage⟩

/-- A hop with one request header, and no bodies. -/
def headed (name value : Str) : RetainedHop where
  request := ⟨['P'], ['u'], [(name, value)], []⟩
  response := ⟨200, [], []⟩

theorem submittedPreimage_ne_moved :
    submittedPreimage [headed ['a'] ['b', 'c']] ≠ submittedPreimage [headed ['a', 'b'] ['c']] := by
  have hfits : ∀ nv ∈ [(['a'], ['b', 'c']), (['a', 'b'], ['c'])],
      ∀ hop ∈ [headed nv.1 nv.2], HopFits hop := by
    simp only [hopFits_iff, HeadersFit, TextFits, Fits]
    decide +kernel
  intro heq
  have hsame := (submittedPreimage_eq_iff (hfits (['a'], ['b', 'c']) (by simp))
    (hfits (['a', 'b'], ['c']) (by simp))).1 heq
  exact absurd hsame (by decide)

/-- The lengths in a submission fit, as those of Rust values do. -/
def SubmissionFits (hops : List RetainedHop) : Prop :=
  hops.length < 2 ^ 64 ∧ ∀ hop ∈ hops, HopFits hop

theorem submittedPreimage_injOn : Set.InjOn submittedPreimage {hops | SubmissionFits hops} := by
  intro a ha b hb heq
  exact eq_of_submittedPreimage_eq ha.2 hb.2 heq

/-! ## A verified hop -/

section

variable (P : Platform) (V : ChainVerification)

/-- The first hop of a submission verifies. -/
def firstVerifies : List RetainedHop → Bool
  | [] => false
  | hop :: rest => (V.verifyHop P hop ⟨0, none, decide (1 = (hop :: rest).length)⟩).isOk

variable {P V}

theorem exists_reconstructFrom_eq (total i : Nat) (evidence : List HopEvidence)
    (hops : List RetainedHop) :
    ∃ more, (reconstructFrom P V total i evidence hops).2 = evidence ++ more := by
  induction hops generalizing i evidence with
  | nil => exact ⟨[], by simp [reconstructFrom]⟩
  | cons hop hops ih =>
    unfold reconstructFrom
    split
    next e _ =>
      obtain ⟨more, hmore⟩ := ih (i + 1) (evidence ++ [e])
      exact ⟨e :: more, by rw [hmore, List.append_assoc]; rfl⟩
    · exact ⟨[], (List.append_nil _).symm⟩

theorem b64urlEncode_ne_nil {bytes : Bytes} (h : bytes ≠ []) : b64urlEncode bytes ≠ [] := by
  intro hnil
  have hempty : b64urlEncode bytes = b64urlEncode [] := hnil
  exact h (Base64.encode_injective _ hempty)

theorem digest_bytes_ne_nil (digest : Digest) : digest.bytes ≠ [] := by
  intro hnil
  have hlength := digest.length_eq
  rw [hnil] at hlength
  cases hlength

theorem digestValue_ne_nil {hop : RetainedHop} {position : HopPosition} {e : HopEvidence}
    (h : V.verifyHop P hop position = .ok e) : e.requestEvidence.digestValue ≠ [] := by
  obtain ⟨c, hfacts, _⟩ := verifyHop_eq_ok.1 h
  obtain ⟨_, _, out, _, _, _, hevidence, _⟩ :=
    VerifiedHop.request_checked (P := P) (V := V) ⟨hop, e, c, hfacts⟩
  rw [hevidence]
  exact b64urlEncode_ne_nil (digest_bytes_ne_nil _)

/-- **The evidence of a chain starts with that of its first hop**, where that verifies, and is empty
where it does not. -/
theorem head?_hopEvidence (hops : List RetainedHop) :
    (reconstructChain P V hops).hopEvidence.head?.isSome = firstVerifies P V hops ∧
      ∀ e ∈ (reconstructChain P V hops).hopEvidence.head?, e.requestEvidence.digestValue ≠ [] := by
  cases hops with
  | nil => exact ⟨rfl, by simp [reconstructChain]⟩
  | cons hop rest =>
    simp only [reconstructChain, List.isEmpty_cons, Bool.false_eq_true, if_false, firstVerifies,
      reconstructFrom]
    cases hhop : V.verifyHop P hop ⟨0, none, decide (1 = (hop :: rest).length)⟩ with
    | error reason =>
      simp only [List.getLast?_nil, Nat.zero_add, hhop]
      exact ⟨rfl, by simp⟩
    | ok e =>
      simp only [List.getLast?_nil, Nat.zero_add, hhop]
      obtain ⟨more, hmore⟩ :=
        exists_reconstructFrom_eq (P := P) (V := V) (hop :: rest).length 1 ([] ++ [e]) rest
      rw [hmore]
      refine ⟨rfl, fun e' he' => ?_⟩
      obtain rfl : e = e' := Option.some.inj he'
      exact digestValue_ne_nil hhop

theorem commitsToVerifiedEvidence_eq (hops : List RetainedHop) (b c : Option Str) :
    (EvidenceCommitment.fromReconstruction P (reconstructChain P V hops) b c).commitsToVerifiedEvidence
      = firstVerifies P V hops := by
  obtain ⟨hsome, hdigest⟩ := head?_hopEvidence (P := P) (V := V) hops
  rw [← hsome]
  unfold EvidenceCommitment.commitsToVerifiedEvidence EvidenceCommitment.fromReconstruction
  dsimp only
  cases hhead : (reconstructChain P V hops).hopEvidence.head? with
  | none => rfl
  | some e =>
    have hne : e.requestEvidence.digestValue ≠ [] := hdigest e (by rw [hhead]; rfl)
    simp [hne]

theorem submittedCommitment_reconstructChain (hops : List RetainedHop) :
    (reconstructChain P V hops).submittedCommitment = submittedCommitment P hops := by
  unfold reconstructChain
  split <;> rfl

theorem hopEvidence_ne_nil_iff (hops : List RetainedHop) :
    (reconstructChain P V hops).hopEvidence ≠ [] ↔ firstVerifies P V hops = true := by
  rw [← (head?_hopEvidence hops).1, List.isSome_head?]

/-! ## Correspondence -/

/-- **A matching submission is the same submission**, where the hash tells them apart. -/
theorem eq_of_submissionCorrespondsTo {submissions : Set (List RetainedHop)}
    (hfits : ∀ hops ∈ submissions, SubmissionFits hops)
    (hsha : Set.InjOn P.sha256 (submittedPreimage '' submissions)) {hops hops' : List RetainedHop}
    (hmem : hops ∈ submissions) (hmem' : hops' ∈ submissions) {b c b' c' : Option Str} {u : Unit}
    (h : EvidenceCommitment.submissionCorrespondsTo
      (.fromReconstruction P (reconstructChain P V hops) b c)
      (.fromReconstruction P (reconstructChain P V hops') b' c') = .ok u) : hops' = hops := by
  simp only [EvidenceCommitment.submissionCorrespondsTo, bind_eq_ok, ensure_eq_ok, beq_iff_eq,
    EvidenceCommitment.fromReconstruction, submittedCommitment_reconstructChain] at h
  obtain ⟨_, _, hdigest⟩ := h
  have hhash := Digest.ext_iff.2 (Base64.encode_injective _ hdigest)
  refine submittedPreimage_injOn (hfits _ hmem') (hfits _ hmem) (hsha ?_ ?_ hhash)
  · exact Set.mem_image_of_mem _ hmem'
  · exact Set.mem_image_of_mem _ hmem

theorem submissionCorrespondsTo_self (hops : List RetainedHop) (b c b' c' : Option Str) :
    EvidenceCommitment.submissionCorrespondsTo
      (.fromReconstruction P (reconstructChain P V hops) b c)
      (.fromReconstruction P (reconstructChain P V hops) b' c') = .ok () := by
  have hne : submittedCommitment P hops ≠ [] := b64urlEncode_ne_nil (digest_bytes_ne_nil _)
  simp [EvidenceCommitment.submissionCorrespondsTo, EvidenceCommitment.identifiesASubmission,
    EvidenceCommitment.fromReconstruction, submittedCommitment_reconstructChain, hne]

variable (P V) in
/-- Retained evidence corresponds to nothing but what was committed: the same hops, the same digests
of the bindings and the context; and it is bound to a verified call exactly when a hop verified. -/
def CorrespondsOnlyTo (submissions : Set (List RetainedHop)) (hops : List RetainedHop)
    (b c : Option Str) : Prop :=
  ∀ hops' ∈ submissions, ∀ b' c' verdict,
    verifyRetainedEvidence P (.fromReconstruction P (reconstructChain P V hops) b c)
        (reconstructChain P V hops') b' c' = .ok verdict →
      hops' = hops ∧ b' = b ∧ c' = c ∧
        (verdict = .boundToVerifiedCall ↔ (reconstructChain P V hops).hopEvidence ≠ [])

theorem verifyRetainedEvidence_of_not_firstVerifies {hops : List RetainedHop}
    (h : firstVerifies P V hops = false) (b c b' c' : Option Str) :
    verifyRetainedEvidence P (.fromReconstruction P (reconstructChain P V hops) b c)
      (reconstructChain P V hops) b' c' = .ok .boundToSubmissionOnly := by
  simp only [verifyRetainedEvidence, EvidenceCommitment.correspondsTo,
    commitsToVerifiedEvidence_eq, h, submissionCorrespondsTo_self, ok_bind, Bool.not_false,
    Bool.or_self, if_true]

/-- **Retained evidence corresponds only to what was committed, just for the submissions whose first
hop verifies.** -/
theorem retained_evidence_iff {submissions : Set (List RetainedHop)}
    (hfits : ∀ hops ∈ submissions, SubmissionFits hops)
    (hsha : Set.InjOn P.sha256 (submittedPreimage '' submissions)) {hops : List RetainedHop}
    (hmem : hops ∈ submissions) (b c : Option Str) :
    CorrespondsOnlyTo P V submissions hops b c ↔ firstVerifies P V hops = true := by
  constructor
  · intro honly
    by_contra hnone
    have hself := verifyRetainedEvidence_of_not_firstVerifies (Bool.eq_false_iff.2 hnone) b c
    -- both an absent and a present digest of the bindings correspond
    have hnone := (honly hops hmem _ _ _ (hself none c)).2.1
    have hsome := (honly hops hmem _ _ _ (hself (some []) c)).2.1
    cases hnone.trans hsome.symm
  · intro hfirst hops' hmem' b' c' verdict hok
    unfold verifyRetainedEvidence EvidenceCommitment.correspondsTo at hok
    rw [commitsToVerifiedEvidence_eq, commitsToVerifiedEvidence_eq, hfirst] at hok
    split_ifs at hok with hretained
    · -- the retained side names no verified call, but it is the same submission
      simp only [bind_eq_ok] at hok
      obtain ⟨_, hsubmission, _⟩ := hok
      obtain rfl := eq_of_submissionCorrespondsTo hfits hsha hmem hmem' hsubmission
      rw [hfirst] at hretained
      cases hretained
    · simp only [bind_eq_ok, ensure_eq_ok, beq_iff_eq, Except.ok.injEq] at hok
      obtain ⟨_, _, _, _, _, _, _, _, _, hbindings, _, hcontext, _, hsubmission, rfl⟩ := hok
      obtain rfl := eq_of_submissionCorrespondsTo hfits hsha hmem hmem' hsubmission
      refine ⟨rfl, hbindings, hcontext, ?_⟩
      simp only [true_iff]
      exact (hopEvidence_ne_nil_iff _).2 hfirst

/-- The first hop of a complete chain verifies. -/
theorem firstVerifies_of_complete {hops : List RetainedHop}
    (h : (reconstructChain P V hops).label = .complete) : firstVerifies P V hops = true := by
  cases hops with
  | nil => cases h
  | cons hop rest =>
    simp only [reconstructChain, List.isEmpty_cons, Bool.false_eq_true, if_false, reconstructFrom,
      List.getLast?_nil, Nat.zero_add] at h
    cases hhop : V.verifyHop P hop ⟨0, none, decide (1 = (hop :: rest).length)⟩ with
    | error reason =>
      rw [hhop] at h
      cases h
    | ok e =>
      change (V.verifyHop P hop _).isOk = true
      rw [hhop]
      rfl

end

namespace CommitmentSample

open McpRe.Http.TwoHops (platform verification hops hops_complete)

theorem hops_fit : SubmissionFits hops := by
  simp only [SubmissionFits, hopFits_iff, HeadersFit, TextFits, Fits]
  decide +kernel

/-- Two hops that verify, against their own submission. -/
theorem retained_evidence_iff_two_hops :
    firstVerifies platform verification hops = true ∧
      CorrespondsOnlyTo platform verification {hops} hops (some ['b']) none := by
  have hfirst : firstVerifies platform verification hops = true :=
    firstVerifies_of_complete hops_complete
  refine ⟨hfirst, (retained_evidence_iff ?_ ?_ (Set.mem_singleton hops) _ _).2 hfirst⟩
  · rintro _ rfl
    exact hops_fit
  · rw [Set.image_singleton]
    exact Set.injOn_singleton ..

/-- A hop with no signature. -/
def bare : RetainedHop where
  request := ⟨"POST".toList, "https://a/b".toList, [], [123, 125]⟩
  response := ⟨200, [], [123, 125]⟩

/-- The real digests of the submission and of no evidence at all. -/
def barePlatform : Platform where
  sha256 b := McpRe.Http.TwoHops.toDigest (if b = submittedPreimage [bare] then
      [183, 239, 138, 18, 149, 87, 162, 8, 157, 30, 42, 213, 123, 153, 77, 194, 210, 214, 107,
      43, 195, 136, 106, 239, 42, 27, 224, 89, 240, 203, 232, 193]
    else
      [227, 176, 196, 66, 152, 252, 28, 20, 154, 251, 244, 200, 153, 111, 185, 36, 39, 174, 65,
      228, 100, 155, 147, 76, 164, 149, 153, 27, 120, 82, 184, 85])
  fromSlice _ := none
  readDocument _ := none
  isPoint _ := false
  verifyStrict _ _ _ := false

/-- **The statement carries a digest of the bindings, the retained side none, and they
correspond.** -/
theorem absent_bindings_correspond :
    verifyRetainedEvidence barePlatform
        (.fromReconstruction barePlatform (reconstructChain barePlatform verification [bare])
          (some ['b']) none)
        (reconstructChain barePlatform verification [bare]) none none =
        .ok .boundToSubmissionOnly ∧
      ¬CorrespondsOnlyTo barePlatform verification {[bare]} [bare] (some ['b']) none := by
  have hok : verifyRetainedEvidence barePlatform
      (.fromReconstruction barePlatform (reconstructChain barePlatform verification [bare])
        (some ['b']) none)
      (reconstructChain barePlatform verification [bare]) none none =
      .ok .boundToSubmissionOnly := by decide +kernel
  refine ⟨hok, fun honly => ?_⟩
  cases (honly [bare] rfl none none _ hok).2.1

end CommitmentSample

end McpRe.Scitt

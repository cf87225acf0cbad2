import McpRe.Http.Verify.Chain

/-!
# The verdict on a chain

`reconstruct_chain` stops at the first hop that does not hold in its place. So its label is decided
by the least index where that happens, and the evidence it returns by the hops before that index
(`chain_verdict`).
-/

namespace McpRe.Http

open Lib Lib.Result Lib.Text Lib.Chain

section

variable (P : Platform) (V : ChainVerification)

/-- What the continuation of the hop at index `i` points back at: nothing in the first hop, the
evidence of the hop before it in any other. -/
def LinksBack (hops : List RetainedHop) (v : VerifiedHop P V) : Nat → Prop
  | 0 => v.continuation = none
  | j + 1 => ∃ w : VerifiedHop P V, hops[j]? = some w.hop ∧ v.back = some w.evidence

/-- The hop at index `i` verifies at its own instants, links back, and ends as its place asks:
input-required before the last, terminal there. -/
def HopHolds (hops : List RetainedHop) (i : Nat) : Prop :=
  ∃ v : VerifiedHop P V, hops[i]? = some v.hop ∧ LinksBack P V hops v i ∧
    v.outcome = if i + 1 = hops.length then .terminal else .inputRequired

def Evidences (hops : List RetainedHop) (evidence : List HopEvidence) : Prop :=
  List.Forall₂ (fun hop e => ∃ c, hopFacts P V hop = .ok (e, c)) hops evidence

end

section

variable {P : Platform} {V : ChainVerification} {hops : List RetainedHop}
  {evidence evidence' : List HopEvidence}

/-! ## Evidence -/

theorem Evidences.unique (h : Evidences P V hops evidence) (h' : Evidences P V hops evidence') :
    evidence = evidence' := by
  induction h generalizing evidence' with
  | nil =>
    cases h'
    rfl
  | cons hfacts _ ih =>
    cases h' with
    | cons hfacts' hrest =>
      obtain ⟨c, hc⟩ := hfacts
      obtain ⟨c', hc'⟩ := hfacts'
      rw [hc] at hc'
      cases hc'
      rw [ih hrest]

theorem Evidences.concat (h : Evidences P V hops evidence) (v : VerifiedHop P V) :
    Evidences P V (hops ++ [v.hop]) (evidence ++ [v.evidence]) := by
  apply List.rel_append h
  exact .cons ⟨_, v.verified⟩ .nil

theorem Evidences.getLast? (h : Evidences P V hops evidence) :
    (hops = [] ∧ evidence.getLast? = none) ∨
      ∃ (w : VerifiedHop P V), hops.getLast? = some w.hop ∧ evidence.getLast? = some w.evidence := by
  induction h with
  | nil => exact .inl ⟨rfl, rfl⟩
  | @cons hop e rest es hfacts hrest ih =>
    right
    rcases ih with ⟨rfl, -⟩ | ⟨w, hw, he⟩
    · cases hrest
      obtain ⟨c, hc⟩ := hfacts
      exact ⟨⟨hop, e, c, hc⟩, rfl, rfl⟩
    · refine ⟨w, ?_, ?_⟩
      · rw [List.getLast?_cons, hw]
        rfl
      · rw [List.getLast?_cons, he]
        rfl

/-! ## One turn -/

theorem VerifiedHop.back_eq_none {v : VerifiedHop P V} : v.back = none ↔ v.continuation = none := by
  simp [VerifiedHop.back]

theorem back_eq_getLast? {pre : List RetainedHop} {v : VerifiedHop P V}
    (h : Evidences P V pre evidence) (rest : List RetainedHop) :
    v.back = evidence.getLast? ↔ LinksBack P V (pre ++ rest) v pre.length := by
  rcases List.eq_nil_or_concat pre with rfl | ⟨init, hop, rfl⟩
  · cases h
    exact VerifiedHop.back_eq_none
  · rw [List.concat_eq_append] at h ⊢
    obtain ⟨hnil, -⟩ | ⟨w, hw, he⟩ := h.getLast?
    · simp at hnil
    · have hat : (init ++ [hop] ++ rest)[init.length]? = some hop := by simp
      have hhop : hop = w.hop := by simpa using hw
      rw [he, List.length_append, List.length_singleton, LinksBack, hat]
      constructor
      · intro hback
        exact ⟨w, congrArg some hhop, hback⟩
      · rintro ⟨w', hw', hback⟩
        rw [hhop] at hw'
        rw [hback, VerifiedHop.hop_injective (Option.some.inj hw')]

theorem verifyHop_isOk_iff {pre rest : List RetainedHop} {hop : RetainedHop}
    (h : Evidences P V pre evidence) {e : HopEvidence} :
    V.verifyHop P hop ⟨pre.length, evidence.getLast?,
        decide (pre.length + 1 = (pre ++ hop :: rest).length)⟩ = .ok e ↔
      ∃ v : VerifiedHop P V, v.hop = hop ∧ v.evidence = e ∧
        LinksBack P V (pre ++ hop :: rest) v pre.length ∧
        v.outcome = if pre.length + 1 = (pre ++ hop :: rest).length then .terminal
          else .inputRequired := by
  rw [List.Forall₂.length_eq h, verifyHop_turn, ← List.Forall₂.length_eq h]
  simp only [decide_eq_true_eq]
  apply exists_congr
  intro v
  rw [back_eq_getLast? h (hop :: rest)]

theorem hopHolds_append {pre rest : List RetainedHop} {hop : RetainedHop} :
    HopHolds P V (pre ++ hop :: rest) pre.length ↔
      ∃ v : VerifiedHop P V, v.hop = hop ∧ LinksBack P V (pre ++ hop :: rest) v pre.length ∧
        v.outcome = if pre.length + 1 = (pre ++ hop :: rest).length then .terminal
          else .inputRequired := by
  have hat : (pre ++ hop :: rest)[pre.length]? = some hop := by simp
  simp only [HopHolds, hat, Option.some.injEq, eq_comm]

/-! ## The run -/

/-- What the loop answers about `hops`: either every hop holds, or the first that does not is
named; the evidence is that of the hops before it. -/
inductive Answers (P : Platform) (V : ChainVerification) (hops : List RetainedHop) :
    ChainLabel × List HopEvidence → Prop where
  | complete {evidence : List HopEvidence} (holds : ∀ i < hops.length, HopHolds P V hops i)
      (evidences : Evidences P V hops evidence) : Answers P V hops (.complete, evidence)
  | incomplete {i : Nat} {reason : IncompleteReason} {evidence : List HopEvidence}
      (lt : i < hops.length) (fails : ¬HopHolds P V hops i)
      (holds : ∀ j < i, HopHolds P V hops j)
      (evidences : Evidences P V (hops.take i) evidence) :
      Answers P V hops (.incomplete i reason, evidence)

/-- The loop from any hop on, by induction on the hops left. The hops before it hold, and the
evidence so far is theirs. -/
theorem answers_reconstructFrom (pre rest : List RetainedHop)
    (hholds : ∀ i < pre.length, HopHolds P V (pre ++ rest) i) (h : Evidences P V pre evidence) :
    Answers P V (pre ++ rest)
      (reconstructFrom P V (pre ++ rest).length pre.length evidence rest) := by
  induction rest generalizing pre evidence with
  | nil =>
    rw [List.append_nil] at hholds ⊢
    exact .complete hholds h
  | cons hop rest ih =>
    rw [reconstructFrom]
    cases hturn : V.verifyHop P hop ⟨pre.length, evidence.getLast?,
        decide (pre.length + 1 = (pre ++ hop :: rest).length)⟩ with
    | ok e =>
      obtain ⟨v, rfl, rfl, hlinks, houtcome⟩ := (verifyHop_isOk_iff h).1 hturn
      have hstep := ih (pre ++ [v.hop]) ?_ (h.concat v)
      · simpa using hstep
      · intro i hi
        rw [List.append_assoc, List.singleton_append]
        rw [List.length_append, List.length_singleton, Nat.lt_succ_iff_lt_or_eq] at hi
        rcases hi with hi | rfl
        · exact hholds i hi
        · exact hopHolds_append.2 ⟨v, rfl, hlinks, houtcome⟩
    | error reason =>
      refine .incomplete (by simp) ?_ hholds (by simpa using h)
      intro hhop
      obtain ⟨v, hv, hlinks, houtcome⟩ := hopHolds_append.1 hhop
      rw [(verifyHop_isOk_iff h).2 ⟨v, hv, rfl, hlinks, houtcome⟩] at hturn
      cases hturn

theorem answers_reconstructChain (hne : hops ≠ []) :
    Answers P V hops ((reconstructChain P V hops).label, (reconstructChain P V hops).hopEvidence) := by
  have hrun := answers_reconstructFrom (P := P) (V := V) [] hops (by simp) .nil
  have hempty : hops.isEmpty = false := by simpa using hne
  simpa [reconstructChain, hempty] using hrun

/-! ## The verdict -/

theorem lt_length_of_take_eq {hops' : List RetainedHop} {i : Nat} (hlt : i < hops.length)
    (htake : hops'.take (i + 1) = hops.take (i + 1)) : i < hops'.length := by
  have hlen := congrArg List.length htake
  rw [List.length_take, List.length_take] at hlen
  omega

theorem HopHolds.of_take_eq {hops' : List RetainedHop} {i j : Nat} (hlt : i < hops.length)
    (htake : hops'.take (i + 1) = hops.take (i + 1)) (hj : j < i) (h : HopHolds P V hops j) :
    HopHolds P V hops' j := by
  have hlen := lt_length_of_take_eq hlt htake
  have hat : ∀ k < i + 1, hops'[k]? = hops[k]? := by
    intro k hk
    rw [← List.getElem?_take_of_lt hk, htake, List.getElem?_take_of_lt hk]
  obtain ⟨v, hv, hlinks, houtcome⟩ := h
  rw [if_neg (by omega)] at houtcome
  refine ⟨v, (hat j (by omega)).trans hv, ?_, ?_⟩
  · cases j with
    | zero => exact hlinks
    | succ k =>
      obtain ⟨w, hw, hback⟩ := hlinks
      exact ⟨w, (hat k (by omega)).trans hw, hback⟩
  · rw [if_neg (by omega), houtcome]

theorem Answers.evidences_take {label : ChainLabel} {i : Nat}
    (hholds : ∀ j < i, HopHolds P V hops j) (h : Answers P V hops (label, evidence)) :
    Evidences P V (hops.take i) (evidence.take i) := by
  cases h with
  | complete _ hev => exact List.forall₂_take i hev
  | @incomplete k _ _ _ hfails _ hev =>
    have hle : i ≤ k := by
      by_contra hlt
      exact hfails (hholds k (by omega))
    have htake := List.forall₂_take i hev
    rwa [List.take_take, min_eq_left hle] at htake

/-- **The verdict on a chain**: complete exactly when every hop holds in its place; otherwise
incomplete at the first that does not, with the evidence of the hops before it, which any list that
shares the hops up to that one yields as well. -/
theorem chain_verdict (hne : hops ≠ []) :
    ((reconstructChain P V hops).label = .complete ↔ ∀ i < hops.length, HopHolds P V hops i) ∧
    ((¬∀ i < hops.length, HopHolds P V hops i) →
      ∃ i reason, i < hops.length ∧ ¬HopHolds P V hops i ∧ (∀ j < i, HopHolds P V hops j) ∧
        (reconstructChain P V hops).label = .incomplete i reason ∧
        (reconstructChain P V hops).hopEvidence.length = i ∧
        ∀ hops' : List RetainedHop, hops'.take (i + 1) = hops.take (i + 1) →
          (reconstructChain P V hops').hopEvidence.take i
            = (reconstructChain P V hops).hopEvidence) := by
  have hanswer := answers_reconstructChain (P := P) (V := V) hne
  generalize reconstructChain P V hops = answer at hanswer ⊢
  obtain ⟨label, evidence, submitted⟩ := answer
  cases hanswer with
  | complete hholds hev => exact ⟨iff_of_true rfl hholds, fun hnot => absurd hholds hnot⟩
  | @incomplete i reason _ hlt hfails hholds hev =>
    constructor
    · constructor
      · intro h
        cases h
      · intro hall
        exact absurd (hall i hlt) hfails
    · intro _
      refine ⟨i, reason, hlt, hfails, hholds, rfl, ?_, ?_⟩
      · rw [← List.Forall₂.length_eq hev, List.length_take, min_eq_left hlt.le]
      · intro hops' htake
        have hlen := lt_length_of_take_eq hlt htake
        have hanswer' := answers_reconstructChain (P := P) (V := V) (List.ne_nil_of_length_pos
          (by omega : 0 < hops'.length))
        have hev' := hanswer'.evidences_take fun j hj =>
          (hholds j hj).of_take_eq hlt htake hj
        have hpre : hops'.take i = hops.take i := by
          have := congrArg (List.take i) htake
          rwa [List.take_take, List.take_take, min_eq_left (Nat.le_succ i)] at this
        rw [hpre] at hev'
        exact hev'.unique hev

end

/-! A single hop whose result type is none of the two the profile knows. -/

namespace TwoHops

def platformOf (seeds : List Seed) (submitted : Bytes) : Platform where
  sha256 b :=
    toDigest (((([1], certDigest)
      :: (seeds.flatMap fun s =>
        [(body s.requestBody, s.requestDigest), (body s.responseBody, s.responseDigest),
          (labeledPreimage evidenceLabelRequest s.requestBase, s.requestHandle),
          (labeledPreimage evidenceLabelResponse s.responseBase, s.responseHandle)])
      ++ [(submittedPreimage (seeds.map Seed.hop), submitted)]).find? fun e => e.1 == b).map
        Prod.snd |>.getD [])
  fromSlice b := (headerJson :: claimsJson :: seeds.flatMap fun s =>
    [s.requestBody, s.responseBody]).find? fun j => body j == b
  readDocument b := (headerJson :: claimsJson :: seeds.flatMap fun s =>
    [s.requestBody, s.responseBody]).find? fun j => body j == b
  isPoint b := [clientKey, rootKey, delegatedKey].contains b
  verifyStrict key preimage signature :=
    ((rootKey, utf8 signingInput, credentialSignature) :: seeds.flatMap fun s =>
      [(clientKey, s.requestBase, s.requestSignature),
        (delegatedKey, s.responseBase, s.responseSignature)]).contains
        (key.bytes, preimage, signature)

def odd : Seed :=
  { first with
    responseBody := responseJson "odd" firstRequest
    responseDigest :=
      [236, 102, 197, 193, 6, 0, 230, 42, 121, 138, 115, 212, 87, 8, 201, 73, 244, 200, 14, 158,
       181, 22, 223, 143, 255, 140, 152, 173, 255, 115, 244, 116]
    responseSignature :=
      [155, 79, 82, 233, 222, 3, 90, 255, 34, 76, 243, 219, 192, 20, 90, 114, 69, 222, 110, 187,
       176, 4, 58, 9, 11, 35, 29, 71, 249, 71, 186, 152, 97, 250, 110, 128, 36, 170, 48, 46, 168,
       105, 104, 44, 13, 250, 142, 145, 254, 222, 178, 165, 60, 149, 155, 116, 248, 76, 68, 78, 67,
       38, 166, 9]
    responseHandle :=
      [53, 255, 178, 246, 235, 63, 209, 3, 112, 222, 37, 206, 247, 116, 208, 114, 122, 11, 13, 250,
       243, 17, 167, 138, 30, 72, 9, 183, 178, 104, 102, 16] }

def oddPlatform : Platform := platformOf [odd]
  [104, 244, 124, 20, 178, 255, 29, 184, 210, 73, 239, 170, 37, 194, 235, 46, 34, 33, 148, 148, 193,
    155, 18, 161, 188, 142, 69, 80, 244, 129, 129, 141]

theorem odd_evaluated :
    (hopFacts oddPlatform verification odd.hop).map Prod.snd = .ok none ∧
      classifyVerifiedResponse oddPlatform odd.hop.response.body = .unrecognized := by
  decide +kernel

theorem odd_verifies :
    ∃ v : VerifiedHop oddPlatform verification, v.hop = odd.hop ∧ v.continuation = none := by
  have hfacts := odd_evaluated.1
  cases h : hopFacts oddPlatform verification odd.hop with
  | error reason =>
    rw [h] at hfacts
    cases hfacts
  | ok facts =>
    obtain ⟨e, c⟩ := facts
    rw [h] at hfacts
    exact ⟨⟨odd.hop, e, c, h⟩, rfl, Except.ok.inj hfacts⟩

theorem odd_unrecognized :
    classifyVerifiedResponse oddPlatform odd.hop.response.body = .unrecognized :=
  odd_evaluated.2

theorem odd_not_hopHolds : ¬HopHolds oddPlatform verification [odd.hop] 0 := by
  rintro ⟨v, hv, -, houtcome⟩
  have hhop : odd.hop = v.hop := Option.some.inj hv
  rw [VerifiedHop.outcome, ← hhop, odd_unrecognized] at houtcome
  cases houtcome

theorem chain_verdict_odd :
    ∃ reason, (reconstructChain oddPlatform verification [odd.hop]).label = .incomplete 0 reason ∧
      (reconstructChain oddPlatform verification [odd.hop]).hopEvidence.length = 0 := by
  obtain ⟨i, reason, hlt, -, -, hlabel, hlen, -⟩ :=
    (chain_verdict (List.cons_ne_nil odd.hop [])).2 fun hall =>
      odd_not_hopHolds (hall 0 Nat.zero_lt_one)
  obtain rfl : i = 0 := Nat.lt_one_iff.1 hlt
  exact ⟨reason, hlabel, hlen⟩

/-- Not to end input-required is too little for the last hop: this one verifies, carries no
continuation and has a result type that the profile does not know. -/
theorem unrecognized_last_is_incomplete :
    (∃ v : VerifiedHop oddPlatform verification,
      v.hop = odd.hop ∧ v.continuation = none ∧ v.outcome ≠ .inputRequired) ∧
    (reconstructChain oddPlatform verification [odd.hop]).label ≠ .complete := by
  constructor
  · obtain ⟨v, hhop, hnone⟩ := odd_verifies
    refine ⟨v, hhop, hnone, ?_⟩
    rw [VerifiedHop.outcome, hhop, odd_unrecognized]
    exact HopOutcome.noConfusion
  · intro hcomplete
    obtain ⟨-, l, hmap, hl⟩ := reconstructChain_complete.1 hcomplete
    cases l with
    | nil => cases hmap
    | cons v l =>
      obtain ⟨hhop, hrest⟩ := List.cons_eq_cons.1 hmap
      obtain rfl : l = [] := List.map_eq_nil_iff.1 hrest
      have houtcome := (completeFrom_cons.1 hl).2.1
      rw [VerifiedHop.outcome, hhop, odd_unrecognized] at houtcome
      cases houtcome

end TwoHops

end McpRe.Http

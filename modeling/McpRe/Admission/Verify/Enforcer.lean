import McpRe.Admission.Enforcer
import McpRe.Http.Verify.Chain
import McpRe.Lib.Run

/-!
# Degraded admissions

What a call admitted as degraded rests on: a lookup that was not answered, an assertion that passes
for a candidate, and some lookup, of whatever workload, that was answered. What the source last said
about the workload of the call itself is not among them (`concludes_degraded_iff`), so a call can be
admitted against it.
-/

namespace McpRe.Admission

open Lib Lib.Result Lib.Text Lib.Run Http

abbrev Took := Step Replica Action (Option (Verdict AdmissionFacet))

def answeredAt (u : Took) : Option Nat :=
  match u.event with
  | .answer thread (.ok _) =>
    match u.before.calls thread with
    | .looking _ elapsedAt => some elapsedAt
    | _ => none
  | _ => none

/-- What a step tells the replica about a workload. -/
def toldAbout (admissionId : Str) (u : Took) : Option (Option AuthoritativeAdmission) :=
  match u.event with
  | .answer thread (.ok answer) =>
    match u.before.calls thread with
    | .looking lookup _ =>
      if lookup.binding.admissionId = admissionId then
        some (answer.map CurrentAdmissionState.state)
      else none
    | _ => none
  | _ => none

def lastTold (past : List Took) (admissionId : Str) : Option (Option AuthoritativeAdmission) :=
  past.reverse.findSome? (toldAbout admissionId)

/-- No acceptable record, or a state that the check refuses as not current. -/
def Negative (binding : AdmissionBinding) : Option AuthoritativeAdmission → Prop
  | none => True
  | some state => currency binding state = .error .admissionNotCurrent

def ToldNegative (past : List Took) (lookup : Lookup) : Prop :=
  ∃ answer, lastTold past lookup.binding.admissionId = some answer ∧
    Negative lookup.binding answer

/-- Some lookup that was answered started at most the bound before the instant. -/
def AnsweredWithin (E : AdmissionEnforcer) (past : List Took) (instant : Nat) : Prop :=
  ∃ u ∈ past, ∃ startedAt, answeredAt u = some startedAt ∧
    instant ≤ startedAt + windowOf E.policy

/-- The check takes the call for a degraded candidate when there is no state to compare with. -/
def Candidate (P : Platform) (E : AdmissionEnforcer) (lookup : Lookup) : Prop :=
  ∃ v, E.check P lookup none = .ok (.degradedCandidate v)

/-- A call of a run: `s` asks the source, `t` ends the call, and it is in flight in between. -/
structure Concludes (run pre : List Took) (s : Took) (mid : List Took) (t : Took)
    (post : List Took) (thread : Nat) (lookup : Lookup) : Prop where
  run_eq : run = pre ++ s :: (mid ++ t :: post)
  idle : s.before.calls thread = .idle
  start : ∃ call : Call, s.event = .start thread call ∧ call.lookup = some lookup
  inFlight : ∀ u ∈ mid, u.before.calls thread ≠ .idle
  conclude : t.event = .conclude thread

section

variable {P : Platform} {E : AdmissionEnforcer}

/-! ## The window remembers the answers -/

theorem window_step (s : Replica) (action : Action) :
    (s.step P E action).2.window =
      match answeredAt ⟨s, action, (s.step P E action).1, (s.step P E action).2⟩ with
      | some elapsedAt => s.window.recordRead elapsedAt
      | none => s.window := by
  cases action with
  | elapse nanos => rfl
  | start thread call =>
    unfold Replica.step answeredAt
    dsimp only
    split
    · split <;> rfl
    · rfl
  | conclude thread =>
    unfold Replica.step answeredAt
    dsimp only
    split <;> rfl
  | answer thread answer =>
    cases hcall : s.calls thread with
    | idle | judging => cases answer <;> simp only [Replica.step, answeredAt, hcall]
    | looking lookup elapsedAt =>
      match answer with
      | .ok (some current) => simp only [Replica.step, answeredAt, hcall]
      | .ok none => simp only [Replica.step, answeredAt, hcall]
      | .error u =>
        simp only [Replica.step, answeredAt, hcall]
        rfl

/-- The last reading is the latest instant at which an answered lookup started. -/
structure Remembers (past : List Took) (s : Replica) : Prop where
  covers : ∀ u ∈ past, ∀ startedAt, answeredAt u = some startedAt →
    ∃ last, s.window.lastRead = some last ∧ startedAt ≤ last
  earned : ∀ last, s.window.lastRead = some last → ∃ u ∈ past, answeredAt u = some last

theorem recordRead_cases (window : DegradedWindow) (instant : Nat) :
    (window.recordRead instant).lastRead = some instant ∧
        (∀ last, window.lastRead = some last → last ≤ instant) ∨
      window.recordRead instant = window ∧
        ∃ last, window.lastRead = some last ∧ instant ≤ last := by
  unfold DegradedWindow.recordRead
  cases hlast : window.lastRead with
  | none => exact .inl ⟨rfl, nofun⟩
  | some last =>
    by_cases hlt : last < instant
    · refine .inl ⟨by simp [hlt], fun last' heq => ?_⟩
      obtain rfl := Option.some.inj heq
      exact hlt.le
    · exact .inr ⟨by simp [hlt], last, rfl, Nat.le_of_not_lt hlt⟩

theorem Remembers.step {past : List Took} {s : Replica} (h : Remembers past s) (action : Action) :
    Remembers (past ++ [⟨s, action, (s.step P E action).1, (s.step P E action).2⟩])
      (s.step P E action).2 := by
  have hwindow := window_step (P := P) (E := E) s action
  cases hanswered : answeredAt ⟨s, action, (s.step P E action).1, (s.step P E action).2⟩ with
  | none =>
    rw [hanswered] at hwindow
    constructor
    · intro u hu startedAt hstarted
      rw [hwindow]
      rcases List.mem_append.1 hu with hu | hu
      · exact h.covers u hu startedAt hstarted
      · obtain rfl := List.mem_singleton.1 hu
        rw [hanswered] at hstarted
        cases hstarted
    · intro last hlast
      rw [hwindow] at hlast
      obtain ⟨u, hu, heq⟩ := h.earned last hlast
      exact ⟨u, List.mem_append_left _ hu, heq⟩
  | some elapsedAt =>
    rw [hanswered] at hwindow
    dsimp only at hwindow
    obtain ⟨hnew, hpast⟩ | ⟨hsame, last, hlast, hle⟩ := recordRead_cases s.window elapsedAt
    · rw [← hwindow] at hnew
      constructor
      · intro u hu startedAt hstarted
        refine ⟨elapsedAt, hnew, ?_⟩
        rcases List.mem_append.1 hu with hu | hu
        · obtain ⟨last, hlast, hle⟩ := h.covers u hu startedAt hstarted
          exact hle.trans (hpast last hlast)
        · obtain rfl := List.mem_singleton.1 hu
          rw [hanswered] at hstarted
          exact (Option.some.inj hstarted).ge
      · intro last hlast
        rw [hnew] at hlast
        obtain rfl := Option.some.inj hlast
        exact ⟨_, List.mem_append_right _ (List.mem_singleton.2 rfl), hanswered⟩
    · rw [hsame] at hwindow
      constructor
      · intro u hu startedAt hstarted
        rw [hwindow]
        rcases List.mem_append.1 hu with hu | hu
        · exact h.covers u hu startedAt hstarted
        · obtain rfl := List.mem_singleton.1 hu
          rw [hanswered] at hstarted
          exact ⟨last, hlast, (Option.some.inj hstarted) ▸ hle⟩
      · intro last' hlast'
        rw [hwindow] at hlast'
        obtain ⟨u, hu, heq⟩ := h.earned last' hlast'
        exact ⟨u, List.mem_append_left _ hu, heq⟩

theorem Remembers.not_exhausted_iff {past : List Took} {s : Replica} (h : Remembers past s)
    (hallow : E.policy.allowDegradedMode = true) (instant : Nat) :
    s.window.exhausted E.policy instant = false ↔ AnsweredWithin E past instant := by
  unfold DegradedWindow.exhausted AnsweredWithin
  cases hlast : s.window.lastRead with
  | none =>
    simp only [hallow, Bool.not_true, Bool.false_eq_true, if_false, Bool.true_eq_false, false_iff]
    rintro ⟨u, hu, startedAt, hstarted, -⟩
    obtain ⟨last, hsome, -⟩ := h.covers u hu startedAt hstarted
    rw [hlast] at hsome
    cases hsome
  | some last =>
    simp only [hallow, Bool.not_true, Bool.false_eq_true, if_false, decide_eq_false_iff_not]
    constructor
    · intro hopen
      obtain ⟨u, hu, heq⟩ := h.earned last hlast
      exact ⟨u, hu, last, heq, by omega⟩
    · rintro ⟨u, hu, startedAt, hstarted, hle⟩
      obtain ⟨last', hsome, hle'⟩ := h.covers u hu startedAt hstarted
      obtain rfl := Option.some.inj (hlast.symm.trans hsome)
      omega

/-! ## A call in flight -/

def OfCall (thread : Nat) (lookup : Lookup) (elapsedAt : Nat) (s : Replica) : Prop :=
  s.calls thread = .idle ∨ s.calls thread = .looking lookup elapsedAt ∨
    ∃ authoritative, s.calls thread = .judging lookup elapsedAt authoritative

theorem calls_moved_self (s : Replica) (thread : Nat) (stage : Stage) :
    (s.moved thread stage).calls thread = stage :=
  Function.update_self ..

theorem calls_moved_of_ne {thread thread' : Nat} (h : thread ≠ thread') (s : Replica)
    (stage : Stage) : (s.moved thread' stage).calls thread = s.calls thread :=
  Function.update_of_ne h ..

theorem OfCall.step {thread : Nat} {lookup : Lookup} {elapsedAt : Nat} {s : Replica}
    (h : OfCall thread lookup elapsedAt s) (hbusy : s.calls thread ≠ .idle) (action : Action) :
    OfCall thread lookup elapsedAt (s.step P E action).2 := by
  cases action with
  | elapse nanos => exact h
  | start thread' call =>
    by_cases hthread : thread = thread'
    · obtain rfl := hthread
      obtain hidle | hcall | ⟨authoritative, hcall⟩ := id h
      · exact absurd hidle hbusy
      all_goals
        simp only [Replica.step, hcall]
        exact h
    · unfold Replica.step
      dsimp only
      split
      · split
        · unfold OfCall
          rw [calls_moved_of_ne hthread]
          exact h
        · exact h
      · exact h
  | answer thread' answer =>
    by_cases hthread : thread = thread'
    · obtain rfl := hthread
      obtain hidle | hcall | ⟨authoritative, hcall⟩ := id h
      · exact absurd hidle hbusy
      · match answer with
        | .ok (some current) =>
          simp only [Replica.step, hcall]
          exact .inr (.inr ⟨some current.state, calls_moved_self ..⟩)
        | .ok none =>
          simp only [Replica.step, hcall]
          exact .inl (calls_moved_self ..)
        | .error u =>
          simp only [Replica.step, hcall]
          exact .inr (.inr ⟨none, calls_moved_self ..⟩)
      · simp only [Replica.step, hcall]
        exact h
    · unfold Replica.step
      dsimp only
      split
      · split
        all_goals
          simp only [OfCall, calls_moved_of_ne hthread]
          exact h
      · exact h
  | conclude thread' =>
    by_cases hthread : thread = thread'
    · obtain rfl := hthread
      obtain hidle | hcall | ⟨authoritative, hcall⟩ := id h
      · exact absurd hidle hbusy
      · simp only [Replica.step, hcall]
        exact h
      · simp only [Replica.step, hcall]
        exact .inl (calls_moved_self ..)
    · unfold Replica.step
      dsimp only
      split
      · unfold OfCall
        rw [calls_moved_of_ne hthread]
        exact h
      · exact h

theorem Concludes.ofCall {clock : Nat} {events : List Action} {pre mid post : List Took}
    {s t : Took} {thread : Nat} {lookup : Lookup}
    (h : Concludes (trace (Replica.step P E) (.new clock) events) pre s mid t post thread lookup) :
    OfCall thread lookup s.before.clock t.before := by
  obtain ⟨start, between, -, hmid, hlast⟩ := exists_between (Replica.step P E) h.run_eq
  obtain ⟨call, hevent, hlookup⟩ := h.start
  have hmem : s ∈ trace (Replica.step P E) (.new clock) events := by
    rw [h.run_eq]
    exact List.mem_append_right _ List.mem_cons_self
  have hstarted : OfCall thread lookup s.before.clock s.after := by
    have hafter : s.after = (s.before.step P E s.event).2 := by
      rw [(step_eq_of_mem_trace _ hmem).2]
    rw [hafter, hevent]
    simp only [Replica.step, h.idle, hlookup]
    exact .inr (.inl (calls_moved_self ..))
  rw [← hlast]
  refine (invariant_of_guard (G := fun s _ => s.calls thread ≠ .idle)
    (fun s action hs hbusy => hs.step hbusy action) hstarted ?_).2
  rw [hmid]
  exact h.inFlight

/-! ## What a degraded admission rests on -/

theorem check_some_ne {lookup : Lookup} {state : AuthoritativeAdmission} {v : VerifiedAdmission} :
    E.check P lookup (some state) ≠ .ok (.degradedCandidate v) := by
  intro h
  simp only [AdmissionEnforcer.check, checkAdmission, bind_eq_ok] at h
  obtain ⟨_, _, _, _, _, _, _, _, _, _, h⟩ := h
  cases h

theorem Candidate.allowed {lookup : Lookup} (h : Candidate P E lookup) :
    E.policy.allowDegradedMode = true := by
  obtain ⟨v, h⟩ := h
  simp only [AdmissionEnforcer.check, checkAdmission, degradedFork, bind_eq_ok, ensure_eq_ok] at h
  obtain ⟨_, _, _, _, _, _, _, _, _, ⟨_, hallow, _⟩, _⟩ := h
  exact hallow

theorem conclude_eq_degraded {window : DegradedWindow} {lookup : Lookup} {elapsedAt : Nat}
    {authoritative : Option AuthoritativeAdmission} :
    E.conclude P window lookup elapsedAt authoritative = .ok .degraded ↔
      authoritative = none ∧ Candidate P E lookup ∧
        window.exhausted E.policy elapsedAt = false := by
  rw [AdmissionEnforcer.conclude, bind_eq_ok]
  constructor
  · rintro ⟨verdict, hcheck, hconvert⟩
    cases verdict with
    | live v => cases hconvert
    | degradedCandidate v =>
      unfold AdmissionEnforcer.convert at hconvert
      dsimp only at hconvert
      split_ifs at hconvert with hexhausted
      cases authoritative with
      | some state => exact absurd hcheck check_some_ne
      | none => exact ⟨rfl, ⟨v, hcheck⟩, Bool.eq_false_iff.2 hexhausted⟩
  · rintro ⟨rfl, ⟨v, hcheck⟩, hopen⟩
    refine ⟨_, hcheck, ?_⟩
    simp [AdmissionEnforcer.convert, hopen]

theorem concludes_degraded_iff {clock : Nat} {events : List Action} {pre mid post : List Took}
    {s t : Took} {thread : Nat} {lookup : Lookup}
    (h : Concludes (trace (Replica.step P E) (.new clock) events) pre s mid t post thread lookup) :
    t.answer = some (.ok .degraded) ↔
      t.before.calls thread = .judging lookup s.before.clock none ∧ Candidate P E lookup ∧
        AnsweredWithin E (pre ++ s :: mid) s.before.clock := by
  have hmem : t ∈ trace (Replica.step P E) (.new clock) events := by
    rw [h.run_eq]
    exact List.mem_append_right _ (List.mem_cons_of_mem _ (List.mem_append_right _
      List.mem_cons_self))
  have hanswer : t.answer = (t.before.step P E (.conclude thread)).1 := by
    rw [← h.conclude, (step_eq_of_mem_trace _ hmem).2]
  have hremembers : Remembers (pre ++ s :: mid) t.before := by
    have hrun : trace (Replica.step P E) (.new clock) events = (pre ++ s :: mid) ++ t :: post := by
      rw [h.run_eq, List.append_assoc, List.cons_append]
    have hnew : Remembers [] (.new clock) :=
      ⟨fun _ hu => absurd hu List.not_mem_nil, fun _ hlast => by cases hlast⟩
    exact history (I := Remembers) (fun _ _ action hs => hs.step action) hnew hrun
  rw [hanswer]
  obtain hcall | hcall | ⟨authoritative, hcall⟩ := h.ofCall
  · simp [Replica.step, hcall]
  · simp [Replica.step, hcall]
  · simp only [Replica.step, hcall, Option.some.injEq, conclude_eq_degraded, Stage.judging.injEq,
      true_and]
    constructor
    · rintro ⟨hnone, hcandidate, hopen⟩
      exact ⟨hnone, hcandidate, (hremembers.not_exhausted_iff hcandidate.allowed _).1 hopen⟩
    · rintro ⟨hnone, hcandidate, hwithin⟩
      exact ⟨hnone, hcandidate, (hremembers.not_exhausted_iff hcandidate.allowed _).2 hwithin⟩

end

/-- **Degraded admissions and what the replica was told.** A run admits no call against the latest
answer about its workload exactly when no call that was told so before its lookup goes unanswered
with an assertion that passes for a candidate, inside the window. -/
theorem degraded_admission_iff (P : Platform) (E : AdmissionEnforcer) (clock : Nat)
    (events : List Action) :
    (∀ (pre : List Took) (s : Took) (mid : List Took) (t : Took) (post : List Took)
        (thread : Nat) (lookup : Lookup),
        Concludes (trace (Replica.step P E) (.new clock) events) pre s mid t post thread lookup →
        t.answer = some (.ok .degraded) →
        AnsweredWithin E (pre ++ s :: mid) s.before.clock ∧ ¬ToldNegative pre lookup) ↔
      ∀ (pre : List Took) (s : Took) (mid : List Took) (t : Took) (post : List Took)
        (thread : Nat) (lookup : Lookup),
        Concludes (trace (Replica.step P E) (.new clock) events) pre s mid t post thread lookup →
        ToldNegative pre lookup →
        t.before.calls thread = .judging lookup s.before.clock none →
        ¬(Candidate P E lookup ∧ AnsweredWithin E (pre ++ s :: mid) s.before.clock) := by
  constructor
  · rintro hrun pre s mid t post thread lookup hcall htold hstage ⟨hcandidate, hwithin⟩
    have hdegraded := (concludes_degraded_iff hcall).2 ⟨hstage, hcandidate, hwithin⟩
    exact (hrun pre s mid t post thread lookup hcall hdegraded).2 htold
  · intro hnever pre s mid t post thread lookup hcall hdegraded
    obtain ⟨hstage, hcandidate, hwithin⟩ := (concludes_degraded_iff hcall).1 hdegraded
    exact ⟨hwithin, fun htold =>
      hnever pre s mid t post thread lookup hcall htold hstage ⟨hcandidate, hwithin⟩⟩

/-! ## A workload that is revoked right before an outage

The assertion, its signature and the digest in the binding are real ones. -/

namespace EnforcerSample

open TwoHops (field body str toDigest rootKey)

def headerValue : Json :=
  .object [field "typ" (.string admissionTyp.toList), field "alg" (.string admissionAlg.toList),
    field "kid" (str "r")]

def claimsValue : Json :=
  .object [field "iss" (str "i"), field "iat" (.number "100".toList),
    field "nbf" (.number "100".toList), field "exp" (.number "400".toList), field "jti" (str "j"),
    field "aud" (str "v"), field "mcp_re_profile" (.string profileTag.toList),
    field "mcp_re_admission_id" (str "w"), field "mcp_re_admitted_actor" (str "a"),
    field "mcp_re_admission_generation" (.number "1".toList),
    field "mcp_re_admitted_state_digest" (str "d"),
    field "mcp_re_admission_status" (str "admitted"), field "issuer_kid" (str "r")]

def stateDigest : Bytes :=
  [24, 172, 62, 115, 67, 240, 22, 137, 12, 81, 14, 147, 249, 53, 38, 17, 105, 217, 227, 245,
   101, 67, 100, 41, 131, 15, 175, 9, 52, 244, 248, 228]

def signature : Bytes :=
  [87, 210, 178, 227, 137, 150, 58, 156, 188, 93, 59, 211, 188, 55, 122, 237, 8, 73, 153, 153,
   227, 0, 119, 1, 246, 63, 158, 141, 112, 217, 197, 214, 157, 51, 39, 207, 19, 235, 69, 72,
   211, 98, 116, 204, 227, 203, 28, 93, 62, 70, 124, 32, 60, 237, 118, 240, 198, 246, 104, 13,
   110, 152, 94, 8]

def signingInput : Str :=
  b64urlEncode (body headerValue) ++ '.' :: b64urlEncode (body claimsValue)

def platform : Platform where
  sha256 b := toDigest (if b = utf8 ['d'] then stateDigest else [])
  fromSlice _ := none
  readDocument b := [headerValue, claimsValue].find? fun j => body j == b
  isPoint b := b == rootKey
  verifyStrict key message sig :=
    key.bytes == rootKey && message == utf8 signingInput && sig == signature

/-- A gate with P = 60 s. -/
def gate : AdmissionEnforcer where
  policy := ⟨300, 5, 60, true⟩
  enforcement := .required
  resolveAuthority kid := if kid = ['r'] then some ⟨rootKey⟩ else none

def call : Call where
  admission := some ⟨.opaqueDigest, ['w'], 1, evidenceDigestAlg.toList, b64urlEncode stateDigest⟩
  admissionAssertion := some (signingInput ++ '.' :: b64urlEncode signature)
  actorId := ['a']
  audienceId := ['v']
  now := 110

def refused : List Action :=
  [.start 0 call, .answer 0 (.ok (some ⟨⟨['w'], 1, .revoked⟩, 2⟩)), .conclude 0, .elapse nanosPerSec]

/-- A second later the source is unreachable. -/
def outage : List Action := [.start 0 call, .answer 0 (.error ()), .conclude 0]

def run : List Took := trace (Replica.step platform gate) (.new 0) (refused ++ outage)

def lookup : Lookup where
  binding := ⟨.opaqueDigest, ['w'], 1, evidenceDigestAlg.toList, b64urlEncode stateDigest⟩
  assertion := signingInput ++ '.' :: b64urlEncode signature
  actorId := ['a']
  audienceId := ['v']
  now := 110

/-- **The call is admitted, against the revocation the replica was told of.** -/
theorem revoked_call_admitted :
    run.map Step.answer =
        [none, none, some (.error .admissionNotCurrent), none, none, none,
          some (.ok .degraded)] ∧
      ¬∀ (pre : List Took) (s : Took) (mid : List Took) (t : Took) (post : List Took)
        (thread : Nat) (lookup : Lookup), Concludes run pre s mid t post thread lookup →
        t.answer = some (.ok .degraded) →
        AnsweredWithin gate (pre ++ s :: mid) s.before.clock ∧ ¬ToldNegative pre lookup := by
  -- The three steps of the outage, from the replica that has refused the call.
  let told := final (Replica.step platform gate) (.new 0) refused
  let asked := (told.step platform gate (.start 0 call)).2
  let unanswered := (asked.step platform gate (.answer 0 (.error ()))).2
  obtain ⟨hanswers, hdegraded⟩ : run.map Step.answer =
        [none, none, some (.error .admissionNotCurrent), none, none, none,
          some (.ok .degraded)] ∧
      (unanswered.step platform gate (.conclude 0)).1 = some (.ok .degraded) := by
    decide +kernel
  refine ⟨hanswers, fun hall => ?_⟩
  have hcall : Concludes run (trace (Replica.step platform gate) (.new 0) refused)
      ⟨told, .start 0 call, none, asked⟩ [⟨asked, .answer 0 (.error ()), none, unanswered⟩]
      ⟨unanswered, .conclude 0, (unanswered.step platform gate (.conclude 0)).1,
        (unanswered.step platform gate (.conclude 0)).2⟩ [] 0 lookup := by
    refine ⟨rfl, rfl, ⟨call, rfl, rfl⟩, fun u hu => ?_, rfl⟩
    obtain rfl := List.mem_singleton.1 hu
    exact Stage.noConfusion
  exact (hall _ _ _ _ _ _ _ hcall hdegraded).2 ⟨some ⟨['w'], 1, .revoked⟩, by decide +kernel, rfl⟩

end EnforcerSample

end McpRe.Admission

import McpRe.Http.Verify.Floor
import McpRe.Retention.Store

/-!
# The steps of the retention store

What one step of the store can do (`Moves`), and what every reachable state keeps of its jobs
(`Sound`): a job that holds a slot is the one its exchange awaits, or was left behind by it; an
exchange has one such job, and one rescind.
-/

namespace McpRe.Retention

open Lib Lib.Text Lib.Directory
open McpRe.Http

variable {P : Platform} {serde : Serde} {K : Nat}

/-! ## What an exchange and its jobs have to do with each other -/

/-- The stages at which a job with a slot is there: its call awaits it, or has left it behind. -/
def awaits : JobKind → Stage → Bool
  | .publishOrWithdraw _ _, .reserving .awaited => true
  | .publishOrWithdraw _ _, .leaving none => true
  | .publishOrWithdraw _ _, .rescinded none => true
  | .publishOrWithdraw _ _, .gone => true
  | .commit _ _, .committing .awaited => true
  | .commit _ _, .leaving none => true
  | .commit _ _, .rescinded none => true
  | .commit _ _, .gone => true
  | .publish _ _ (some _), .completing .awaited => true
  | .publish _ _ (some _), .committed false => true
  | .publish _ _ (some _), .gone => true
  | .publish _ _ none, .retaining .awaited => true
  | .publish _ _ none, .gone => true
  | _, _ => false

/-- The stages at which an exchange's rescind is there. -/
def rescinds : Stage → Bool
  | .rescinded _ | .committed _ | .completing _ | .gone => true
  | _ => false

/-- The files a job with a slot is about, and the results of its exchange while it is there. -/
def Names (P : Platform) (serde : Serde) (ex : Exchange) : JobKind → Prop
  | .publishOrWithdraw path _ =>
    path = .reserved (ex.digest P serde) ∧ ex.request.isSome = true ∧ ex.reserve = none ∧
      ex.commit = none
  | .commit reserved committed =>
    reserved = .reserved (ex.digest P serde) ∧ committed = .pending (ex.digest P serde) ∧
      ex.request.isSome = true ∧ ex.reserve = some (.ok ()) ∧ ex.commit = none
  | .publish path bytes (some marker) =>
    marker = .pending (ex.digest P serde) ∧ path = .object (evidenceDigest P bytes) ∧
      (∃ request response, ex.request = some request ∧
        bytes = serde.hop (.overRequest request response)) ∧
      ex.commit = some (.ok ())
  | .publish path bytes none =>
    path = .object (evidenceDigest P bytes) ∧ ∃ record, bytes = serde.hop record
  | .rescind _ => False

/-- The results and the request an exchange has at each stage. -/
def Exchange.Wf (P : Platform) (serde : Serde) (ex : Exchange) : Prop :=
  match ex.stage with
  | .acquired | .reserving _ | .leaving (some (.reserve, _)) | .rescinded (some (.reserve, _)) =>
    ex.request.isSome = true ∧ ex.reserve = none ∧ ex.commit = none
  | .reserved | .committing _ | .crossing | .leaving (some (.commitToDispatch, _))
  | .rescinded (some (.commitToDispatch, _)) =>
    ex.request.isSome = true ∧ ex.reserve = some (.ok ()) ∧ ex.commit = none
  | .leaving none | .rescinded none =>
    ex.request.isSome = true ∧ (ex.reserve = none ∨ ex.reserve = some (.ok ())) ∧ ex.commit = none
  | .committed _ | .completing _ =>
    ex.request.isSome = true ∧ ex.reserve = some (.ok ()) ∧ ex.commit = some (.ok ())
  | .importing kind =>
    ∃ record,
      kind = .publish (.object (evidenceDigest P (serde.hop record))) (serde.hop record) none
  | .unused | .retaining _ | .gone => True

/-! ## What a step can do -/

/-- A new exchange. -/
inductive Admits (P : Platform) (serde : Serde) : Exchange → Prop
  | acquired (request : RetainedRequest) : Admits P serde ⟨some request, .acquired, none, none⟩
  | refused (request : RetainedRequest) :
      Admits P serde
        ⟨some request, .gone, some (.error EvidenceRetention.queueIsFull), none⟩
  | importing (request : HttpRequest) (response : HttpResponse) :
      Admits P serde
        ⟨none, .importing (EvidenceRetention.importJob P serde request response), none, none⟩

/-- Has the call at this stage a permit and nothing sent? -/
def Stage.isUnsent : Stage → Bool
  | .acquired | .importing _ => true
  | _ => false

/-- An exchange goes on and sends nothing. -/
inductive Turn (ex : Exchange) : Exchange → Prop
  /-- The queue did not take the job. -/
  | unsent {call : Call} {err : RetentionError}
      (hstage : ex.stage = .acquired ∧ call = .reserve ∨
        ex.stage = .reserved ∧ call = .commitToDispatch) :
      Turn ex { ex with stage := .leaving (some (call, err)) }
  | unsentImport {kind : JobKind} (hstage : ex.stage = .importing kind) :
      Turn ex { ex with stage := .gone }
  | spent (hstage : ex.stage = .committed true ∨ ∃ ack, ex.stage = .completing ack) :
      Turn ex { ex with stage := .committed false }
  | reserved (hstage : ex.stage = .reserving (.answered (.ok ()))) :
      Turn ex { ex with stage := .reserved, reserve := some (.ok ()) }
  | failed {call : Call} {ack : Ack} {err : RetentionError}
      (hstage : ex.stage = .reserving ack ∧ call = .reserve ∨
        ex.stage = .committing ack ∧ call = .commitToDispatch)
      (hack : ackResult true ack = some (.error err)) :
      Turn ex { ex with stage := .leaving (some (call, err)) }
  | crossing (hstage : ex.stage = .committing (.answered (.ok ()))) :
      Turn ex { ex with stage := .crossing }
  | finished (hstage : (∃ ack, ex.stage = .retaining ack) ∨ ∃ b, ex.stage = .committed b) :
      Turn ex { ex with stage := .gone }
  | abandoned
      (hstage : (∃ ack, ex.stage = .reserving ack) ∨ ex.stage = .reserved ∨
        ∃ ack, ex.stage = .committing ack) :
      Turn ex { ex with stage := .leaving none }
  | unrescinded {result : Option (Call × RetentionError)} (hstage : ex.stage = .leaving result) :
      Turn ex { ex with stage := .rescinded result }
  | committed (hstage : ex.stage = .crossing) :
      Turn ex { ex with stage := .committed true, commit := some (.ok ()) }
  | returned {result : Option (Call × RetentionError)} (hstage : ex.stage = .rescinded result) :
      Turn ex (ex.return_ result)

/-- An exchange sends a job, with its slot or without. -/
inductive Sends (P : Platform) (serde : Serde) (ex : Exchange) : JobKind → Bool → Exchange → Prop
  | publish (hstage : ex.stage = .acquired) :
      Sends P serde ex
        (.publishOrWithdraw (.reserved (ex.digest P serde)) (markerBytes (ex.digest P serde))) true
        { ex with stage := .reserving .awaited }
  | commit (hstage : ex.stage = .reserved) :
      Sends P serde ex (.commit (.reserved (ex.digest P serde)) (.pending (ex.digest P serde))) true
        { ex with stage := .committing .awaited }
  | complete {request : RetainedRequest} {response : HttpResponse}
      (hstage : ex.stage = .committed true) (hrequest : ex.request = some request) :
      Sends P serde ex (EvidenceRetention.completionJob P serde ex request response) true
        { ex with stage := .completing .awaited }
  | send {kind : JobKind} (hstage : ex.stage = .importing kind) :
      Sends P serde ex kind true { ex with stage := .retaining .awaited }
  | rescind {result : Option (Call × RetentionError)} (hstage : ex.stage = .leaving result) :
      Sends P serde ex (.rescind (.reserved (ex.digest P serde))) false
        { ex with stage := .rescinded result }
  | crossed (hstage : ex.stage = .crossing) :
      Sends P serde ex (.rescind (.reserved (ex.digest P serde))) false
        { ex with stage := .committed true, commit := some (.ok ()) }

namespace EvidenceRetention

/-- What a step comes to. -/
inductive Moves (P : Platform) (serde : Serde) (K : Nat) (s : EvidenceRetention)
    (action : Action) : EvidenceRetention → Prop
  | idle : Moves P serde K s action s
  | admitted {ex : Exchange} (hnew : Admits P serde ex)
      (hroom : ex.stage.holds = true → s.permitsHeld < K) :
      Moves P serde K s action (s.admitted ex)
  | turned {e : Nat} {ex : Exchange} (hturn : Turn (s.exchanges e) ex)
      (hunsent : (s.exchanges e).stage.isUnsent = true →
        s.writer = .stopped ∨ 2 * K ≤ s.queue.length) :
      Moves P serde K s action (s.set e ex)
  | sent {e : Nat} {kind : JobKind} {slot : Bool} {ex : Exchange}
      (hsends : Sends P serde (s.exchanges e) kind slot ex)
      (halive : s.writer ≠ .stopped)
      (haction : slot = false → action = .dropGuard e) :
      Moves P serde K s action { s.set e ex with queue := s.queue ++ [⟨kind, e, slot⟩] }
  | wrote {fault : Option IoError} (haction : action = .write fault) :
      Moves P serde K s action (s.writeStep fault)
  | stopped (haction : action = .stop) : Moves P serde K s action (step P serde K s .stop).2
  | crashed {mask : List Bool} (haction : action = .crash mask) :
      Moves P serde K s action (step P serde K s (.crash mask)).2

theorem trySend_eq_ok {s s' : EvidenceRetention} {job : WriteJob} (h : s.trySend K job = .ok s') :
    s' = { s with queue := s.queue ++ [job] } ∧ s.writer ≠ .stopped := by
  unfold trySend at h
  split at h
  · cases h
  · rename_i hwriter
    split at h
    · cases h
      exact ⟨rfl, hwriter⟩
    · cases h

theorem trySend_eq_error {s : EvidenceRetention} {job : WriteJob} {err : RetentionError}
    (h : s.trySend K job = .error err) : s.writer = .stopped ∨ 2 * K ≤ s.queue.length := by
  unfold trySend at h
  split at h
  · exact .inl ‹_›
  · split at h
    · cases h
    · exact .inr (Nat.le_of_not_lt ‹_›)

theorem rescind_cases (s : EvidenceRetention) (e : Nat) (digest : Str) :
    s.rescind K e digest = s ∨
      s.rescind K e digest
        = { s with queue := s.queue ++ [⟨.rescind (.reserved digest), e, false⟩] } ∧
      s.writer ≠ .stopped := by
  unfold rescind
  cases hsend : s.trySend K (.cleanup (.rescind (.reserved digest)) e) with
  | ok s' =>
    obtain ⟨rfl, halive⟩ := trySend_eq_ok hsend
    exact .inr ⟨rfl, halive⟩
  | error err => exact .inl rfl

theorem answered_of_ackResult {preDispatch : Bool} {ack : Ack} {u : Unit}
    (h : ackResult preDispatch ack = some (.ok u)) : ack = .answered (.ok ()) := by
  cases ack with
  | awaited => cases h
  | lost => cases h
  | answered outcome =>
    cases outcome with
    | ok u => rfl
    | error fault => cases fault <;> cases h

theorem resumeStep_moves (s : EvidenceRetention) (action : Action) (e : Nat) :
    Moves P serde K s action (s.resumeStep e).2 := by
  -- a stage that reads an acknowledgement has sent its job
  have hunsent : ∀ {ack}, (s.exchanges e).stage = .reserving ack ∨
      (s.exchanges e).stage = .committing ack ∨ (s.exchanges e).stage = .completing ack ∨
      (s.exchanges e).stage = .retaining ack →
      (s.exchanges e).stage.isUnsent = true → s.writer = .stopped ∨ 2 * K ≤ s.queue.length := by
    rintro ack (h | h | h | h) hunsent <;> rw [h] at hunsent <;> cases hunsent
  unfold resumeStep
  cases hstage : (s.exchanges e).stage with
  | reserving ack =>
    simp only
    cases hack : ackResult true ack with
    | none => exact .idle
    | some result =>
      cases result with
      | ok u =>
        have hanswer := answered_of_ackResult hack
        exact .turned (.reserved (hanswer ▸ hstage)) (hunsent (.inl hstage))
      | error err => exact .turned (.failed (.inl ⟨hstage, rfl⟩) hack) (hunsent (.inl hstage))
  | committing ack =>
    simp only
    cases hack : ackResult true ack with
    | none => exact .idle
    | some result =>
      cases result with
      | ok u =>
        have hanswer := answered_of_ackResult hack
        exact .turned (.crossing (hanswer ▸ hstage)) (hunsent (.inr (.inl hstage)))
      | error err =>
        exact .turned (.failed (.inr ⟨hstage, rfl⟩) hack) (hunsent (.inr (.inl hstage)))
  | completing ack =>
    simp only
    cases hack : ackResult false ack with
    | none => exact .idle
    | some result =>
      have hmoves : Moves P serde K s action (s.move e (.committed false)) :=
        .turned (.spent (.inr ⟨ack, hstage⟩)) (hunsent (.inr (.inr (.inl hstage))))
      cases result <;> exact hmoves
  | retaining ack =>
    simp only
    cases hack : ackResult false ack with
    | none => exact .idle
    | some result =>
      have hmoves : Moves P serde K s action (s.move e .gone) :=
        .turned (.finished (.inl ⟨ack, hstage⟩)) (hunsent (.inr (.inr (.inr hstage))))
      cases result <;> exact hmoves
  | _ => exact .idle

theorem drop_moves (s : EvidenceRetention) (action : Action) (e : Nat) :
    Moves P serde K s action (s.move e (dropped (s.exchanges e).stage)) := by
  have hidle : Moves P serde K s action (s.move e (s.exchanges e).stage) := by
    have hsame : s.move e (s.exchanges e).stage = s := by simp [move, set]
    rw [hsame]
    exact .idle
  cases hstage : (s.exchanges e).stage with
  | reserving ack =>
    exact .turned (.abandoned (.inl ⟨ack, hstage⟩)) (by rw [hstage]; intro h; cases h)
  | reserved =>
    exact .turned (.abandoned (.inr (.inl hstage))) (by rw [hstage]; intro h; cases h)
  | committing ack =>
    exact .turned (.abandoned (.inr (.inr ⟨ack, hstage⟩))) (by rw [hstage]; intro h; cases h)
  | completing ack =>
    exact .turned (.spent (.inr ⟨ack, hstage⟩)) (by rw [hstage]; intro h; cases h)
  | committed b =>
    exact .turned (.finished (.inr ⟨b, hstage⟩)) (by rw [hstage]; intro h; cases h)
  | retaining ack =>
    exact .turned (.finished (.inl ⟨ack, hstage⟩)) (by rw [hstage]; intro h; cases h)
  | unused | acquired | leaving | rescinded | crossing | importing | gone =>
    rw [hstage] at hidle
    exact hidle

theorem step_moves (s : EvidenceRetention) (action : Action) :
    Moves P serde K s action (step P serde K s action).2 := by
  cases action with
  | reserve request =>
    simp only [step]
    split_ifs with hroom
    · exact .admitted (.acquired _) fun _ => hroom
    · exact .admitted (.refused _) (by intro h; cases h)
  | publish e =>
    simp only [step]
    split
    next hstage =>
      split
      next s' hsend =>
        obtain ⟨rfl, halive⟩ := trySend_eq_ok hsend
        exact .sent (.publish hstage) halive (by simp)
      next err hsend => exact .turned (.unsent (.inl ⟨hstage, rfl⟩)) fun _ => trySend_eq_error hsend
    next => exact .idle
  | commitToDispatch e =>
    simp only [step]
    split
    next hstage =>
      split
      next s' hsend =>
        obtain ⟨rfl, halive⟩ := trySend_eq_ok hsend
        exact .sent (.commit hstage) halive (by simp)
      next err hsend => exact .turned (.unsent (.inr ⟨hstage, rfl⟩)) fun _ => trySend_eq_error hsend
    next => exact .idle
  | complete e response =>
    simp only [step]
    split
    next request hstage hrequest =>
      split
      next s' hsend =>
        obtain ⟨rfl, halive⟩ := trySend_eq_ok hsend
        exact .sent (.complete hstage hrequest) halive (by simp)
      next err hsend => exact .turned (.spent (.inl hstage)) fun _ => trySend_eq_error hsend
    all_goals exact .idle
  | retain request response =>
    simp only [step]
    split_ifs with hroom
    · exact .admitted (.importing request response) fun _ => hroom
    · exact .idle
  | send e =>
    simp only [step]
    split
    next kind hstage =>
      split
      next s' hsend =>
        obtain ⟨rfl, halive⟩ := trySend_eq_ok hsend
        exact .sent (.send hstage) halive (by simp)
      next err hsend => exact .turned (.unsentImport hstage) fun _ => trySend_eq_error hsend
    next => exact .idle
  | resume e => exact resumeStep_moves s _ e
  | drop e => exact drop_moves s _ e
  | dropGuard e =>
    simp only [step]
    split
    next result hstage =>
      rcases rescind_cases s e ((s.exchanges e).digest P serde) with hsame | ⟨hsent, halive⟩
      · rw [hsame]
        exact .turned (.unrescinded hstage) (by rw [hstage]; intro h; cases h)
      · rw [hsent]
        exact .sent (.rescind hstage) halive fun _ => rfl
    next hstage =>
      rcases rescind_cases s e ((s.exchanges e).digest P serde) with hsame | ⟨hsent, halive⟩
      · rw [hsame]
        exact .turned (.committed hstage) (by rw [hstage]; intro h; cases h)
      · rw [hsent]
        exact .sent (.crossed hstage) halive fun _ => rfl
    next => exact .idle
  | letGo e =>
    simp only [step]
    split
    next result hstage => exact .turned (.returned hstage) (by rw [hstage]; intro h; cases h)
    next => exact .idle
  | write fault => exact .wrote rfl
  | stop => exact .stopped rfl
  | crash mask => exact .crashed rfl

end EvidenceRetention

/-! ## An exchange and its jobs stay in step -/

/-- A job with a slot belongs where its exchange stands. -/
structure Belongs (P : Platform) (serde : Serde) (ex : Exchange) (kind : JobKind) : Prop where
  stage : awaits kind ex.stage = true
  names : Names P serde ex kind

/-- A rescind belongs where its exchange stands. -/
structure Rescinds (P : Platform) (serde : Serde) (ex : Exchange) (kind : JobKind) : Prop where
  stage : rescinds ex.stage = true
  kind : kind = .rescind (.reserved (ex.digest P serde))

theorem Turn.request_eq {ex ex' : Exchange} (h : Turn ex ex') : ex'.request = ex.request := by
  cases h with
  | returned =>
    rename_i result _
    rcases result with _ | ⟨_ | _, _⟩ <;> rfl
  | _ => rfl

theorem Turn.digest_eq {ex ex' : Exchange} (h : Turn ex ex') :
    ex'.digest P serde = ex.digest P serde := by
  rw [Exchange.digest, h.request_eq, Exchange.digest]

theorem Turn.wf {ex ex' : Exchange} (h : Turn ex ex') (hwf : ex.Wf P serde) : ex'.Wf P serde := by
  obtain ⟨request, stage, reserve, commit⟩ := ex
  cases h with
  | unsent hstage | failed hstage =>
    rcases hstage with ⟨hstage, rfl⟩ | ⟨hstage, rfl⟩ <;> cases hstage <;> exact hwf
  | unsentImport hstage => trivial
  | spent hstage =>
    rcases hstage with hstage | ⟨ack, hstage⟩ <;> cases hstage <;> exact hwf
  | reserved hstage =>
    cases hstage
    exact ⟨hwf.1, rfl, hwf.2.2⟩
  | crossing hstage =>
    cases hstage
    exact hwf
  | finished hstage => trivial
  | abandoned hstage =>
    rcases hstage with ⟨ack, hstage⟩ | hstage | ⟨ack, hstage⟩ <;> cases hstage
    · exact ⟨hwf.1, .inl hwf.2.1, hwf.2.2⟩
    · exact ⟨hwf.1, .inr hwf.2.1, hwf.2.2⟩
    · exact ⟨hwf.1, .inr hwf.2.1, hwf.2.2⟩
  | unrescinded hstage =>
    rename_i result
    cases hstage
    rcases result with _ | ⟨_ | _, _⟩ <;> exact hwf
  | committed hstage =>
    cases hstage
    exact ⟨hwf.1, hwf.2.1, rfl⟩
  | returned hstage =>
    rename_i result
    rcases result with _ | ⟨_ | _, _⟩ <;> trivial

/-- At these stages no job with a slot is there. -/
def Stage.isQuiet : Stage → Bool
  | .reserving .awaited | .committing .awaited | .completing .awaited | .retaining .awaited => false
  | .leaving none | .rescinded none | .committed false | .gone => false
  | _ => true

theorem awaits_of_isQuiet {stage : Stage} (h : stage.isQuiet = true) (kind : JobKind) :
    awaits kind stage = false := by
  revert h
  unfold awaits
  split <;> intro h <;> first | rfl | cases h

/-- A call or a value is given up with a job of its own still there, or an exchange that was given
up goes on. -/
inductive Abandons : Stage → Stage → Prop
  | reserving : Abandons (.reserving .awaited) (.leaving none)
  | committing : Abandons (.committing .awaited) (.leaving none)
  | completing : Abandons (.completing .awaited) (.committed false)
  | retaining : Abandons (.retaining .awaited) .gone
  | committed : Abandons (.committed false) .gone
  | leaving : Abandons (.leaving none) (.rescinded none)
  | rescinded : Abandons (.rescinded none) .gone

theorem Abandons.awaits {stage stage' : Stage} {kind : JobKind} (h : Abandons stage stage')
    (hawaits : awaits kind stage = true) : Retention.awaits kind stage' = true := by
  cases h <;> rcases kind with _ | _ | ⟨_, _, _ | _⟩ | _ <;> first | rfl | cases hawaits

theorem Turn.isQuiet_or {ex ex' : Exchange} (h : Turn ex ex') :
    ex.stage.isQuiet = true ∨
      ∃ stage, Abandons ex.stage stage ∧ ex' = { ex with stage := stage } := by
  obtain ⟨request, stage, reserve, commit⟩ := ex
  cases h with
  | unsent hstage =>
    rcases hstage with ⟨hstage, -⟩ | ⟨hstage, -⟩ <;> cases hstage <;> exact .inl rfl
  | failed hstage hack =>
    rename_i ack err
    have hquiet : ack ≠ .awaited := by
      intro hawaited
      rw [hawaited] at hack
      cases hack
    rcases hstage with ⟨hstage, -⟩ | ⟨hstage, -⟩ <;> cases hstage <;>
      (cases ack <;> first | exact absurd rfl hquiet | exact .inl rfl)
  | unsentImport hstage | reserved hstage | crossing hstage | committed hstage =>
    cases hstage
    exact .inl rfl
  | spent hstage =>
    rcases hstage with hstage | ⟨ack, hstage⟩ <;> cases hstage
    · exact .inl rfl
    · cases ack with
      | awaited => exact .inr ⟨_, .completing, rfl⟩
      | answered | lost => exact .inl rfl
  | finished hstage =>
    rcases hstage with ⟨ack, hstage⟩ | ⟨b, hstage⟩ <;> cases hstage
    · cases ack with
      | awaited => exact .inr ⟨_, .retaining, rfl⟩
      | answered | lost => exact .inl rfl
    · cases b with
      | false => exact .inr ⟨_, .committed, rfl⟩
      | true => exact .inl rfl
  | abandoned hstage =>
    rcases hstage with ⟨ack, hstage⟩ | hstage | ⟨ack, hstage⟩ <;> cases hstage
    · cases ack with
      | awaited => exact .inr ⟨_, .reserving, rfl⟩
      | answered | lost => exact .inl rfl
    · exact .inl rfl
    · cases ack with
      | awaited => exact .inr ⟨_, .committing, rfl⟩
      | answered | lost => exact .inl rfl
  | unrescinded hstage =>
    rename_i result
    cases hstage
    cases result with
    | some r => exact .inl rfl
    | none => exact .inr ⟨_, .leaving, rfl⟩
  | returned hstage =>
    rename_i result
    cases hstage
    cases result with
    | some r => exact .inl rfl
    | none => exact .inr ⟨_, .rescinded, rfl⟩

theorem Turn.belongs {ex ex' : Exchange} {kind : JobKind} (h : Turn ex ex')
    (hb : Belongs P serde ex kind) : Belongs P serde ex' kind := by
  rcases h.isQuiet_or with hquiet | ⟨stage, habandons, rfl⟩
  · have hawaits := hb.stage
    rw [awaits_of_isQuiet hquiet] at hawaits
    cases hawaits
  · exact ⟨habandons.awaits hb.stage, by cases kind <;> exact hb.names⟩

theorem Turn.rescinds {ex ex' : Exchange} {kind : JobKind} (h : Turn ex ex')
    (hr : Rescinds P serde ex kind) : Rescinds P serde ex' kind := by
  refine ⟨?_, by rw [hr.kind, h.digest_eq]⟩
  have hstage' := hr.stage
  obtain ⟨request, stage, reserve, commit⟩ := ex
  cases h with
  | unsent hstage | failed hstage hack =>
    rcases hstage with ⟨hstage, -⟩ | ⟨hstage, -⟩ <;> cases hstage <;> cases hstage'
  | unsentImport hstage | reserved hstage | crossing hstage | committed hstage =>
    cases hstage
    cases hstage'
  | spent hstage => rfl
  | finished hstage => rfl
  | abandoned hstage =>
    rcases hstage with ⟨ack, hstage⟩ | hstage | ⟨ack, hstage⟩ <;> cases hstage <;> cases hstage'
  | unrescinded hstage => rfl
  | returned hstage =>
    rename_i result
    rcases result with _ | ⟨_ | _, _⟩ <;> rfl

theorem Turn.ne_unused {ex ex' : Exchange} (h : Turn ex ex') : ex.stage ≠ .unused := by
  intro hunused
  cases h with
  | unsent hstage | failed hstage hack =>
    rcases hstage with ⟨hstage, -⟩ | ⟨hstage, -⟩ <;> rw [hunused] at hstage <;> cases hstage
  | unsentImport hstage | reserved hstage | crossing hstage | committed hstage | unrescinded hstage
  | returned hstage =>
    rw [hunused] at hstage
    cases hstage
  | spent hstage =>
    rcases hstage with hstage | ⟨ack, hstage⟩ <;> rw [hunused] at hstage <;> cases hstage
  | finished hstage =>
    rcases hstage with ⟨_, hstage⟩ | ⟨_, hstage⟩ <;> rw [hunused] at hstage <;> cases hstage
  | abandoned hstage =>
    rcases hstage with ⟨_, hstage⟩ | hstage | ⟨_, hstage⟩ <;> rw [hunused] at hstage <;>
      cases hstage

/-! ## A send -/

section

variable {ex ex' : Exchange} {kind : JobKind} {slot : Bool}

theorem Sends.ne_unused (h : Sends P serde ex kind slot ex') : ex.stage ≠ .unused := by
  intro hunused
  cases h with
  | publish hstage | commit hstage | complete hstage | send hstage | rescind hstage
  | crossed hstage =>
    rw [hunused] at hstage
    cases hstage

theorem Sends.wf (h : Sends P serde ex kind slot ex') (hwf : ex.Wf P serde) : ex'.Wf P serde := by
  obtain ⟨request, stage, reserve, commit⟩ := ex
  cases h with
  | publish hstage | commit hstage | complete hstage =>
    cases hstage
    exact hwf
  | send hstage => trivial
  | rescind hstage =>
    rename_i result
    cases hstage
    rcases result with _ | ⟨_ | _, _⟩ <;> exact hwf
  | crossed hstage =>
    cases hstage
    exact ⟨hwf.1, hwf.2.1, rfl⟩

theorem Sends.belongs (h : Sends P serde ex kind true ex') (hwf : ex.Wf P serde) :
    Belongs P serde ex' kind := by
  obtain ⟨request, stage, reserve, commit⟩ := ex
  cases h with
  | publish hstage =>
    cases hstage
    exact ⟨rfl, rfl, hwf.1, hwf.2.1, hwf.2.2⟩
  | commit hstage =>
    cases hstage
    exact ⟨rfl, rfl, rfl, hwf.1, hwf.2.1, hwf.2.2⟩
  | complete hstage hrequest =>
    cases hstage
    exact ⟨rfl, rfl, rfl, ⟨_, _, hrequest, rfl⟩, hwf.2.2⟩
  | send hstage =>
    cases hstage
    obtain ⟨record, rfl⟩ := hwf
    exact ⟨rfl, rfl, record, rfl⟩

theorem Sends.rescinds (h : Sends P serde ex kind false ex') : Rescinds P serde ex' kind := by
  cases h with
  | rescind hstage => exact ⟨rfl, rfl⟩
  | crossed hstage => exact ⟨rfl, rfl⟩

theorem Sends.of_slot (h : Sends P serde ex kind true ex') :
    ex.stage.isQuiet = true ∧ ∀ k, Rescinds P serde ex k → Rescinds P serde ex' k := by
  obtain ⟨request, stage, reserve, commit⟩ := ex
  cases h with
  | publish hstage | commit hstage | send hstage =>
    cases hstage
    refine ⟨rfl, fun k hk => ?_⟩
    cases hk.stage
  | complete hstage =>
    cases hstage
    exact ⟨rfl, fun k hk => ⟨rfl, hk.kind⟩⟩

theorem Sends.of_cleanup (h : Sends P serde ex kind false ex') :
    Retention.rescinds ex.stage = false ∧ ∀ k, Belongs P serde ex k → Belongs P serde ex' k := by
  cases h with
  | rescind hstage =>
    refine ⟨by rw [hstage]; rfl, fun k hk => ?_⟩
    exact (Turn.unrescinded hstage).belongs hk
  | crossed hstage =>
    refine ⟨by rw [hstage]; rfl, fun k hk => ?_⟩
    exact (Turn.committed hstage).belongs hk

end

/-! ## An acknowledgement -/

theorem wf_receive {ex : Exchange} (hwf : ex.Wf P serde) (ack : Ack) :
    Exchange.Wf P serde { ex with stage := ex.stage.receive ack } := by
  obtain ⟨request, stage, reserve, commit⟩ := ex
  cases stage with
  | reserving a | committing a | completing a | retaining a => cases a <;> exact hwf
  | _ => exact hwf

theorem rescinds_receive (stage : Stage) (ack : Ack) :
    rescinds (stage.receive ack) = rescinds stage := by
  cases stage with
  | reserving a | committing a | completing a | retaining a => cases a <;> rfl
  | _ => rfl

/-! ## The jobs of a state -/

/-- Each job belongs where its exchange stands, and an exchange has one job with a slot and one
rescind. -/
structure JobsOk (P : Platform) (serde : Serde) (exchanges : Nat → Exchange)
    (jobs : List WriteJob) : Prop where
  slot : ∀ job ∈ jobs, job.slot = true → Belongs P serde (exchanges job.exchange) job.kind
  cleanup : ∀ job ∈ jobs, job.slot = false → Rescinds P serde (exchanges job.exchange) job.kind
  unique : (jobs.map fun job => (job.slot, job.exchange)).Nodup

namespace JobsOk

variable {exchanges exchanges' : Nat → Exchange} {jobs jobs' : List WriteJob} {job : WriteJob}

theorem nil : JobsOk P serde exchanges [] where
  slot := fun _ hjob => absurd hjob List.not_mem_nil
  cleanup := fun _ hjob => absurd hjob List.not_mem_nil
  unique := List.nodup_nil

theorem perm (h : JobsOk P serde exchanges jobs) (hperm : jobs.Perm jobs') :
    JobsOk P serde exchanges jobs' where
  slot := fun job hjob => h.slot job (hperm.mem_iff.2 hjob)
  cleanup := fun job hjob => h.cleanup job (hperm.mem_iff.2 hjob)
  unique := (hperm.map _).nodup_iff.1 h.unique

theorem tail (h : JobsOk P serde exchanges (job :: jobs)) : JobsOk P serde exchanges jobs where
  slot := fun j hj => h.slot j (List.mem_cons_of_mem _ hj)
  cleanup := fun j hj => h.cleanup j (List.mem_cons_of_mem _ hj)
  unique := (List.nodup_cons.1 h.unique).2

theorem ne_of_cons (h : JobsOk P serde exchanges (job :: jobs)) {j : WriteJob} (hj : j ∈ jobs)
    (hslot : j.slot = job.slot) : j.exchange ≠ job.exchange := by
  intro heq
  refine (List.nodup_cons.1 h.unique).1 (List.mem_map.2 ⟨j, hj, ?_⟩)
  rw [hslot, heq]

theorem cons (h : JobsOk P serde exchanges jobs)
    (hslot : job.slot = true → Belongs P serde (exchanges job.exchange) job.kind)
    (hcleanup : job.slot = false → Rescinds P serde (exchanges job.exchange) job.kind)
    (hnew : ∀ j ∈ jobs, j.slot = job.slot → j.exchange ≠ job.exchange) :
    JobsOk P serde exchanges (job :: jobs) where
  slot := by
    intro j hj
    rcases List.mem_cons.1 hj with rfl | hj
    · exact hslot
    · exact h.slot j hj
  cleanup := by
    intro j hj
    rcases List.mem_cons.1 hj with rfl | hj
    · exact hcleanup
    · exact h.cleanup j hj
  unique := by
    refine List.nodup_cons.2 ⟨fun hmem => ?_, h.unique⟩
    obtain ⟨j, hj, heq⟩ := List.mem_map.1 hmem
    obtain ⟨hs, he⟩ := Prod.mk.inj heq
    exact hnew j hj hs he

theorem update {e : Nat} {ex : Exchange} (h : JobsOk P serde exchanges jobs)
    (hslot : ∀ job ∈ jobs, job.exchange = e → job.slot = true →
      Belongs P serde (exchanges e) job.kind → Belongs P serde ex job.kind)
    (hcleanup : ∀ job ∈ jobs, job.exchange = e → job.slot = false →
      Rescinds P serde (exchanges e) job.kind → Rescinds P serde ex job.kind) :
    JobsOk P serde (Function.update exchanges e ex) jobs where
  slot := by
    intro job hjob htrue
    have hb := h.slot job hjob htrue
    by_cases heq : job.exchange = e
    · rw [heq, Function.update_self]
      exact hslot job hjob heq htrue (heq ▸ hb)
    · rwa [Function.update_of_ne heq]
  cleanup := by
    intro job hjob hfalse
    have hr := h.cleanup job hjob hfalse
    by_cases heq : job.exchange = e
    · rw [heq, Function.update_self]
      exact hcleanup job hjob heq hfalse (heq ▸ hr)
    · rwa [Function.update_of_ne heq]
  unique := h.unique

end JobsOk

namespace EvidenceRetention

/-- What every reachable state keeps. -/
structure Sound (P : Platform) (serde : Serde) (s : EvidenceRetention) : Prop where
  fresh : ∀ e, s.count ≤ e → s.exchanges e = .unused
  wf : ∀ e, (s.exchanges e).Wf P serde
  jobs : JobsOk P serde s.exchanges s.live
  stopped : s.writer = .stopped → s.queue = []

theorem sound_opened : Sound P serde opened where
  fresh := fun _ _ => rfl
  wf := fun _ => trivial
  jobs := .nil
  stopped := fun _ => rfl

/-- An operation of the writer keeps the exchanges and the jobs, or acknowledges one job. -/
inductive Writes (s : EvidenceRetention) : EvidenceRetention → Prop
  | kept {s' : EvidenceRetention} (hexchanges : s'.exchanges = s.exchanges)
      (hcount : s'.count = s.count) (hlive : s.live.Perm s'.live)
      (hqueue : s'.queue = s.queue ∨ ∃ job, s.queue = job :: s'.queue)
      (hstopped : s'.writer = .stopped → s.writer = .stopped) : Writes s s'
  | acknowledged {s' : EvidenceRetention} (job : WriteJob) (outcome : Except JobFault Unit)
      (hexchanges : s'.exchanges = if job.slot then
          Function.update s.exchanges job.exchange { s.exchanges job.exchange with
            stage := (s.exchanges job.exchange).stage.receive (.answered outcome) }
        else s.exchanges)
      (hcount : s'.count = s.count) (hlive : s.live.Perm (job :: s'.live))
      (hqueue : s'.queue = s.queue) (hstopped : s'.writer ≠ .stopped) : Writes s s'

theorem writeStep_writes (s : EvidenceRetention) (fault : Option IoError) :
    Writes s (s.writeStep fault) := by
  obtain ⟨queue, writer, root, exchanges, count⟩ := s
  cases writer with
  | collecting batch =>
    cases queue with
    | nil =>
      simp only [writeStep]
      split
      · exact .kept rfl rfl (.refl _) (.inl rfl) id
      · exact .kept rfl rfl (.refl _) (.inl rfl) (by intro h; cases h)
    | cons job queue =>
      simp only [writeStep]
      split
      · refine .kept rfl rfl ?_ (.inr ⟨job, rfl⟩) (by intro h; cases h)
        simp only [live, Writer.jobs, List.cons_append, ← List.append_assoc]
        exact (List.perm_append_singleton job (queue ++ batch)).symm
      · exact .kept rfl rfl (.refl _) (.inl rfl) (by intro h; cases h)
  | acting done todo =>
    cases todo with
    | nil =>
      refine .kept rfl rfl ?_ (.inl rfl) (by intro h; cases h)
      simp [live, writeStep, Writer.jobs]
    | cons job todo =>
      refine .kept rfl rfl ?_ (.inl rfl) (by intro h; cases h)
      simp [live, writeStep, Writer.jobs]
  | withdrawing barrier done todo =>
    cases todo with
    | nil =>
      refine .kept rfl rfl ?_ (.inl rfl) (by intro h; cases h)
      simp [live, writeStep, Writer.jobs]
    | cons a todo =>
      refine .kept rfl rfl ?_ (.inl rfl) (by intro h; cases h)
      simp [live, writeStep, Writer.jobs]
  | resolving barrier withdrawalBarrier todo =>
    cases todo with
    | nil => exact .kept rfl rfl (.refl _) (.inl rfl) (by intro h; cases h)
    | cons w todo => exact .kept rfl rfl (.refl _) (.inl rfl) (by intro h; cases h)
  | acknowledging barrier withdrawalBarrier job outcome todo =>
    refine .acknowledged job outcome ?_ ?_ ?_ ?_ ?_
    all_goals
      simp only [writeStep]
      split <;> simp [move, set, live, Writer.jobs, *]
  | stopped => exact .kept rfl rfl (.refl _) (.inl rfl) id

section

variable {s : EvidenceRetention}

theorem Sound.lt_count (h : Sound P serde s) {e : Nat} (hstage : (s.exchanges e).stage ≠ .unused) :
    e < s.count := by
  by_contra hge
  exact hstage (by rw [h.fresh e (Nat.le_of_not_lt hge)]; rfl)

theorem Sound.admitted (h : Sound P serde s) {ex : Exchange} (hnew : Admits P serde ex) :
    Sound P serde (s.admitted ex) where
  fresh := by
    intro e he
    have hne : e ≠ s.count := Nat.ne_of_gt he
    exact (Function.update_of_ne hne _ _).trans (h.fresh e (Nat.le_of_succ_le he))
  wf := by
    intro e
    by_cases heq : e = s.count
    · have hself : (s.admitted ex).exchanges e = ex := by rw [heq]; exact Function.update_self ..
      rw [hself]
      cases hnew with
      | acquired request => exact ⟨rfl, rfl, rfl⟩
      | refused request => trivial
      | importing request response => exact ⟨.of request response, rfl⟩
    · have hother : (s.admitted ex).exchanges e = s.exchanges e := Function.update_of_ne heq ..
      rw [hother]
      exact h.wf e
  jobs := by
    -- the exchange is new, so no job is about it
    have hunused : (s.exchanges s.count).stage = .unused := by
      rw [h.fresh s.count (Nat.le_refl _)]
      rfl
    refine h.jobs.update ?_ ?_
    · intro job _ _ _ hb
      have hawaits := hb.stage
      rw [hunused, awaits_of_isQuiet rfl] at hawaits
      cases hawaits
    · intro job _ _ _ hr
      have hrescinds := hr.stage
      rw [hunused] at hrescinds
      cases hrescinds
  stopped := h.stopped

theorem Sound.set_exchanges (h : Sound P serde s) {e : Nat} {ex : Exchange}
    (hstage : (s.exchanges e).stage ≠ .unused) (hwf : ex.Wf P serde) :
    (∀ e', s.count ≤ e' → (s.set e ex).exchanges e' = .unused) ∧
      ∀ e', ((s.set e ex).exchanges e').Wf P serde := by
  have hlt := h.lt_count hstage
  constructor
  · intro e' he'
    have hne : e' ≠ e := Nat.ne_of_gt (Nat.lt_of_lt_of_le hlt he')
    exact (Function.update_of_ne hne _ _).trans (h.fresh e' he')
  · intro e'
    by_cases heq : e' = e
    · have hself : (s.set e ex).exchanges e' = ex := by rw [heq]; exact Function.update_self ..
      rwa [hself]
    · have hother : (s.set e ex).exchanges e' = s.exchanges e' := Function.update_of_ne heq ..
      rw [hother]
      exact h.wf e'

theorem Sound.turned (h : Sound P serde s) {e : Nat} {ex : Exchange}
    (hturn : Turn (s.exchanges e) ex) : Sound P serde (s.set e ex) where
  fresh := (h.set_exchanges hturn.ne_unused (hturn.wf (h.wf e))).1
  wf := (h.set_exchanges hturn.ne_unused (hturn.wf (h.wf e))).2
  jobs := h.jobs.update (fun _ _ _ _ => hturn.belongs) fun _ _ _ _ => hturn.rescinds
  stopped := h.stopped

theorem Sound.sent (h : Sound P serde s) {e : Nat} {kind : JobKind} {slot : Bool} {ex : Exchange}
    (hsends : Sends P serde (s.exchanges e) kind slot ex) (halive : s.writer ≠ .stopped) :
    Sound P serde { s.set e ex with queue := s.queue ++ [⟨kind, e, slot⟩] } where
  fresh := (h.set_exchanges hsends.ne_unused (hsends.wf (h.wf e))).1
  wf := (h.set_exchanges hsends.ne_unused (hsends.wf (h.wf e))).2
  jobs := by
    have hperm : ((⟨kind, e, slot⟩ : WriteJob) :: s.live).Perm
        ((s.queue ++ [⟨kind, e, slot⟩]) ++ s.writer.jobs) := by
      rw [live, List.append_assoc, List.singleton_append]
      exact List.perm_middle.symm
    refine JobsOk.perm ?_ hperm
    have hself : (s.set e ex).exchanges e = ex := Function.update_self ..
    cases slot with
    | true =>
      obtain ⟨hquiet, hkeeps⟩ := hsends.of_slot
      have hnone : ∀ job ∈ s.live, job.slot = true → job.exchange ≠ e := by
        intro job hjob hslot heq
        have hawaits := (h.jobs.slot job hjob hslot).stage
        rw [heq, awaits_of_isQuiet hquiet] at hawaits
        cases hawaits
      have hjobs : JobsOk P serde (Function.update s.exchanges e ex) s.live := h.jobs.update
        (fun job hjob heq hslot => absurd heq (hnone job hjob hslot))
        fun job _ _ _ => hkeeps job.kind
      refine hjobs.cons (fun _ => ?_) (by intro hslot; cases hslot) hnone
      change Belongs P serde ((s.set e ex).exchanges e) kind
      rw [hself]
      exact hsends.belongs (h.wf e)
    | false =>
      obtain ⟨hnot, hkeeps⟩ := hsends.of_cleanup
      have hnone : ∀ job ∈ s.live, job.slot = false → job.exchange ≠ e := by
        intro job hjob hslot heq
        have hrescinds := (h.jobs.cleanup job hjob hslot).stage
        rw [heq, hnot] at hrescinds
        cases hrescinds
      have hjobs : JobsOk P serde (Function.update s.exchanges e ex) s.live := h.jobs.update
        (fun job _ _ _ => hkeeps job.kind)
        fun job hjob heq hslot => absurd heq (hnone job hjob hslot)
      refine hjobs.cons (by intro hslot; cases hslot) (fun _ => ?_) hnone
      change Rescinds P serde ((s.set e ex).exchanges e) kind
      rw [hself]
      exact hsends.rescinds
  stopped := fun hstopped => absurd hstopped halive

theorem Sound.wrote (h : Sound P serde s) {s' : EvidenceRetention} (hwrites : Writes s s') :
    Sound P serde s' := by
  cases hwrites with
  | kept hexchanges hcount hlive hqueue hstopped =>
    refine ⟨?_, ?_, ?_, ?_⟩
    · rw [hexchanges, hcount]
      exact h.fresh
    · rw [hexchanges]
      exact h.wf
    · rw [hexchanges]
      exact h.jobs.perm hlive
    · intro hstop
      have hnil := h.stopped (hstopped hstop)
      rcases hqueue with hqueue | ⟨job, hqueue⟩
      · rw [hqueue, hnil]
      · rw [hnil] at hqueue
        cases hqueue
  | acknowledged job outcome hexchanges hcount hlive hqueue hstopped =>
    have hjobs := h.jobs.perm hlive
    cases hslot : job.slot with
    | false =>
      simp only [hslot, Bool.false_eq_true, if_false] at hexchanges
      exact ⟨by rw [hexchanges, hcount]; exact h.fresh, by rw [hexchanges]; exact h.wf,
        by rw [hexchanges]; exact hjobs.tail, fun hstop => absurd hstop hstopped⟩
    | true =>
      simp only [hslot, if_true] at hexchanges
      have hunused : (s.exchanges job.exchange).stage ≠ .unused := by
        intro hunused
        have hawaits := (hjobs.slot job List.mem_cons_self hslot).stage
        rw [hunused, awaits_of_isQuiet rfl] at hawaits
        cases hawaits
      have hset := h.set_exchanges hunused (wf_receive (h.wf job.exchange) (.answered outcome))
      refine ⟨by rw [hexchanges, hcount]; exact hset.1, by rw [hexchanges]; exact hset.2, ?_,
        fun hstop => absurd hstop hstopped⟩
      rw [hexchanges]
      refine hjobs.tail.update ?_ ?_
      · intro j hj heq hjslot
        exact absurd heq (hjobs.ne_of_cons hj (hjslot.trans hslot.symm))
      · intro j _ _ _ hr
        exact ⟨by rw [rescinds_receive]; exact hr.stage, hr.kind⟩

end

/-- **Every step keeps the state sound.** -/
theorem Sound.step (s : EvidenceRetention) (action : Action) (h : Sound P serde s) :
    Sound P serde (step P serde K s action).2 := by
  have hmoves : Moves P serde K s action (EvidenceRetention.step P serde K s action).2 :=
    step_moves s action
  generalize (EvidenceRetention.step P serde K s action).2 = s' at hmoves
  cases hmoves with
  | idle => exact h
  | admitted hnew hroom => exact h.admitted hnew
  | turned hturn hunsent => exact h.turned hturn
  | sent hsends halive haction => exact h.sent hsends halive
  | wrote haction => exact h.wrote (writeStep_writes s _)
  | stopped haction =>
    refine ⟨?_, fun e => wf_receive (h.wf e) .lost, .nil, fun _ => rfl⟩
    intro e he
    change (⟨_, _, _, _⟩ : Exchange) = .unused
    rw [h.fresh e he]
    rfl
  | crashed haction =>
    refine ⟨?_, fun e => ?_, .nil, fun _ => rfl⟩
    · intro e he
      change (⟨_, _, _, _⟩ : Exchange) = .unused
      rw [h.fresh e he]
      rfl
    · change Exchange.Wf P serde ⟨_, _, _, _⟩
      cases hholds : (s.exchanges e).stage.holds with
      | true => simp only [if_true]; trivial
      | false =>
        simp only [Bool.false_eq_true, if_false]
        exact h.wf e

end EvidenceRetention

/-! Three requests without headers, and an answer to the first: their JSON, and the real digests of
it. -/

namespace StoreSample

def request (n : Nat) : HttpRequest :=
  ⟨"POST".toList, "https://a/".toList ++ Nat.toDigits 10 n, [], []⟩

def response : HttpResponse := ⟨200, [], []⟩

def quoted (s : Str) : Str := '"' :: s ++ ['"']

def member (key : String) (value : Str) : Str := quoted key.toList ++ ':' :: value

def requestText (r : RetainedRequest) : Str :=
  "\x7b".toList ++ member "method" (quoted r.method) ++ ',' :: member "target_uri" (quoted r.targetUri)
    ++ ",\"headers\":[],".toList ++ member "body_b64" (quoted r.bodyB64) ++ "\x7d".toList

def hopText (hop : RetainedHopRecord) : Str :=
  "\x7b".toList ++ member "schema" (quoted hop.schema) ++ ',' :: member "request"
    (requestText hop.request) ++ ",\"response\":\x7b".toList
    ++ member "status" (Nat.toDigits 10 hop.response.status.toNat) ++ ",\"headers\":[],".toList
    ++ member "body_b64" (quoted hop.response.bodyB64) ++ "\x7d\x7d".toList

def json : Serde := ⟨fun r => utf8 (requestText r), fun hop => utf8 (hopText hop)⟩

def hopBytes : Bytes := json.hop (.of (request 1) response)

def sha256 (b : Bytes) : Digest :=
  if b = json.request (retainedRequest (request 1)) then
    ⟨[236, 245, 164, 226, 36, 251, 201, 236, 116, 132, 2, 52, 5, 235, 136, 226, 28, 214, 61, 148, 115,
      223, 218, 68, 113, 38, 127, 128, 62, 130, 192, 223], rfl⟩
  else if b = json.request (retainedRequest (request 2)) then
    ⟨[3, 102, 223, 116, 49, 187, 213, 18, 125, 120, 128, 142, 72, 242, 23, 237, 141, 214, 88, 205,
      242, 162, 150, 203, 66, 86, 0, 145, 121, 68, 177, 77], rfl⟩
  else if b = json.request (retainedRequest (request 3)) then
    ⟨[103, 116, 194, 149, 125, 56, 61, 159, 123, 109, 121, 23, 156, 250, 228, 201, 128, 156, 93, 1,
      100, 224, 81, 18, 138, 33, 32, 199, 7, 228, 192, 219], rfl⟩
  else if b = hopBytes then
    ⟨[7, 151, 164, 6, 103, 126, 82, 25, 232, 1, 198, 166, 167, 51, 158, 156, 123, 19, 79, 34, 252,
      193, 54, 140, 163, 114, 15, 136, 152, 193, 164, 199], rfl⟩
  else ⟨List.replicate 32 0, length_zeros⟩

def platform : Platform := { samplePlatform with sha256 := sha256 }

def served : List Action := List.replicate 9 (.write none)

def reserving (n e : Nat) : List Action :=
  [Action.reserve (request n), .publish e] ++ served ++ [Action.resume e]

end StoreSample

end McpRe.Retention

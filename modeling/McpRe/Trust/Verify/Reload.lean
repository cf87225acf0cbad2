import McpRe.Trust.Reload
import McpRe.Trust.Verify.Shared

/-!
# The delivered revocation window

A binding that was removed from the file is in the store only while the store is older than the
removal. Each failed attempt lets the store grow a cadence older, and the latch is set when the
budget is spent, so a call that gets past the latch meets a store of a bounded age. What it caches
lives a window longer.

* `LoopOk.step`: how old the store is, at each point of the reload thread;
* `Served.step`: what the calls and the cache hold of the binding;
* `revocation_window_delivered`: the window over every run.
-/

namespace McpRe.Trust

open Lib Lib.Text Lib.Run
open McpRe.Http (VerificationKey)

/-! ## Readings of the clock -/

theorem val_unixSeconds (time : Nat) :
    (unixSeconds time).val = min ((time / nanosPerSec : Nat) : Int) (2 ^ 63 - 1) := by
  simp only [unixSeconds, I64.clamp]
  generalize time / nanosPerSec = seconds
  omega

theorem unixSeconds_mono {time time' : Nat} (h : time ≤ time') :
    unixSeconds time ≤ unixSeconds time' := by
  have hdiv : time / nanosPerSec ≤ time' / nanosPerSec := Nat.div_le_div_right h
  rw [I64.le_iff, val_unixSeconds, val_unixSeconds]
  generalize time / nanosPerSec = seconds at hdiv ⊢
  generalize time' / nanosPerSec = seconds' at hdiv ⊢
  omega

namespace Deployment

section

variable (file : Nat → InMemoryTrustResolver) (cadence : Nat)

/-! ## What a step can do -/

/-- The step an event makes, and what comes of it. -/
inductive Moves (s : Deployment) : Event → Option Resolved → Deployment → Prop
  /-- Nothing was there to do this step. -/
  | stays (event : Event) : Moves s event none s
  | elapse (nanos : Nat) :
      Moves s (.elapse nanos) none { s with
        time := s.time + nanos
        shared := (s.shared.step (.pass (unixSeconds (s.time + nanos)))).2 }
  /-- A call is let in, or turned away. -/
  | asks (event : Event) (asking : Nat → Option Binding) : Moves s event none { s with asking }
  | refused (event : Event) (bound : Binding) (asking : Nat → Option Binding) :
      Moves s event (some ⟨bound, .error (.unavailable staleDetails)⟩) { s with asking }
  | passes (thread : Nat) (bound : Binding) (asking : Nat → Option Binding)
      (hfresh : s.freshness.stale = false) :
      Moves s (.check thread) none
        { s with asking, shared := (s.shared.step (.resolve thread bound)).2 }
  | look (thread : Nat) :
      Moves s (.look thread) (s.onCache (.look thread)).1 (s.onCache (.look thread)).2
  | ask {thread : Nat} {bound : Binding} {now : I64} {bar : Option I64}
      (hcall : s.shared.calls thread = .missed bound now bar) :
      Moves s (.ask thread) (s.onCache (.answer thread (s.store.resolver.resolve bound))).1
        (s.onCache (.answer thread (s.store.resolver.resolve bound))).2
  | write (thread : Nat) :
      Moves s (.write thread) (s.onCache (.write thread)).1 (s.onCache (.write thread)).2
  | reads {due failures : Nat} (hreloader : s.reloader = .asleep due failures) :
      Moves s (.attempt true) none { s with reloader := .read (file s.time) failures }
  | fails {due failures : Nat} (hreloader : s.reloader = .asleep due failures) :
      Moves s (.attempt false) none { s with reloader := .failing (failures + 1) }
  | proceed : Moves s .proceed none (s.proceed cadence)
  /-- The halt is seen, or the body panics. -/
  | ends (event : Event) (hreloader : s.reloader ≠ .ended) :
      Moves s event none { s with reloader := .ending }
  /-- The plane is being dropped. -/
  | marks (event : Event) (freshness : TrustStoreFreshness) (retiring : Bool)
      (hstale : s.freshness.stale = true → freshness.stale = true)
      (hterminal : s.freshness.terminal = true → freshness.terminal = true) :
      Moves s event none { s with freshness, retiring }
  | straggle (hreloader : s.reloader = .ended) :
      Moves s .straggle none { s with
        store := ⟨file s.time, s.time⟩
        freshness := if s.freshness.terminal then s.freshness else s.freshness.markFresh }

theorem step_moves (s : Deployment) (event : Event) :
    Moves file cadence s event (s.step file cadence event).1 (s.step file cadence event).2 := by
  cases event with
  | elapse nanos => exact .elapse nanos
  | resolve thread bound =>
    unfold step
    dsimp only
    split
    · split_ifs
      · exact .refused _ bound s.asking
      · exact .asks _ _
    · exact .stays _
  | check thread =>
    unfold step
    dsimp only
    split
    next bound hasking =>
      split_ifs with hstale
      · exact .refused _ bound _
      · exact .passes thread bound _ (Bool.eq_false_iff.2 hstale)
    · exact .stays _
  | look thread => exact .look thread
  | ask thread =>
    unfold step
    dsimp only
    split
    next hcall => exact .ask hcall
    · exact .stays _
  | write thread => exact .write thread
  | attempt readable =>
    unfold step
    dsimp only
    split
    next hreloader =>
      split_ifs with hearly hreadable
      · exact .stays _
      · subst hreadable
        exact .reads hreloader
      · obtain rfl : readable = false := Bool.eq_false_iff.2 hreadable
        exact .fails hreloader
    · exact .stays _
  | proceed => exact .proceed
  | halt =>
    unfold step
    dsimp only
    split
    next hreloader => exact .ends _ (by rw [hreloader]; exact Reloader.noConfusion)
    · exact .stays _
  | panic =>
    unfold step
    dsimp only
    split
    · exact .stays _
    · exact .stays _
    next hended => exact .ends _ hended
  | retire => exact .marks _ _ _ id fun _ => rfl
  | retired =>
    unfold step
    dsimp only
    split_ifs
    · exact .marks _ _ _ (fun _ => rfl) id
    · exact .stays _
  | straggle =>
    unfold step
    dsimp only
    split
    next hreloader => exact .straggle hreloader
    · exact .stays _

/-! ## The age of the store -/

/-- The store is at most so many cadences old. -/
def Due (m : Nat) (s : Deployment) : Prop :=
  s.time ≤ s.store.readAt + m * (cadence * nanosPerSec)

/-- How old the store can be, by where the reload thread is. -/
def StageOk (m : Nat) (s : Deployment) : Prop :=
  match s.reloader with
  | .asleep due failures => s.time ≤ due ∧
      due ≤ s.store.readAt + (failures + 1) * (cadence * nanosPerSec) ∧
      (failures < m ∨ s.freshness.stale = true)
  | .read resolver failures => resolver = file s.time ∧ s.Due cadence (failures + 1) ∧
      (failures < m ∨ s.freshness.stale = true)
  | .stored => s.store.readAt = s.time
  | .freshening => s.store.readAt = s.time
  | .failing failures => s.Due cadence failures ∧ (failures ≤ m ∨ s.freshness.stale = true) ∧
      (failures < m ∨ m = trustReloadFailureBudget)
  | .ending => s.freshness.stale = true ∨ s.Due cadence m
  | .latched => s.freshness.terminal = true ∧ (s.freshness.stale = true ∨ s.Due cadence m)
  | .ended => s.freshness.terminal = true ∧ s.freshness.stale = true

structure LoopOk (m : Nat) (s : Deployment) : Prop where
  read : s.store.resolver = file s.store.readAt
  stage : s.StageOk file cadence m

/-- Time stands still inside a call and inside a cycle of the reload thread, which wakes when it is
due. -/
def Paced (s : Deployment) : Event → Prop
  | .elapse nanos => (∀ thread, s.asking thread = none ∧ s.shared.calls thread = .idle) ∧
      match s.reloader with
      | .asleep due _ => s.time + nanos ≤ due
      | .ended => True
      | _ => False
  | _ => True

/-- Fewer than `m` attempts in a row fail, where the budget does not see to it. -/
def Absorbed (m : Nat) (s : Deployment) : Event → Prop
  | .attempt false =>
    match s.reloader with
    | .asleep _ failures => failures + 1 < m ∨ m = trustReloadFailureBudget
    | _ => True
  | _ => True

variable {file cadence} {m : Nat} {s : Deployment}

theorem Due.mono {k n : Nat} (h : s.Due cadence k) (hle : k ≤ n) : s.Due cadence n := by
  have hmul : k * (cadence * nanosPerSec) ≤ n * (cadence * nanosPerSec) :=
    Nat.mul_le_mul_right _ hle
  unfold Due at h ⊢
  omega

theorem due_of_readAt (h : s.store.readAt = s.time) (n : Nat) : s.Due cadence n := by
  unfold Due
  omega

theorem absorbed_budget (s : Deployment) (event : Event) :
    s.Absorbed trustReloadFailureBudget event := by
  unfold Absorbed
  split
  · split
    · exact .inr rfl
    · trivial
  · trivial

theorem absorbed_of_ne {event : Event} (h : event ≠ .attempt false) : s.Absorbed m event := by
  unfold Absorbed
  split
  · exact absurd rfl h
  · trivial

/-- **A call that finds `stale` unset meets a store of bounded age.** -/
theorem LoopOk.due (h : s.LoopOk file cadence m) (hfresh : s.freshness.stale = false) :
    s.Due cadence m := by
  have hstage := h.stage
  have hnot : ¬s.freshness.stale = true := by simp [hfresh]
  unfold StageOk at hstage
  split at hstage
  next due failures hreloader =>
    obtain ⟨hdue, hage, hcount⟩ := hstage
    have hasleep : s.Due cadence (failures + 1) := hdue.trans hage
    exact hasleep.mono (hcount.resolve_right hnot)
  next => exact hstage.2.1.mono (hstage.2.2.resolve_right hnot)
  · exact due_of_readAt hstage m
  · exact due_of_readAt hstage m
  next => exact hstage.1.mono (hstage.2.1.resolve_right hnot)
  · exact hstage.resolve_left hnot
  · exact hstage.2.resolve_left hnot
  · exact absurd hstage.2 hnot

theorem LoopOk.ending (h : s.LoopOk file cadence m) :
    LoopOk file cadence m { s with reloader := .ending } := by
  refine ⟨h.read, ?_⟩
  cases hstale : s.freshness.stale with
  | true => exact .inl hstale
  | false => exact .inr (h.due hstale)

theorem stageOk_sleep (hm : 0 < m) (hread : s.store.readAt = s.time)
    (hreloader : s.reloader = s.sleep cadence 0) : s.StageOk file cadence m := by
  unfold StageOk
  rw [hreloader]
  refine ⟨Nat.le_add_right .., ?_, .inl hm⟩
  omega

theorem LoopOk.proceed (hm : 0 < m) (h : s.LoopOk file cadence m) :
    LoopOk file cadence m (s.proceed cadence) := by
  have hstage := h.stage
  unfold StageOk at hstage
  unfold Deployment.proceed
  split
  · exact h
  next resolver failures hreloader =>
    simp only [hreloader] at hstage
    exact ⟨hstage.1, rfl⟩
  next hreloader =>
    simp only [hreloader] at hstage
    split
    · exact ⟨h.read, stageOk_sleep hm hstage rfl⟩
    · exact ⟨h.read, hstage⟩
  next hreloader =>
    simp only [hreloader] at hstage
    exact ⟨h.read, stageOk_sleep hm hstage rfl⟩
  next failures hreloader =>
    simp only [hreloader] at hstage
    obtain ⟨hdue, _, hbudget⟩ := hstage
    unfold Due at hdue
    have hage : s.time + cadence * nanosPerSec ≤
        s.store.readAt + (failures + 1) * (cadence * nanosPerSec) := by
      rw [Nat.add_mul, Nat.one_mul]
      omega
    split
    · exact ⟨h.read, Nat.le_add_right .., hage, .inr rfl⟩
    next hunspent =>
      refine ⟨h.read, Nat.le_add_right .., hage, .inl ?_⟩
      omega
  next hreloader =>
    simp only [hreloader] at hstage
    exact ⟨h.read, rfl, hstage⟩
  next hreloader =>
    simp only [hreloader] at hstage
    exact ⟨h.read, hstage.1, rfl⟩
  · exact h

theorem LoopOk.withFreshness (h : s.LoopOk file cadence m) {freshness : TrustStoreFreshness}
    (hstale : s.freshness.stale = true → freshness.stale = true)
    (hterminal : s.freshness.terminal = true → freshness.terminal = true) :
    LoopOk file cadence m { s with freshness } := by
  refine ⟨h.read, ?_⟩
  have hstage := h.stage
  cases hreloader : s.reloader with
  | asleep due failures =>
    simp only [StageOk, hreloader] at hstage ⊢
    exact ⟨hstage.1, hstage.2.1, hstage.2.2.imp_right hstale⟩
  | read resolver failures =>
    simp only [StageOk, hreloader] at hstage ⊢
    exact ⟨hstage.1, hstage.2.1, hstage.2.2.imp_right hstale⟩
  | stored =>
    simp only [StageOk, hreloader] at hstage ⊢
    exact hstage
  | freshening =>
    simp only [StageOk, hreloader] at hstage ⊢
    exact hstage
  | failing failures =>
    simp only [StageOk, hreloader] at hstage ⊢
    exact ⟨hstage.1, hstage.2.1.imp_right hstale, hstage.2.2⟩
  | ending =>
    simp only [StageOk, hreloader] at hstage ⊢
    exact hstage.imp_left hstale
  | latched =>
    simp only [StageOk, hreloader] at hstage ⊢
    exact ⟨hterminal hstage.1, hstage.2.imp_left hstale⟩
  | ended =>
    simp only [StageOk, hreloader] at hstage ⊢
    exact ⟨hterminal hstage.1, hstale hstage.2⟩

theorem LoopOk.congr {s' : Deployment} (h : s.LoopOk file cadence m) (htime : s'.time = s.time)
    (hreloader : s'.reloader = s.reloader) (hfreshness : s'.freshness = s.freshness)
    (hstore : s'.store = s.store) : s'.LoopOk file cadence m := by
  obtain ⟨hread, hstage⟩ := h
  refine ⟨by rw [hstore, hread], ?_⟩
  unfold StageOk Due at hstage ⊢
  rwa [hreloader, hfreshness, hstore, htime]

theorem LoopOk.elapse (h : s.LoopOk file cadence m) {nanos : Nat}
    (hpaced : s.Paced (.elapse nanos)) {shared : Shared.State} :
    LoopOk file cadence m { s with time := s.time + nanos, shared } := by
  refine ⟨h.read, ?_⟩
  have hstage := h.stage
  have hrests := hpaced.2
  unfold StageOk at hstage ⊢
  dsimp only
  split at hrests
  next due failures hreloader =>
    simp only [hreloader] at hstage ⊢
    exact ⟨hrests, hstage.2⟩
  next hreloader =>
    simp only [hreloader] at hstage ⊢
    exact hstage
  · exact hrests.elim

theorem LoopOk.asleep (h : s.LoopOk file cadence m) {due failures : Nat}
    (hreloader : s.reloader = .asleep due failures) :
    s.Due cadence (failures + 1) ∧ (failures < m ∨ s.freshness.stale = true) := by
  have hstage := h.stage
  simp only [StageOk, hreloader] at hstage
  exact ⟨hstage.1.trans hstage.2.1, hstage.2.2⟩

/-- **The store grows no older than the failures in a row allow.** -/
theorem LoopOk.step (hm : 0 < m) (h : s.LoopOk file cadence m) {event : Event}
    (hpaced : s.Paced event) (habsorbed : s.Absorbed m event) :
    (s.step file cadence event).2.LoopOk file cadence m := by
  have hmoves := step_moves file cadence s event
  generalize (s.step file cadence event).1 = answer at hmoves
  generalize (s.step file cadence event).2 = s' at hmoves ⊢
  cases hmoves with
  | stays => exact h
  | elapse nanos => exact h.elapse hpaced
  | asks => exact h.congr rfl rfl rfl rfl
  | refused => exact h.congr rfl rfl rfl rfl
  | passes => exact h.congr rfl rfl rfl rfl
  | look => exact h.congr rfl rfl rfl rfl
  | ask => exact h.congr rfl rfl rfl rfl
  | write => exact h.congr rfl rfl rfl rfl
  | reads hreloader => exact ⟨h.read, rfl, h.asleep hreloader⟩
  | fails hreloader =>
    simp only [Absorbed, hreloader] at habsorbed
    exact ⟨h.read, (h.asleep hreloader).1, (h.asleep hreloader).2, habsorbed⟩
  | proceed => exact h.proceed hm
  | ends => exact h.ending
  | marks event freshness retiring hstale hterminal =>
    exact (h.withFreshness hstale hterminal).congr rfl rfl rfl rfl
  | straggle hreloader =>
    -- the loop is over, so the report that the store is fresh changes nothing
    have hstage := h.stage
    simp only [StageOk, hreloader] at hstage
    refine ⟨rfl, ?_⟩
    simp only [StageOk, hreloader, hstage.1, if_true]
    exact ⟨trivial, hstage.2⟩

theorem store_proceed (cadence : Nat) (s : Deployment) :
    (s.proceed cadence).time = s.time ∧ (s.proceed cadence).shared = s.shared ∧
      ((s.proceed cadence).store = s.store ∨ (s.proceed cadence).store.readAt = s.time) := by
  unfold Deployment.proceed
  split
  · exact ⟨rfl, rfl, .inl rfl⟩
  · exact ⟨rfl, rfl, .inr rfl⟩
  · split <;> exact ⟨rfl, rfl, .inl rfl⟩
  · exact ⟨rfl, rfl, .inl rfl⟩
  · split <;> exact ⟨rfl, rfl, .inl rfl⟩
  · exact ⟨rfl, rfl, .inl rfl⟩
  · exact ⟨rfl, rfl, .inl rfl⟩
  · exact ⟨rfl, rfl, .inl rfl⟩

end

/-! ## What is served of a binding -/

section

variable (cadence m d : Nat) (binding : Binding) (key : VerificationKey) (T : I64)

/-- The time from which the store cannot hold a binding that is removed at `d`. -/
def cutoff : Nat := d + m * (cadence * nanosPerSec)

/-- What a call knows at a time: the reading it took is of this time, and the key it holds was still
in the store. -/
def CallOk (time : Nat) (due : Prop) : Shared.Call → Prop
  | .looking _ now => now = unixSeconds time ∧ due
  | .missed _ now _ => now = unixSeconds time ∧ due
  | .resolved bound now _ resolution => now = unixSeconds time ∧
      (bound = binding → resolution.result = .ok key → time < cutoff cadence m d)
  | _ => True

/-- An entry that holds the key was written while the store could still hold it. -/
def Lapses (entryKey : Str) (entry : CacheEntry) : Prop :=
  entryKey = composeKey binding → entry.outcome = .active key →
    ∃ time < cutoff cadence m d,
      entry.expiresAt.val ≤ (time / nanosPerSec : Nat) + (max T 0).val

structure Served (s : Deployment) : Prop where
  clock : s.shared.clock = unixSeconds s.time
  window : s.shared.cache.window (.active key) = max T 0
  calls : ∀ thread, CallOk cadence m d binding key s.time (s.Due cadence m) (s.shared.calls thread)
  entries : s.shared.cache.AllEntries (Lapses cadence m d binding key T)

variable {cadence m d binding key T} {s : Deployment}

theorem CallOk.due_mono {time : Nat} {due due' : Prop} {call : Shared.Call}
    (h : CallOk cadence m d binding key time due call) (hdue : due → due') :
    CallOk cadence m d binding key time due' call := by
  cases call with
  | idle => trivial
  | looking bound now => exact ⟨h.1, hdue h.2⟩
  | missed bound now bar => exact ⟨h.1, hdue h.2⟩
  | resolved bound now bar resolution => exact h
  | evicting bound now => trivial
  | clearing now => trivial

theorem Served.congr {s' : Deployment} (h : s.Served cadence m d binding key T)
    (htime : s'.time = s.time) (hshared : s'.shared = s.shared)
    (hstore : s'.store = s.store ∨ s'.store.readAt = s.time) :
    s'.Served cadence m d binding key T := by
  have hdue : s.Due cadence m → s'.Due cadence m := by
    intro hdue
    unfold Due at hdue ⊢
    rcases hstore with hstore | hstore
    · rwa [htime, hstore]
    · rw [htime, hstore]
      exact Nat.le_add_right ..
  refine ⟨by rw [hshared, htime]; exact h.clock, by rw [hshared]; exact h.window, ?_, ?_⟩
  · intro thread
    rw [hshared, htime]
    exact (h.calls thread).due_mono hdue
  · rw [hshared]
    exact h.entries

theorem Served.call (h : s.Served cadence m d binding key T) {thread : Nat} {call : Shared.Call}
    (hcall : s.shared.calls thread = call) :
    CallOk cadence m d binding key s.time (s.Due cadence m) call := hcall ▸ h.calls thread

theorem Served.moved (h : s.Served cadence m d binding key T) (thread : Nat) {call : Shared.Call}
    (hcall : CallOk cadence m d binding key s.time (s.Due cadence m) call) :
    Served cadence m d binding key T { s with shared := s.shared.moved thread call } := by
  refine ⟨h.clock, h.window, fun other => ?_, h.entries⟩
  dsimp only
  by_cases heq : other = thread
  · rw [heq, Shared.State.calls_moved_self]
    exact hcall
  · rw [Shared.State.calls_moved_of_ne _ heq]
    exact h.calls other

theorem Served.withCache (h : s.Served cadence m d binding key T) {cache : BoundedTrustCache}
    (hwindow : cache.window = s.shared.cache.window)
    (hentries : s.shared.cache.AllEntries (Lapses cadence m d binding key T) →
      cache.AllEntries (Lapses cadence m d binding key T)) :
    Served cadence m d binding key T { s with shared := { s.shared with cache } } :=
  ⟨h.clock, hwindow ▸ h.window, h.calls, hentries h.entries⟩

/-- **A key enters the cache with the time at which the store still held it.** -/
theorem Served.written (h : s.Served cadence m d binding key T) {bound : Binding} {now : I64}
    {resolution : Resolution} (hnow : now = unixSeconds s.time)
    (hheld : bound = binding → resolution.result = .ok key → s.time < cutoff cadence m d)
    (hentries : s.shared.cache.AllEntries (Lapses cadence m d binding key T)) :
    (s.shared.cache.remember bound resolution now).AllEntries (Lapses cadence m d binding key T) := by
  refine hentries.remember fun outcome hresult expiresAt hexpires hkey houtcome => ?_
  subst houtcome hnow
  refine ⟨s.time, hheld (composeKey_injective hkey) hresult.symm, ?_⟩
  rw [h.window, val_unixSeconds] at hexpires
  generalize s.time / nanosPerSec = seconds at hexpires ⊢
  dsimp only
  omega

/-- **A step of the cache** at a time that stands still, given what the store answers. -/
theorem Served.onCache (h : s.Served cadence m d binding key T) {action : Shared.Action}
    (hpass : ∀ now, action ≠ .pass now)
    (hresolve : ∀ thread bound, action = .resolve thread bound → s.Due cadence m)
    (hanswer : ∀ thread bound now bar result, action = .answer thread result →
      s.shared.calls thread = .missed bound now bar → bound = binding → result = .ok key →
        s.time < cutoff cadence m d) :
    Served cadence m d binding key T { s with shared := (s.shared.step action).2 } := by
  have hmoves := Shared.State.step_moves s.shared action
  generalize (s.shared.step action).1 = answer at hmoves
  generalize (s.shared.step action).2 = shared' at hmoves ⊢
  cases hmoves with
  | passed => exact ⟨h.clock, h.window, h.calls, h.entries⟩
  | pass now => exact absurd rfl (hpass now)
  | resolve thread bound => exact h.moved thread ⟨h.clock, hresolve thread bound rfl⟩
  | hit hcall hcached => exact h.moved _ trivial
  | @miss thread bound now hcall =>
    obtain ⟨hnow, hdue⟩ := h.call hcall
    exact h.moved thread ⟨hnow, hdue⟩
  | @answer thread bound now bar result hcall =>
    exact h.moved thread ⟨(h.call hcall).1, hanswer thread bound now bar result rfl hcall⟩
  | @write thread bound now bar resolution hcall =>
    obtain ⟨hnow, hheld⟩ := h.call hcall
    have hidle : Served cadence m d binding key T
        { s with shared := s.shared.moved thread .idle } := h.moved thread trivial
    exact hidle.withCache (BoundedTrustCache.window_remember ..) (h.written hnow hheld)
  | evict thread bound => exact h.moved thread trivial
  | clear thread => exact h.moved thread trivial
  | @evicted thread bound now hcall =>
    have hidle : Served cadence m d binding key T
        { s with shared := s.shared.moved thread .idle } := h.moved thread trivial
    exact hidle.withCache (BoundedTrustCache.window_evict ..)
      fun hentries => hentries.evict (fun _ _ hlapses => hlapses) bound now
  | @cleared thread now hcall =>
    have hidle : Served cadence m d binding key T
        { s with shared := s.shared.moved thread .idle } := h.moved thread trivial
    exact hidle.withCache rfl fun hentries => hentries.clear (fun _ _ hlapses => hlapses) now
  | prune now =>
    have hcache : Served cadence m d binding key T
        { s with shared := { s.shared with cache := s.shared.cache.prune now } } :=
      h.withCache rfl fun hentries => hentries.prune now
    exact ⟨hcache.clock, hcache.window, hcache.calls, hcache.entries⟩

/-- No call is under way while time passes. -/
theorem Served.elapse (h : s.Served cadence m d binding key T) {nanos : Nat}
    (hidle : ∀ thread, s.shared.calls thread = .idle) :
    Served cadence m d binding key T { s with
      time := s.time + nanos
      shared := (s.shared.step (.pass (unixSeconds (s.time + nanos)))).2 } := by
  refine ⟨?_, h.window, fun thread => ?_, h.entries⟩
  · have hmono : unixSeconds s.time ≤ unixSeconds (s.time + nanos) :=
      unixSeconds_mono (Nat.le_add_right ..)
    change max s.shared.clock (unixSeconds (s.time + nanos)) = unixSeconds (s.time + nanos)
    rw [h.clock, max_eq_right hmono]
  · change CallOk cadence m d binding key _ _ (s.shared.calls thread)
    rw [hidle thread]
    trivial

theorem LoopOk.answered {file : Nat → InMemoryTrustResolver}
    (hremoved : ∀ time, d ≤ time → (file time).resolve binding ≠ .ok key)
    (hloop : s.LoopOk file cadence m) (hdue : s.Due cadence m)
    (hresult : s.store.resolver.resolve binding = .ok key) : s.time < cutoff cadence m d := by
  have hread : s.store.readAt < d := by
    by_contra hlate
    rw [hloop.read] at hresult
    exact hremoved s.store.readAt (Nat.le_of_not_lt hlate) hresult
  unfold Due at hdue
  unfold cutoff
  omega

/-- **What is held of the binding is held of before the cutoff.** -/
theorem Served.step {file : Nat → InMemoryTrustResolver}
    (hremoved : ∀ time, d ≤ time → (file time).resolve binding ≠ .ok key)
    (hloop : s.LoopOk file cadence m) (h : s.Served cadence m d binding key T) {event : Event}
    (hpaced : s.Paced event) :
    (s.step file cadence event).2.Served cadence m d binding key T := by
  have hmoves := step_moves file cadence s event
  generalize (s.step file cadence event).1 = answer at hmoves
  generalize (s.step file cadence event).2 = s' at hmoves ⊢
  cases hmoves with
  | stays => exact h
  | elapse nanos => exact h.elapse fun thread => (hpaced.1 thread).2
  | asks => exact h.congr rfl rfl (.inl rfl)
  | refused => exact h.congr rfl rfl (.inl rfl)
  | passes thread bound asking hfresh =>
    -- past the latch, the store is of a bounded age
    have hnext : Served cadence m d binding key T
        { s with shared := (s.shared.step (.resolve thread bound)).2 } :=
      h.onCache (fun _ => Shared.Action.noConfusion) (fun _ _ _ => hloop.due hfresh)
        fun _ _ _ _ _ => Shared.Action.noConfusion
    exact hnext.congr rfl rfl (.inl rfl)
  | look thread =>
    exact h.onCache (fun _ => Shared.Action.noConfusion) (fun _ _ => Shared.Action.noConfusion)
      fun _ _ _ _ _ => Shared.Action.noConfusion
  | @ask thread bound now bar hcall =>
    obtain ⟨_, hdue⟩ := h.call hcall
    refine h.onCache (fun _ => Shared.Action.noConfusion) (fun _ _ => Shared.Action.noConfusion) ?_
    intro thread' bound' now' bar' result heq hcall' hbound hresult
    cases heq
    rw [hcall] at hcall'
    cases hcall'
    exact hloop.answered hremoved hdue (hbound ▸ hresult)
  | write thread =>
    exact h.onCache (fun _ => Shared.Action.noConfusion) (fun _ _ => Shared.Action.noConfusion)
      fun _ _ _ _ _ => Shared.Action.noConfusion
  | reads => exact h.congr rfl rfl (.inl rfl)
  | fails => exact h.congr rfl rfl (.inl rfl)
  | proceed =>
    obtain ⟨htime, hshared, hstore⟩ := store_proceed cadence s
    exact h.congr htime hshared hstore
  | ends => exact h.congr rfl rfl (.inl rfl)
  | marks => exact h.congr rfl rfl (.inl rfl)
  | straggle => exact h.congr rfl rfl (.inr rfl)

theorem Lapses.served {entry : CacheEntry} (h : Lapses cadence m d binding key T
    (composeKey binding) entry) (houtcome : entry.outcome = .active key) {time : Nat}
    (hopen : unixSeconds time < entry.expiresAt) :
    time < cutoff cadence m d + (max T 0).val.toNat * nanosPerSec := by
  obtain ⟨written, hwritten, hexpires⟩ := h rfl houtcome
  have hmax := entry.expiresAt.le_max
  have hwindow : 0 ≤ (max T 0).val := I64.le_iff.1 (le_max_right T 0)
  rw [I64.lt_iff, val_unixSeconds] at hopen
  -- both times in whole seconds
  have hseconds : time / nanosPerSec < written / nanosPerSec + (max T 0).val.toNat := by
    generalize time / nanosPerSec = seconds at hopen ⊢
    generalize written / nanosPerSec = seconds' at hexpires ⊢
    omega
  have htime : time < (written / nanosPerSec + (max T 0).val.toNat) * nanosPerSec :=
    (Nat.div_lt_iff_lt_mul (by decide)).1 hseconds
  have hfloor : written / nanosPerSec * nanosPerSec ≤ written := Nat.div_mul_le_self ..
  rw [Nat.add_mul] at htime
  omega

theorem Served.returnedFromCache (h : s.Served cadence m d binding key T) {action : Shared.Action}
    (hreturned : (s.onCache action).1 = some ⟨binding, .ok key⟩) :
    s.time < cutoff cadence m d + (max T 0).val.toNat * nanosPerSec := by
  obtain ⟨returned, hstep, heq⟩ := Option.map_eq_some_iff.1 hreturned
  obtain ⟨hbound, hresult⟩ := Resolved.mk.inj heq
  have hmoves := Shared.State.step_moves s.shared action
  rw [hstep] at hmoves
  generalize (s.shared.step action).2 = shared' at hmoves
  cases hmoves with
  | @hit thread bound now resolution hcall hcached =>
    obtain ⟨entry, hentry, _, hopen, rfl⟩ := BoundedTrustCache.exists_of_cached hcached
    obtain ⟨hnow, _⟩ := h.call hcall
    dsimp only at hbound hresult
    subst hbound hnow
    have houtcome : entry.outcome = .active key := by
      cases houtcome : entry.outcome with
      | active key' =>
        rw [houtcome] at hresult
        cases hresult
        rfl
      | revoked =>
        rw [houtcome] at hresult
        cases hresult
      | notFound =>
        rw [houtcome] at hresult
        cases hresult
      | malformed =>
        rw [houtcome] at hresult
        cases hresult
    exact (h.entries _ _ hentry).served houtcome hopen
  | @write thread bound now bar resolution hcall =>
    obtain ⟨_, hheld⟩ := h.call hcall
    exact Nat.lt_add_right _ (hheld hbound hresult)

/-- **A key is returned within a window of the cutoff.** -/
theorem Served.returned {file : Nat → InMemoryTrustResolver}
    (h : s.Served cadence m d binding key T) {event : Event}
    (hreturned : (s.step file cadence event).1 = some ⟨binding, .ok key⟩) :
    s.time < cutoff cadence m d + (max T 0).val.toNat * nanosPerSec := by
  have hmoves := step_moves file cadence s event
  generalize hanswer : (s.step file cadence event).1 = answer at hmoves
  generalize (s.step file cadence event).2 = s' at hmoves
  rw [hanswer] at hreturned
  cases hmoves with
  | look thread => exact h.returnedFromCache hreturned
  | ask hcall => exact h.returnedFromCache hreturned
  | write thread => exact h.returnedFromCache hreturned
  | refused => cases hreturned
  | _ => cases hreturned

end

/-! ## After the end of the loop -/

section

variable {file : Nat → InMemoryTrustResolver} {cadence m : Nat} {s : Deployment}

/-- The loop does not start again. -/
theorem ended_step (h : s.reloader = .ended) (event : Event) :
    (s.step file cadence event).2.reloader = .ended := by
  have hmoves := step_moves file cadence s event
  generalize (s.step file cadence event).1 = answer at hmoves
  generalize (s.step file cadence event).2 = s' at hmoves ⊢
  cases hmoves with
  | reads hreloader => cases h.symm.trans hreloader
  | fails hreloader => cases h.symm.trans hreloader
  | proceed =>
    unfold Deployment.proceed
    simp only [h]
  | ends event hreloader => exact absurd h hreloader
  | _ => exact h

/-- A call that starts on a latched store is refused at once. -/
theorem refused_of_terminal (h : s.freshness.terminal = true) {thread : Nat} {bound : Binding}
    (hidle : s.shared.calls thread = .idle) (hasking : s.asking thread = none) :
    (s.step file cadence (.resolve thread bound)).1 =
      some ⟨bound, .error (.unavailable staleDetails)⟩ := by
  simp only [Deployment.step, hidle, hasking, h, if_true]

end

end Deployment

/-! ## The window -/

def reloadRun (file : Nat → InMemoryTrustResolver) (cadence : Nat) (T N : I64) (start : Nat)
    (events : List Event) : List (Step Deployment Event (Option Resolved)) :=
  trace (Deployment.step file cadence) (Deployment.materialize file cadence T N start) events

section

variable {file : Nat → InMemoryTrustResolver} {cadence m d : Nat} {binding : Binding}
  {key : VerificationKey} {T N : I64} {start : Nat} {events : List Event}

theorem loopOk_materialize (hm : 0 < m) :
    (Deployment.materialize file cadence T N start).LoopOk file cadence m :=
  ⟨rfl, Deployment.stageOk_sleep hm rfl rfl⟩

theorem served_materialize :
    (Deployment.materialize file cadence T N start).Served cadence m d binding key T where
  clock := rfl
  window := rfl
  calls _ := trivial
  entries _ _ hentry := by cases hentry

/-- **While fewer than `m` attempts in a row fail, or the budget is `m`, a removed key is returned
for `m` cadences and a window at most.** -/
theorem time_lt_of_returned (hm : 0 < m)
    (hpaced : ∀ t ∈ reloadRun file cadence T N start events, t.before.Paced t.event)
    (habsorbed : ∀ t ∈ reloadRun file cadence T N start events, t.before.Absorbed m t.event)
    (hremoved : ∀ time, d ≤ time → (file time).resolve binding ≠ .ok key)
    {t : Step Deployment Event (Option Resolved)}
    (ht : t ∈ reloadRun file cadence T N start events)
    (hreturned : t.answer = some ⟨binding, .ok key⟩) :
    t.before.time < d + (m * cadence + (max T 0).val.toNat) * nanosPerSec := by
  have hinvariant := (invariant_of_guard
    (I := fun s => s.LoopOk file cadence m ∧ s.Served cadence m d binding key T)
    (G := fun s event => s.Paced event ∧ s.Absorbed m event)
    (fun _ _ h hguard =>
      ⟨h.1.step hm hguard.1 hguard.2, h.2.step hremoved h.1 hguard.1⟩)
    ⟨loopOk_materialize hm, served_materialize⟩
    (fun t ht => ⟨hpaced t ht, habsorbed t ht⟩)).1 t ht
  obtain ⟨-, hstep⟩ := step_eq_of_mem_trace _ ht
  have hwithin := hinvariant.1.2.returned (by rw [hstep, hreturned])
  unfold Deployment.cutoff at hwithin
  rw [Nat.add_mul, Nat.mul_assoc]
  omega

theorem refused_after_end
    (hpaced : ∀ t ∈ reloadRun file cadence T N start events, t.before.Paced t.event)
    {pre post : List (Step Deployment Event (Option Resolved))}
    {t : Step Deployment Event (Option Resolved)}
    (hrun : reloadRun file cadence T N start events = pre ++ t :: post)
    (hended : ∃ u ∈ pre, u.after.reloader = .ended) {thread : Nat} {bound : Binding}
    (hevent : t.event = .resolve thread bound) (hidle : t.before.shared.calls thread = .idle)
    (hasking : t.before.asking thread = none) :
    t.answer = some ⟨bound, .error (.unavailable staleDetails)⟩ := by
  have ht : t ∈ reloadRun file cadence T N start events := by
    rw [hrun]
    exact List.mem_append_right _ List.mem_cons_self
  have hended' : t.before.reloader = .ended := by
    have hstart : (∃ u ∈ ([] : List (Step Deployment Event (Option Resolved))),
        u.after.reloader = .ended) →
          (Deployment.materialize file cadence T N start).reloader = .ended := by simp
    refine history (I := fun past s => (∃ u ∈ past, u.after.reloader = .ended) →
      s.reloader = .ended) ?_ hstart hrun hended
    rintro past s event h ⟨u, hu, hafter⟩
    rcases List.mem_append.1 hu with hu | hu
    · exact Deployment.ended_step (h ⟨u, hu, hafter⟩) event
    · obtain rfl := List.mem_singleton.1 hu
      exact hafter
  -- the loop ends with the latch set for good
  have hloop := ((invariant_of_guard
    (I := fun s => s.LoopOk file cadence trustReloadFailureBudget)
    (G := fun s event => s.Paced event ∧ s.Absorbed trustReloadFailureBudget event)
    (fun _ _ h hguard => h.step (by decide) hguard.1 hguard.2)
    (loopOk_materialize (by decide))
    (fun t ht => ⟨hpaced t ht, Deployment.absorbed_budget ..⟩)).1 t ht).1
  have hstage := hloop.stage
  simp only [Deployment.StageOk, hended'] at hstage
  obtain ⟨-, hstep⟩ := step_eq_of_mem_trace _ ht
  have hrefused : (t.before.step file cadence (.resolve thread bound)).1 =
      some ⟨bound, .error (.unavailable staleDetails)⟩ :=
    Deployment.refused_of_terminal hstage.1 hidle hasking
  rw [hevent] at hstep
  rw [hstep] at hrefused
  exact hrefused

end

/-- The sum the operator is told, where it does not saturate. -/
theorem val_deliveredTotal {cadence : Nat} {T : I64} (hT : 0 ≤ T)
    (hfits : (cadence : Int) + T.val ≤ 2 ^ 63 - 1) :
    (deliveredTotal cadence T).val = ((cadence + (max T 0).val.toNat : Nat) : Int) := by
  have hpos : 0 ≤ T.val := I64.le_iff.1 hT
  rw [deliveredTotal, I64.val_saturatingAdd, max_eq_left hT]
  simp only [I64.clamp]
  omega

/-- **The delivered revocation window.** The file loses a key binding at `d` for good. Where no
reload fails the key is returned only before `d + R + T`, the sum the operator is told; whatever
fails and recovers, only before `d + 5 R + T`. A call that starts after the loop has halted or died
is refused. -/
theorem revocation_window_delivered (file : Nat → InMemoryTrustResolver) (cadence : Nat) (T N : I64)
    (start : Nat) (events : List Event) (binding : Binding) (key : VerificationKey) (d : Nat)
    (hpaced : ∀ t ∈ reloadRun file cadence T N start events, t.before.Paced t.event)
    (hremoved : ∀ time, d ≤ time → (file time).resolve binding ≠ .ok key) :
    (∀ t ∈ reloadRun file cadence T N start events, t.answer = some ⟨binding, .ok key⟩ →
        t.before.time < d + (5 * cadence + (max T 0).val.toNat) * nanosPerSec ∧
        ((∀ u ∈ reloadRun file cadence T N start events, u.event ≠ .attempt false) →
          t.before.time < d + (cadence + (max T 0).val.toNat) * nanosPerSec)) ∧
      (0 ≤ T → (cadence : Int) + T.val ≤ 2 ^ 63 - 1 →
        (deliveredTotal cadence T).val = ((cadence + (max T 0).val.toNat : Nat) : Int)) ∧
      ∀ (pre post : List (Step Deployment Event (Option Resolved)))
          (t : Step Deployment Event (Option Resolved)) (thread : Nat) (bound : Binding),
        reloadRun file cadence T N start events = pre ++ t :: post →
        (∃ u ∈ pre, u.after.reloader = .ended) → t.event = .resolve thread bound →
        t.before.shared.calls thread = .idle → t.before.asking thread = none →
        t.answer = some ⟨bound, .error (.unavailable staleDetails)⟩ := by
  refine ⟨fun t ht hreturned => ⟨?_, fun hreadable => ?_⟩, fun hT hfits => ?_, ?_⟩
  · exact time_lt_of_returned (m := 5) (by decide) hpaced
      (fun t _ => Deployment.absorbed_budget ..) hremoved ht hreturned
  · have hone := time_lt_of_returned (m := 1) (by decide) hpaced
      (fun t ht => Deployment.absorbed_of_ne (hreadable t ht)) hremoved ht hreturned
    rwa [Nat.one_mul] at hone
  · exact val_deliveredTotal hT hfits
  · intro pre post t thread bound hrun hended hevent hidle hasking
    exact refused_after_end hpaced hrun hended hevent hidle hasking

namespace ReloadSample

def binding : Binding := ⟨['a'], ['k']⟩

def key : VerificationKey := ⟨List.replicate 32 7⟩

def seconds (n : Nat) : Nat := n * nanosPerSec

/-- The binding is removed at 1005 s. -/
def file (time : Nat) : InMemoryTrustResolver :=
  if time < seconds 1005 then ⟨(∅ : Table Str StoredBinding).insert (composeKey binding) (.active key)⟩
  else ⟨∅⟩

theorem removed (time : Nat) (h : seconds 1005 ≤ time) : (file time).resolve binding ≠ .ok key := by
  simp [file, Nat.not_lt.2 h, InMemoryTrustResolver.resolve]

/-- A whole call of `StaleFailsClosed::resolve` that misses the cache, or hits it. -/
def missing : List Event := [.resolve 0 binding, .check 0, .look 0, .ask 0, .write 0]

def hitting : List Event := [.resolve 0 binding, .check 0, .look 0]

/-- At 1010 a call caches the key, the reload swaps the store, and the next call is served from the
cache; the loop halts, and a straggler reports the store fresh. -/
def events : List Event :=
  [[.elapse (seconds 10)], missing, [.attempt true, .proceed, .proceed, .proceed], hitting,
    [.halt, .proceed, .proceed, .straggle, .resolve 0 binding]].flatten

/-- Time passes before any call. -/
theorem paced : ∀ t ∈ reloadRun file 10 60 5 (seconds 1000) events, t.before.Paced t.event := by
  intro t ht
  rcases List.mem_cons.1 ht with rfl | hrest
  · exact ⟨fun _ => ⟨rfl, rfl⟩, Nat.le_refl (seconds 1000 + seconds 10)⟩
  · have hevent : t.event ∈ events.tail := (step_eq_of_mem_trace _ hrest).1
    have hnone : ∀ event ∈ events.tail, ∀ nanos, event ≠ .elapse nanos := by
      simp [events, missing, hitting]
    cases hkind : t.event with
    | elapse nanos => exact absurd hkind (hnone _ hevent nanos)
    | _ => trivial

/-- The removed key is served at 1010, five seconds after its removal and within the window that
ends at 1075. -/
theorem revocation_window_delivered_halted :
    ((reloadRun file 10 60 5 (seconds 1000) events).filterMap fun t =>
        t.answer.map fun resolved => (t.before.time, resolved.result.toOption)) =
        [(seconds 1010, some key), (seconds 1010, some key), (seconds 1010, none)] ∧
      (deliveredTotal 10 60).val = 70 ∧
      ∀ t ∈ reloadRun file 10 60 5 (seconds 1000) events, t.answer = some ⟨binding, .ok key⟩ →
        t.before.time < seconds 1005 + (10 + (max (60 : I64) 0).val.toNat) * nanosPerSec := by
  obtain ⟨hwindow, htotal, _⟩ := revocation_window_delivered file 10 60 5 (seconds 1000) events
    binding key (seconds 1005) paced removed
  have hreadable : ∀ event ∈ events, event ≠ .attempt false := by
    simp [events, missing, hitting]
  refine ⟨by decide +kernel, htotal (by decide) (by decide), fun t ht hreturned => ?_⟩
  exact (hwindow t ht hreturned).2 fun u hu => hreadable _ (step_eq_of_mem_trace _ hu).1

end ReloadSample

end McpRe.Trust

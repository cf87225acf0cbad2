import McpRe.Replay.Verify.Key
import McpRe.Trust.Cache

/-!
# When a pushed revocation takes effect

An applied event leaves no entry of its binding that serves, so what is served later was written
later. A call that already holds an answer of the inner resolver writes it back all the same, after
the event as well as before it.

* `revocation_takes_effect`: in a run where no event is applied while a call holds an answer for
  the binding, no call that starts after the event returns an older answer;
* `stale_answer_written_back`: a call that does hold one brings it back.
-/

namespace McpRe.Trust

open Lib Lib.Text Lib.Run
open McpRe.Http (VerificationKey)

/-! ## The cache -/

theorem composeKey_injective : Function.Injective composeKey := by
  intro a b h
  obtain ⟨hsigner, hrest⟩ := Replay.lengthPrefixed_append_inj h
  obtain ⟨hkeyId, _⟩ :=
    Replay.lengthPrefixed_append_inj ((List.append_left_inj []).2 (List.cons.inj hrest).2)
  cases a
  cases b
  exact Binding.mk.injEq .. ▸ ⟨hsigner, hkeyId⟩

namespace BoundedTrustCache

/-- How long an answer of a class is kept. -/
def window (self : BoundedTrustCache) : CachedOutcome → I64
  | .active _ => self.tSecs
  | .revoked => self.tSecs
  | .notFound => self.negativeTtlSecs
  | .malformed => self.negativeTtlSecs

/-- **What is written back**: an answer as it is, kept for the window of its class. -/
theorem remember_cases (self : BoundedTrustCache) (binding : Binding) (resolution : Resolution)
    (now : I64) :
    ((∃ details, resolution.result = .error (.unavailable details)) ∧
        self.remember binding resolution now = self) ∨
      ∃ outcome : CachedOutcome, outcome.toResult = resolution.result ∧
        self.remember binding resolution now =
          self.store (composeKey binding) outcome resolution.producedAt now
            (self.window outcome) := by
  unfold remember
  dsimp only
  split
  next verificationKey hresult => exact .inr ⟨.active verificationKey, hresult.symm, rfl⟩
  next hresult => exact .inr ⟨.revoked, hresult.symm, rfl⟩
  next hresult => exact .inr ⟨.notFound, hresult.symm, rfl⟩
  next hresult => exact .inr ⟨.malformed, hresult.symm, rfl⟩
  next details hresult => exact .inl ⟨⟨details, hresult⟩, rfl⟩

theorem window_sweptForWrite (self : BoundedTrustCache) (now : I64) :
    (self.sweptForWrite now).window = self.window := by
  unfold sweptForWrite
  split <;> rfl

theorem window_store (self : BoundedTrustCache) (key : Str) (outcome : CachedOutcome)
    (producedAt : Nat) (now ttl : I64) :
    (self.store key outcome producedAt now ttl).window = self.window := by
  refine Eq.trans ?_ (window_sweptForWrite self now)
  unfold store
  dsimp only
  split
  · rfl
  · split_ifs <;> rfl

theorem window_remember (self : BoundedTrustCache) (binding : Binding) (resolution : Resolution)
    (now : I64) : (self.remember binding resolution now).window = self.window := by
  rcases remember_cases self binding resolution now with ⟨_, heq⟩ | ⟨outcome, _, heq⟩
  · rw [heq]
  · rw [heq, window_store]

theorem window_evict (self : BoundedTrustCache) (binding : Binding) (now : I64) :
    (self.evict binding now).2.window = self.window := by
  unfold evict
  dsimp only
  split
  · rfl
  · split_ifs <;> rfl

def AllEntries (P : Str → CacheEntry → Prop) (self : BoundedTrustCache) : Prop :=
  ∀ key entry, self.cache.lookup key = some entry → P key entry

section AllEntries

variable {P : Str → CacheEntry → Prop} {self : BoundedTrustCache}

theorem lookup_sweep {now : I64} {cache : Table Str CacheEntry} {key : Str} {entry : CacheEntry}
    (h : (sweep now cache).lookup key = some entry) : cache.lookup key = some entry := by
  unfold sweep at h
  rw [Table.lookup_retain, Option.filter_eq_some_iff] at h
  exact h.1

theorem AllEntries.prune (h : self.AllEntries P) (now : I64) : (self.prune now).AllEntries P := by
  intro key entry hentry
  exact h key entry (lookup_sweep hentry)

theorem AllEntries.sweptForWrite (h : self.AllEntries P) (now : I64) :
    (self.sweptForWrite now).AllEntries P := by
  unfold BoundedTrustCache.sweptForWrite
  split
  · exact h.prune now
  · exact h

theorem AllEntries.erase (h : self.AllEntries P) (erased : Str) :
    { self with cache := self.cache.erase erased }.AllEntries P := by
  intro key entry hentry
  by_cases hkey : key = erased
  · rw [hkey, AList.lookup_erase] at hentry
    cases hentry
  · rw [AList.lookup_erase_ne hkey] at hentry
    exact h key entry hentry

theorem AllEntries.insert (h : self.AllEntries P) {written : Str} {fresh : CacheEntry}
    (hfresh : P written fresh) :
    { self with cache := self.cache.insert written fresh }.AllEntries P := by
  intro key entry hentry
  by_cases hkey : key = written
  · rw [hkey, AList.lookup_insert] at hentry
    cases hentry
    exact hkey ▸ hfresh
  · rw [AList.lookup_insert_ne hkey] at hentry
    exact h key entry hentry

theorem expiry_le (cache : Table Str CacheEntry) (key : Str) (windowEnd : I64) :
    expiry cache key windowEnd ≤ windowEnd := by
  unfold expiry
  split
  · exact min_le_left ..
  · exact le_rfl

/-- **A write puts the answer it is given, for no longer than its window, or leaves less than there
was.** -/
theorem AllEntries.store (h : self.AllEntries P) {written : Str} {outcome : CachedOutcome}
    {producedAt : Nat} {now ttl : I64}
    (hwritten : ∀ expiresAt : I64, expiresAt.val ≤ now.val + ttl.val →
      P written ⟨outcome, expiresAt, false, producedAt⟩) :
    (self.store written outcome producedAt now ttl).AllEntries P := by
  have hswept := h.sweptForWrite now
  unfold BoundedTrustCache.store
  dsimp only
  split
  · exact hswept
  next windowEnd hend =>
    split_ifs
    · exact hswept.erase written
    · exact hswept
    · refine hswept.insert (hwritten _ ?_)
      rw [I64.ofInt?_eq_some.1 hend]
      exact expiry_le ..

theorem AllEntries.remember (h : self.AllEntries P) {written : Binding} {resolution : Resolution}
    {now : I64}
    (hwritten : ∀ outcome : CachedOutcome, outcome.toResult = resolution.result →
      ∀ expiresAt : I64, expiresAt.val ≤ now.val + (self.window outcome).val →
        P (composeKey written) ⟨outcome, expiresAt, false, resolution.producedAt⟩) :
    (self.remember written resolution now).AllEntries P := by
  rcases remember_cases self written resolution now with ⟨_, heq⟩ | ⟨outcome, hresult, heq⟩
  · rw [heq]
    exact h
  · rw [heq]
    exact h.store (hwritten outcome hresult)

theorem AllEntries.evict (h : self.AllEntries P)
    (hinvalidated : ∀ key entry, P key entry → P key { entry with invalidated := true })
    (binding : Binding) (now : I64) : (self.evict binding now).2.AllEntries P := by
  unfold BoundedTrustCache.evict
  dsimp only
  split
  · exact h
  next entry hentry =>
    split_ifs
    · exact h.erase _
    · exact h
    · exact h.insert (hinvalidated _ _ (h _ _ hentry))

theorem AllEntries.clear (h : self.AllEntries P)
    (hinvalidated : ∀ key entry, P key entry → P key { entry with invalidated := true })
    (now : I64) : (self.clear now).2.AllEntries P := by
  intro key entry hentry
  unfold BoundedTrustCache.clear at hentry
  rw [Table.lookup_mapValues, Option.map_eq_some_iff] at hentry
  obtain ⟨kept, hkept, rfl⟩ := hentry
  exact hinvalidated _ _ (h _ _ (lookup_sweep hkept))

end AllEntries

/-! ## The ceiling -/

theorem lookup_sweptForWrite {self : BoundedTrustCache} {key : Str} {entry : CacheEntry}
    (h : self.cache.lookup key = some entry) {now : I64} (hopen : now < entry.expiresAt) :
    (self.sweptForWrite now).cache.lookup key = some entry := by
  unfold sweptForWrite
  split
  · change (sweep now self.cache).lookup key = some entry
    unfold sweep
    rw [Table.lookup_retain, h, Option.filter_some, if_pos (decide_eq_true hopen)]
  · exact h

/-- **A write over an invalidated entry does not outlive it.** -/
theorem expiresAt_store_le {self : BoundedTrustCache} {key : Str} {barred : CacheEntry} {now : I64}
    (hbarred : self.cache.lookup key = some barred) (hinvalidated : barred.invalidated = true)
    (hopen : now < barred.expiresAt) {outcome : CachedOutcome} {producedAt : Nat} {ttl : I64}
    {entry : CacheEntry}
    (h : (self.store key outcome producedAt now ttl).cache.lookup key = some entry) :
    entry.expiresAt ≤ barred.expiresAt := by
  have hstands := lookup_sweptForWrite hbarred hopen
  have hkept : (self.sweptForWrite now).cache.lookup key = some entry →
      entry.expiresAt ≤ barred.expiresAt := by
    intro hentry
    rw [hstands] at hentry
    cases hentry
    exact le_rfl
  unfold store at h
  dsimp only at h
  split at h
  · exact hkept h
  next windowEnd hend =>
    split_ifs at h
    · rw [AList.lookup_erase] at h
      cases h
    · exact hkept h
    · rw [AList.lookup_insert] at h
      cases h
      simp only [expiry, ceiling, hstands, Option.filter_some, hinvalidated, if_true,
        Option.map_some]
      exact min_le_right ..

theorem expiresAt_remember_le {self : BoundedTrustCache} {binding : Binding} {barred : CacheEntry}
    {now : I64} (hbarred : self.cache.lookup (composeKey binding) = some barred)
    (hinvalidated : barred.invalidated = true) (hopen : now < barred.expiresAt)
    {resolution : Resolution} {entry : CacheEntry}
    (h : (self.remember binding resolution now).cache.lookup (composeKey binding) = some entry) :
    entry.expiresAt ≤ barred.expiresAt := by
  rcases remember_cases self binding resolution now with ⟨_, heq⟩ | ⟨outcome, _, heq⟩
  · rw [heq, hbarred] at h
    cases h
    exact le_rfl
  · rw [heq] at h
    exact expiresAt_store_le hbarred hinvalidated hopen h

/-! ## Who serves -/

/-- Whatever is served under the key was produced after the moment. -/
def ServesAfter (self : BoundedTrustCache) (key : Str) (moment : Nat) : Prop :=
  ∀ entry, self.cache.lookup key = some entry → entry.invalidated = false →
    moment < entry.producedAt

theorem ServesAfter.of_lookup_eq {self self' : BoundedTrustCache} {key : Str} {moment : Nat}
    (hserves : self.ServesAfter key moment) (h : self'.cache.lookup key = self.cache.lookup key) :
    self'.ServesAfter key moment := by
  intro entry hentry
  exact hserves entry (h ▸ hentry)

theorem servesAfter_iff {self : BoundedTrustCache} {key : Str} {moment : Nat} :
    self.ServesAfter key moment ↔ self.AllEntries fun key' entry =>
      key' = key → entry.invalidated = false → moment < entry.producedAt := by
  constructor
  · rintro h _ entry hentry rfl
    exact h entry hentry
  · intro h entry hentry
    exact h key entry hentry rfl

theorem ServesAfter.remember {self : BoundedTrustCache} {binding : Binding} {moment : Nat}
    (h : self.ServesAfter (composeKey binding) moment) {written : Binding} {resolution : Resolution}
    (hwritten : written = binding → moment < resolution.producedAt) (now : I64) :
    (self.remember written resolution now).ServesAfter (composeKey binding) moment := by
  refine servesAfter_iff.2 ((servesAfter_iff.1 h).remember fun outcome _ expiresAt _ hkey _ => ?_)
  exact hwritten (composeKey_injective hkey)

end BoundedTrustCache

/-- The bindings an event is about. -/
def InvalidationEvent.covers : InvalidationEvent → Binding → Bool
  | .evict evicted, binding => decide (evicted = binding)
  | .flushAll, _ => true

namespace BoundedTrustCache

theorem lookup_evict_self {self : BoundedTrustCache} {binding : Binding} {now : I64}
    {entry : CacheEntry}
    (h : (self.evict binding now).2.cache.lookup (composeKey binding) = some entry) :
    entry.invalidated = true := by
  unfold evict at h
  dsimp only at h
  split at h
  next hnone =>
    rw [hnone] at h
    cases h
  next found hfound =>
    split_ifs at h with hexpired hinvalidated
    · rw [AList.lookup_erase] at h
      cases h
    · rw [hfound] at h
      cases h
      exact hinvalidated
    · rw [AList.lookup_insert] at h
      cases h
      rfl

theorem lookup_evict_of_ne {self : BoundedTrustCache} {binding : Binding} {key : Str}
    (hne : key ≠ composeKey binding) (now : I64) :
    (self.evict binding now).2.cache.lookup key = self.cache.lookup key := by
  unfold evict
  dsimp only
  split
  · rfl
  · split_ifs
    · exact AList.lookup_erase_ne hne
    · rfl
    · exact AList.lookup_insert_ne hne

/-- **An applied event leaves nothing of its bindings that serves.** -/
theorem invalidated_of_lookup_applyEvent {self : BoundedTrustCache} {now : I64}
    {event : InvalidationEvent} {binding : Binding} (hcovers : event.covers binding = true)
    {entry : CacheEntry}
    (h : (self.applyEvent now event).cache.lookup (composeKey binding) = some entry) :
    entry.invalidated = true := by
  cases event with
  | evict evicted =>
    obtain rfl : evicted = binding := of_decide_eq_true hcovers
    exact lookup_evict_self h
  | flushAll =>
    unfold applyEvent clear at h
    rw [Table.lookup_mapValues, Option.map_eq_some_iff] at h
    obtain ⟨_, _, rfl⟩ := h
    rfl

theorem ServesAfter.applyEvent {self : BoundedTrustCache} {binding : Binding} {moment : Nat}
    (h : self.ServesAfter (composeKey binding) moment) (now : I64) (event : InvalidationEvent) :
    (self.applyEvent now event).ServesAfter (composeKey binding) moment := by
  intro entry hentry hserving
  by_cases hcovers : event.covers binding = true
  · rw [invalidated_of_lookup_applyEvent hcovers hentry] at hserving
    cases hserving
  · cases event with
    | evict evicted =>
      have hne : composeKey binding ≠ composeKey evicted := fun hk =>
        hcovers (decide_eq_true (composeKey_injective hk).symm)
      exact h.of_lookup_eq (lookup_evict_of_ne hne now) entry hentry hserving
    | flushAll => exact absurd rfl hcovers

/-- **What is served is an entry that no event has invalidated, within its window.** -/
theorem exists_of_cached {self : BoundedTrustCache} {key : Str} {now : I64} {resolution : Resolution}
    (h : self.cached key now = some resolution) :
    ∃ entry, self.cache.lookup key = some entry ∧ entry.invalidated = false ∧
      now < entry.expiresAt ∧ resolution = ⟨entry.outcome.toResult, entry.producedAt⟩ := by
  unfold cached at h
  split at h
  · cases h
  next entry hentry =>
    split_ifs at h with hinvalidated hopen
    cases h
    exact ⟨entry, hentry, Bool.eq_false_iff.2 hinvalidated, hopen, rfl⟩

theorem ServesAfter.cached {self : BoundedTrustCache} {key : Str} {moment : Nat}
    (h : self.ServesAfter key moment) {now : I64} {resolution : Resolution}
    (hcached : self.cached key now = some resolution) : moment < resolution.producedAt := by
  obtain ⟨entry, hentry, hserving, _, rfl⟩ := exists_of_cached hcached
  exact h entry hentry hserving

end BoundedTrustCache

/-! ## What a step can do -/

namespace Plane

/-- The step a thread takes of its call, and what comes of it. -/
inductive Moves (plane : Plane) : Action → Option Returned → Plane → Prop
  /-- The call was not at this step. -/
  | passed (action : Action) : Moves plane action none plane.passed
  | enter (thread : Nat) (binding : Binding) :
      Moves plane (.enter thread binding) none (plane.moved thread (.entered binding plane.moment))
  | drain {thread : Nat} {binding : Binding} {startedAt : Nat} (events : List InvalidationEvent)
      (hcall : plane.calls thread = .entered binding startedAt) :
      Moves plane (.drain thread events) none
        (plane.moved thread (.applying binding startedAt events))
  | apply {thread : Nat} {binding : Binding} {startedAt : Nat} {event : InvalidationEvent}
      {events : List InvalidationEvent} (now : I64)
      (hcall : plane.calls thread = .applying binding startedAt (event :: events)) :
      Moves plane (.apply thread now) none
        { plane.moved thread (.applying binding startedAt events) with
          cache := plane.cache.applyEvent now event }
  | hit {thread : Nat} {binding : Binding} {startedAt : Nat} {now : I64} {resolution : Resolution}
      (hcall : plane.calls thread = .applying binding startedAt [])
      (hcached : plane.cache.cached (composeKey binding) now = some resolution) :
      Moves plane (.look thread now) (some ⟨binding, startedAt, resolution⟩)
        (plane.moved thread .idle)
  | miss {thread : Nat} {binding : Binding} {startedAt : Nat} (now : I64)
      (hcall : plane.calls thread = .applying binding startedAt []) :
      Moves plane (.look thread now) none (plane.moved thread (.missed binding startedAt now))
  | resolve {thread : Nat} {binding : Binding} {startedAt : Nat} {now : I64}
      (result : Except TrustResolverError VerificationKey)
      (hcall : plane.calls thread = .missed binding startedAt now) :
      Moves plane (.resolve thread result) none
        (plane.moved thread (.resolved binding startedAt now ⟨result, plane.moment⟩))
  | write {thread : Nat} {binding : Binding} {startedAt : Nat} {now : I64}
      {resolution : Resolution}
      (hcall : plane.calls thread = .resolved binding startedAt now resolution) :
      Moves plane (.write thread) (some ⟨binding, startedAt, resolution⟩)
        { plane.moved thread .idle with cache := plane.cache.remember binding resolution now }

theorem step_moves (plane : Plane) (action : Action) :
    Moves plane action (plane.step action).1 (plane.step action).2 := by
  cases action with
  | enter thread binding =>
    unfold step
    dsimp only
    split
    · exact .enter thread binding
    · exact .passed _
  | drain thread events =>
    unfold step
    dsimp only
    split
    next hcall => exact .drain events hcall
    · exact .passed _
  | apply thread now =>
    unfold step
    dsimp only
    split
    next hcall => exact .apply now hcall
    · exact .passed _
  | look thread now =>
    unfold step
    dsimp only
    split
    next hcall =>
      split
      next hcached => exact .hit hcall hcached
      · exact .miss now hcall
    · exact .passed _
  | resolve thread result =>
    unfold step
    dsimp only
    split
    next hcall => exact .resolve result hcall
    · exact .passed _
  | write thread =>
    unfold step
    dsimp only
    split
    next hcall => exact .write hcall
    · exact .passed _

theorem moment_step (plane : Plane) (action : Action) :
    (plane.step action).2.moment = plane.moment + 1 := by
  have hmoves := step_moves plane action
  generalize (plane.step action).1 = answer at hmoves
  generalize (plane.step action).2 = plane' at hmoves ⊢
  cases hmoves <;> rfl

theorem calls_moved_self (plane : Plane) (thread : Nat) (call : Call) :
    (plane.moved thread call).calls thread = call := Function.update_self ..

theorem calls_moved_of_ne (plane : Plane) {thread other : Nat} (h : other ≠ thread) (call : Call) :
    (plane.moved thread call).calls other = plane.calls other := Function.update_of_ne h ..

/-! ## After an event -/

/-- The inner resolver's answer a call holds for a binding. -/
def Holds (plane : Plane) (binding : Binding) (resolution : Resolution) : Prop :=
  ∃ thread startedAt now, plane.calls thread = .resolved binding startedAt now resolution

/-- Nothing that can still be returned for the binding was produced before the moment. -/
structure Past (plane : Plane) (binding : Binding) (moment : Nat) : Prop where
  elapsed : moment < plane.moment
  serves : plane.cache.ServesAfter (composeKey binding) moment
  holds : ∀ resolution, plane.Holds binding resolution → moment < resolution.producedAt

theorem holds_moved {plane : Plane} {thread : Nat} {call : Call} {binding : Binding}
    {resolution : Resolution} (h : (plane.moved thread call).Holds binding resolution) :
    plane.Holds binding resolution ∨
      ∃ startedAt now, call = .resolved binding startedAt now resolution := by
  obtain ⟨holder, startedAt, now, hcall⟩ := h
  by_cases heq : holder = thread
  · rw [heq, calls_moved_self] at hcall
    exact .inr ⟨startedAt, now, hcall⟩
  · rw [calls_moved_of_ne plane heq] at hcall
    exact .inl ⟨holder, startedAt, now, hcall⟩

theorem Past.moved {plane : Plane} {binding : Binding} {moment : Nat} (h : plane.Past binding moment)
    (thread : Nat) {call : Call}
    (hcall : ∀ startedAt now resolution, call = .resolved binding startedAt now resolution →
      moment < resolution.producedAt) : (plane.moved thread call).Past binding moment where
  elapsed := Nat.lt_succ_of_lt h.elapsed
  serves := h.serves
  holds := by
    intro resolution hholds
    rcases holds_moved hholds with hbefore | ⟨startedAt, now, heq⟩
    · exact h.holds resolution hbefore
    · exact hcall startedAt now resolution heq

/-- **What is past stays past**, whatever the calls do. -/
theorem Past.step {plane : Plane} {binding : Binding} {moment : Nat} (h : plane.Past binding moment)
    (action : Action) : (plane.step action).2.Past binding moment := by
  have hmoves := step_moves plane action
  generalize (plane.step action).1 = answer at hmoves
  generalize (plane.step action).2 = plane' at hmoves ⊢
  cases hmoves with
  | passed => exact ⟨Nat.lt_succ_of_lt h.elapsed, h.serves, h.holds⟩
  | enter thread entered => exact h.moved thread (by simp)
  | drain events hcall => exact h.moved _ (by simp)
  | @apply thread bound startedAt event events now hcall =>
    have hmoved : (plane.moved thread (.applying bound startedAt events)).Past binding moment :=
      h.moved thread (by simp)
    exact ⟨hmoved.elapsed, h.serves.applyEvent now event, hmoved.holds⟩
  | hit hcall hcached => exact h.moved _ (by simp)
  | miss now hcall => exact h.moved _ (by simp)
  | resolve result hcall =>
    -- the answer is of this moment
    refine h.moved _ fun startedAt now resolution heq => ?_
    cases heq
    exact h.elapsed
  | @write thread written startedAt now resolution hcall =>
    have hmoved : (plane.moved thread .idle).Past binding moment := h.moved thread (by simp)
    refine ⟨hmoved.elapsed, h.serves.remember (fun heq => ?_) now, hmoved.holds⟩
    exact h.holds resolution ⟨thread, startedAt, now, heq ▸ hcall⟩

theorem Past.returned {plane : Plane} {moment : Nat} {returned : Returned}
    (h : plane.Past returned.binding moment) {action : Action}
    (hreturned : (plane.step action).1 = some returned) :
    moment < returned.resolution.producedAt := by
  have hmoves := step_moves plane action
  rw [hreturned] at hmoves
  generalize (plane.step action).2 = plane' at hmoves
  cases hmoves with
  | hit hcall hcached => exact h.serves.cached hcached
  | write hcall => exact h.holds _ ⟨_, _, _, hcall⟩

def applied (plane : Plane) : Action → Option InvalidationEvent
  | .apply thread _ =>
    match plane.calls thread with
    | .applying _ _ (event :: _) => some event
    | _ => none
  | _ => none

/-- No call holds an answer for a binding the event is about. -/
def Unheld (plane : Plane) (event : InvalidationEvent) : Prop :=
  ∀ binding resolution, event.covers binding = true → ¬plane.Holds binding resolution

theorem past_of_applied {plane : Plane} {action : Action} {event : InvalidationEvent}
    (happlied : plane.applied action = some event) (hunheld : plane.Unheld event)
    {binding : Binding} (hcovers : event.covers binding = true) :
    (plane.step action).2.Past binding plane.moment := by
  unfold applied at happlied
  split at happlied
  next thread now =>
    split at happlied
    next bound startedAt event' events hcall =>
      obtain rfl : event' = event := Option.some.inj happlied
      simp only [step, hcall]
      refine ⟨Nat.lt_succ_self _, fun entry hentry hserving => ?_, fun resolution hholds => ?_⟩
      · rw [BoundedTrustCache.invalidated_of_lookup_applyEvent hcovers hentry] at hserving
        cases hserving
      · rcases holds_moved hholds with hbefore | ⟨_, _, heq⟩
        · exact absurd hbefore (hunheld binding resolution hcovers)
        · cases heq
    · cases happlied
  · cases happlied

/-! ## Moments along a run -/

end Plane

/-- When a call began. -/
def Call.startedAt : Call → Option Nat
  | .idle => none
  | .entered _ startedAt => some startedAt
  | .applying _ startedAt _ => some startedAt
  | .missed _ startedAt _ => some startedAt
  | .resolved _ startedAt _ _ => some startedAt

namespace Plane

def Begun (plane : Plane) : Prop :=
  ∀ thread startedAt, (plane.calls thread).startedAt = some startedAt → startedAt < plane.moment

theorem Begun.moved {plane : Plane} (h : plane.Begun) (thread : Nat) {call : Call}
    (hcall : ∀ startedAt, call.startedAt = some startedAt → startedAt ≤ plane.moment) :
    (plane.moved thread call).Begun := by
  intro other startedAt hstarted
  by_cases heq : other = thread
  · rw [heq, calls_moved_self] at hstarted
    exact Nat.lt_succ_of_le (hcall startedAt hstarted)
  · rw [calls_moved_of_ne plane heq] at hstarted
    exact Nat.lt_succ_of_lt (h other startedAt hstarted)

theorem Begun.kept {plane : Plane} (h : plane.Begun) {thread : Nat} {call call' : Call}
    (hcall : plane.calls thread = call) (hkept : call'.startedAt = call.startedAt) :
    (plane.moved thread call').Begun := by
  refine h.moved thread fun startedAt hstarted => ?_
  rw [hkept, ← hcall] at hstarted
  exact Nat.le_of_lt (h thread startedAt hstarted)

theorem Begun.step {plane : Plane} (h : plane.Begun) (action : Action) :
    (plane.step action).2.Begun := by
  have hmoves := step_moves plane action
  generalize (plane.step action).1 = answer at hmoves
  generalize (plane.step action).2 = plane' at hmoves ⊢
  cases hmoves with
  | passed => exact fun thread startedAt hstarted => Nat.lt_succ_of_lt (h thread startedAt hstarted)
  | enter thread binding =>
    refine h.moved thread fun startedAt hstarted => ?_
    cases hstarted
    exact Nat.le_refl _
  | drain events hcall => exact h.kept hcall rfl
  | apply now hcall => exact h.kept hcall rfl
  | hit hcall hcached => exact h.moved _ (by simp [Call.startedAt])
  | miss now hcall => exact h.kept hcall rfl
  | resolve result hcall => exact h.kept hcall rfl
  | write hcall => exact h.moved _ (by simp [Call.startedAt])

theorem Begun.returned {plane : Plane} (h : plane.Begun) {action : Action} {returned : Returned}
    (hreturned : (plane.step action).1 = some returned) : returned.startedAt < plane.moment := by
  have hmoves := step_moves plane action
  rw [hreturned] at hmoves
  generalize (plane.step action).2 = plane' at hmoves
  cases hmoves with
  | hit hcall hcached => exact h _ _ (by rw [hcall]; rfl)
  | write hcall => exact h _ _ (by rw [hcall]; rfl)

theorem begun_new (tSecs negativeTtlSecs : I64) : (new tSecs negativeTtlSecs).Begun := by
  intro thread startedAt hstarted
  cases hstarted

end Plane

/-! ## A pushed revocation -/

def runOf (tSecs negativeTtlSecs : I64) (actions : List Action) :
    List (Step Plane Action (Option Returned)) :=
  trace Plane.step (Plane.new tSecs negativeTtlSecs) actions

/-- **A pushed revocation takes effect at once**: after the step that applies an event, no call that
starts later returns, for a binding of the event, what was produced before it. -/
def TakesEffect (run : List (Step Plane Action (Option Returned))) : Prop :=
  ∀ t ∈ run, ∀ event, t.before.applied t.event = some event →
    ∀ t' ∈ run, ∀ returned, t'.answer = some returned → event.covers returned.binding = true →
      t.before.moment < returned.startedAt → t.before.moment < returned.resolution.producedAt

/-- Where no event is applied while a call holds an answer for its binding, pushed revocations take
effect at once. -/
theorem revocation_takes_effect (tSecs negativeTtlSecs : I64) (actions : List Action)
    (hunheld : ∀ t ∈ runOf tSecs negativeTtlSecs actions, ∀ event,
      t.before.applied t.event = some event → t.before.Unheld event) :
    TakesEffect (runOf tSecs negativeTtlSecs actions) := by
  intro t ht event happlied t' ht' returned hreturned hcovers hstarted
  obtain ⟨-, hstep⟩ := step_eq_of_mem_trace _ ht
  obtain ⟨-, hstep'⟩ := step_eq_of_mem_trace _ ht'
  have hanswer : (t'.before.step t'.event).1 = some returned := by rw [hstep', hreturned]
  -- the call that returns began after the event, so it returns after it
  have hbegun : t'.before.Begun :=
    ((invariant (I := Plane.Begun) (fun _ action hb => hb.step action)
      (Plane.begun_new tSecs negativeTtlSecs) actions).1 t' ht').1
  have hlater : t.before.moment < t'.before.moment := hstarted.trans (hbegun.returned hanswer)
  have hmoments : ∀ (plane : Plane) action, plane.moment < (plane.step action).2.moment := by
    intro plane action
    rw [Plane.moment_step]
    exact Nat.lt_succ_self _
  obtain ⟨between, hbetween, _⟩ := exists_mem_trace_after hmoments ht ht' hlater
  have hpast : t.after.Past returned.binding t.before.moment := by
    have := Plane.past_of_applied happlied (hunheld t ht event happlied) hcovers
    rwa [hstep] at this
  have hpast' : t'.before.Past returned.binding t.before.moment :=
    ((invariant (I := fun plane => plane.Past returned.binding t.before.moment)
      (fun _ action hp => hp.step action) hpast between).1 t' hbetween).1
  exact hpast'.returned hanswer

namespace RevocationSample

def binding : Binding := ⟨['a'], ['k']⟩

def key : VerificationKey := ⟨List.replicate 32 7⟩

/-- A call caches the key; the next one brings the eviction, and resolves anew. -/
def evicted : List Action :=
  [.enter 0 binding, .drain 0 [], .look 0 1000, .resolve 0 (.ok key), .write 0,
    .enter 1 binding, .drain 1 [.evict binding], .apply 1 1001, .look 1 1001,
    .resolve 1 (.error .revoked), .write 1]

theorem revocation_takes_effect_evicted :
    (runOf 60 5 evicted).map Step.answer =
        List.replicate 4 none ++ [some ⟨binding, 0, .ok key, 3⟩] ++ List.replicate 5 none ++
          [some ⟨binding, 5, .error .revoked, 9⟩] ∧
      TakesEffect (runOf 60 5 evicted) := by
  refine ⟨by decide +kernel, revocation_takes_effect 60 5 evicted fun t ht event happlied => ?_⟩
  -- the one event is applied by the second call, when the first is over
  have hother : ∀ i < 11, i ≠ 7 → (runOf 60 5 evicted)[i]?.map (fun t => t.before.applied t.event) =
      some none := by decide +kernel
  obtain ⟨i, hi, rfl⟩ := List.mem_iff_getElem.1 ht
  by_cases hseven : i = 7
  · subst hseven
    intro bound resolution _ hholds
    obtain ⟨thread, startedAt, now, hcall⟩ := hholds
    rcases thread with _ | _ | thread
    · cases hcall
    · cases hcall
    · cases hcall
  · have hnone := hother i hi hseven
    rw [List.getElem?_eq_getElem hi, Option.map_some, happlied] at hnone
    cases hnone

/-- The eviction is applied between the inner resolver's answer and its write back. -/
def overtaken : List Action :=
  [.enter 0 binding, .drain 0 [], .look 0 1000, .resolve 0 (.ok key),
    .enter 1 binding, .drain 1 [.evict binding], .apply 1 1001, .write 0,
    .enter 2 binding, .drain 2 [], .look 2 1002]

/-- **The third call starts after the eviction and is served the key from before it.** -/
theorem stale_answer_written_back :
    (runOf 60 5 overtaken)[6]?.map
        (fun t : Step Plane Action (Option Returned) => (t.before.applied t.event, t.before.moment)) =
        some (some (InvalidationEvent.evict binding), 6) ∧
      (runOf 60 5 overtaken)[10]?.map Step.answer = some (some ⟨binding, 8, .ok key, 3⟩) ∧
      ¬TakesEffect (runOf 60 5 overtaken) := by
  have happlied : (runOf 60 5 overtaken)[6]?.map
        (fun t : Step Plane Action (Option Returned) => (t.before.applied t.event, t.before.moment)) =
      some (some (InvalidationEvent.evict binding), 6) := by decide +kernel
  have hreturned : (runOf 60 5 overtaken)[10]?.map Step.answer =
      some (some ⟨binding, 8, .ok key, 3⟩) := by decide +kernel
  refine ⟨happlied, hreturned, fun heffect => ?_⟩
  obtain ⟨t, ht, hevent⟩ := Option.map_eq_some_iff.1 happlied
  obtain ⟨t', ht', hanswer⟩ := Option.map_eq_some_iff.1 hreturned
  obtain ⟨hevict, hmoment⟩ := Prod.mk.inj hevent
  have hstale := heffect t (List.mem_of_getElem? ht) _ hevict t' (List.mem_of_getElem? ht') _ hanswer
    (by decide) (by rw [hmoment]; decide)
  rw [hmoment] at hstale
  exact absurd hstale (by decide)

end RevocationSample

end McpRe.Trust

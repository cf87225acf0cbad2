import McpRe.Continuation.Plane
import McpRe.Lib.Result

/-!
# One approval, one answer

Of the legs that read one entry, `consume` lets one through, as long as the key still holds that
entry. A key is free again once its entry is spent or expired, and `consume` removes whatever is
under it.

* `one_approval_one_answer`: in a run where no entry is created under a key that a leg in flight has
  read, and no open leg writes its bases twice, a leg that passes removed the entry it was bound to,
  and no two legs pass on one open leg;
* `approval_answered_twice`: with the key used again in between, two legs pass on one approval, and
  the second removes an entry it was not bound to.
-/

namespace McpRe.Continuation

open Lib Lib.Text Lib.Run
open McpRe.Http (Platform HttpContinuation RequestEvidence Digest Json)

/-! ## The store -/

namespace Entries

def Shrinks (entries old : Entries) : Prop :=
  ∀ key entry, entries.lookup key = some entry → old.lookup key = some entry

theorem Shrinks.refl (entries : Entries) : entries.Shrinks entries := fun _ _ h => h

theorem shrinks_live (entries : Entries) (now : I64) : (entries.live now).Shrinks entries := by
  intro key entry h
  unfold live at h
  rw [Table.lookup_retain, Option.filter_eq_some_iff] at h
  exact h.1

theorem shrinks_erase (entries : Entries) (key : Str) :
    Shrinks (AList.erase key entries) entries := by
  intro other entry h
  by_cases heq : other = key
  · rw [heq, AList.lookup_erase] at h
    cases h
  · rwa [AList.lookup_erase_ne heq] at h

theorem create_cases (entries : Entries) (key : Str) (entry : Entry) (now : I64) :
    entries.create key entry now = (.collision, entries.live now) ∨
      (entries.live now).lookup key = none ∧
        entries.create key entry now = (.stored, (entries.live now).insert key entry) := by
  unfold create
  dsimp only
  split_ifs with h
  · exact .inl rfl
  · exact .inr ⟨Option.not_isSome_iff_eq_none.1 h, rfl⟩

theorem lookup_of_peek {entries : Entries} {key : Str} {now : I64} {entry : Entry}
    (h : entries.peek key now = some entry) : entries.lookup key = some entry :=
  (Option.filter_eq_some_iff.1 h).1

end Entries

/-! ## What a step can do -/

namespace Plane

variable {P : Platform}

/-- Where a leg goes that neither writes an entry nor passes the retirement. -/
inductive Next (P : Platform) (plane : Plane) (thread : Nat) : Leg → Prop
  | idle : Next P plane thread .idle
  | arrived (ex : Exchange) : Next P plane thread (.arrived ex)
  | prepared {ex : Exchange} {prep : ContinuationPrep} {now : I64} {reach : Reach}
      (hprep : ex.prepare P plane.entries now reach = .ok prep) :
      Next P plane thread (.prepared ex prep)
  | admitted {ex : Exchange} {prep : ContinuationPrep} {verified : Bool}
      (hleg : plane.legs thread = .prepared ex prep)
      (hbind : bindContinuation P ex.continuation prep.binding = .ok verified) :
      Next P plane thread (.admitted ex prep)
  | answerable {ex : Exchange} {prep : ContinuationPrep}
      (hleg : plane.legs thread = .admitted ex prep) : Next P plane thread (.answerable ex prep)
  | opened {r : Recording} (hleg : r.leg = plane.moment) (hstored : r.stored = false) :
      Next P plane thread (.recording r)
  | retried {r : Recording} (hleg : plane.legs thread = .recording r) (attempts : Nat) :
      Next P plane thread (.recording { r with attempts := attempts })

end Plane

def Outcome.isPassed : Outcome → Bool
  | .passed _ _ => true
  | _ => false

namespace Plane

variable {P : Platform}

def storing (plane : Plane) : Action → Option Recording
  | .record thread now reach =>
    match plane.legs thread with
    | .recording r =>
      if reach ≠ .failed ∧ (plane.entries.create r.key (r.entry now plane.moment) now).1 = .stored
      then some r else none
    | _ => none
  | _ => none

def written (plane : Plane) (r : Recording) (now : I64) : Entries :=
  (plane.entries.live now).insert r.key (r.entry now plane.moment)

/-- Where the leg goes that has written: it is done, or its answer was lost. -/
def Wrote (r : Recording) (leg : Leg) : Prop :=
  leg = .idle ∨ ∃ attempts, leg = .recording { r with attempts := attempts, stored := true }

/-- What a step comes to. -/
inductive Moves (P : Platform) (plane : Plane) (action : Action) : Outcome → Plane → Prop
  | passed {outcome : Outcome} (hnot : outcome.isPassed = false) :
      Moves P plane action outcome plane.passed
  | moved {thread : Nat} {leg : Leg} {entries : Entries} {outcome : Outcome}
      (hnot : outcome.isPassed = false) (hshrinks : entries.Shrinks plane.entries)
      (hnext : Next P plane thread leg) :
      Moves P plane action outcome (plane.moved thread leg entries)
  | retired {thread : Nat} {ex : Exchange} {prep : ContinuationPrep} {now : I64} {reach : Reach}
      {retirement : Retirement} {entries : Entries}
      (hleg : plane.legs thread = .answerable ex prep)
      (hretire : retire ex.replica prep.answerKey plane.entries now reach = (retirement, entries))
      (hobserve : observeRetirement retirement = .ok ()) :
      Moves P plane action (.passed prep.retained (removed plane.entries prep retirement))
        (plane.moved thread .idle entries)
  | stored {thread : Nat} {r : Recording} {now : I64} {leg : Leg} {outcome : Outcome}
      (hnot : outcome.isPassed = false) (hleg : plane.legs thread = .recording r)
      (hstoring : plane.storing action = some r) (hwrote : Wrote r leg) :
      Moves P plane action outcome (plane.moved thread leg (plane.written r now))

theorem retire_shrinks {replica : Replica} {answerKey : Option Str} {entries entries' : Entries}
    {now : I64} {reach : Reach} {retirement : Retirement}
    (h : retire replica answerKey entries now reach = (retirement, entries')) :
    entries'.Shrinks entries := by
  unfold retire at h
  split at h
  · cases reach with
    | answered =>
      cases h
      exact Entries.shrinks_erase entries _
    | lost =>
      cases h
      exact Entries.shrinks_erase entries _
    | failed =>
      cases h
      exact Entries.Shrinks.refl entries
  · cases h
    exact Entries.Shrinks.refl entries

theorem attemptSpent_moves {plane : Plane} {action : Action} {thread : Nat} {r : Recording}
    {entries : Entries} (hleg : plane.legs thread = .recording r)
    (hshrinks : entries.Shrinks plane.entries) :
    Moves P plane action (plane.attemptSpent thread r entries).1
      (plane.attemptSpent thread r entries).2 := by
  unfold attemptSpent
  split_ifs
  · exact .moved rfl hshrinks .idle
  · exact .moved rfl hshrinks (.retried hleg _)

theorem recordStep_moves {plane : Plane} {thread : Nat} {r : Recording} {now : I64} {reach : Reach}
    (hleg : plane.legs thread = .recording r) :
    Moves P plane (.record thread now reach) (plane.recordStep thread r now reach).1
      (plane.recordStep thread r now reach).2 := by
  have hshrinks := Entries.shrinks_live plane.entries now
  cases reach with
  | failed => exact attemptSpent_moves hleg (Entries.Shrinks.refl _)
  | answered =>
    unfold recordStep
    rcases plane.entries.create_cases r.key (r.entry now plane.moment) now with
      hcreate | ⟨_, hcreate⟩
    · simp only [hcreate]
      exact .moved rfl hshrinks .idle
    · simp only [hcreate]
      exact .stored rfl hleg (by simp [storing, hleg, hcreate]) (.inl rfl)
  | lost =>
    unfold recordStep
    rcases plane.entries.create_cases r.key (r.entry now plane.moment) now with
      hcreate | ⟨_, hcreate⟩
    · simp only [hcreate]
      exact attemptSpent_moves hleg hshrinks
    · have hstoring : plane.storing (.record thread now .lost) = some r := by
        simp [storing, hleg, hcreate]
      simp only [hcreate, attemptSpent]
      split_ifs
      · exact .stored rfl hleg hstoring (.inl rfl)
      · exact .stored rfl hleg hstoring (.inr ⟨_, rfl⟩)

/-- The continuation binding is part of the admission. -/
theorem bound_of_admission {continuation : Option HttpContinuation} {prep : ContinuationPrep}
    {posture tier : Except DispatchError Unit}
    (h : admission P continuation prep posture tier = .ok ()) :
    ∃ verified, bindContinuation P continuation prep.binding = .ok verified := by
  unfold admission at h
  obtain ⟨_, _, h⟩ := Result.bind_eq_ok.1 h
  obtain ⟨verified, hbind, _⟩ := Result.bind_eq_ok.1 h
  exact ⟨verified, hbind⟩

theorem step_moves (P : Platform) (plane : Plane) (action : Action) :
    Moves P plane action (plane.step P action).1 (plane.step P action).2 := by
  have hrefl := Entries.Shrinks.refl plane.entries
  cases action with
  | arrive thread ex =>
    unfold step
    dsimp only
    split
    · exact .moved rfl hrefl (.arrived ex)
    · exact .passed rfl
  | prepare thread now reach =>
    unfold step
    dsimp only
    split
    · split
      next hprep => exact .moved rfl hrefl (.prepared hprep)
      · exact .moved rfl hrefl .idle
    · exact .passed rfl
  | replayAdmission thread posture tier =>
    unfold step
    dsimp only
    split
    next hleg =>
      split
      next hadmission =>
        obtain ⟨verified, hbind⟩ := bound_of_admission hadmission
        exact .moved rfl hrefl (.admitted hleg hbind)
      · exact .moved rfl hrefl .idle
    · exact .passed rfl
  | answerable thread window =>
    unfold step
    dsimp only
    split
    next hleg =>
      split_ifs
      · exact .moved rfl hrefl (.answerable hleg)
      · exact .moved rfl hrefl .idle
    · exact .passed rfl
  | retire thread now reach =>
    unfold step
    dsimp only
    split
    next ex prep hleg =>
      generalize hretire : retire ex.replica prep.answerKey plane.entries now reach = out
      obtain ⟨retirement, entries⟩ := out
      dsimp only
      split
      next hobserve => exact .retired hleg hretire hobserve
      · exact .moved rfl (retire_shrinks hretire) .idle
    · exact .passed rfl
  | openLeg thread replica actorId state bases =>
    unfold step
    dsimp only
    split
    · split_ifs
      · exact .moved rfl hrefl (.opened rfl rfl)
      · exact .passed rfl
    · exact .passed rfl
  | record thread now reach =>
    unfold step
    dsimp only
    split
    next hleg => exact recordStep_moves hleg
    · exact .passed rfl

theorem moment_step (P : Platform) (plane : Plane) (action : Action) :
    (plane.step P action).2.moment = plane.moment + 1 := by
  have hmoves := step_moves P plane action
  generalize (plane.step P action).1 = outcome at hmoves
  generalize (plane.step P action).2 = plane' at hmoves ⊢
  cases hmoves <;> rfl

end Plane

/-! ## Legs in flight -/

def Leg.prep : Leg → Option ContinuationPrep
  | .prepared _ prep => some prep
  | .admitted _ prep => some prep
  | .answerable _ prep => some prep
  | _ => none

/-- What `prepare` leaves: the key is that of the exchange, and where an entry was read, the key
holds that entry or nothing. -/
structure Prepared (P : Platform) (entries : Entries) (ex : Exchange) (prep : ContinuationPrep) :
    Prop where
  state : prep.answerState = ex.answerState P
  key : prep.answerKey = ex.answerKey P
  wired : prep.answerKey.isSome = true → ex.replica.wired = true
  retained : ∀ entry, prep.retained = some entry → ∃ key, prep.answerKey = some key ∧
    ∀ other, entries.lookup key = some other → other = entry

/-- A leg past the admission that has read no entry has none to spend. -/
def Leg.Sound (P : Platform) (entries : Entries) : Leg → Prop
  | .prepared ex prep => Prepared P entries ex prep
  | .admitted ex prep =>
    Prepared P entries ex prep ∧ (prep.retained = none → prep.answerKey = none)
  | .answerable ex prep =>
    Prepared P entries ex prep ∧ (prep.retained = none → prep.answerKey = none)
  | _ => True

section Legs

variable {P : Platform} {entries entries' : Entries}

theorem Prepared.of_lookup {ex : Exchange} {prep : ContinuationPrep}
    (h : Prepared P entries ex prep)
    (hlookup : ∀ key other, prep.answerKey = some key → prep.retained.isSome = true →
      entries'.lookup key = some other → entries.lookup key = some other) :
    Prepared P entries' ex prep where
  state := h.state
  key := h.key
  wired := h.wired
  retained := by
    intro entry hentry
    obtain ⟨key, hkey, honly⟩ := h.retained entry hentry
    refine ⟨key, hkey, fun other hother => honly other ?_⟩
    exact hlookup key other hkey (by rw [hentry]; rfl) hother

theorem Leg.Sound.of_lookup {leg : Leg} (h : leg.Sound P entries)
    (hlookup : ∀ prep key other, leg.prep = some prep → prep.answerKey = some key →
      prep.retained.isSome = true → entries'.lookup key = some other →
      entries.lookup key = some other) : leg.Sound P entries' := by
  cases leg with
  | prepared ex prep => exact Prepared.of_lookup h (hlookup prep · · rfl)
  | admitted ex prep => exact ⟨h.1.of_lookup (hlookup prep · · rfl), h.2⟩
  | answerable ex prep => exact ⟨h.1.of_lookup (hlookup prep · · rfl), h.2⟩
  | idle => exact h
  | arrived ex => exact h
  | recording r => exact h

theorem prepared_of_prepare {ex : Exchange} {prep : ContinuationPrep} {now : I64} {reach : Reach}
    (h : ex.prepare P entries now reach = .ok prep) : Prepared P entries ex prep := by
  unfold Exchange.prepare at h
  split at h
  next key hwired hkey =>
    cases reach with
    | answered =>
      cases h
      refine ⟨rfl, hkey.symm, fun _ => hwired, fun entry hentry => ⟨key, rfl, ?_⟩⟩
      intro other hother
      exact Option.some.inj (hother.symm.trans (Entries.lookup_of_peek hentry))
    | lost => cases h
    | failed => cases h
  · cases h
  next hkey =>
    cases h
    exact ⟨rfl, hkey.symm, by simp, by simp⟩

/-- A continuation that was bound was bound to an entry. -/
theorem Prepared.retained_of_bound {ex : Exchange} {prep : ContinuationPrep}
    (h : Prepared P entries ex prep) {verified : Bool}
    (hbind : bindContinuation P ex.continuation prep.binding = .ok verified) :
    prep.retained = none → prep.answerKey = none := by
  intro hnone
  have hbinding : prep.binding = none := by
    unfold ContinuationPrep.binding
    rw [hnone]
  rw [hbinding] at hbind
  cases hcontinuation : ex.continuation with
  | some c =>
    rw [hcontinuation] at hbind
    cases hbind
  | none =>
    rw [h.key, Exchange.answerKey, Exchange.answerState, hcontinuation]
    rfl

end Legs

/-! ## The invariant -/

namespace Plane

variable {P : Platform} {plane : Plane}

theorem legs_moved_self (plane : Plane) (thread : Nat) (leg : Leg) (entries : Entries) :
    (plane.moved thread leg entries).legs thread = leg := Function.update_self ..

theorem legs_moved_of_ne (plane : Plane) {thread other : Nat} (h : other ≠ thread) (leg : Leg)
    (entries : Entries) : (plane.moved thread leg entries).legs other = plane.legs other :=
  Function.update_of_ne h ..

/-- An open leg has at most one entry, and none before it has written one. -/
structure Census (plane : Plane) : Prop where
  entry_lt : ∀ key entry, plane.entries.lookup key = some entry → entry.leg < plane.moment
  recording_lt : ∀ thread r, plane.legs thread = .recording r → r.leg < plane.moment
  distinct : ∀ thread thread' r r', plane.legs thread = .recording r →
    plane.legs thread' = .recording r' → r.leg = r'.leg → thread = thread'
  unstored : ∀ thread r, plane.legs thread = .recording r → r.stored = false →
    ∀ key entry, plane.entries.lookup key = some entry → entry.leg ≠ r.leg
  single : ∀ key key' entry entry', plane.entries.lookup key = some entry →
    plane.entries.lookup key' = some entry' → entry.leg = entry'.leg → key = key'

theorem Next.recordings {thread : Nat} {leg : Leg} (hnext : Next P plane thread leg)
    {entries : Entries} {other : Nat} {r : Recording}
    (h : (plane.moved thread leg entries).legs other = .recording r) :
    r.leg = plane.moment ∧ other = thread ∨
      ∃ before, plane.legs other = .recording before ∧ r.leg = before.leg ∧
        r.stored = before.stored := by
  by_cases heq : other = thread
  · subst heq
    rw [legs_moved_self] at h
    subst h
    cases hnext with
    | opened hleg hstored => exact .inl ⟨hleg, rfl⟩
    | retried hleg attempts => exact .inr ⟨_, hleg, rfl, rfl⟩
  · rw [legs_moved_of_ne plane heq] at h
    exact .inr ⟨r, h, rfl, rfl⟩

theorem Census.moved (h : plane.Census) {thread : Nat} {leg : Leg} {entries : Entries}
    (hshrinks : entries.Shrinks plane.entries) (hnext : Next P plane thread leg) :
    (plane.moved thread leg entries).Census where
  entry_lt := by
    intro key entry hentry
    exact Nat.lt_succ_of_lt (h.entry_lt key entry (hshrinks key entry hentry))
  recording_lt := by
    intro other r hr
    rcases hnext.recordings hr with ⟨hleg, _⟩ | ⟨before, hbefore, hleg, _⟩
    · exact hleg ▸ Nat.lt_succ_self _
    · exact hleg ▸ Nat.lt_succ_of_lt (h.recording_lt other before hbefore)
  distinct := by
    intro other other' r r' hr hr' heq
    rcases hnext.recordings hr with ⟨hleg, hthread⟩ | ⟨before, hbefore, hleg, _⟩
    · rcases hnext.recordings hr' with ⟨_, hthread'⟩ | ⟨before', hbefore', hleg', _⟩
      · exact hthread.trans hthread'.symm
      · have := h.recording_lt other' before' hbefore'
        omega
    · rcases hnext.recordings hr' with ⟨hleg', _⟩ | ⟨before', hbefore', hleg', _⟩
      · have := h.recording_lt other before hbefore
        omega
      · exact h.distinct other other' before before' hbefore hbefore' (by omega)
  unstored := by
    intro other r hr hstored key entry hentry
    have hbefore := hshrinks key entry hentry
    rcases hnext.recordings hr with ⟨hleg, _⟩ | ⟨before, hrecording, hleg, hkept⟩
    · exact hleg ▸ Nat.ne_of_lt (h.entry_lt key entry hbefore)
    · exact hleg ▸ h.unstored other before hrecording (hkept ▸ hstored) key entry hbefore
  single := by
    intro key key' entry entry' hentry hentry'
    exact h.single key key' entry entry' (hshrinks _ _ hentry) (hshrinks _ _ hentry')

theorem lookup_written {now : I64} {r : Recording} {key : Str} {entry : Entry}
    (h : (plane.written r now).lookup key = some entry) :
    key = r.key ∧ entry = r.entry now plane.moment ∨
      key ≠ r.key ∧ plane.entries.lookup key = some entry := by
  unfold written at h
  by_cases heq : key = r.key
  · rw [heq, AList.lookup_insert] at h
    exact .inl ⟨heq, (Option.some.inj h).symm⟩
  · rw [AList.lookup_insert_ne heq] at h
    exact .inr ⟨heq, Entries.shrinks_live _ _ _ _ h⟩

theorem Wrote.recordings {thread : Nat} {r : Recording} {leg : Leg} (hwrote : Wrote r leg)
    (hleg : plane.legs thread = .recording r) {entries : Entries} {other : Nat} {r' : Recording}
    (h : (plane.moved thread leg entries).legs other = .recording r') :
    ∃ before, plane.legs other = .recording before ∧ r'.leg = before.leg ∧
      (r'.stored = false → before.stored = false ∧ other ≠ thread) := by
  by_cases heq : other = thread
  · subst heq
    rw [legs_moved_self] at h
    subst h
    rcases hwrote with hidle | ⟨attempts, hrecording⟩
    · cases hidle
    · cases hrecording
      exact ⟨r, hleg, rfl, nofun⟩
  · rw [legs_moved_of_ne plane heq] at h
    exact ⟨r', h, rfl, fun hstored => ⟨hstored, heq⟩⟩

theorem Census.stored (h : plane.Census) {thread : Nat} {r : Recording} {now : I64} {leg : Leg}
    (hleg : plane.legs thread = .recording r) (hunstored : r.stored = false)
    (hwrote : Wrote r leg) : (plane.moved thread leg (plane.written r now)).Census where
  entry_lt := by
    intro key entry hentry
    rcases lookup_written hentry with ⟨_, rfl⟩ | ⟨_, hbefore⟩
    · exact Nat.lt_succ_of_lt (h.recording_lt thread r hleg)
    · exact Nat.lt_succ_of_lt (h.entry_lt key entry hbefore)
  recording_lt := by
    intro other r' hr'
    obtain ⟨before, hbefore, hsame, _⟩ := hwrote.recordings hleg hr'
    exact hsame ▸ Nat.lt_succ_of_lt (h.recording_lt other before hbefore)
  distinct := by
    intro other other' r₁ r₂ hr₁ hr₂ heq
    obtain ⟨before, hbefore, hsame, _⟩ := hwrote.recordings hleg hr₁
    obtain ⟨before', hbefore', hsame', _⟩ := hwrote.recordings hleg hr₂
    exact h.distinct other other' before before' hbefore hbefore' (by rw [← hsame, ← hsame', heq])
  unstored := by
    intro other r' hr' hstored key entry hentry
    obtain ⟨before, hbefore, hsame, hfirst⟩ := hwrote.recordings hleg hr'
    obtain ⟨hbeforeUnstored, hother⟩ := hfirst hstored
    rw [hsame]
    rcases lookup_written hentry with ⟨_, rfl⟩ | ⟨_, hfound⟩
    · exact fun heq => hother (h.distinct other thread before r hbefore hleg heq.symm)
    · exact h.unstored other before hbefore hbeforeUnstored key entry hfound
  single := by
    intro key key' entry entry' hentry hentry' heq
    have hfirst := h.unstored thread r hleg hunstored
    rcases lookup_written hentry with ⟨hkey, rfl⟩ | ⟨_, hfound⟩
    · rcases lookup_written hentry' with ⟨hkey', _⟩ | ⟨_, hfound'⟩
      · exact hkey.trans hkey'.symm
      · exact absurd heq.symm (hfirst key' entry' hfound')
    · rcases lookup_written hentry' with ⟨_, rfl⟩ | ⟨_, hfound'⟩
      · exact absurd heq (hfirst key entry hfound)
      · exact h.single key key' entry entry' hfound hfound' heq

/-- What holds between the steps of a run. -/
structure Sound (P : Platform) (plane : Plane) : Prop extends Census plane where
  legs : ∀ thread, (plane.legs thread).Sound P plane.entries

theorem sound_new (P : Platform) : new.Sound P where
  legs := fun _ => trivial
  entry_lt := by simp [new]
  recording_lt := by simp [new]
  distinct := by simp [new]
  unstored := by simp [new]
  single := by simp [new]

theorem Next.sound {thread : Nat} {leg : Leg} (h : Next P plane thread leg) (hsound : plane.Sound P) :
    leg.Sound P plane.entries := by
  cases h with
  | idle => trivial
  | arrived ex => trivial
  | prepared hprep => exact prepared_of_prepare hprep
  | admitted hleg hbind =>
    have hprepared := hsound.legs thread
    rw [hleg] at hprepared
    exact ⟨hprepared, Prepared.retained_of_bound hprepared hbind⟩
  | answerable hleg =>
    have hadmitted := hsound.legs thread
    rwa [hleg] at hadmitted
  | opened hleg hstored => trivial
  | retried hleg attempts => trivial

theorem Sound.moved (h : plane.Sound P) {thread : Nat} {leg : Leg} {entries : Entries}
    (hshrinks : entries.Shrinks plane.entries) (hnext : Next P plane thread leg) :
    (plane.moved thread leg entries).Sound P := by
  refine ⟨h.toCensus.moved hshrinks hnext, fun other => ?_⟩
  have hbefore : ((plane.moved thread leg entries).legs other).Sound P plane.entries := by
    by_cases heq : other = thread
    · rw [heq, legs_moved_self]
      exact hnext.sound h
    · rw [legs_moved_of_ne plane heq]
      exact h.legs other
  exact hbefore.of_lookup fun _ key found _ _ _ hfound => hshrinks key found hfound

/-- No leg in flight has read an entry under the key. -/
def Unread (plane : Plane) (key : Str) : Prop :=
  ∀ thread prep, (plane.legs thread).prep = some prep → prep.answerKey = some key →
    prep.retained = none

theorem Sound.stored (h : plane.Sound P) {thread : Nat} {r : Recording} {now : I64} {leg : Leg}
    (hleg : plane.legs thread = .recording r) (hunstored : r.stored = false)
    (hunread : plane.Unread r.key) (hwrote : Wrote r leg) :
    (plane.moved thread leg (plane.written r now)).Sound P := by
  refine ⟨h.toCensus.stored hleg hunstored hwrote, fun other => ?_⟩
  by_cases heq : other = thread
  · rw [heq, legs_moved_self]
    rcases hwrote with rfl | ⟨attempts, rfl⟩
    · trivial
    · trivial
  · rw [legs_moved_of_ne plane heq]
    refine (h.legs other).of_lookup fun prep key found hprep hkey hread hfound => ?_
    rcases lookup_written hfound with ⟨rfl, _⟩ | ⟨_, hbefore⟩
    · rw [hunread other prep hprep hkey] at hread
      cases hread
    · exact hbefore

theorem Sound.passed (h : plane.Sound P) : plane.passed.Sound P where
  legs := h.legs
  entry_lt := fun key entry hentry => Nat.lt_succ_of_lt (h.entry_lt key entry hentry)
  recording_lt := fun thread r hr => Nat.lt_succ_of_lt (h.recording_lt thread r hr)
  distinct := h.distinct
  unstored := h.unstored
  single := h.single

/-- An entry is written once for an open leg, under a key that no leg in flight has read. -/
def Undisturbed (plane : Plane) (action : Action) : Prop :=
  ∀ r, plane.storing action = some r → r.stored = false ∧ plane.Unread r.key

theorem Sound.step (h : plane.Sound P) {action : Action} (hundisturbed : plane.Undisturbed action) :
    (plane.step P action).2.Sound P := by
  have hmoves := step_moves P plane action
  generalize (plane.step P action).1 = outcome at hmoves
  generalize (plane.step P action).2 = plane' at hmoves ⊢
  cases hmoves with
  | passed hnot => exact h.passed
  | moved hnot hshrinks hnext => exact h.moved hshrinks hnext
  | retired hleg hretire hobserve => exact h.moved (retire_shrinks hretire) .idle
  | stored hnot hleg hstoring hwrote =>
    obtain ⟨hunstored, hunread⟩ := hundisturbed _ hstoring
    exact h.stored hleg hunstored hunread hwrote

/-! ## Passing the retirement -/

/-- What the retirement removed: the entry under the key. -/
theorem lookup_of_retired {replica : Replica} {prep : ContinuationPrep} {entries entries' : Entries}
    {now : I64} {reach : Reach}
    (h : retire replica prep.answerKey entries now reach = (.retired, entries')) :
    ∃ key entry, prep.answerKey = some key ∧ entries.lookup key = some entry ∧
      entries' = AList.erase key entries := by
  unfold retire at h
  split at h
  next key _ hkey =>
    cases reach with
    | answered =>
      obtain ⟨hretired, rfl⟩ := Prod.mk.inj h
      have hlive : (entries.peek key now).isSome = true := by
        by_contra hnot
        rw [if_neg (by exact hnot)] at hretired
        cases hretired
      obtain ⟨entry, hpeek⟩ := Option.isSome_iff_exists.1 hlive
      exact ⟨key, entry, hkey, Entries.lookup_of_peek hpeek, rfl⟩
    | lost => cases h
    | failed => cases h
  · cases h

/-- A leg with no key to spend, or on a replica with no store. -/
theorem notInvolved_cases {replica : Replica} {answerKey : Option Str} {entries entries' : Entries}
    {now : I64} {reach : Reach}
    (h : retire replica answerKey entries now reach = (.notInvolved, entries')) :
    replica.wired = false ∨ answerKey = none := by
  unfold retire at h
  split at h
  · cases reach with
    | answered =>
      obtain ⟨hretired, -⟩ := Prod.mk.inj h
      split_ifs at hretired
    | lost => cases h
    | failed => cases h
  next hnot =>
    by_contra hboth
    obtain ⟨hwired, hkey⟩ := not_or.1 hboth
    obtain ⟨key, hkey⟩ := Option.ne_none_iff_exists'.1 hkey
    exact hnot key (Bool.eq_true_of_not_eq_false hwired) hkey

/-- The open leg is behind the plane: it has no entry, and will write none. -/
structure Spent (plane : Plane) (leg : Nat) : Prop where
  elapsed : leg < plane.moment
  entries : ∀ key entry, plane.entries.lookup key = some entry → entry.leg ≠ leg
  recordings : ∀ thread r, plane.legs thread = .recording r → r.stored = false → r.leg ≠ leg

/-- **A leg that passes removed the entry it was bound to**, and that entry's open leg is spent. -/
theorem Sound.passes (h : plane.Sound P) {action : Action} {bound removed : Option Entry}
    (hpassed : (plane.step P action).1 = .passed bound removed) :
    removed = bound ∧ ∀ entry, bound = some entry →
      (∃ key, plane.entries.lookup key = some entry) ∧ (plane.step P action).2.Spent entry.leg := by
  have hmoves := step_moves P plane action
  rw [hpassed] at hmoves
  generalize (plane.step P action).2 = plane' at hmoves ⊢
  cases hmoves with
  | passed hnot => cases hnot
  | moved hnot hshrinks hnext => cases hnot
  | stored hnot hleg hstoring hwrote => cases hnot
  | @retired thread ex prep now reach retirement entries hleg hretire hobserve =>
    obtain ⟨hprepared, hbound⟩ : (Leg.answerable ex prep).Sound P plane.entries := hleg ▸ h.legs thread
    cases retirement with
    | alreadyAnswered => cases hobserve
    | indeterminate => cases hobserve
    | notInvolved =>
      have hkey : prep.answerKey = none := by
        rcases notInvolved_cases hretire with hwired | hkey
        · by_contra hsome
          have := hprepared.wired (Option.isSome_iff_ne_none.2 hsome)
          rw [hwired] at this
          cases this
        · exact hkey
      have hretained : prep.retained = none := by
        cases hentry : prep.retained with
        | none => rfl
        | some entry =>
          obtain ⟨key, hsome, _⟩ := hprepared.retained entry hentry
          rw [hkey] at hsome
          cases hsome
      rw [hretained]
      exact ⟨rfl, fun _ hentry => by cases hentry⟩
    | retired =>
      obtain ⟨key, found, hkey, hfound, rfl⟩ := lookup_of_retired hretire
      -- the key holds what the leg has read
      have hretained : prep.retained = some found := by
        cases hentry : prep.retained with
        | none => rw [hbound hentry] at hkey; cases hkey
        | some entry =>
          obtain ⟨key', hkey', honly⟩ := hprepared.retained entry hentry
          obtain rfl : key' = key := Option.some.inj (hkey'.symm.trans hkey)
          rw [honly found hfound]
      refine ⟨?_, fun entry hentry => ?_⟩
      · rw [Plane.removed, hkey, Option.bind_some, hfound, hretained]
      · obtain rfl : found = entry := Option.some.inj (hretained.symm.trans hentry)
        refine ⟨⟨key, hfound⟩, Nat.lt_succ_of_lt (h.entry_lt key found hfound), ?_, ?_⟩
        · intro key' other hother heq
          have hbefore := Entries.shrinks_erase plane.entries key key' other hother
          obtain rfl := h.single key' key other found hbefore hfound heq
          cases hother.symm.trans (AList.lookup_erase key' plane.entries)
        · intro other r hr hstored heq
          by_cases hthread : other = thread
          · rw [hthread, legs_moved_self] at hr
            cases hr
          · rw [legs_moved_of_ne plane hthread] at hr
            exact h.unstored other r hr hstored key found hfound heq.symm

/-- **An open leg that is spent stays spent.** -/
theorem Spent.step {leg : Nat} (h : plane.Spent leg) {action : Action}
    (hundisturbed : plane.Undisturbed action) : (plane.step P action).2.Spent leg := by
  have hmoves := step_moves P plane action
  generalize (plane.step P action).1 = outcome at hmoves
  generalize (plane.step P action).2 = plane' at hmoves ⊢
  have hmoved : ∀ {thread next entries}, entries.Shrinks plane.entries →
      Next P plane thread next → (plane.moved thread next entries).Spent leg := by
    intro thread next entries hshrinks hnext
    refine ⟨Nat.lt_succ_of_lt h.elapsed, fun key entry hentry => ?_, fun other r hr hstored => ?_⟩
    · exact h.entries key entry (hshrinks key entry hentry)
    · rcases hnext.recordings hr with ⟨hnew, _⟩ | ⟨before, hbefore, hsame, hkept⟩
      · exact hnew ▸ Nat.ne_of_gt h.elapsed
      · exact hsame ▸ h.recordings other before hbefore (hkept ▸ hstored)
  cases hmoves with
  | passed hnot => exact ⟨Nat.lt_succ_of_lt h.elapsed, h.entries, h.recordings⟩
  | moved hnot hshrinks hnext => exact hmoved hshrinks hnext
  | retired hleg hretire hobserve => exact hmoved (retire_shrinks hretire) .idle
  | @stored thread r now next outcome hnot hleg hstoring hwrote =>
    obtain ⟨hunstored, _⟩ := hundisturbed r hstoring
    refine ⟨Nat.lt_succ_of_lt h.elapsed, fun key entry hentry => ?_, fun other r' hr hstored => ?_⟩
    · rcases lookup_written hentry with ⟨_, rfl⟩ | ⟨_, hbefore⟩
      · exact h.recordings thread r hleg hunstored
      · exact h.entries key entry hbefore
    · obtain ⟨before, hbefore, hsame, hfirst⟩ := hwrote.recordings hleg hr
      exact hsame ▸ h.recordings other before hbefore (hfirst hstored).1

end Plane

/-! ## One approval, one answer -/

def runOf (P : Platform) (actions : List Action) : List (Step Plane Action Outcome) :=
  trace (Plane.step P) Plane.new actions

/-- **One approval, one answer**: a leg that passes the retirement removed the very entry it was
bound to, and no two legs pass that were bound to the entries of one open leg. -/
structure OneAnswer (run : List (Step Plane Action Outcome)) : Prop where
  removes_bound : ∀ t ∈ run, ∀ bound removed, t.answer = .passed bound removed → removed = bound
  passes_once : ∀ t ∈ run, ∀ t' ∈ run, ∀ entry entry' removed removed',
    t.answer = .passed (some entry) removed → t'.answer = .passed (some entry') removed' →
      entry.leg = entry'.leg → t.before.moment = t'.before.moment

theorem one_approval_one_answer (P : Platform) (actions : List Action)
    (hundisturbed : ∀ t ∈ runOf P actions, t.before.Undisturbed t.event) :
    OneAnswer (runOf P actions) := by
  have hsound : ∀ t ∈ runOf P actions, t.before.Sound P := fun t ht =>
    ((invariant_of_guard (I := Plane.Sound P) (fun _ _ hs hu => hs.step hu) (Plane.sound_new P)
      hundisturbed).1 t ht).1
  have hmoments : ∀ (plane : Plane) action, plane.moment < (plane.step P action).2.moment := by
    intro plane action
    rw [Plane.moment_step]
    exact Nat.lt_succ_self _
  -- no leg passes on an open leg after another one has
  have hnever : ∀ t ∈ runOf P actions, ∀ t' ∈ runOf P actions, ∀ entry entry' removed removed',
      t.answer = .passed (some entry) removed → t'.answer = .passed (some entry') removed' →
        entry.leg = entry'.leg → ¬t.before.moment < t'.before.moment := by
    intro t ht t' ht' entry entry' removed removed' hpassed hpassed' heq hlt
    obtain ⟨-, hstep⟩ := step_eq_of_mem_trace _ ht
    obtain ⟨-, hstep'⟩ := step_eq_of_mem_trace _ ht'
    have hspent : t.after.Spent entry.leg := by
      have := ((hsound t ht).passes (by rw [hstep, hpassed])).2 entry rfl
      rw [hstep] at this
      exact this.2
    obtain ⟨between, hbetween, hsub⟩ := exists_mem_trace_after hmoments ht ht' hlt
    have hspent' : t'.before.Spent entry.leg :=
      ((invariant_of_guard (I := fun plane => plane.Spent entry.leg) (fun _ _ hs hu => hs.step hu)
        hspent fun u hu => hundisturbed u (hsub hu)).1 t' hbetween).1
    obtain ⟨⟨key, hkey⟩, _⟩ := ((hsound t' ht').passes (by rw [hstep', hpassed'])).2 entry' rfl
    exact hspent'.entries key entry' hkey heq.symm
  refine ⟨fun t ht bound removed hpassed => ?_, ?_⟩
  · obtain ⟨-, hstep⟩ := step_eq_of_mem_trace _ ht
    exact ((hsound t ht).passes (by rw [hstep, hpassed])).1
  · intro t ht t' ht' entry entry' removed removed' hpassed hpassed' heq
    have hle := hnever t ht t' ht' entry entry' removed removed' hpassed hpassed' heq
    have hge := hnever t' ht' t ht entry' entry removed' removed hpassed' hpassed heq.symm
    omega

namespace ApprovalSample

def keyDigest : Digest :=
  ⟨[30, 39, 138, 232, 191, 145, 240, 9, 150, 144, 197, 29, 153, 198, 197, 196, 87, 77, 185, 199,
    130, 143, 237, 165, 109, 153, 191, 139, 26, 79, 45, 193], rfl⟩

def requestDigest : Digest :=
  ⟨[106, 231, 208, 0, 5, 50, 109, 66, 168, 153, 229, 218, 94, 119, 217, 139, 89, 2, 46, 146, 10,
    170, 188, 241, 150, 124, 164, 234, 231, 189, 53, 50], rfl⟩

def responseDigest : Digest :=
  ⟨[165, 221, 168, 175, 65, 20, 171, 108, 156, 131, 209, 253, 166, 129, 254, 115, 115, 242, 122,
    20, 53, 45, 116, 144, 34, 104, 207, 52, 68, 104, 196, 215], rfl⟩

def stateDigest : Digest :=
  ⟨[57, 131, 0, 6, 136, 57, 245, 201, 25, 199, 43, 119, 72, 45, 199, 41, 207, 83, 90, 129, 224,
    205, 209, 126, 141, 66, 236, 55, 255, 40, 69, 156], rfl⟩

def body : Bytes := utf8 "\x7b\"params\":\x7b\"requestState\":\"s\"\x7d\x7d".toList

/-- SHA-256 and `serde_json` on what the run below gives them. -/
def platform : Platform where
  sha256 m :=
    if m = Http.labeledPreimage Http.evidenceLabelRequest [1] then requestDigest
    else if m = Http.labeledPreimage Http.evidenceLabelResponse [2] then responseDigest
    else if m = Http.labeledPreimage Http.evidenceLabelRequestState [115] then stateDigest
    else keyDigest
  fromSlice b := if b = body then some (.object [("params".toList,
    .object [("requestState".toList, .string ['s'])])]) else none
  readDocument _ := none
  isPoint _ := true
  verifyStrict _ _ _ := false

def replica : Replica := ⟨['a'], true, 300⟩

/-- The bases of the approval, and those of a later one under the same `requestState`. -/
def bases : RetainedBases := ⟨[1], [2]⟩

def laterBases : RetainedBases := ⟨[3], [4]⟩

def exchange : Exchange where
  replica := replica
  actorId := ['c']
  continuation := some {
    continuationType := Http.continuationTypeMcpMrt.toList
    previousRequestEvidence := .overLabeled platform Http.evidenceLabelRequest [1]
    inputRequiredResponseEvidence := .overLabeled platform Http.evidenceLabelResponse [2]
    requestStateDigest := .overLabeled platform Http.evidenceLabelRequestState [115] }
  body := body

/-- An answer leg up to its retirement. -/
def answerLeg (thread : Nat) : List Action :=
  [.arrive thread exchange, .prepare thread 1000 .answered, .replayAdmission thread (.ok ()) (.ok ()),
    .answerable thread true]

def contended : List Action :=
  [Action.openLeg 0 replica ['c'] ['s'] bases, .record 0 900 .answered] ++ answerLeg 1 ++
    answerLeg 2 ++ [Action.retire 2 1001 .answered, .retire 1 1001 .answered]

/-- The same two legs, and a new approval under the key between their retirements. -/
def reopened : List Action :=
  [Action.openLeg 0 replica ['c'] ['s'] bases, .record 0 900 .answered] ++ answerLeg 1 ++
    answerLeg 2 ++ [Action.retire 2 1001 .answered, .openLeg 0 replica ['c'] ['s'] laterBases,
      .record 0 1002 .answered, .retire 1 1003 .answered]

def entry : Entry := ⟨bases, 1200, 0, 1⟩

def laterEntry : Entry := ⟨laterBases, 1302, 11, 12⟩

theorem one_approval_one_answer_contended :
    (runOf platform contended)[10]?.map Step.answer =
        some (Outcome.passed (some entry) (some entry)) ∧
      (runOf platform contended)[11]?.map Step.answer =
        some (Outcome.refused .continuationBindingFailed) ∧
      OneAnswer (runOf platform contended) := by
  have hanswers : (runOf platform contended)[10]?.map Step.answer =
        some (Outcome.passed (some entry) (some entry)) ∧
      (runOf platform contended)[11]?.map Step.answer =
        some (Outcome.refused .continuationBindingFailed) ∧
      ∀ i < 12, (runOf platform contended)[i]?.map
        (fun t : Step Plane Action Outcome => ((t.before.storing t.event).isSome,
          (t.before.storing t.event).any Recording.stored)) = some (i == 1, false) := by
    decide +kernel
  refine ⟨hanswers.1, hanswers.2.1, one_approval_one_answer platform contended ?_⟩
  intro t ht r hstoring
  obtain ⟨i, hi, rfl⟩ := List.mem_iff_getElem.1 ht
  have hstores := hanswers.2.2 i hi
  rw [List.getElem?_eq_getElem hi, Option.map_some, hstoring] at hstores
  obtain ⟨hfirst, hstored⟩ := Prod.mk.inj (Option.some.inj hstores)
  obtain rfl : i = 1 := (beq_iff_eq.1 hfirst.symm)
  -- the approval is recorded before any leg has come to answer it
  refine ⟨hstored, fun thread prep hprep => ?_⟩
  rcases thread with _ | thread
  · cases hprep
  · cases hprep

/-- **Both legs pass on one approval**, and the second removes an entry that it has not read. -/
theorem approval_answered_twice :
    (runOf platform reopened)[10]?.map Step.answer =
        some (Outcome.passed (some entry) (some entry)) ∧
      (runOf platform reopened)[13]?.map Step.answer =
        some (Outcome.passed (some entry) (some laterEntry)) ∧
      ¬OneAnswer (runOf platform reopened) := by
  have hfirst : (runOf platform reopened)[10]?.map Step.answer =
      some (Outcome.passed (some entry) (some entry)) := by decide +kernel
  have hsecond : (runOf platform reopened)[13]?.map Step.answer =
      some (Outcome.passed (some entry) (some laterEntry)) := by decide +kernel
  refine ⟨hfirst, hsecond, fun hone => ?_⟩
  obtain ⟨t, ht, hanswer⟩ := Option.map_eq_some_iff.1 hsecond
  have hremoved := hone.removes_bound t (List.mem_of_getElem? ht) _ _ hanswer
  exact absurd hremoved (by decide)

end ApprovalSample

end McpRe.Continuation

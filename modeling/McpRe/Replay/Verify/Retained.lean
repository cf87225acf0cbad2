import McpRe.Replay.Retained
import McpRe.Replay.Verify.Ledger

/-!
# The async store against a plain one

`NaiveStore` keeps one map from a key to who holds it and until when, evicts by a filter and counts
by looking. `Refines` ties the three maps of a `RetainedSet` to that one map; every insert keeps it
and gives the same answer, whatever the two clocks read.
-/

namespace McpRe.Replay

open Lib Lib.Counter Lib.Run Lib.Text

/-! ## The plain store -/

structure RetainedNonce where
  actor : Str
  retainUntil : I64
  deriving DecidableEq, Repr

structure NaiveStore where
  held : Table Str RetainedNonce
  insertsSincePrune : Nat

namespace NaiveStore

def empty : NaiveStore := ⟨∅, 0⟩

def heldBy (n : NaiveStore) (actor : Str) : Nat :=
  Table.total (fun _ e => if e.actor = actor then 1 else 0) n.held

def actors (n : NaiveStore) : Finset Str := (n.held.entries.map fun e => e.2.actor).toFinset

def prune (n : NaiveStore) (now : I64) : NaiveStore :=
  { n with held := Table.retain (fun _ e => decide (now ≤ e.retainUntil)) n.held }

def pruneIfDue (n : NaiveStore) (clock : I64) : NaiveStore :=
  if asyncPruneEveryNInserts ≤ RetainedSet.countInsert n.insertsSincePrune then
    { n with insertsSincePrune := 0 }.prune clock
  else { n with insertsSincePrune := RetainedSet.countInsert n.insertsSincePrune }

def record (n : NaiveStore) (insert : ReplayInsert) : NaiveStore :=
  { n with held := n.held.insert insert.key ⟨insert.actor, insert.expiresAtUnix⟩ }

end NaiveStore

/-- Whether a store holding `len` entries of `actors` actors has room for one more of an actor that
holds `held` of them. -/
def levelRefusal (maxEntries len actors held : Nat) : Option ReplayStoreError :=
  let budget := Id.run (perActorBudget saturating maxEntries actors)
  if Id.run (underPressure saturating len maxEntries) = true ∧ budget ≤ held then
    some (BudgetRefusal.intoUnavailableAt "in-memory async replay store"
      ⟨held, budget, len, maxEntries⟩)
  else if maxEntries ≤ len then
    some (.unavailable ("in-memory async replay store is at its ".toList
      ++ Nat.toDigits 10 maxEntries ++ " entry ceiling".toList))
  else none

namespace NaiveStore

variable (S : InMemoryAsyncAtomicReplayStore)

def refuseOrRecord (n : NaiveStore) (insert : ReplayInsert) :
    Except ReplayStoreError ReplayDecision × NaiveStore :=
  match levelRefusal S.maxEntries (Table.size n.held) n.actors.card (n.heldBy insert.actor) with
  | some e => (.error e, n)
  | none => (.ok .fresh, n.record insert)

def step (n : NaiveStore) (call : StoreCall) :
    Except ReplayStoreError ReplayDecision × NaiveStore :=
  match refuseStaleRetainUntil call.insert.expiresAtUnix call.insert.nowUnix with
  | .error e => (.error e, n)
  | .ok () =>
    if (n.held.lookup call.insert.key).isSome then (.ok .replay, n)
    else (n.pruneIfDue call.clock).refuseOrRecord S call.insert

end NaiveStore

/-! ## Refinement -/

/-- The key sits in the bucket of that instant. -/
def RetainedSet.Listed (s : RetainedSet) (retainUntil : I64) (key : Str) : Prop :=
  ∃ bucket, s.byExpiry.lookup retainUntil = some bucket ∧ key ∈ bucket

/-- The three maps say what the one map says. -/
structure Refines (S : InMemoryAsyncAtomicReplayStore) (s : RetainedSet) (n : NaiveStore) : Prop where
  seen : ∀ key, s.seen.lookup key = (n.held.lookup key).map RetainedNonce.actor
  listed : ∀ retainUntil key,
    s.Listed retainUntil key ↔ ∃ e, n.held.lookup key = some e ∧ e.retainUntil = retainUntil
  nodup : ∀ retainUntil bucket, s.byExpiry.lookup retainUntil = some bucket → bucket.Nodup
  counts : Counts s.perActor n.heldBy
  cadence : s.insertsSincePrune = n.insertsSincePrune
  bounded : Table.size n.held ≤ S.maxEntries

/-- The entries of an actor, counted in `seen`. -/
def heldIn (seen : Table Str Str) (actor : Str) : Nat :=
  Table.total (fun _ a => if a = actor then 1 else 0) seen

variable {S : InMemoryAsyncAtomicReplayStore} {s : RetainedSet} {n : NaiveStore}

namespace Refines

theorem heldIn_eq (hseen : ∀ key, s.seen.lookup key = (n.held.lookup key).map RetainedNonce.actor)
    (actor : Str) : heldIn s.seen actor = n.heldBy actor :=
  Table.total_eq_of_lookup_eq_map hseen _

theorem size_eq (h : Refines S s n) : Table.size s.seen = Table.size n.held :=
  Table.size_eq_of_lookup_eq_map h.seen

theorem mem_actors {actor : Str} : actor ∈ n.actors ↔ n.heldBy actor ≠ 0 := by
  unfold NaiveStore.actors NaiveStore.heldBy Table.total
  rw [List.mem_toFinset, Ne, List.sum_eq_zero_iff]
  simp

theorem card_actors (h : Refines S s n) : n.actors.card = Table.size s.perActor := by
  have hkeys : s.perActor.keys.toFinset = n.actors := by
    ext actor
    rw [List.mem_toFinset, mem_actors, ← AList.mem_keys, ← AList.lookup_isSome, h.counts actor]
    split_ifs with hzero <;> simp [hzero]
  rw [← hkeys, List.toFinset_card_of_nodup s.perActor.keys_nodup]
  exact List.length_map ..

theorem chargedTo_eq (h : Refines S s n) (actor : Str) : s.chargedTo actor = n.heldBy actor :=
  h.counts.getD actor

theorem heldBy_le (n : NaiveStore) (actor : Str) : n.heldBy actor ≤ Table.size n.held := by
  have hle : n.heldBy actor ≤ Table.total (fun _ _ => 1) n.held :=
    Table.total_mono (fun _ _ => by split_ifs <;> omega) n.held
  exact hle.trans_eq (by simp [Table.total, Table.size])

theorem empty (S : InMemoryAsyncAtomicReplayStore) : Refines S .empty .empty where
  seen _ := rfl
  listed _ _ := by
    constructor
    · rintro ⟨_, hbucket, _⟩
      cases hbucket
    · rintro ⟨_, hheld, _⟩
      cases hheld
  nodup _ _ h := by cases h
  counts _ := rfl
  cadence := rfl
  bounded := Nat.zero_le _

end Refines

/-! ## Eviction -/

namespace RetainedSet

theorem counts_releaseCharge {t : Table Str Nat} {actor : Str} {f : Str → Nat}
    (h : Counts t fun a => f a + [actor].count a) : Counts (releaseCharge t actor) f := by
  unfold releaseCharge
  rw [h.lookup_self]
  exact h.discharge

/-- The charges agree with the entries. -/
def Charged (s : RetainedSet) : Prop := Counts s.perActor (heldIn s.seen)

theorem Charged.evict (h : s.Charged) (key : Str) : (s.evict key).Charged := by
  unfold RetainedSet.evict
  cases hkey : s.seen.lookup key with
  | none => exact h
  | some actor =>
    apply counts_releaseCharge
    refine Counts.congr h fun a => ?_
    have htotal := Table.total_erase (fun _ b => if b = a then 1 else 0) s.seen key
    unfold Table.weight at htotal
    rw [hkey] at htotal
    unfold heldIn
    rw [← htotal, List.count_singleton]
    simp

theorem lookup_evict (s : RetainedSet) (key k : Str) :
    (s.evict key).seen.lookup k = if k = key then none else s.seen.lookup k := by
  unfold evict
  by_cases hk : k = key
  · subst hk
    rw [if_pos rfl]
    cases hkey : s.seen.lookup k with
    | none => exact hkey
    | some actor => exact AList.lookup_erase ..
  · rw [if_neg hk]
    cases hkey : s.seen.lookup key with
    | none => rfl
    | some actor => exact AList.lookup_erase_ne hk

theorem evict_byExpiry (s : RetainedSet) (key : Str) : (s.evict key).byExpiry = s.byExpiry := by
  unfold evict
  cases s.seen.lookup key <;> rfl

theorem evict_insertsSincePrune (s : RetainedSet) (key : Str) :
    (s.evict key).insertsSincePrune = s.insertsSincePrune := by
  unfold evict
  cases s.seen.lookup key <;> rfl

theorem foldl_evict (keys : List Str) (h : s.Charged) :
    (keys.foldl evict s).Charged ∧ (keys.foldl evict s).byExpiry = s.byExpiry ∧
      (keys.foldl evict s).insertsSincePrune = s.insertsSincePrune ∧
      ∀ k, (keys.foldl evict s).seen.lookup k = if k ∈ keys then none else s.seen.lookup k := by
  induction keys generalizing s with
  | nil => exact ⟨h, rfl, rfl, fun k => by simp⟩
  | cons key keys ih =>
    obtain ⟨hcharged, hbuckets, hcadence, hseen⟩ := ih (h.evict key)
    refine ⟨hcharged, hbuckets.trans (s.evict_byExpiry key),
      hcadence.trans (s.evict_insertsSincePrune key), fun k => ?_⟩
    rw [List.foldl_cons, hseen k, lookup_evict]
    by_cases hk : k = key
    · simp [hk]
    · simp [hk]

theorem mem_dead {now : I64} {key : Str} :
    key ∈ s.dead now ↔ ∃ retainUntil, s.Listed retainUntil key ∧ retainUntil < now := by
  unfold dead
  rw [List.mem_flatMap]
  constructor
  · rintro ⟨⟨u, bucket⟩, hmem, hkey⟩
    have hlookup := AList.mem_lookup_iff.2 hmem
    rw [Table.lookup_retain, Option.mem_def, Option.filter_eq_some_iff] at hlookup
    exact ⟨u, ⟨bucket, hlookup.1, hkey⟩, by simpa using hlookup.2⟩
  · rintro ⟨u, ⟨bucket, hlookup, hkey⟩, hlt⟩
    refine ⟨⟨u, bucket⟩, AList.mem_lookup_iff.1 ?_, hkey⟩
    rw [Table.lookup_retain, Option.mem_def, Option.filter_eq_some_iff]
    exact ⟨hlookup, by simpa using hlt⟩

end RetainedSet

theorem NaiveStore.lookup_prune {now : I64} {key : Str} {e : RetainedNonce} :
    (n.prune now).held.lookup key = some e ↔ n.held.lookup key = some e ∧ now ≤ e.retainUntil := by
  unfold NaiveStore.prune
  rw [Table.lookup_retain, Option.filter_eq_some_iff, decide_eq_true_eq]

namespace Refines

theorem seen_eq_some (h : Refines S s n) {key actor : Str} :
    s.seen.lookup key = some actor ↔ ∃ e, n.held.lookup key = some e ∧ e.actor = actor := by
  rw [h.seen key, Option.map_eq_some_iff]

theorem mem_dead (h : Refines S s n) {now : I64} {key : Str} {e : RetainedNonce}
    (hkey : n.held.lookup key = some e) : key ∈ s.dead now ↔ e.retainUntil < now := by
  rw [RetainedSet.mem_dead]
  constructor
  · rintro ⟨u, hlisted, hlt⟩
    obtain ⟨e', hkey', rfl⟩ := (h.listed u key).1 hlisted
    obtain rfl : e = e' := Option.some.inj (hkey.symm.trans hkey')
    exact hlt
  · exact fun hlt => ⟨e.retainUntil, (h.listed _ key).2 ⟨e, hkey, rfl⟩, hlt⟩

/-- An eviction by buckets is a filter. -/
theorem prune (h : Refines S s n) (now : I64) : Refines S (s.prune now) (n.prune now) := by
  have hcharged : RetainedSet.Charged { s with
      byExpiry := Table.retain (fun u _ => decide (now ≤ u)) s.byExpiry } :=
    h.counts.congr fun a => (heldIn_eq h.seen a).symm
  obtain ⟨hcounts, hbuckets, hcadence, hseen⟩ := RetainedSet.foldl_evict (s.dead now) hcharged
  have hbucket : ∀ u, (s.prune now).byExpiry.lookup u
      = (s.byExpiry.lookup u).filter fun _ => decide (now ≤ u) := by
    intro u
    rw [show (s.prune now).byExpiry = _ from hbuckets, Table.lookup_retain]
  have hlookup : ∀ key, (s.prune now).seen.lookup key
      = ((n.prune now).held.lookup key).map RetainedNonce.actor := by
    intro key
    refine (hseen key).trans ?_
    ext actor
    rw [Option.map_eq_some_iff]
    simp only [NaiveStore.lookup_prune]
    constructor
    · intro hkept
      obtain ⟨hlive, hkept⟩ := Option.ite_none_left_eq_some.1 hkept
      obtain ⟨e, hkey, rfl⟩ := h.seen_eq_some.1 hkept
      exact ⟨e, ⟨hkey, not_lt.1 fun hlt => hlive ((h.mem_dead hkey).2 hlt)⟩, rfl⟩
    · rintro ⟨e, ⟨hkey, hle⟩, rfl⟩
      rw [if_neg fun hdead => not_lt.2 hle ((h.mem_dead hkey).1 hdead)]
      exact h.seen_eq_some.2 ⟨e, hkey, rfl⟩
  refine ⟨hlookup, ?_, ?_, ?_, hcadence.trans h.cadence, ?_⟩
  · intro u key
    have hlisted : (s.prune now).Listed u key ↔ s.Listed u key ∧ now ≤ u := by
      unfold RetainedSet.Listed
      simp only [hbucket, Option.filter_eq_some_iff, decide_eq_true_eq]
      exact ⟨fun ⟨bucket, ⟨hb, hle⟩, hk⟩ => ⟨⟨bucket, hb, hk⟩, hle⟩,
        fun ⟨⟨bucket, hb, hk⟩, hle⟩ => ⟨bucket, ⟨hb, hle⟩, hk⟩⟩
    rw [hlisted, h.listed]
    simp only [NaiveStore.lookup_prune]
    constructor
    · rintro ⟨⟨e, hkey, rfl⟩, hle⟩
      exact ⟨e, ⟨hkey, hle⟩, rfl⟩
    · rintro ⟨e, ⟨hkey, hle⟩, rfl⟩
      exact ⟨⟨e, hkey, rfl⟩, hle⟩
  · intro u bucket hlive
    rw [hbucket, Option.filter_eq_some_iff] at hlive
    exact h.nodup u bucket hlive.1
  · exact Counts.congr hcounts fun a => heldIn_eq hlookup a
  · exact (Table.size_retain_le _ _).trans h.bounded

theorem pruneIfDue (h : Refines S s n) (clock : I64) :
    Refines S (s.pruneIfDue clock) (n.pruneIfDue clock) := by
  unfold RetainedSet.pruneIfDue NaiveStore.pruneIfDue
  rw [← h.cadence]
  split_ifs
  · apply Refines.prune
    exact ⟨h.seen, h.listed, h.nodup, h.counts, rfl, h.bounded⟩
  · exact ⟨h.seen, h.listed, h.nodup, h.counts, rfl, h.bounded⟩

end Refines

/-! ## Recording -/

theorem RetainedSet.listed_record {key actor : Str} {retainUntil u : I64} {k : Str} :
    (s.record key actor retainUntil).Listed u k ↔ s.Listed u k ∨ u = retainUntil ∧ k = key := by
  unfold Listed record
  by_cases hu : u = retainUntil
  · subst hu
    simp only [AList.lookup_insert, Option.some.injEq, exists_eq_left', List.mem_append,
      List.mem_singleton, true_and]
    cases s.byExpiry.lookup u <;> simp
  · simp [AList.lookup_insert_ne hu, hu]

theorem NaiveStore.heldBy_record {insert : ReplayInsert} (h : n.held.lookup insert.key = none)
    (a : Str) : (n.record insert).heldBy a = n.heldBy a + [insert.actor].count a := by
  have htotal := Table.total_insert (fun _ e => if e.actor = a then 1 else 0) n.held insert.key
    ⟨insert.actor, insert.expiresAtUnix⟩
  unfold Table.weight at htotal
  rw [h] at htotal
  unfold heldBy record
  rw [List.count_singleton]
  simpa using htotal

theorem Refines.record (h : Refines S s n) {insert : ReplayInsert}
    (hnone : n.held.lookup insert.key = none) (hroom : Table.size n.held < S.maxEntries) :
    Refines S (s.record insert.key insert.actor insert.expiresAtUnix) (n.record insert) := by
  have hcharged : s.chargedTo insert.actor = n.heldBy insert.actor := h.chargedTo_eq _
  have hfits : min (n.heldBy insert.actor + 1) usizeMax = n.heldBy insert.actor + 1 := by
    apply min_eq_left
    have hle := heldBy_le n insert.actor
    have hmax := S.maxEntries_le
    omega
  refine ⟨?_, ?_, ?_, ?_, h.cadence, ?_⟩
  · intro key
    unfold RetainedSet.record NaiveStore.record
    by_cases hkey : key = insert.key
    · subst hkey
      simp [AList.lookup_insert]
    · rw [AList.lookup_insert_ne hkey, AList.lookup_insert_ne hkey, h.seen]
  · intro u key
    rw [RetainedSet.listed_record, h.listed]
    unfold NaiveStore.record
    by_cases hkey : key = insert.key
    · subst hkey
      simp [AList.lookup_insert, hnone, eq_comm]
    · simp [AList.lookup_insert_ne hkey, hkey]
  · intro u bucket hbucket
    unfold RetainedSet.record at hbucket
    by_cases hu : u = insert.expiresAtUnix
    · subst hu
      rw [AList.lookup_insert] at hbucket
      obtain rfl := Option.some.inj hbucket
      have hnew : ∀ old, s.byExpiry.lookup insert.expiresAtUnix = some old → insert.key ∉ old := by
        intro old hold hmem
        obtain ⟨e, hkey, _⟩ := (h.listed _ insert.key).1 ⟨old, hold, hmem⟩
        rw [hnone] at hkey
        cases hkey
      cases hold : s.byExpiry.lookup insert.expiresAtUnix with
      | none => simp
      | some old =>
        apply List.Nodup.append (h.nodup _ old hold) (List.nodup_singleton _)
        simpa using hnew old hold
    · rw [AList.lookup_insert_ne hu] at hbucket
      exact h.nodup u bucket hbucket
  · unfold RetainedSet.record
    rw [hcharged, hfits]
    exact (h.counts.insert insert.actor).congr fun a => (NaiveStore.heldBy_record hnone a).symm
  · exact (Table.size_insert_of_lookup_eq_none hnone _).trans_le hroom

/-! ## One insert -/

/-- The two refusals of the source, as one question about four numbers. -/
theorem refuseOrRecord_eq (S : InMemoryAsyncAtomicReplayStore) (s : RetainedSet)
    (insert : ReplayInsert) :
    S.refuseOrRecord s insert =
      match levelRefusal S.maxEntries (Table.size s.seen) (Table.size s.perActor)
        (s.chargedTo insert.actor) with
      | some e => (.error e, s)
      | none => (.ok .fresh, s.record insert.key insert.actor insert.expiresAtUnix) := by
  unfold InMemoryAsyncAtomicReplayStore.refuseOrRecord levelRefusal refuseOverFairShare
    refuseOverCeiling
  dsimp only
  split_ifs <;> simp_all

theorem lt_of_levelRefusal_eq_none {maxEntries len actors held : Nat}
    (h : levelRefusal maxEntries len actors held = none) : len < maxEntries := by
  unfold levelRefusal at h
  dsimp only at h
  split_ifs at h with _ hfull
  exact Nat.not_le.1 hfull

theorem Refines.refuseOrRecord (h : Refines S s n) {insert : ReplayInsert}
    (hnone : n.held.lookup insert.key = none) :
    (S.refuseOrRecord s insert).1 = (n.refuseOrRecord S insert).1 ∧
      Refines S (S.refuseOrRecord s insert).2 (n.refuseOrRecord S insert).2 := by
  rw [refuseOrRecord_eq, h.size_eq, ← h.card_actors, h.chargedTo_eq]
  unfold NaiveStore.refuseOrRecord
  cases hrefusal : levelRefusal S.maxEntries (Table.size n.held) n.actors.card
    (n.heldBy insert.actor) with
  | some e => exact ⟨rfl, h⟩
  | none => exact ⟨rfl, h.record hnone (lt_of_levelRefusal_eq_none hrefusal)⟩

theorem NaiveStore.lookup_pruneIfDue_eq_none {key : Str} (h : n.held.lookup key = none)
    (clock : I64) : (n.pruneIfDue clock).held.lookup key = none := by
  unfold NaiveStore.pruneIfDue
  split_ifs
  · exact (Table.lookup_retain ..).trans (by rw [h]; rfl)
  · exact h

/-- What an insert of the plain store does: nothing as stale, nothing as a replay, or it evicts if
that is due and refuses or records. -/
theorem NaiveStore.step_cases (S : InMemoryAsyncAtomicReplayStore) (n : NaiveStore)
    (call : StoreCall) :
    (∃ e, n.step S call = (.error e, n)) ∨
      (∃ e, n.held.lookup call.insert.key = some e) ∧ n.step S call = (.ok .replay, n) ∨
      isStalePreStore call.insert.expiresAtUnix call.insert.nowUnix = false ∧
        n.held.lookup call.insert.key = none ∧
        n.step S call = (n.pruneIfDue call.clock).refuseOrRecord S call.insert := by
  unfold NaiveStore.step refuseStaleRetainUntil
  cases isStalePreStore call.insert.expiresAtUnix call.insert.nowUnix with
  | true => exact .inl ⟨_, rfl⟩
  | false =>
    cases hkey : n.held.lookup call.insert.key with
    | some e => exact .inr (.inl ⟨⟨e, rfl⟩, rfl⟩)
    | none => exact .inr (.inr ⟨rfl, rfl, rfl⟩)

theorem Refines.step (h : Refines S s n) (call : StoreCall) :
    (S.step s call).1 = (n.step S call).1 ∧ Refines S (S.step s call).2 (n.step S call).2 := by
  unfold InMemoryAsyncAtomicReplayStore.step InMemoryAsyncAtomicReplayStore.insertLocked
    NaiveStore.step
  cases refuseStaleRetainUntil call.insert.expiresAtUnix call.insert.nowUnix with
  | error e => exact ⟨rfl, h⟩
  | ok _ =>
    dsimp only
    rw [h.seen, Option.isSome_map]
    split_ifs with hseen
    · exact ⟨rfl, h⟩
    · apply (h.pruneIfDue call.clock).refuseOrRecord
      apply NaiveStore.lookup_pruneIfDue_eq_none
      simpa using hseen

/-! ## What the refinement says of the set -/

/-- The set holds the key for the actor until the instant. -/
def RetainedSet.Retains (s : RetainedSet) (key actor : Str) (retainUntil : I64) : Prop :=
  s.seen.lookup key = some actor ∧ s.Listed retainUntil key

/-- The three maps agree with each other, and stay below the ceiling. -/
structure RetainedSet.Consistent (S : InMemoryAsyncAtomicReplayStore) (s : RetainedSet) : Prop where
  seen_iff_listed : ∀ key, (s.seen.lookup key).isSome = true ↔ ∃ retainUntil, s.Listed retainUntil key
  one_bucket : ∀ u u' key, s.Listed u key → s.Listed u' key → u = u'
  listed_once : ∀ retainUntil bucket, s.byExpiry.lookup retainUntil = some bucket → bucket.Nodup
  charged : ∀ actor, s.perActor.lookup actor
    = if heldIn s.seen actor = 0 then none else some (heldIn s.seen actor)
  bounded : Table.size s.seen ≤ S.maxEntries

namespace Refines

theorem retains_iff (h : Refines S s n) {key actor : Str} {retainUntil : I64} :
    s.Retains key actor retainUntil ↔ n.held.lookup key = some ⟨actor, retainUntil⟩ := by
  unfold RetainedSet.Retains
  rw [h.seen_eq_some, h.listed]
  constructor
  · rintro ⟨⟨e, hkey, rfl⟩, ⟨e', hkey', rfl⟩⟩
    obtain rfl : e = e' := Option.some.inj (hkey.symm.trans hkey')
    exact hkey
  · exact fun hkey => ⟨⟨_, hkey, rfl⟩, ⟨_, hkey, rfl⟩⟩

theorem consistent (h : Refines S s n) : s.Consistent S where
  seen_iff_listed key := by
    rw [h.seen, Option.isSome_map, Option.isSome_iff_exists]
    simp only [h.listed]
    exact ⟨fun ⟨e, hkey⟩ => ⟨_, e, hkey, rfl⟩, fun ⟨_, e, hkey, _⟩ => ⟨e, hkey⟩⟩
  one_bucket u u' key hu hu' := by
    obtain ⟨e, hkey, rfl⟩ := (h.listed u key).1 hu
    obtain ⟨e', hkey', rfl⟩ := (h.listed u' key).1 hu'
    rw [Option.some.inj (hkey.symm.trans hkey')]
  listed_once := h.nodup
  charged := h.counts.congr fun a => (heldIn_eq h.seen a).symm
  bounded := h.size_eq.trans_le h.bounded

theorem retains_prune (h : Refines S s n) (now : I64) {key actor : Str} {retainUntil : I64} :
    (s.prune now).Retains key actor retainUntil ↔
      s.Retains key actor retainUntil ∧ now ≤ retainUntil := by
  rw [(h.prune now).retains_iff, h.retains_iff, NaiveStore.lookup_prune]

theorem retains_step (h : Refines S s n) {key actor : Str} {retainUntil : I64}
    (hkey : s.Retains key actor retainUntil) {call : StoreCall}
    (hkeep : ∀ c, s.prunesAt call = some c → c ≤ retainUntil) :
    (S.step s call).2.Retains key actor retainUntil := by
  rw [(h.step call).2.retains_iff]
  rw [h.retains_iff] at hkey
  rcases n.step_cases S call with ⟨e, hstep⟩ | ⟨_, hstep⟩ | ⟨hstale, hnone, hstep⟩
  · rw [hstep]
    exact hkey
  · rw [hstep]
    exact hkey
  · have hpruned : (n.pruneIfDue call.clock).held.lookup key = some ⟨actor, retainUntil⟩ := by
      unfold NaiveStore.pruneIfDue
      split_ifs with hdue
      · refine NaiveStore.lookup_prune.2 ⟨hkey, hkeep call.clock ?_⟩
        unfold RetainedSet.prunesAt
        rw [h.seen, hnone, h.cadence]
        simp [hstale, hdue]
      · exact hkey
    rw [hstep]
    unfold NaiveStore.refuseOrRecord
    split
    · exact hpruned
    · have hne : key ≠ call.insert.key := by
        rintro rfl
        rw [hnone] at hkey
        cases hkey
      exact (AList.lookup_insert_ne hne).trans hpruned

theorem retains_of_fresh (h : Refines S s n) {call : StoreCall}
    (hfresh : (S.step s call).1 = .ok .fresh) :
    (S.step s call).2.Retains call.insert.key call.insert.actor call.insert.expiresAtUnix := by
  rw [(h.step call).2.retains_iff]
  rw [(h.step call).1] at hfresh
  rcases n.step_cases S call with ⟨e, hstep⟩ | ⟨_, hstep⟩ | ⟨_, _, hstep⟩
  · rw [hstep] at hfresh
    cases hfresh
  · rw [hstep] at hfresh
    cases hfresh
  · rw [hstep] at hfresh ⊢
    unfold NaiveStore.refuseOrRecord at hfresh ⊢
    split at hfresh
    · cases hfresh
    · exact AList.lookup_insert _

end Refines

theorem RetainedSet.Retains.answer {call : StoreCall} {actor : Str} {retainUntil : I64}
    (h : s.Retains call.insert.key actor retainUntil) :
    (isStalePreStore call.insert.expiresAtUnix call.insert.nowUnix = false →
      (S.step s call).1 = .ok .replay) ∧ (S.step s call).1 ≠ .ok .fresh := by
  unfold InMemoryAsyncAtomicReplayStore.step InMemoryAsyncAtomicReplayStore.insertLocked
    refuseStaleRetainUntil
  cases isStalePreStore call.insert.expiresAtUnix call.insert.nowUnix with
  | true => exact ⟨nofun, nofun⟩
  | false => simp [h.1]

/-! ## The run -/

abbrev StoreStep := Step RetainedSet StoreCall (Except ReplayStoreError ReplayDecision)

theorem simulates_naive (S : InMemoryAsyncAtomicReplayStore) (calls : List StoreCall) :
    (trace S.step .empty calls).map Step.answer
        = (trace (NaiveStore.step S) .empty calls).map Step.answer ∧
      Refines S (final S.step .empty calls) (final (NaiveStore.step S) .empty calls) :=
  simulation (R := Refines S) (fun _ _ call h => h.step call) (Refines.empty S) calls

theorem retains_final (h : Refines S s n) {key actor : Str} {retainUntil : I64}
    (hkey : s.Retains key actor retainUntil) {calls : List StoreCall}
    (hkeep : ∀ m ∈ trace S.step s calls, ∀ c, m.before.prunesAt m.event = some c → c ≤ retainUntil) :
    (final S.step s calls).Retains key actor retainUntil := by
  have hrun := invariant_of_guard
    (I := fun s => (∃ n, Refines S s n) ∧ s.Retains key actor retainUntil)
    (G := fun s call => ∀ c, s.prunesAt call = some c → c ≤ retainUntil)
    (fun s call ⟨⟨n, h⟩, hkey⟩ hcall => ⟨⟨_, (h.step call).2⟩, h.retains_step hkey hcall⟩)
    ⟨⟨n, h⟩, hkey⟩ hkeep
  exact hrun.2.2

/-- **The async store refines the plain one**: for every sequence of inserts, whatever the keys, the
actors, the instants and the two clocks.

The answers are those of the plain store. In the state reached the three maps agree, no charge is
zero and the ceiling holds; an eviction at `c` takes out exactly the entries whose instant is before
`c`. A key that was `Fresh` is a replay to every later insert that is not stale itself, and `Fresh`
to none, until an eviction past its instant has run. -/
theorem async_store_refines_naive (S : InMemoryAsyncAtomicReplayStore) (calls : List StoreCall) :
    let s := final S.step .empty calls
    let run := trace S.step .empty calls
    run.map Step.answer = (trace (NaiveStore.step S) .empty calls).map Step.answer ∧
    s.Consistent S ∧
    (∀ c key actor retainUntil, (s.prune c).Retains key actor retainUntil ↔
      s.Retains key actor retainUntil ∧ c ≤ retainUntil) ∧
    (∀ (pre mid post : List StoreStep) (t t' : StoreStep), run = pre ++ t :: (mid ++ t' :: post) →
      t.answer = .ok .fresh → t'.event.insert.key = t.event.insert.key →
      (∀ m ∈ mid, ∀ c, m.before.prunesAt m.event = some c → c ≤ t.event.insert.expiresAtUnix) →
      (isStalePreStore t'.event.insert.expiresAtUnix t'.event.insert.nowUnix = false →
        t'.answer = .ok .replay) ∧ t'.answer ≠ .ok .fresh) := by
  intro s run
  obtain ⟨hanswers, hs⟩ := simulates_naive S calls
  refine ⟨hanswers, hs.consistent, fun c _ _ _ => hs.retains_prune c, ?_⟩
  intro pre mid post t t' hrun hfresh hsame hkeep
  have htaken : ∀ u ∈ pre ++ t :: (mid ++ t' :: post),
      S.step u.before u.event = (u.answer, u.after) := by
    rw [← hrun]
    exact fun u hu => (step_eq_of_mem_trace _ hu).2
  have hstep := htaken t (by simp)
  have hstep' := htaken t' (by simp)
  obtain ⟨start, between, hstart, rfl, hbefore⟩ := exists_between _ hrun
  have hstarted := (simulates_naive S start).2
  rw [hstart] at hstarted
  have hrecorded := hstarted.retains_of_fresh ((congrArg Prod.fst hstep).trans hfresh)
  have hnext := (hstarted.step t.event).2
  rw [hstep] at hrecorded hnext
  have hretained := retains_final hnext hrecorded hkeep
  rw [hbefore, ← hsame] at hretained
  have hanswer := hretained.answer (S := S)
  rwa [hstep'] at hanswer

/-- An insert of a retained key whose own instant is already past is refused before the set is
looked at. -/
def staleSecond : List StoreCall :=
  [⟨⟨"k".toList, "a".toList, 100, 0⟩, 0⟩, ⟨⟨"k".toList, "a".toList, 5, 10⟩, 10⟩]

theorem stale_insert_is_not_replay :
    let run := trace (InMemoryAsyncAtomicReplayStore.step ⟨2, by decide⟩) .empty staleSecond
    run.map (fun t => t.event.insert.key) = ["k".toList, "k".toList] ∧
    (∃ details, run.map Step.answer = [.ok .fresh, .error (.unavailable details)]) ∧
    run.map (fun t => t.before.prunesAt t.event) = [none, none] := by
  refine ⟨rfl, ⟨_, rfl⟩, ?_⟩
  decide +kernel

end McpRe.Replay

import McpRe.Lib.Run
import McpRe.Sdk.Correlation

/-!
# One answer for each request

Both stores are a ledger of outstanding and retired ids (`Ledger`), each with its own rounding of the
deadline past which a retired id is forgotten (`python_step`, `typeScript_step`). An id leaves the
outstanding ones once and does not come back by itself; but neither store looks at its consumed ids
when it records, so a request that is recorded again after it was answered is answered again. What
holds of every run that records no id a second time once it has left is `one_answer`.
-/

namespace McpRe.Sdk

open Lib Lib.Run Lib.Text

/-! ## The ledger -/

/-- The outstanding requests under their ids, and the expiry of each id that is retired and not
forgotten. -/
structure Ledger where
  pending : Dict Str PendingRequest
  retired : Dict Str Int
  keyed : ∀ id p, pending.get? id = some p → p.correlationId = id

namespace Ledger

def new : Ledger := ⟨.empty, .empty, fun _ _ h => by cases h⟩

def store (grace : Int → Int) (L : Ledger) : CorrelationStore :=
  ⟨L.pending, L.retired.mapValues grace⟩

def retire (L : Ledger) (id : Str) : Ledger :=
  match L.pending.get? id with
  | none => L
  | some p =>
    { pending := L.pending.erase id
      retired := L.retired.set id p.expires
      keyed := by
        intro id' p' h
        by_cases heq : id' = id
        · rw [heq, Dict.get?_erase_self] at h
          cases h
        · rw [Dict.get?_erase_of_ne _ heq] at h
          exact L.keyed id' p' h }

def add (L : Ledger) (signed : SignedRequest) (args : RecordArgs) : Ledger where
  pending := L.pending.set signed.evidenceDigestValue (.of signed args)
  retired := L.retired
  keyed := by
    intro id p h
    by_cases heq : id = signed.evidenceDigestValue
    · rw [heq, Dict.get?_set_self] at h
      rw [heq, ← Option.some.inj h]
      rfl
    · rw [Dict.get?_set_of_ne _ _ heq] at h
      exact L.keyed id p h

variable (grace : Int → Int)

def overdue (L : Ledger) (now : Int) : Dict Str Int :=
  L.retired.filter fun _ expires => decide (grace expires < now)

def prune (L : Ledger) (now : Int) : Ledger :=
  { L with retired := L.retired.filter fun _ expires => !decide (grace expires < now) }

/-- `record` prunes first when many ids are retired. -/
def scanned (L : Ledger) (created : Int) : Ledger :=
  if consumedScanAt ≤ L.retired.size then L.prune grace created else L

def missCode (L : Ledger) (id : Str) : String :=
  if L.retired.contains id then "mcp-re.replay_detected" else "mcp-re.request_binding_mismatch"

def dead (L : Ledger) (now : Int) : List PendingRequest :=
  L.pending.values.filter fun p => p.isExpired now

def step (L : Ledger) : Call → Except String Value × Ledger
  | .record signed args =>
    let L := L.scanned grace args.created
    if L.pending.contains signed.evidenceDigestValue then (.error "mcp-re.replay_detected", L)
    else (.ok (.id signed.evidenceDigestValue), L.add signed args)
  | .take id now =>
    match L.pending.get? id with
    | none => (.error (L.missCode id), L)
    | some p =>
      if p.isExpired now then (.error "mcp-re.expired_request", L.retire id)
      else (.ok (.request p), L.retire id)
  | .recordInputRequired id alg value state now =>
    match L.pending.get? id with
    | none => (.error (L.missCode id), L)
    | some p =>
      if p.isExpired now then (.error "mcp-re.expired_request", L.retire id)
      else (.ok (.handles ⟨p.evidenceDigestAlg, p.evidenceDigestValue, alg, value, state⟩), L)
  | .abandon id => (.ok .none, L.retire id)
  | .expireBefore now =>
    let L' := ((L.dead now).map PendingRequest.correlationId).foldl retire L
    (.ok (.requests (L.dead now)), L'.prune grace now)
  | .pruneConsumed now => (.ok (.count (L.overdue grace now).size), L.prune grace now)

end Ledger

/-! ## Both stores keep a ledger -/

/-- What is compared of an answer: its value, or the code of its error. -/
def observed (r : Except McpReError Value × CorrelationStore) :
    Except String Value × CorrelationStore := (r.1.mapError McpReError.code, r.2)

theorem store_pending (grace : Int → Int) (L : Ledger) : (L.store grace).pending = L.pending := rfl

theorem contains_store (grace : Int → Int) (L : Ledger) (id : Str) :
    (L.store grace).consumed.contains id = L.retired.contains id := by
  rw [Dict.contains, Ledger.store, Dict.get?_mapValues, Option.isSome_map, Dict.contains]

section

variable {grace : Int → Int} {L : Ledger}

theorem python_pruneConsumed (grace : Int → Int) (L : Ledger) (now : Int) :
    Python.pruneConsumed (L.store grace) now
      = ((L.overdue grace now).size, (L.prune grace now).store grace) := by
  have hlate : (L.store grace).consumed.filter (fun _ retainUntil => decide (retainUntil < now))
      = (L.overdue grace now).mapValues grace := Dict.filter_mapValues ..
  have hkept : (L.store grace).consumed.filter (fun _ retainUntil => !decide (retainUntil < now))
      = (L.prune grace now).retired.mapValues grace := Dict.filter_mapValues ..
  rw [Python.pruneConsumed]
  simp only [Dict.foldl_erase_filter, hkept]
  rw [hlate, Dict.keys, List.length_map]
  exact congrArg (·, _) (Dict.size_mapValues ..)

theorem typeScript_pruneConsumed (grace : Int → Int) (L : Ledger) (now : Int) :
    TypeScript.pruneConsumed (L.store grace) now
      = ((L.overdue grace now).size, (L.prune grace now).store grace) := by
  rw [← python_pruneConsumed]
  have hloop := Dict.foldl_count_erase (fun e : Str × Int => decide (e.2 < now))
    (L.store grace).consumed.entries 0 (L.store grace).consumed
  simp only [decide_eq_true_eq, Nat.zero_add] at hloop
  simp only [TypeScript.pruneConsumed, hloop, Python.pruneConsumed, Dict.keys, Dict.filter,
    List.length_map]

theorem Ledger.retire_of_some {id : Str} {p : PendingRequest} (h : L.pending.get? id = some p) :
    (L.retire id).store grace
      = ⟨L.pending.erase id, (L.retired.mapValues grace).set id (grace p.expires)⟩ := by
  rw [Dict.set_mapValues]
  simp only [Ledger.retire, h, Ledger.store]

theorem Ledger.retire_of_none {id : Str} (h : L.pending.get? id = none) : L.retire id = L := by
  simp only [Ledger.retire, h]

/-! ### Python -/

/-- Python's deadline for a retired id. -/
def pythonGrace (expires : Int) : Int := expires + consumedGrace

theorem python_retire {p : PendingRequest} (h : L.pending.get? p.correlationId = some p) :
    Python.retire (L.store pythonGrace) p = (L.retire p.correlationId).store pythonGrace := by
  rw [Ledger.retire_of_some h]
  rfl

theorem python_foldl_retire {dead : List PendingRequest}
    (hdead : ∀ p ∈ dead, L.pending.get? p.correlationId = some p)
    (hnodup : (dead.map PendingRequest.correlationId).Nodup) :
    dead.foldl Python.retire (L.store pythonGrace)
      = ((dead.map PendingRequest.correlationId).foldl Ledger.retire L).store pythonGrace := by
  induction dead generalizing L with
  | nil => rfl
  | cons p dead ih =>
    obtain ⟨hnot, hrest⟩ := List.nodup_cons.1 hnodup
    rw [List.foldl_cons, List.map_cons, List.foldl_cons, python_retire (hdead p List.mem_cons_self)]
    refine ih ?_ hrest
    -- the others are still outstanding
    intro q hq
    have hne : q.correlationId ≠ p.correlationId :=
      fun heq => hnot (heq ▸ List.mem_map_of_mem hq)
    simp only [Ledger.retire, hdead p List.mem_cons_self]
    rw [Dict.get?_erase_of_ne _ hne]
    exact hdead q (List.mem_cons_of_mem _ hq)

theorem Ledger.get?_of_mem_values {p : PendingRequest} (h : p ∈ L.pending.values) :
    L.pending.get? p.correlationId = some p := by
  obtain ⟨⟨id, p'⟩, hmem, rfl⟩ := List.mem_map.1 h
  have hget := Dict.mem_entries_iff.1 hmem
  rwa [L.keyed id p' hget]

theorem Ledger.nodup_ids : (L.pending.values.map PendingRequest.correlationId).Nodup := by
  have hkeys : L.pending.values.map PendingRequest.correlationId = L.pending.entries.map Prod.fst := by
    rw [Dict.values, List.map_map]
    refine List.map_congr_left fun e he => ?_
    exact L.keyed e.1 e.2 (Dict.mem_entries_iff.1 he)
  rw [hkeys]
  exact L.pending.nodup

theorem Ledger.get?_of_mem_dead {p : PendingRequest} {now : Int} (h : p ∈ L.dead now) :
    L.pending.get? p.correlationId = some p := get?_of_mem_values (List.mem_filter.1 h).1

theorem Ledger.nodup_dead (now : Int) :
    ((L.dead now).map PendingRequest.correlationId).Nodup :=
  L.nodup_ids.sublist (List.filter_sublist.map _)

theorem scanned_store (prune : CorrelationStore → Int → Nat × CorrelationStore) (created : Int)
    (hprune : (prune (L.store grace) created).2 = (L.prune grace created).store grace) :
    (if consumedScanAt ≤ (L.store grace).consumed.size then (prune (L.store grace) created).2
      else L.store grace) = (L.scanned grace created).store grace := by
  have hsize : (L.store grace).consumed.size = L.retired.size := Dict.size_mapValues ..
  rw [hsize, hprune, Ledger.scanned]
  split_ifs <;> rfl

theorem python_step (repr : Str → Str) (L : Ledger) (c : Call) :
    observed (Python.step repr (L.store pythonGrace) c)
      = ((L.step pythonGrace c).1, (L.step pythonGrace c).2.store pythonGrace) := by
  cases c with
  | record signed args =>
    have hscan := scanned_store Python.pruneConsumed args.created
      (congrArg Prod.snd (python_pruneConsumed pythonGrace L args.created))
    simp only [Python.step, Python.record, hscan, Ledger.step, store_pending]
    split_ifs <;> rfl
  | take id now =>
    cases hget : L.pending.get? id with
    | none =>
      simp only [Python.step, Python.take, Ledger.step, store_pending, hget, contains_store,
        Ledger.missCode]
      split_ifs <;> rfl
    | some p =>
      obtain rfl := L.keyed id p hget
      simp only [Python.step, Python.take, Ledger.step, store_pending, hget, python_retire hget]
      split_ifs <;> rfl
  | recordInputRequired id alg value state now =>
    cases hget : L.pending.get? id with
    | none =>
      simp only [Python.step, Python.recordInputRequired, Ledger.step, store_pending, hget,
        contains_store, Ledger.missCode]
      split_ifs <;> rfl
    | some p =>
      obtain rfl := L.keyed id p hget
      simp only [Python.step, Python.recordInputRequired, Ledger.step, store_pending, hget,
        python_retire hget]
      split_ifs <;> rfl
  | abandon id =>
    cases hget : L.pending.get? id with
    | none =>
      simp only [Python.step, Python.abandon, Ledger.step, store_pending, hget,
        Ledger.retire_of_none hget]
      rfl
    | some p =>
      simp only [Python.step, Python.abandon, Ledger.step, store_pending, hget,
        Ledger.retire_of_some hget]
      rfl
  | expireBefore now =>
    have hdead : (L.store pythonGrace).pending.values.filter (fun p => p.isExpired now)
        = L.dead now := rfl
    simp only [Python.step, Python.expireBefore, Ledger.step, hdead,
      python_foldl_retire (fun _ => Ledger.get?_of_mem_dead) (L.nodup_dead now),
      python_pruneConsumed]
    rfl
  | pruneConsumed now =>
    simp only [Python.step, Ledger.step, python_pruneConsumed]
    rfl

/-! ### TypeScript -/

/-- TypeScript's deadline for a retired id. -/
def typeScriptGrace (expires : Int) : Int := Double.add expires consumedGrace

theorem typeScript_retire (id : Str) :
    TypeScript.retire (L.store typeScriptGrace) id = (L.retire id).store typeScriptGrace := by
  cases hget : L.pending.get? id with
  | none =>
    simp only [TypeScript.retire, store_pending, hget, Ledger.retire_of_none hget]
  | some p =>
    rw [Ledger.retire_of_some hget]
    simp only [TypeScript.retire, store_pending, hget]
    rfl

theorem typeScript_foldl_retire (dead : List PendingRequest) :
    dead.foldl (fun s p => TypeScript.retire s p.correlationId) (L.store typeScriptGrace)
      = ((dead.map PendingRequest.correlationId).foldl Ledger.retire L).store typeScriptGrace := by
  induction dead generalizing L with
  | nil => rfl
  | cons p dead ih =>
    rw [List.foldl_cons, List.map_cons, List.foldl_cons, typeScript_retire]
    exact ih

theorem missOrPending_of_none (grace : Int → Int) (what : Str) {id : Str} (hget : L.pending.get? id = none) :
    (TypeScript.missOrPending (L.store grace) id what).mapError McpReError.code
      = .error (L.missCode id) := by
  simp only [TypeScript.missOrPending, store_pending, hget, contains_store, Ledger.missCode]
  split_ifs <;> rfl

theorem missOrPending_of_some {id what : Str} {p : PendingRequest}
    (hget : L.pending.get? id = some p) :
    TypeScript.missOrPending (L.store grace) id what = .ok p := by
  simp only [TypeScript.missOrPending, store_pending, hget]

/-- A miss raises what `missOrPending` raised. -/
theorem observed_miss {r : Except McpReError PendingRequest} {code : String}
    (h : r.mapError McpReError.code = .error code) :
    ∃ e : McpReError, r = .error e ∧ e.code = code := by
  cases r with
  | error e => exact ⟨e, rfl, Except.error.inj h⟩
  | ok p => cases h

theorem typeScript_step (numberText : Int → Str) (L : Ledger) (c : Call) :
    observed (TypeScript.step numberText (L.store typeScriptGrace) c)
      = ((L.step typeScriptGrace c).1, (L.step typeScriptGrace c).2.store typeScriptGrace) := by
  cases c with
  | record signed args =>
    have hscan := scanned_store TypeScript.pruneConsumed args.created
      (congrArg Prod.snd (typeScript_pruneConsumed typeScriptGrace L args.created))
    simp only [TypeScript.step, TypeScript.record, hscan, Ledger.step, store_pending]
    split_ifs <;> rfl
  | take id now =>
    cases hget : L.pending.get? id with
    | none =>
      obtain ⟨e, he, hcode⟩ := observed_miss
        (missOrPending_of_none typeScriptGrace "response".toList hget)
      simp only [TypeScript.step, TypeScript.take, he, Ledger.step, hget, ← hcode]
      rfl
    | some p =>
      simp only [TypeScript.step, TypeScript.take, missOrPending_of_some hget, Ledger.step, hget,
        typeScript_retire]
      split_ifs <;> rfl
  | recordInputRequired id alg value state now =>
    cases hget : L.pending.get? id with
    | none =>
      obtain ⟨e, he, hcode⟩ := observed_miss
        (missOrPending_of_none typeScriptGrace "input-required response".toList hget)
      simp only [TypeScript.step, TypeScript.recordInputRequired, he, Ledger.step, hget, ← hcode]
      rfl
    | some p =>
      simp only [TypeScript.step, TypeScript.recordInputRequired, missOrPending_of_some hget,
        Ledger.step, hget, typeScript_retire]
      split_ifs <;> rfl
  | abandon id =>
    simp only [TypeScript.step, TypeScript.abandon, Ledger.step, typeScript_retire]
    rfl
  | expireBefore now =>
    have hdead : (L.store typeScriptGrace).pending.values.filter (fun p => p.isExpired now)
        = L.dead now := rfl
    simp only [TypeScript.step, TypeScript.expireBefore, Ledger.step, hdead,
      typeScript_foldl_retire, typeScript_pruneConsumed]
    rfl
  | pruneConsumed now =>
    simp only [TypeScript.step, Ledger.step, typeScript_pruneConsumed]
    rfl

end

/-! ## What a step does to the outstanding ids -/

/-- From one ledger to the next exactly the ids of `gone` leave the outstanding ones, and no id
becomes retired that does not leave. -/
structure Leaves (L L' : Ledger) (gone : Str → Prop) : Prop where
  left : ∀ id, gone id → L'.pending.get? id = none
  kept : ∀ id, ¬gone id → L'.pending.get? id = L.pending.get? id
  retired : ∀ id, L'.retired.contains id = true →
    L.retired.contains id = true ∨ gone id ∧ L.pending.contains id = true

section

variable {L L' L'' : Ledger}

theorem Leaves.refl (L : Ledger) : Leaves L L fun _ => False :=
  ⟨fun _ h => h.elim, fun _ _ => rfl, fun _ h => .inl h⟩

theorem Leaves.trans {gone gone' : Str → Prop} (h : Leaves L L' gone) (h' : Leaves L' L'' gone') :
    Leaves L L'' fun id => gone id ∨ gone' id where
  left := by
    intro id hgone
    by_cases hlast : gone' id
    · exact h'.left id hlast
    · rw [h'.kept id hlast]
      exact h.left id (hgone.resolve_right hlast)
  kept := by
    intro id hnot
    rw [h'.kept id fun hlast => hnot (.inr hlast), h.kept id fun hfirst => hnot (.inl hfirst)]
  retired := by
    intro id hretired
    rcases h'.retired id hretired with hmiddle | ⟨hlast, hpending⟩
    · rcases h.retired id hmiddle with hbefore | ⟨hfirst, hpending⟩
      · exact .inl hbefore
      · exact .inr ⟨.inl hfirst, hpending⟩
    · refine .inr ⟨.inr hlast, ?_⟩
      by_cases hfirst : gone id
      · rw [Dict.contains, h.left id hfirst] at hpending
        cases hpending
      · rwa [Dict.contains, h.kept id hfirst] at hpending

theorem Leaves.congr {gone gone' : Str → Prop} (h : Leaves L L' gone)
    (hiff : ∀ id, gone id ↔ gone' id) : Leaves L L' gone' :=
  (funext fun id => propext (hiff id) : gone = gone') ▸ h

theorem leaves_retire (L : Ledger) (id : Str) : Leaves L (L.retire id) (· = id) := by
  cases hget : L.pending.get? id with
  | none =>
    rw [Ledger.retire_of_none hget]
    exact ⟨by rintro _ rfl; exact hget, fun _ _ => rfl, fun _ h => .inl h⟩
  | some p =>
    simp only [Ledger.retire, hget]
    refine ⟨?_, fun id' hne => Dict.get?_erase_of_ne _ hne, ?_⟩
    · rintro _ rfl
      exact Dict.get?_erase_self ..
    · intro id' hretired
      by_cases heq : id' = id
      · exact .inr ⟨heq, by rw [Dict.contains, heq, hget]; rfl⟩
      · left
        rwa [Dict.contains, Dict.get?_set_of_ne _ _ heq] at hretired

theorem leaves_foldl_retire (ids : List Str) (L : Ledger) :
    Leaves L (ids.foldl Ledger.retire L) (· ∈ ids) := by
  induction ids generalizing L with
  | nil => exact (Leaves.refl L).congr fun id => by simp
  | cons id ids ih =>
    rw [List.foldl_cons]
    exact ((leaves_retire L id).trans (ih _)).congr fun id' => List.mem_cons.symm

theorem leaves_prune (grace : Int → Int) (L : Ledger) (now : Int) :
    Leaves L (L.prune grace now) fun _ => False where
  left := fun _ h => h.elim
  kept := fun _ _ => rfl
  retired := by
    intro id hretired
    left
    rw [Dict.contains, Ledger.prune, Dict.get?_filter] at hretired
    cases hget : L.retired.get? id with
    | none =>
      rw [hget] at hretired
      cases hretired
    | some e =>
      rw [Dict.contains, hget]
      rfl

theorem leaves_scanned (grace : Int → Int) (L : Ledger) (created : Int) :
    Leaves L (L.scanned grace created) fun _ => False := by
  rw [Ledger.scanned]
  split_ifs
  · exact leaves_prune grace L created
  · exact .refl L

/-- A step registers a new id, answers an outstanding one in time, or does neither; ids leave in
every case. -/
inductive LedgerMove (L : Ledger) : Call → Except String Value × Ledger → Prop
  | recorded {L₁ : Ledger} (signed : SignedRequest) (args : RecordArgs)
      (hkept : Leaves L L₁ fun _ => False) (hnew : L.pending.get? signed.evidenceDigestValue = none) :
      LedgerMove L (.record signed args) (.ok (.id signed.evidenceDigestValue), L₁.add signed args)
  | taken {L' : Ledger} {p : PendingRequest} (id : Str) (now : Int)
      (hget : L.pending.get? id = some p) (hintime : now ≤ p.expires)
      (hleaves : Leaves L L' (· = id)) : LedgerMove L (.take id now) (.ok (.request p), L')
  | left {L' : Ledger} {c : Call} {answer : Except String Value} (gone : Str → Prop)
      (hleaves : Leaves L L' gone) (hanswer : ∀ p, answer ≠ .ok (.request p)) :
      LedgerMove L c (answer, L')

theorem ledgerMove_step (grace : Int → Int) (L : Ledger) (c : Call) :
    LedgerMove L c (L.step grace c) := by
  cases c with
  | record signed args =>
    have hkept := leaves_scanned grace L args.created
    simp only [Ledger.step]
    split_ifs with hold
    · exact .left _ hkept fun _ h => by cases h
    · refine .recorded signed args hkept ?_
      rw [← hkept.kept _ id]
      simpa [Dict.contains] using hold
  | take id now =>
    cases hget : L.pending.get? id with
    | none =>
      simp only [Ledger.step, hget]
      exact .left _ (.refl L) fun _ h => by cases h
    | some p =>
      simp only [Ledger.step, hget]
      split_ifs with hexpired
      · exact .left _ (leaves_retire L id) fun _ h => by cases h
      · refine .taken id now hget ?_ (leaves_retire L id)
        simpa [PendingRequest.isExpired] using hexpired
  | recordInputRequired id alg value state now =>
    cases hget : L.pending.get? id with
    | none =>
      simp only [Ledger.step, hget]
      exact .left _ (.refl L) fun _ h => by cases h
    | some p =>
      simp only [Ledger.step, hget]
      split_ifs with hexpired
      · exact .left _ (leaves_retire L id) fun _ h => by cases h
      · exact .left _ (.refl L) fun _ h => by cases h
  | abandon id => exact .left _ (leaves_retire L id) fun _ h => by cases h
  | expireBefore now =>
    exact .left _ ((leaves_foldl_retire _ L).trans (leaves_prune grace _ now)) fun _ h => by cases h
  | pruneConsumed now => exact .left _ (leaves_prune grace L now) fun _ h => by cases h

/-- The calls after which a request is no longer outstanding under its id. -/
def Ends (id : Str) (p : PendingRequest) : Call → Prop
  | .take id' _ => id' = id
  | .abandon id' => id' = id
  | .recordInputRequired id' _ _ _ now => id' = id ∧ p.expires < now
  | .expireBefore now => p.expires < now
  | .record _ _ | .pruneConsumed _ => False

theorem get?_none_of_ends {grace : Int → Int} {id : Str} {p : PendingRequest} {c : Call}
    (hget : L.pending.get? id = some p) (hends : Ends id p c) :
    (L.step grace c).2.pending.get? id = none := by
  have hretire : (L.retire id).pending.get? id = none := (leaves_retire L id).left id rfl
  cases c with
  | record signed args => exact hends.elim
  | take id' now =>
    obtain rfl : id' = id := hends
    simp only [Ledger.step, hget]
    split_ifs <;> exact hretire
  | recordInputRequired id' alg value state now =>
    obtain ⟨rfl, hlate⟩ : id' = id ∧ p.expires < now := hends
    have hexpired : p.isExpired now = true := decide_eq_true hlate
    simp only [Ledger.step, hget, hexpired, if_true]
    exact hretire
  | abandon id' =>
    obtain rfl : id' = id := hends
    exact hretire
  | expireBefore now =>
    have hdead : p ∈ L.dead now :=
      List.mem_filter.2 ⟨List.mem_map.2 ⟨(id, p), Dict.mem_entries_iff.2 hget, rfl⟩,
        decide_eq_true hends⟩
    have hid : id ∈ (L.dead now).map PendingRequest.correlationId :=
      List.mem_map.2 ⟨p, hdead, L.keyed id p hget⟩
    exact (leaves_foldl_retire _ L).left id hid
  | pruneConsumed now => exact hends.elim

end

/-! ## Runs -/

abbrev StoreStep := Step CorrelationStore Call (Except String Value)

/-- The step has registered the request under the id. -/
def RegisteredAs (r : StoreStep) (id : Str) (p : PendingRequest) : Prop :=
  ∃ signed args, r.event = .record signed args ∧ r.answer = .ok (.id id) ∧
    signed.evidenceDigestValue = id ∧ p = .of signed args

/-- Some call of `record` in the run names the id. -/
def RecordCalled (run : List StoreStep) (id : Str) : Prop :=
  ∃ r ∈ run, ∃ signed args, r.event = .record signed args ∧ signed.evidenceDigestValue = id

/-- No `record` of the run names an id that an earlier one named and that is no longer
outstanding. -/
def RecordsOnce (run : List StoreStep) : Prop :=
  ∀ (before : List StoreStep) (t : StoreStep) after signed args, run = before ++ t :: after →
    t.event = .record signed args →
    RecordCalled before signed.evidenceDigestValue →
    t.before.pending.contains signed.evidenceDigestValue = true

/-- One answer for each request. -/
structure OneAnswer (run : List StoreStep) : Prop where
  /-- `take` returns a request for an id at most once. -/
  once : ∀ (before : List StoreStep) (t : StoreStep) between (t' : StoreStep) after id now now' p
    p',
    run = before ++ t :: (between ++ t' :: after) →
    t.event = .take id now → t.answer = .ok (.request p) →
    t'.event = .take id now' → t'.answer ≠ .ok (.request p')
  /-- It returns what was recorded under the id, in time, and not ended since. -/
  earned : ∀ (before : List StoreStep) (t : StoreStep) after id now p,
    run = before ++ t :: after → t.event = .take id now → t.answer = .ok (.request p) →
    now ≤ p.expires ∧
      ∃ start r since, before = start ++ r :: since ∧ RegisteredAs r id p ∧
        ∀ u ∈ since, ¬Ends id p u.event
  /-- No id is outstanding and consumed. -/
  disjoint : ∀ t ∈ run, ∀ id,
    ¬(t.after.pending.contains id = true ∧ t.after.consumed.contains id = true)
  /-- `record_input_required` consumes no entry that has not expired. -/
  inputKept : ∀ t ∈ run, ∀ id alg value state now p,
    t.event = .recordInputRequired id alg value state now → t.before.pending.get? id = some p →
    now ≤ p.expires → t.after = t.before

/-- A request that is outstanding was recorded, and no step since has ended it. -/
def Traced (past : List StoreStep) (s : CorrelationStore) : Prop :=
  ∀ id p, s.pending.get? id = some p → ∃ start r since, past = start ++ r :: since ∧
    RegisteredAs r id p ∧ ∀ u ∈ since, ¬Ends id p u.event

/-- Ids that are consumed or were answered have been recorded, and are not outstanding. -/
structure Once (past : List StoreStep) (s : CorrelationStore) : Prop where
  called : ∀ id, s.pending.contains id = true → RecordCalled past id
  consumed : ∀ id, s.consumed.contains id = true →
    RecordCalled past id ∧ s.pending.get? id = none
  answered : ∀ t ∈ past, ∀ id now p, t.event = .take id now → t.answer = .ok (.request p) →
    RecordCalled past id ∧ s.pending.get? id = none

theorem RecordCalled.append {run : List StoreStep} {id : Str} (h : RecordCalled run id)
    (t : StoreStep) : RecordCalled (run ++ [t]) id := by
  obtain ⟨r, hr, hrest⟩ := h
  exact ⟨r, List.mem_append_left _ hr, hrest⟩

section

variable {grace : Int → Int} {past : List StoreStep} {L L' : Ledger} {c : Call}
  {answer : Except String Value}

theorem LedgerMove.pending (hmove : LedgerMove L c (answer, L')) {id : Str} {p : PendingRequest}
    (hget : L'.pending.get? id = some p) :
    L.pending.get? id = some p ∨ ∃ signed args, c = .record signed args ∧ answer = .ok (.id id) ∧
      signed.evidenceDigestValue = id ∧ p = .of signed args := by
  cases hmove with
  | recorded signed args hkept hnew =>
    by_cases heq : id = signed.evidenceDigestValue
    · right
      rw [Ledger.add, heq, Dict.get?_set_self] at hget
      exact ⟨signed, args, rfl, by rw [heq], heq.symm, (Option.some.inj hget).symm⟩
    · left
      rwa [Ledger.add, Dict.get?_set_of_ne _ _ heq, hkept.kept id not_false] at hget
  | taken id' now hget' hintime hleaves =>
    have hkept : ¬id = id' := fun hgone => by rw [hleaves.left id hgone] at hget; cases hget
    exact .inl (hleaves.kept id hkept ▸ hget)
  | left gone hleaves hanswer =>
    have hkept : ¬gone id := fun hgone => by rw [hleaves.left id hgone] at hget; cases hget
    exact .inl (hleaves.kept id hkept ▸ hget)

theorem Traced.step (h : Traced past (L.store grace)) (c : Call) :
    Traced (past ++ [⟨L.store grace, c, (L.step grace c).1, (L.step grace c).2.store grace⟩])
      ((L.step grace c).2.store grace) := by
  intro id p hget
  rcases (ledgerMove_step grace L c).pending hget with hbefore | ⟨signed, args, hc, hanswer, hid, hp⟩
  · obtain ⟨start, r, since, hpast, hregistered, hsince⟩ := h id p hbefore
    refine ⟨start, r, since ++ [_], by rw [hpast, List.append_assoc, List.cons_append],
      hregistered, ?_⟩
    intro u hu
    rcases List.mem_append.1 hu with hu | hu
    · exact hsince u hu
    · rw [List.mem_singleton.1 hu]
      intro hends
      rw [store_pending, get?_none_of_ends hbefore hends] at hget
      cases hget
  · exact ⟨past, _, [], rfl, ⟨signed, args, hc, hanswer, hid, hp⟩, fun u hu => by cases hu⟩

theorem Once.leaves {gone : Str → Prop} (h : Once past (L.store grace)) (hleaves : Leaves L L' gone)
    (hanswered : ∀ id now p, c = .take id now → answer = .ok (.request p) →
      L.pending.contains id = true ∧ gone id) :
    Once (past ++ [⟨L.store grace, c, answer, L'.store grace⟩]) (L'.store grace) := by
  have hnone : ∀ id, L.pending.get? id = none → L'.pending.get? id = none := by
    intro id hget
    by_cases hgone : gone id
    · exact hleaves.left id hgone
    · rw [hleaves.kept id hgone, hget]
  refine ⟨?_, ?_, ?_⟩
  · intro id hpending
    rw [store_pending, Dict.contains] at hpending
    refine (h.called id ?_).append _
    by_contra hold
    rw [store_pending, Dict.contains, Bool.not_eq_true, Option.isSome_eq_false_iff,
      Option.isNone_iff_eq_none] at hold
    rw [hnone id hold] at hpending
    cases hpending
  · intro id hconsumed
    rw [contains_store] at hconsumed
    rcases hleaves.retired id hconsumed with hold | ⟨hgone, hpending⟩
    · obtain ⟨hcalled, hget⟩ := h.consumed id (by rw [contains_store]; exact hold)
      exact ⟨hcalled.append _, hnone id hget⟩
    · exact ⟨(h.called id hpending).append _, hleaves.left id hgone⟩
  · intro t ht id now p hevent hanswer
    rcases List.mem_append.1 ht with ht | ht
    · obtain ⟨hcalled, hget⟩ := h.answered t ht id now p hevent hanswer
      exact ⟨hcalled.append _, hnone id hget⟩
    · rw [List.mem_singleton.1 ht] at hevent hanswer
      obtain ⟨hpending, hgone⟩ := hanswered id now p hevent hanswer
      exact ⟨(h.called id hpending).append _, hleaves.left id hgone⟩

theorem Once.add {signed : SignedRequest} {args : RecordArgs} (h : Once past (L.store grace))
    (hkept : Leaves L L' fun _ => False)
    (hfresh : ¬RecordCalled past signed.evidenceDigestValue) :
    Once (past ++ [⟨L.store grace, .record signed args, .ok (.id signed.evidenceDigestValue),
      (L'.add signed args).store grace⟩]) ((L'.add signed args).store grace) := by
  have hother : ∀ id, RecordCalled past id →
      (L'.add signed args).pending.get? id = L.pending.get? id := by
    intro id hcalled
    have hne : id ≠ signed.evidenceDigestValue := fun heq => hfresh (heq ▸ hcalled)
    rw [Ledger.add, Dict.get?_set_of_ne _ _ hne, hkept.kept id not_false]
  refine ⟨?_, ?_, ?_⟩
  · intro id hpending
    by_cases heq : id = signed.evidenceDigestValue
    · exact ⟨_, List.mem_append_right _ List.mem_cons_self, signed, args, rfl, heq.symm⟩
    · refine (h.called id ?_).append _
      rwa [store_pending, Dict.contains, Ledger.add, Dict.get?_set_of_ne _ _ heq,
        hkept.kept id not_false] at hpending
  · intro id hconsumed
    rw [contains_store] at hconsumed
    have hold : L.retired.contains id = true :=
      (hkept.retired id hconsumed).resolve_right fun hgone => hgone.1
    obtain ⟨hcalled, hget⟩ := h.consumed id (by rw [contains_store]; exact hold)
    exact ⟨hcalled.append _, (hother id hcalled).trans hget⟩
  · intro t ht id now p hevent hanswer
    rcases List.mem_append.1 ht with ht | ht
    · obtain ⟨hcalled, hget⟩ := h.answered t ht id now p hevent hanswer
      exact ⟨hcalled.append _, (hother id hcalled).trans hget⟩
    · rw [List.mem_singleton.1 ht] at hevent
      cases hevent

theorem Once.step (h : Once past (L.store grace)) (c : Call)
    (hguard : ∀ signed args, c = .record signed args →
      RecordCalled past signed.evidenceDigestValue →
      L.pending.contains signed.evidenceDigestValue = true) :
    Once (past ++ [⟨L.store grace, c, (L.step grace c).1, (L.step grace c).2.store grace⟩])
      ((L.step grace c).2.store grace) := by
  have hmove := ledgerMove_step grace L c
  generalize L.step grace c = r at hmove ⊢
  cases hmove with
  | recorded signed args hkept hnew =>
    refine h.add hkept fun hcalled => ?_
    have hpending := hguard signed args rfl hcalled
    rw [Dict.contains, hnew] at hpending
    cases hpending
  | taken id now hget hintime hleaves =>
    refine h.leaves hleaves ?_
    intro id' now' p hevent hanswer
    cases hevent
    exact ⟨by rw [Dict.contains, hget]; rfl, rfl⟩
  | left gone hleaves hanswer =>
    exact h.leaves hleaves fun id now p hevent hrequest => absurd hrequest (hanswer p)

end

/-- The store is a ledger, and its history is known. -/
structure Kept (grace : Int → Int) (past : List StoreStep) (s : CorrelationStore) : Prop where
  ledger : ∃ L : Ledger, s = L.store grace
  traced : Traced past s
  once : RecordsOnce past → Once past s

theorem RecordsOnce.left {xs ys : List StoreStep} (h : RecordsOnce (xs ++ ys)) :
    RecordsOnce xs := by
  intro before t after signed args hxs
  refine h before t (after ++ ys) signed args ?_
  rw [hxs, List.append_assoc, List.cons_append]

theorem Kept.nil (grace : Int → Int) : Kept grace [] .new where
  ledger := ⟨.new, rfl⟩
  traced := fun id p h => by cases h
  once := fun _ =>
    { called := fun id h => by cases h
      consumed := fun id h => by cases h
      answered := fun t ht => by cases ht }

section

variable {grace : Int → Int} {next : CorrelationStore → Call → Except String Value × CorrelationStore}
  (hledger : ∀ (L : Ledger) (c : Call), next (L.store grace) c
    = ((L.step grace c).1, (L.step grace c).2.store grace))

include hledger

theorem Kept.append (past : List StoreStep) (s : CorrelationStore) (c : Call)
    (h : Kept grace past s) :
    Kept grace (past ++ [⟨s, c, (next s c).1, (next s c).2⟩]) (next s c).2 := by
  obtain ⟨⟨L, rfl⟩, htraced, honce⟩ := h
  rw [hledger L c]
  refine ⟨⟨_, rfl⟩, htraced.step c, fun hrecords => ?_⟩
  exact (honce hrecords.left).step c fun signed args => hrecords past _ [] signed args rfl

theorem pending_of_taken {s : CorrelationStore} {past : List StoreStep} {id : Str} {now : Int}
    {p : PendingRequest} (h : Kept grace past s) (hanswer : (next s (.take id now)).1 = .ok (.request p)) :
    s.pending.get? id = some p ∧ now ≤ p.expires := by
  obtain ⟨L, rfl⟩ := h.ledger
  rw [hledger] at hanswer
  have hmove := ledgerMove_step grace L (.take id now)
  generalize L.step grace (.take id now) = r at hmove hanswer
  cases hmove with
  | taken _ _ hget hintime hleaves =>
    cases hanswer
    exact ⟨hget, hintime⟩
  | left gone hleaves hother => exact absurd hanswer (hother p)

/-- **One answer for each request**, in a store that keeps a ledger, where no id is recorded a
second time once it has left. -/
theorem oneAnswer_of_ledger (calls : List Call) (hrecords : RecordsOnce (trace next .new calls)) :
    OneAnswer (trace next .new calls) := by
  have hkept : ∀ (before : List StoreStep) (t : StoreStep) after,
      trace next .new calls = before ++ t :: after →
      Kept grace before t.before ∧ next t.before t.event = (t.answer, t.after) := by
    intro before t after hrun
    refine ⟨history (Kept.append hledger) (Kept.nil grace) hrun, ?_⟩
    have hmem : t ∈ trace next .new calls := by
      rw [hrun]
      exact List.mem_append_right _ List.mem_cons_self
    exact (step_eq_of_mem_trace next hmem).2
  refine ⟨?_, ?_, ?_, ?_⟩
  · intro before t between t' after id now now' p p' hrun hevent hanswer hevent' hanswer'
    have hrun' : trace next .new calls = (before ++ t :: between) ++ t' :: after := by
      rw [hrun, List.append_assoc, List.cons_append]
    obtain ⟨hkept', hstep'⟩ := hkept _ _ _ hrun'
    have honce : Once (before ++ t :: between) t'.before :=
      hkept'.once (RecordsOnce.left (hrun' ▸ hrecords))
    have ht : t ∈ before ++ t :: between := List.mem_append_right _ List.mem_cons_self
    have hnone := (honce.answered t ht id now p hevent hanswer).2
    rw [hevent'] at hstep'
    have hsome := (pending_of_taken hledger hkept' ((congrArg Prod.fst hstep').trans hanswer')).1
    rw [hnone] at hsome
    cases hsome
  · intro before t after id now p hrun hevent hanswer
    obtain ⟨hkept, hstep⟩ := hkept _ _ _ hrun
    rw [hevent] at hstep
    have htaken := pending_of_taken hledger hkept ((congrArg Prod.fst hstep).trans hanswer)
    exact ⟨htaken.2, hkept.traced id p htaken.1⟩
  · intro t ht id ⟨hpending, hconsumed⟩
    obtain ⟨before, after, hrun⟩ := List.append_of_mem ht
    obtain ⟨hkept, hstep⟩ := hkept _ _ _ hrun
    have hafter := hkept.append hledger before t.before t.event
    rw [hstep] at hafter
    have hsplit : RecordsOnce (before ++ [t] ++ after) := by
      rwa [List.append_assoc, List.singleton_append, ← hrun]
    have hnone := ((hafter.once hsplit.left).consumed id hconsumed).2
    rw [Dict.contains, hnone] at hpending
    cases hpending
  · intro t ht id alg value state now p hevent hget hintime
    obtain ⟨before, after, hrun⟩ := List.append_of_mem ht
    obtain ⟨hkept, hstep⟩ := hkept _ _ _ hrun
    obtain ⟨L, hL⟩ := hkept.ledger
    rw [hL] at hget
    rw [hL, hevent, hledger] at hstep
    have hunexpired : p.isExpired now = false := decide_eq_false (Int.not_lt.2 hintime)
    rw [Ledger.step, show L.pending.get? id = some p from hget] at hstep
    simp only [hunexpired, Bool.false_eq_true, if_false] at hstep
    rw [hL]
    exact (congrArg Prod.snd hstep).symm

end

/-! ## The two libraries answer alike -/

/-- Every integer of the call is exact in both languages. -/
def SafeCall : Call → Prop
  | .record _ args => Double.Safe args.created ∧ Double.Safe args.expires
  | .take _ now | .recordInputRequired _ _ _ _ now | .expireBefore now | .pruneConsumed now =>
    Double.Safe now
  | .abandon _ => True

/-- Every expiry that the ledger keeps is exact in both languages. -/
structure SafeLedger (L : Ledger) : Prop where
  pending : ∀ id p, L.pending.get? id = some p → Double.Safe p.expires
  retired : ∀ id expires, L.retired.get? id = some expires → Double.Safe expires

section

variable {L : Ledger}

theorem SafeLedger.retire (h : SafeLedger L) (id : Str) : SafeLedger (L.retire id) := by
  cases hget : L.pending.get? id with
  | none => rwa [Ledger.retire_of_none hget]
  | some p =>
    simp only [Ledger.retire, hget]
    constructor
    · intro id' p' hget'
      by_cases heq : id' = id
      · rw [heq, Dict.get?_erase_self] at hget'
        cases hget'
      · rw [Dict.get?_erase_of_ne _ heq] at hget'
        exact h.pending id' p' hget'
    · intro id' expires hget'
      by_cases heq : id' = id
      · rw [heq, Dict.get?_set_self] at hget'
        rw [← Option.some.inj hget']
        exact h.pending id p hget
      · rw [Dict.get?_set_of_ne _ _ heq] at hget'
        exact h.retired id' expires hget'

theorem SafeLedger.foldl_retire (h : SafeLedger L) (ids : List Str) :
    SafeLedger (ids.foldl Ledger.retire L) := by
  induction ids generalizing L with
  | nil => exact h
  | cons id ids ih => exact ih (h.retire id)

theorem SafeLedger.add (h : SafeLedger L) {signed : SignedRequest} {args : RecordArgs}
    (hargs : Double.Safe args.expires) : SafeLedger (L.add signed args) := by
  refine ⟨?_, h.retired⟩
  intro id p hget
  by_cases heq : id = signed.evidenceDigestValue
  · rw [Ledger.add, heq, Dict.get?_set_self] at hget
    rw [← Option.some.inj hget]
    exact hargs
  · rw [Ledger.add, Dict.get?_set_of_ne _ _ heq] at hget
    exact h.pending id p hget

theorem SafeLedger.prune (h : SafeLedger L) (grace : Int → Int) (now : Int) :
    SafeLedger (L.prune grace now) := by
  refine ⟨h.pending, ?_⟩
  intro id expires hget
  have hmem := List.mem_of_mem_filter (Dict.mem_entries_iff.2 hget)
  exact h.retired id expires (Dict.mem_entries_iff.1 hmem)

theorem SafeLedger.scanned (h : SafeLedger L) (grace : Int → Int) (created : Int) :
    SafeLedger (L.scanned grace created) := by
  rw [Ledger.scanned]
  split_ifs
  · exact h.prune grace created
  · exact h

/-- Neither deadline is past before the other is. -/
theorem grace_lt_iff {expires now : Int} (hexpires : Double.Safe expires) (hnow : Double.Safe now) :
    typeScriptGrace expires < now ↔ pythonGrace expires < now :=
  Double.add_lt_iff hexpires (by decide) hnow

theorem SafeLedger.prune_eq (h : SafeLedger L) {now : Int} (hnow : Double.Safe now) :
    L.prune typeScriptGrace now = L.prune pythonGrace now := by
  have hfilter : L.retired.filter (fun _ expires => !decide (typeScriptGrace expires < now))
      = L.retired.filter fun _ expires => !decide (pythonGrace expires < now) := by
    refine Dict.filter_congr fun id expires hget => ?_
    rw [decide_eq_decide.2 (grace_lt_iff (h.retired id expires hget) hnow)]
  rw [Ledger.prune, Ledger.prune]
  simp only [hfilter]

theorem SafeLedger.overdue_eq (h : SafeLedger L) {now : Int} (hnow : Double.Safe now) :
    L.overdue typeScriptGrace now = L.overdue pythonGrace now := by
  refine Dict.filter_congr fun id expires hget => ?_
  rw [decide_eq_decide.2 (grace_lt_iff (h.retired id expires hget) hnow)]

theorem SafeLedger.step (h : SafeLedger L) {c : Call} (hc : SafeCall c) :
    L.step typeScriptGrace c = L.step pythonGrace c ∧ SafeLedger (L.step pythonGrace c).2 := by
  cases c with
  | record signed args =>
    have hscanned : L.scanned typeScriptGrace args.created = L.scanned pythonGrace args.created := by
      rw [Ledger.scanned, Ledger.scanned, h.prune_eq hc.1]
    simp only [Ledger.step, hscanned]
    refine ⟨trivial, ?_⟩
    split_ifs
    · exact h.scanned pythonGrace args.created
    · exact (h.scanned pythonGrace args.created).add hc.2
  | take id now =>
    refine ⟨rfl, ?_⟩
    cases hget : L.pending.get? id with
    | none => simpa only [Ledger.step, hget] using h
    | some p =>
      simp only [Ledger.step, hget]
      split_ifs <;> exact h.retire id
  | recordInputRequired id alg value state now =>
    refine ⟨rfl, ?_⟩
    cases hget : L.pending.get? id with
    | none => simpa only [Ledger.step, hget] using h
    | some p =>
      simp only [Ledger.step, hget]
      split_ifs
      · exact h.retire id
      · exact h
  | abandon id => exact ⟨rfl, h.retire id⟩
  | expireBefore now =>
    have hdead := h.foldl_retire ((L.dead now).map PendingRequest.correlationId)
    exact ⟨congrArg (Prod.mk _) (hdead.prune_eq hc), hdead.prune pythonGrace now⟩
  | pruneConsumed now =>
    refine ⟨?_, h.prune pythonGrace now⟩
    simp only [Ledger.step, h.overdue_eq hc, h.prune_eq hc]

end

section

variable (repr : Str → Str) (numberText : Int → Str)

def pythonStep (self : CorrelationStore) (c : Call) : Except String Value × CorrelationStore :=
  observed (Python.step repr self c)

def typeScriptStep (self : CorrelationStore) (c : Call) : Except String Value × CorrelationStore :=
  observed (TypeScript.step numberText self c)

theorem answers_alike {calls : List Call} (hcalls : ∀ c ∈ calls, SafeCall c) :
    (trace (pythonStep repr) .new calls).map Step.answer
      = (trace (typeScriptStep numberText) .new calls).map Step.answer := by
  have hstep : ∀ (s s' : CorrelationStore) (c : Call),
      (∃ L, SafeLedger L ∧ s = L.store pythonGrace ∧ s' = L.store typeScriptGrace) → SafeCall c →
      (pythonStep repr s c).1 = (typeScriptStep numberText s' c).1 ∧
        ∃ L, SafeLedger L ∧ (pythonStep repr s c).2 = L.store pythonGrace ∧
          (typeScriptStep numberText s' c).2 = L.store typeScriptGrace := by
    rintro _ _ c ⟨L, hL, rfl, rfl⟩ hc
    obtain ⟨heq, hsafe⟩ := hL.step hc
    rw [pythonStep, typeScriptStep, python_step, typeScript_step, heq]
    exact ⟨rfl, _, hsafe, rfl, rfl⟩
  have hnew : SafeLedger .new :=
    ⟨fun _ _ h => (by cases h), fun _ _ h => (by cases h)⟩
  exact (simulation_of_guard hstep ⟨.new, hnew, rfl, rfl⟩ hcalls).1

/-- **One answer for each request.** In a run of either store that records no id a second time once
it has left, an id is answered once, by the request that was recorded and in time, and is never
outstanding and consumed. On integers that both languages hold exactly the two answer alike. -/
theorem one_answer (calls : List Call) :
    (RecordsOnce (trace (pythonStep repr) .new calls) →
      OneAnswer (trace (pythonStep repr) .new calls)) ∧
    (RecordsOnce (trace (typeScriptStep numberText) .new calls) →
      OneAnswer (trace (typeScriptStep numberText) .new calls)) ∧
    ((∀ c ∈ calls, SafeCall c) → (trace (pythonStep repr) .new calls).map Step.answer
      = (trace (typeScriptStep numberText) .new calls).map Step.answer) :=
  ⟨oneAnswer_of_ledger (python_step repr) calls, oneAnswer_of_ledger (typeScript_step numberText) calls,
    answers_alike repr numberText⟩

end

/-! ## Requests that are recorded once -/

def recordedId : Call → Option Str
  | .record signed _ => some signed.evidenceDigestValue
  | _ => none

theorem recordsOnce_of_nodup
    {next : CorrelationStore → Call → Except String Value × CorrelationStore}
    {s : CorrelationStore} {calls : List Call} (h : (calls.filterMap recordedId).Nodup) :
    RecordsOnce (trace next s calls) := by
  have hevents : ∀ (s : CorrelationStore) (calls : List Call),
      (trace next s calls).map Step.event = calls := by
    intro s calls
    induction calls generalizing s with
    | nil => rfl
    | cons c calls ih => rw [trace, List.map_cons, ih]
  intro before t after signed args hrun hevent hcalled
  obtain ⟨r, hr, signed', args', hevent', heq⟩ := hcalled
  exfalso
  have hcalls : calls = before.map Step.event ++ t.event :: after.map Step.event := by
    rw [← hevents s calls, hrun, List.map_append, List.map_cons]
  rw [hcalls, List.filterMap_append, List.nodup_append] at h
  refine h.2.2 signed.evidenceDigestValue ?_ signed.evidenceDigestValue ?_ rfl
  · refine List.mem_filterMap.2 ⟨r.event, List.mem_map_of_mem hr, ?_⟩
    rw [hevent', recordedId, heq]
  · exact List.mem_filterMap.2 ⟨t.event, List.mem_cons_self, by rw [hevent, recordedId]⟩

namespace CorrelationSample

def signed : SignedRequest := ⟨"sha256".toList, "qQ".toList⟩

def args : RecordArgs :=
  ⟨"1".toList, "n".toList, "srv".toList, "key".toList, 0, 60, none, none⟩

/-- One request and three responses, the last of them late. -/
def answeredTwice : List Call :=
  [.record signed args, .take "qQ".toList 1, .take "qQ".toList 2, .take "zz".toList 90]

theorem answeredTwice_answers :
    OneAnswer (trace (pythonStep id) .new answeredTwice) ∧
    OneAnswer (trace (typeScriptStep fun _ => []) .new answeredTwice) ∧
    (trace (pythonStep id) .new answeredTwice).map Step.answer
      = (trace (typeScriptStep fun _ => []) .new answeredTwice).map Step.answer := by
  have hrecords : (answeredTwice.filterMap recordedId).Nodup := by decide
  obtain ⟨hpython, htypeScript, halike⟩ := one_answer id (fun _ => []) answeredTwice
  refine ⟨hpython (recordsOnce_of_nodup hrecords), htypeScript (recordsOnce_of_nodup hrecords),
    halike ?_⟩
  rw [answeredTwice]
  simp only [List.forall_mem_cons, SafeCall]
  exact ⟨by decide, by decide, by decide, by decide, fun c hc => by cases hc⟩

/-- The request is recorded again after it was answered. -/
def recordedAgain : List Call :=
  [.record signed args, .take "qQ".toList 1, .record signed args, .take "qQ".toList 2]

/-- A second answer, and an id that is outstanding and consumed, in both libraries. -/
theorem recordedAgain_answered_twice :
    ((trace (pythonStep id) .new recordedAgain).map Step.answer
        = [.ok (.id "qQ".toList), .ok (.request (.of signed args)), .ok (.id "qQ".toList),
          .ok (.request (.of signed args))] ∧
      (trace (typeScriptStep fun _ => []) .new recordedAgain).map Step.answer
        = [.ok (.id "qQ".toList), .ok (.request (.of signed args)), .ok (.id "qQ".toList),
          .ok (.request (.of signed args))]) ∧
    (∃ t ∈ trace (pythonStep id) .new recordedAgain,
      t.after.pending.contains "qQ".toList = true ∧ t.after.consumed.contains "qQ".toList = true) ∧
    (∃ t ∈ trace (typeScriptStep fun _ => []) .new recordedAgain,
      t.after.pending.contains "qQ".toList = true ∧ t.after.consumed.contains "qQ".toList = true) ∧
    ¬OneAnswer (trace (pythonStep id) .new recordedAgain) ∧
    ¬OneAnswer (trace (typeScriptStep fun _ => []) .new recordedAgain) := by
  refine ⟨⟨rfl, rfl⟩, ⟨_, List.mem_cons_of_mem _ (List.mem_cons_of_mem _ List.mem_cons_self), rfl,
    rfl⟩, ⟨_, List.mem_cons_of_mem _ (List.mem_cons_of_mem _ List.mem_cons_self), rfl, rfl⟩,
    fun h => ?_, fun h => ?_⟩
  · exact h.once [_] _ [_] _ [] "qQ".toList 1 2 (.of signed args) (.of signed args) rfl rfl rfl rfl rfl
  · exact h.once [_] _ [_] _ [] "qQ".toList 1 2 (.of signed args) (.of signed args) rfl rfl rfl rfl rfl

end CorrelationSample

end McpRe.Sdk

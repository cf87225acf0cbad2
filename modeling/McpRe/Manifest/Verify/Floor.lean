import McpRe.Http.Verify.Chain
import McpRe.Lib.Run
import McpRe.Manifest.Floor

/-!
# Rollbacks of the floor

A marker at or above every returned version stays in the directory and survives a crash
(`Anchored.step`): a load prunes only below a marker it has made durable. A load that reads the
floor while nothing is pruned therefore sees such a marker (`Protected.step`), and one undisturbed
reading of its two is enough. Where markers are pruned during both, the directory listing may miss
the marker that goes and the marker that came.
-/

namespace McpRe.Manifest

open Lib Lib.Result Lib.Text Lib.Run Http

abbrev FloorStep := Step FloorPlane FloorAction (Option LoadReturn)

/-- A name leaves the directory. -/
def Removes (u : FloorStep) : Prop :=
  ∃ name ∈ u.before.folder.names, name ∉ u.after.folder.names

/-- The two readings of the floor in a load. -/
inductive FloorReading where
  | minVersion
  | record
  deriving DecidableEq

/-- Is the load in that reading? -/
def Loading.reads : Loading → FloorReading → Bool
  | .reading .., .minVersion => true
  | .rereading .., .record => true
  | _, _ => false

/-- A load of a run that returns anchors. -/
structure ReturnsAnchors (run pre : List FloorStep) (b : FloorStep) (during : List FloorStep)
    (r : FloorStep) (post : List FloorStep) (thread : Nat) (call : LoadCall)
    (anchors : LoadedTrustAnchors) : Prop where
  run_eq : run = pre ++ b :: (during ++ r :: post)
  idle : b.before.loads thread = .idle
  begin : b.event = .begin thread call
  inFlight : ∀ u ∈ during, u.before.loads thread ≠ .idle
  returns : r.answer = some ⟨thread, .ok anchors⟩

/-- No name leaves the directory during one of the readings of a load. -/
def Undisturbed (during : List FloorStep) (thread : Nat) (reading : FloorReading) : Prop :=
  ∀ u ∈ during, (u.before.loads thread).reads reading = true → ¬Removes u

/-! ## Markers -/

theorem markerVersion_markerName {version : Nat} (h : version < 2 ^ 64) :
    markerVersion (markerName version) = some version := by
  unfold markerVersion markerName
  rw [I64.isDigits_toDigits, I64.noLeadingZero_toDigits, Nat.ofDigitChars_ten_toDigits, if_pos]
  simpa using h

theorem le_raiseTo (max : Nat) (name : Str) : max ≤ raiseTo max name := by
  unfold raiseTo
  split
  · exact Nat.le_max_left ..
  · exact Nat.le_refl _

theorem le_raiseTo_markerName {version : Nat} (h : version < 2 ^ 64) (max : Nat) :
    version ≤ raiseTo max (markerName version) := by
  rw [raiseTo, markerVersion_markerName h]
  exact Nat.le_max_right ..

theorem le_of_minVersion {floor : FileManifestFloor} {durable minVersion : Nat}
    (h : floor.minVersion durable = .ok minVersion) : durable ≤ minVersion := by
  simp only [FileManifestFloor.minVersion, bind_eq_ok, Except.ok.injEq] at h
  obtain ⟨-, -, rfl⟩ := h
  exact Nat.le_max_left ..

theorem le_of_admitVersion {floor : FileManifestFloor} {durable version : Nat} {isNew : Bool}
    (h : floor.admitVersion durable version = .ok isNew) : durable ≤ version := by
  simp only [FileManifestFloor.admitVersion, bind_eq_ok, ensure_eq_ok, Bool.not_eq_true',
    decide_eq_false_iff_not, not_lt] at h
  obtain ⟨-, -, -, -, -, hle, -⟩ := h
  exact hle

theorem le_of_loadSignedManifest {P : Platform} {sd : Serde} {signed : SignedTrustAnchorManifest}
    {resolve : Str → Option VerificationKey} {profile : Str} {minVersion : Nat} {now : I64}
    {anchors : LoadedTrustAnchors}
    (h : loadSignedManifest P sd signed resolve profile minVersion now = .ok anchors) :
    minVersion ≤ anchors.version := by
  simp only [loadSignedManifest, bind_eq_ok, ensure_eq_ok, Bool.not_eq_true',
    decide_eq_false_iff_not, not_lt, Except.ok.injEq] at h
  obtain ⟨-, -, -, -, -, -, -, -, -, -, -, hle, -, -, rfl⟩ := h
  exact hle

/-! ## What a step can do -/

section

variable {P : Platform} {sd : Serde}

inductive FloorMove (P : Platform) (sd : Serde) (s : FloorPlane) :
    FloorAction → Option LoadReturn × FloorPlane → Prop where
  | stay (action : FloorAction) : FloorMove P sd s action (none, s)
  | fail (action : FloorAction) (thread : Nat) (e : TrustManifestError) :
    FloorMove P sd s action (some ⟨thread, .error e⟩, s.moved thread .idle)
  | begin (thread : Nat) (call : LoadCall) (hstage : s.loads thread = .idle) :
    FloorMove P sd s (.begin thread call) (none, s.moved thread (.begun call))
  | read (thread : Nat) (ok : Bool) (call : LoadCall) (hstage : s.loads thread = .begun call) :
    FloorMove P sd s (.list thread ok)
      (none, s.moved thread (.reading call (.start s.folder) 0))
  | readEntry (thread : Nat) (call : LoadCall) (listing listing' : Listing Str) (max : Nat)
    (name : Str) (hstage : s.loads thread = .reading call listing max)
    (hnext : listing.next name = some listing') :
    FloorMove P sd s (.entry thread (some name))
      (none, s.moved thread (.reading call listing' (raiseTo max name)))
  | load (thread : Nat) (call : LoadCall) (listing : Listing Str) (max minVersion : Nat)
    (anchors : LoadedTrustAnchors) (hstage : s.loads thread = .reading call listing max)
    (hends : listing.due = []) (hmin : call.floor.minVersion max = .ok minVersion)
    (hload : loadSignedManifest P sd call.signed call.resolveManifestSigner call.expectedProfile
      minVersion call.now = .ok anchors) :
    FloorMove P sd s (.finish thread) (none, s.moved thread (.loaded call anchors))
  | reread (thread : Nat) (ok : Bool) (call : LoadCall) (anchors : LoadedTrustAnchors)
    (hstage : s.loads thread = .loaded call anchors) :
    FloorMove P sd s (.list thread ok)
      (none, s.moved thread (.rereading call anchors (.start s.folder) 0))
  | rereadEntry (thread : Nat) (call : LoadCall) (anchors : LoadedTrustAnchors)
    (listing listing' : Listing Str) (max : Nat) (name : Str)
    (hstage : s.loads thread = .rereading call anchors listing max)
    (hnext : listing.next name = some listing') :
    FloorMove P sd s (.entry thread (some name))
      (none, s.moved thread (.rereading call anchors listing' (raiseTo max name)))
  | accept (thread : Nat) (call : LoadCall) (anchors : LoadedTrustAnchors) (listing : Listing Str)
    (max : Nat) (isNew : Bool) (hstage : s.loads thread = .rereading call anchors listing max)
    (hends : listing.due = []) (haccept : call.floor.admitVersion max anchors.version = .ok isNew) :
    FloorMove P sd s (.finish thread) (none, s.moved thread (.creating call anchors isNew))
  | present (thread : Nat) (ok : Bool) (call : LoadCall) (anchors : LoadedTrustAnchors)
    (isNew : Bool) (hstage : s.loads thread = .creating call anchors isNew)
    (hmem : markerName anchors.version ∈ s.folder.names) :
    FloorMove P sd s (.create thread ok) (none, s.moved thread (.marked call anchors isNew))
  | create (thread : Nat) (ok : Bool) (call : LoadCall) (anchors : LoadedTrustAnchors)
    (isNew : Bool) (hstage : s.loads thread = .creating call anchors isNew)
    (hnew : markerName anchors.version ∉ s.folder.names) :
    FloorMove P sd s (.create thread ok)
      (none, (s.create (markerName anchors.version)).moved thread (.created call anchors isNew))
  | syncFile (thread : Nat) (ok : Bool) (call : LoadCall) (anchors : LoadedTrustAnchors)
    (isNew : Bool) (hstage : s.loads thread = .created call anchors isNew) :
    FloorMove P sd s (.syncFile thread ok) (none, s.moved thread (.marked call anchors isNew))
  | syncDir (thread : Nat) (ok : Bool) (call : LoadCall) (anchors : LoadedTrustAnchors)
    (isNew : Bool) (hstage : s.loads thread = .marked call anchors isNew) :
    FloorMove P sd s (.syncDir thread ok)
      (none, { s.moved thread (.recorded call anchors) with folder := s.folder.sync })
  | syncedDir (thread : Nat) (ok : Bool) (call : LoadCall) (anchors : LoadedTrustAnchors)
    (isNew : Bool) (hstage : s.loads thread = .marked call anchors isNew) :
    FloorMove P sd s (.syncDir thread ok)
      (some ⟨thread, .ok anchors⟩, { s.moved thread .idle with folder := s.folder.sync })
  | prune (thread : Nat) (ok : Bool) (call : LoadCall) (anchors : LoadedTrustAnchors)
    (hstage : s.loads thread = .recorded call anchors) :
    FloorMove P sd s (.list thread ok)
      (none, s.moved thread (.pruning call anchors (.start s.folder)))
  | pruneEntry (action : FloorAction) (thread : Nat) (call : LoadCall)
    (anchors : LoadedTrustAnchors) (listing listing' : Listing Str)
    (hstage : s.loads thread = .pruning call anchors listing ∨
      ∃ name, s.loads thread = .removing call anchors listing name) :
    FloorMove P sd s action (none, s.moved thread (.pruning call anchors listing'))
  | pruneMarker (thread : Nat) (call : LoadCall) (anchors : LoadedTrustAnchors)
    (listing listing' : Listing Str) (name : Str) (version : Nat)
    (hstage : s.loads thread = .pruning call anchors listing)
    (hversion : markerVersion name = some version) (hlt : version < anchors.version) :
    FloorMove P sd s (.entry thread (some name))
      (none, s.moved thread (.removing call anchors listing' name))
  | unlink (thread : Nat) (ok : Bool) (call : LoadCall) (anchors : LoadedTrustAnchors)
    (listing : Listing Str) (name : Str)
    (hstage : s.loads thread = .removing call anchors listing name) (hmem : name ∈ s.folder.names) :
    FloorMove P sd s (.unlink thread ok)
      (none, (s.remove name).moved thread (.pruning call anchors (listing.removed name)))
  | done (action : FloorAction) (thread : Nat) (call : LoadCall) (anchors : LoadedTrustAnchors)
    (hstage : s.loads thread = .recorded call anchors ∨
      ∃ listing, s.loads thread = .pruning call anchors listing) :
    FloorMove P sd s action (some ⟨thread, .ok anchors⟩, s.moved thread .idle)
  | crash (lost : List Str) :
    FloorMove P sd s (.crash lost) (none, ⟨s.folder.crash lost, fun _ => .idle⟩)

variable (P sd) in
theorem floorMove_step (s : FloorPlane) (action : FloorAction) :
    FloorMove P sd s action (s.step P sd action) := by
  cases action with
  | begin thread call =>
    cases hstage : s.loads thread with
    | idle => simpa only [FloorPlane.step, hstage] using .begin thread call hstage
    | _ => simpa only [FloorPlane.step, hstage] using .stay _
  | list thread ok =>
    cases hstage : s.loads thread with
    | begun call =>
      cases ok with
      | false => simpa [FloorPlane.step, hstage] using .fail _ thread _
      | true => simpa [FloorPlane.step, hstage] using .read thread true call hstage
    | loaded call anchors =>
      cases ok with
      | false => simpa [FloorPlane.step, hstage] using .fail _ thread _
      | true => simpa [FloorPlane.step, hstage] using .reread thread true call anchors hstage
    | recorded call anchors =>
      cases ok with
      | false => simpa [FloorPlane.step, hstage] using .done _ thread call anchors (.inl hstage)
      | true => simpa [FloorPlane.step, hstage] using .prune thread true call anchors hstage
    | _ => simpa only [FloorPlane.step, hstage] using .stay _
  | entry thread name =>
    cases name with
    | none =>
      cases hstage : s.loads thread with
      | reading | rereading => simpa only [FloorPlane.step, hstage] using .fail _ thread _
      | _ => simpa only [FloorPlane.step, hstage] using .stay _
    | some name =>
      cases hstage : s.loads thread with
      | reading call listing max =>
        cases hnext : listing.next name with
        | none => simpa only [FloorPlane.step, hstage, hnext] using .stay _
        | some listing' =>
          simpa only [FloorPlane.step, hstage, hnext] using
            .readEntry thread call listing listing' max name hstage hnext
      | rereading call anchors listing max =>
        cases hnext : listing.next name with
        | none => simpa only [FloorPlane.step, hstage, hnext] using .stay _
        | some listing' =>
          simpa only [FloorPlane.step, hstage, hnext] using
            .rereadEntry thread call anchors listing listing' max name hstage hnext
      | pruning call anchors listing =>
        cases hnext : listing.next name with
        | none => simpa only [FloorPlane.step, hstage, hnext] using .stay _
        | some listing' =>
          cases hversion : markerVersion name with
          | none =>
            simpa only [FloorPlane.step, hstage, hnext, hversion] using
              .pruneEntry _ thread call anchors listing listing' (.inl hstage)
          | some version =>
            by_cases hlt : version < anchors.version
            · simpa only [FloorPlane.step, hstage, hnext, hversion, if_pos hlt] using
                .pruneMarker thread call anchors listing listing' name version hstage hversion hlt
            · simpa only [FloorPlane.step, hstage, hnext, hversion, if_neg hlt] using
                .pruneEntry _ thread call anchors listing listing' (.inl hstage)
      | _ => simpa only [FloorPlane.step, hstage] using .stay _
  | finish thread =>
    cases hstage : s.loads thread with
    | reading call listing max =>
      by_cases hends : listing.ends = true
      · cases hresult : (call.floor.minVersion max).bind fun minVersion =>
            loadSignedManifest P sd call.signed call.resolveManifestSigner call.expectedProfile
              minVersion call.now with
        | error e =>
          simpa only [FloorPlane.step, hstage, if_pos hends, hresult] using .fail _ thread e
        | ok anchors =>
          obtain ⟨minVersion, hmin, hload⟩ := bind_eq_ok.1 hresult
          simpa only [FloorPlane.step, hstage, if_pos hends, hresult] using
            .load thread call listing max minVersion anchors hstage (List.isEmpty_iff.1 hends) hmin
              hload
      · simpa only [FloorPlane.step, hstage, if_neg hends] using .stay _
    | rereading call anchors listing max =>
      by_cases hends : listing.ends = true
      · cases hresult : call.floor.admitVersion max anchors.version with
        | error e =>
          simpa only [FloorPlane.step, hstage, if_pos hends, hresult] using .fail _ thread e
        | ok isNew =>
          simpa only [FloorPlane.step, hstage, if_pos hends, hresult] using
            .accept thread call anchors listing max isNew hstage (List.isEmpty_iff.1 hends) hresult
      · simpa only [FloorPlane.step, hstage, if_neg hends] using .stay _
    | pruning call anchors listing =>
      by_cases hends : listing.ends = true
      · simpa only [FloorPlane.step, hstage, if_pos hends] using
          .done _ thread call anchors (.inr ⟨listing, hstage⟩)
      · simpa only [FloorPlane.step, hstage, if_neg hends] using .stay _
    | _ => simpa only [FloorPlane.step, hstage] using .stay _
  | create thread ok =>
    cases hstage : s.loads thread with
    | creating call anchors isNew =>
      cases ok with
      | false => simpa [FloorPlane.step, hstage] using .fail _ thread _
      | true =>
        by_cases hmem : markerName anchors.version ∈ s.folder.names
        · simpa only [FloorPlane.step, hstage, if_pos hmem, if_true] using
            .present thread true call anchors isNew hstage hmem
        · simpa only [FloorPlane.step, hstage, if_neg hmem, if_true] using
            .create thread true call anchors isNew hstage hmem
    | _ => simpa only [FloorPlane.step, hstage] using .stay _
  | syncFile thread ok =>
    cases hstage : s.loads thread with
    | created call anchors isNew =>
      cases ok with
      | false => simpa [FloorPlane.step, hstage] using .fail _ thread _
      | true =>
        simpa [FloorPlane.step, hstage] using .syncFile thread true call anchors isNew hstage
    | _ => simpa only [FloorPlane.step, hstage] using .stay _
  | syncDir thread ok =>
    cases hstage : s.loads thread with
    | marked call anchors isNew =>
      cases ok with
      | false => simpa [FloorPlane.step, hstage] using .fail _ thread _
      | true =>
        cases isNew with
        | false =>
          simpa [FloorPlane.step, hstage] using .syncedDir thread true call anchors false hstage
        | true =>
          simpa [FloorPlane.step, hstage] using .syncDir thread true call anchors true hstage
    | _ => simpa only [FloorPlane.step, hstage] using .stay _
  | unlink thread ok =>
    cases hstage : s.loads thread with
    | removing call anchors listing name =>
      by_cases hok : ok = true ∧ name ∈ s.folder.names
      · simpa only [FloorPlane.step, hstage, if_pos hok] using
          .unlink thread ok call anchors listing name hstage hok.2
      · simpa only [FloorPlane.step, hstage, if_neg hok] using
          .pruneEntry _ thread call anchors listing listing (.inr ⟨name, hstage⟩)
    | _ => simpa only [FloorPlane.step, hstage] using .stay _
  | crash lost => exact .crash lost

theorem loads_moved (s : FloorPlane) (thread thread' : Nat) (stage : Loading) :
    (s.moved thread stage).loads thread' = if thread' = thread then stage else s.loads thread' :=
  Function.update_apply ..

/-! ## The anchor of the floor -/

/-- A marker at or above a version is there. -/
def Marked (version : Nat) (folder : Folder Str) : Prop :=
  ∃ m, version ≤ m ∧ m < 2 ^ 64 ∧ markerName m ∈ folder.names

/-- And survives a crash. -/
def Anchored (version : Nat) (folder : Folder Str) : Prop :=
  ∃ m, version ≤ m ∧ m < 2 ^ 64 ∧ folder.Kept (markerName m)

theorem Anchored.marked {version : Nat} {folder : Folder Str} (h : Anchored version folder) :
    Marked version folder := by
  obtain ⟨m, hle, hlt, hkept⟩ := h
  exact ⟨m, hle, hlt, hkept.1⟩

/-- A marker that goes below an anchor leaves every anchor. -/
theorem Anchored.remove {version keep v : Nat} {folder : Folder Str} {name : Str}
    (h : Anchored version folder) (hkeep : Anchored keep folder)
    (hversion : markerVersion name = some v) (hlt : v < keep) :
    Anchored version (folder.remove name) := by
  obtain ⟨m, hle, hm, hkept⟩ := h
  obtain ⟨m', hle', hm', hkept'⟩ := hkeep
  have hne : ∀ k, k < 2 ^ 64 → v ≠ k → markerName k ≠ name := by
    rintro k hk hvk rfl
    rw [markerVersion_markerName hk] at hversion
    exact hvk (Option.some.inj hversion).symm
  by_cases hvm : v = m
  · exact ⟨m', by omega, hm', hkept'.remove (hne m' hm' (by omega))⟩
  · exact ⟨m, hle, hm, hkept.remove (hne m hm hvm)⟩

theorem Marked.remove {version keep v : Nat} {folder : Folder Str} {name : Str}
    (h : Marked version folder) (hkeep : Anchored keep folder)
    (hversion : markerVersion name = some v) (hlt : v < keep) :
    Marked version (folder.remove name) := by
  obtain ⟨m, hle, hm, hmem⟩ := h
  by_cases hvm : v = m
  · have hkept := hkeep.remove hkeep hversion hlt
    obtain ⟨m', hle', hm', hkept'⟩ := hkept
    exact ⟨m', by omega, hm', hkept'.1⟩
  · refine ⟨m, hle, hm, Folder.mem_names_remove.2 ⟨hmem, ?_⟩⟩
    rintro rfl
    rw [markerVersion_markerName hm] at hversion
    exact hvm (Option.some.inj hversion).symm

/-- The anchors of a load that has made its marker. -/
def Loading.markedBy : Loading → Option LoadedTrustAnchors
  | .created _ anchors _ | .marked _ anchors _ => some anchors
  | _ => none

/-- The anchors of a load whose marker is durable. -/
def Loading.recordedBy : Loading → Option LoadedTrustAnchors
  | .recorded _ anchors | .pruning _ anchors _ | .removing _ anchors _ _ => some anchors
  | _ => none

theorem markedBy_notify (f : Listing Str → Listing Str) (stage : Loading) :
    (stage.notify f).markedBy = stage.markedBy := by
  cases stage <;> rfl

theorem recordedBy_notify (f : Listing Str → Listing Str) (stage : Loading) :
    (stage.notify f).recordedBy = stage.recordedBy := by
  cases stage <;> rfl

/-- What the loads in progress have put into the directory, and what they remove from it. -/
structure Sound (s : FloorPlane) : Prop where
  marked : ∀ thread anchors, (s.loads thread).markedBy = some anchors →
    Marked anchors.version s.folder
  recorded : ∀ thread anchors, (s.loads thread).recordedBy = some anchors →
    Anchored anchors.version s.folder
  removing : ∀ thread call anchors listing name,
    s.loads thread = .removing call anchors listing name →
    ∃ v, markerVersion name = some v ∧ v < anchors.version

theorem sound_new (folder : Folder Str) : Sound (.new folder) :=
  ⟨fun _ _ h => (by cases h), fun _ _ h => (by cases h), fun _ _ _ _ _ h => (by cases h)⟩

theorem Sound.moved {s : FloorPlane} (h : Sound s) {thread : Nat} {stage : Loading}
    (hmarked : ∀ anchors, stage.markedBy = some anchors → Marked anchors.version s.folder)
    (hrecorded : ∀ anchors, stage.recordedBy = some anchors → Anchored anchors.version s.folder)
    (hremoving : ∀ call anchors listing name, stage = .removing call anchors listing name →
      ∃ v, markerVersion name = some v ∧ v < anchors.version) :
    Sound (s.moved thread stage) := by
  constructor
  · intro thread' anchors hstage
    rw [loads_moved] at hstage
    split_ifs at hstage
    · exact hmarked anchors hstage
    · exact h.marked thread' anchors hstage
  · intro thread' anchors hstage
    rw [loads_moved] at hstage
    split_ifs at hstage
    · exact hrecorded anchors hstage
    · exact h.recorded thread' anchors hstage
  · intro thread' call anchors listing name hstage
    rw [loads_moved] at hstage
    split_ifs at hstage
    · exact hremoving call anchors listing name hstage
    · exact h.removing thread' call anchors listing name hstage

theorem Sound.moved_of_none {s : FloorPlane} (h : Sound s) {thread : Nat} {stage : Loading}
    (hmarked : stage.markedBy = none) (hrecorded : stage.recordedBy = none) :
    Sound (s.moved thread stage) := by
  refine h.moved ?_ ?_ ?_
  · intro anchors hsome
    rw [hmarked] at hsome
    cases hsome
  · intro anchors hsome
    rw [hrecorded] at hsome
    cases hsome
  · rintro call anchors listing name rfl
    cases hrecorded

theorem Sound.changed {s : FloorPlane} (h : Sound s) {folder : Folder Str}
    (f : Listing Str → Listing Str) (hmarked : ∀ v, Marked v s.folder → Marked v folder)
    (hanchored : ∀ v, Anchored v s.folder → Anchored v folder) :
    Sound ⟨folder, fun thread => (s.loads thread).notify f⟩ := by
  constructor
  · intro thread anchors hstage
    rw [markedBy_notify] at hstage
    exact hmarked _ (h.marked thread anchors hstage)
  · intro thread anchors hstage
    rw [recordedBy_notify] at hstage
    exact hanchored _ (h.recorded thread anchors hstage)
  · intro thread call anchors listing name hstage
    cases hload : s.loads thread with
    | removing call' anchors' listing' name' =>
      simp only [hload, Loading.notify, Loading.removing.injEq] at hstage
      obtain ⟨-, rfl, -, rfl⟩ := hstage
      exact h.removing thread call' anchors' listing' name' hload
    | _ => simp [hload, Loading.notify] at hstage

theorem Sound.synced {s : FloorPlane} (h : Sound s) : Sound { s with folder := s.folder.sync } :=
  ⟨h.marked, fun thread anchors hstage => by
    obtain ⟨m, hle, hlt, hkept⟩ := h.recorded thread anchors hstage
    exact ⟨m, hle, hlt, Folder.kept_sync hkept.1⟩, h.removing⟩

/-- A load that has made its marker makes it durable. -/
theorem Sound.anchored_sync {s : FloorPlane} (h : Sound s) (thread : Nat)
    {anchors : LoadedTrustAnchors} (hstage : (s.loads thread).markedBy = some anchors) :
    Anchored anchors.version s.folder.sync := by
  obtain ⟨m, hle, hlt, hmem⟩ := h.marked thread anchors hstage
  exact ⟨m, hle, hlt, Folder.kept_sync hmem⟩

theorem Anchored.create {version : Nat} {folder : Folder Str} (h : Anchored version folder)
    {name : Str} (hnew : name ∉ folder.names) : Anchored version (folder.create name) := by
  obtain ⟨m, hle, hlt, hkept⟩ := h
  exact ⟨m, hle, hlt, hkept.create hnew⟩

theorem Marked.create {version : Nat} {folder : Folder Str} (h : Marked version folder)
    (name : Str) : Marked version (folder.create name) := by
  obtain ⟨m, hle, hlt, hmem⟩ := h
  exact ⟨m, hle, hlt, Folder.mem_names_create hmem⟩

theorem Sound.step {s : FloorPlane} (h : Sound s) (action : FloorAction) :
    Sound (s.step P sd action).2 := by
  have hmove := floorMove_step P sd s action
  generalize s.step P sd action = next at hmove
  cases hmove with
  | stay => exact h
  | fail | begin | read | readEntry | load | reread | rereadEntry | accept | done =>
    exact h.moved_of_none rfl rfl
  | present thread ok call anchors isNew hstage hmem =>
    refine h.moved ?_ (fun _ hsome => by cases hsome) (fun _ _ _ _ heq => by cases heq)
    intro anchors' hsome
    obtain rfl : anchors = anchors' := Option.some.inj hsome
    exact ⟨anchors.version, le_rfl, anchors.version_lt, hmem⟩
  | create thread ok call anchors isNew hstage hnew =>
    have hcreated := h.changed (·.created (markerName anchors.version))
      (fun _ hv => hv.create _) (fun _ hv => hv.create hnew)
    refine hcreated.moved ?_ (fun _ hsome => by cases hsome) (fun _ _ _ _ heq => by cases heq)
    intro anchors' hsome
    obtain rfl : anchors = anchors' := Option.some.inj hsome
    exact ⟨anchors.version, le_rfl, anchors.version_lt, List.mem_cons_self⟩
  | syncFile thread ok call anchors isNew hstage =>
    refine h.moved ?_ (fun _ hsome => by cases hsome) (fun _ _ _ _ heq => by cases heq)
    intro anchors' hsome
    exact h.marked thread anchors' (by rw [hstage]; exact hsome)
  | syncDir thread ok call anchors isNew hstage =>
    refine h.synced.moved (fun _ hsome => by cases hsome) ?_ (fun _ _ _ _ heq => by cases heq)
    intro anchors' hsome
    exact h.anchored_sync thread (by rw [hstage]; exact hsome)
  | syncedDir => exact h.synced.moved_of_none rfl rfl
  | prune thread ok call anchors hstage =>
    refine h.moved (fun _ hsome => by cases hsome) ?_ (fun _ _ _ _ heq => by cases heq)
    intro anchors' hsome
    exact h.recorded thread anchors' (by rw [hstage]; exact hsome)
  | pruneEntry action thread call anchors listing listing' hstage =>
    refine h.moved (fun _ hsome => by cases hsome) ?_ (fun _ _ _ _ heq => by cases heq)
    intro anchors' hsome
    refine h.recorded thread anchors' ?_
    rcases hstage with hstage | ⟨name, hstage⟩ <;> (rw [hstage]; exact hsome)
  | pruneMarker thread call anchors listing listing' name version hstage hversion hlt =>
    refine h.moved (fun _ hsome => by cases hsome) ?_ ?_
    · intro anchors' hsome
      exact h.recorded thread anchors' (by rw [hstage]; exact hsome)
    · rintro call' anchors' listing'' name' heq
      cases heq
      exact ⟨version, hversion, hlt⟩
  | unlink thread ok call anchors listing name hstage hmem =>
    obtain ⟨v, hversion, hlt⟩ := h.removing thread call anchors listing name hstage
    have hkeep := h.recorded thread anchors (by rw [hstage]; rfl)
    have hremoved := h.changed (·.removed name) (fun _ hv => hv.remove hkeep hversion hlt)
      (fun _ hv => hv.remove hkeep hversion hlt)
    refine hremoved.moved (fun _ hsome => by cases hsome) ?_ (fun _ _ _ _ heq => by cases heq)
    intro anchors' hsome
    obtain rfl : anchors = anchors' := Option.some.inj hsome
    exact hkeep.remove hkeep hversion hlt
  | crash lost =>
    exact ⟨fun _ _ hsome => (by cases hsome), fun _ _ hsome => (by cases hsome),
      fun _ _ _ _ _ heq => (by cases heq)⟩

/-- **The floor does not fall**: an anchor stays, whatever step is taken. -/
theorem Anchored.step {s : FloorPlane} (hs : Sound s) {version : Nat}
    (h : Anchored version s.folder) (action : FloorAction) :
    Anchored version (s.step P sd action).2.folder := by
  have hmove := floorMove_step P sd s action
  generalize s.step P sd action = next at hmove
  cases hmove with
  | create thread ok call anchors isNew hstage hnew => exact h.create hnew
  | syncDir | syncedDir =>
    obtain ⟨m, hle, hlt, hkept⟩ := h
    exact ⟨m, hle, hlt, Folder.kept_sync hkept.1⟩
  | unlink thread ok call anchors listing name hstage hmem =>
    obtain ⟨v, hversion, hlt⟩ := hs.removing thread call anchors listing name hstage
    exact h.remove (hs.recorded thread anchors (by rw [hstage]; rfl)) hversion hlt
  | crash lost =>
    obtain ⟨m, hle, hlt, hkept⟩ := h
    exact ⟨m, hle, hlt, hkept.crash lost⟩
  | _ => exact h

theorem anchored_of_returned {s : FloorPlane} (hs : Sound s) {action : FloorAction} {thread : Nat}
    {anchors : LoadedTrustAnchors} (h : (s.step P sd action).1 = some ⟨thread, .ok anchors⟩) :
    Anchored anchors.version (s.step P sd action).2.folder := by
  have hmove := floorMove_step P sd s action
  generalize s.step P sd action = next at hmove h
  cases hmove with
  | syncedDir thread' ok call anchors' isNew hstage =>
    cases h
    exact hs.anchored_sync thread (by rw [hstage]; rfl)
  | done action thread' call anchors' hstage =>
    cases h
    refine hs.recorded thread anchors ?_
    rcases hstage with hstage | ⟨listing, hstage⟩ <;> (rw [hstage]; rfl)
  | _ => cases h

/-! ## A reading that nothing disturbs -/

/-- A listing still has to return a marker at or above a version, or has. -/
def Covered (version : Nat) (listing : Listing Str) (max : Nat) : Prop :=
  (∃ m, version ≤ m ∧ m < 2 ^ 64 ∧ markerName m ∈ listing.due) ∨ version ≤ max

theorem Marked.covered {version : Nat} {folder : Folder Str} (h : Marked version folder) :
    Covered version (.start folder) 0 := .inl h

theorem Covered.next {version max : Nat} {listing listing' : Listing Str} {name : Str}
    (h : Covered version listing max) (hnext : listing.next name = some listing') :
    Covered version listing' (raiseTo max name) := by
  rcases h with ⟨m, hle, hlt, hmem⟩ | hle
  · by_cases heq : markerName m = name
    · subst heq
      exact .inr (hle.trans (le_raiseTo_markerName hlt max))
    · exact .inl ⟨m, hle, hlt, Listing.mem_due_of_next hnext hmem heq⟩
  · exact .inr (hle.trans (le_raiseTo max name))

theorem Covered.le {version max : Nat} {listing : Listing Str} (h : Covered version listing max)
    (hends : listing.due = []) : version ≤ max := by
  rcases h with ⟨m, -, -, hmem⟩ | hle
  · rw [hends] at hmem
    cases hmem
  · exact hle

/-- What a load holds onto that began under an anchor, once one of its readings is undisturbed: the
reading will return the anchor, and from there on the version is not below it. -/
def Holds (version : Nat) : FloorReading → Loading → Prop
  | .minVersion, .reading _ listing max => Covered version listing max
  | .minVersion, .loaded _ anchors => version ≤ anchors.version
  | .minVersion, .rereading _ anchors _ _ => version ≤ anchors.version
  | .record, .rereading _ _ listing max => Covered version listing max
  | _, .creating _ anchors _ => version ≤ anchors.version
  | _, .created _ anchors _ => version ≤ anchors.version
  | _, .marked _ anchors _ => version ≤ anchors.version
  | _, .recorded _ anchors => version ≤ anchors.version
  | _, .pruning _ anchors _ => version ≤ anchors.version
  | _, .removing _ anchors _ _ => version ≤ anchors.version
  | _, _ => True

theorem Holds.created {version : Nat} {reading : FloorReading} {stage : Loading}
    (h : Holds version reading stage) (name : Str) :
    Holds version reading (stage.notify (·.created name)) := by
  cases stage <;> cases reading <;> exact h

theorem Holds.removed {version : Nat} {reading : FloorReading} {stage : Loading}
    (h : Holds version reading stage) (hreads : stage.reads reading ≠ true) (name : Str) :
    Holds version reading (stage.notify (·.removed name)) := by
  cases stage <;> cases reading <;> first | exact h | exact absurd rfl hreads

/-- The load of a thread, under an anchor. -/
structure Protected (version : Nat) (reading : FloorReading) (thread : Nat) (s : FloorPlane) :
    Prop where
  sound : Sound s
  anchored : Anchored version s.folder
  holds : Holds version reading (s.loads thread)

theorem Holds.moved {version : Nat} {reading : FloorReading} {s : FloorPlane} {thread : Nat}
    (h : Holds version reading (s.loads thread)) {thread' : Nat} {stage : Loading}
    (hstage : thread = thread' → Holds version reading stage) :
    Holds version reading ((s.moved thread' stage).loads thread) := by
  rw [loads_moved]
  split_ifs with heq
  · exact hstage heq
  · exact h

/-- What holds of a stage, at the thread that is in it. -/
theorem Holds.of_eq {version : Nat} {reading : FloorReading} {s : FloorPlane} {thread thread' : Nat}
    (h : Holds version reading (s.loads thread)) (heq : thread = thread') {stage : Loading}
    (hstage : s.loads thread' = stage) : Holds version reading stage := by
  subst heq
  rwa [hstage] at h

theorem Protected.step {version : Nat} {reading : FloorReading} {thread : Nat} {s : FloorPlane}
    (h : Protected version reading thread s) {action : FloorAction}
    (hquiet : (s.loads thread).reads reading = true →
      ¬∃ name ∈ s.folder.names, name ∉ (s.step P sd action).2.folder.names) :
    Protected version reading thread (s.step P sd action).2 := by
  refine ⟨h.sound.step action, h.anchored.step h.sound action, ?_⟩
  have hmove := floorMove_step P sd s action
  generalize s.step P sd action = next at hmove hquiet
  have hholds := h.holds
  cases hmove with
  | stay => exact hholds
  | fail | begin | syncedDir | done => exact hholds.moved fun _ => by cases reading <;> trivial
  | read thread' ok call hstage =>
    refine hholds.moved fun _ => ?_
    cases reading with
    | minVersion => exact h.anchored.marked.covered
    | record => trivial
  | readEntry thread' call listing listing' max name hstage hnext =>
    refine hholds.moved fun heq => ?_
    have hheld := hholds.of_eq heq hstage
    cases reading with
    | minVersion => exact hheld.next hnext
    | record => trivial
  | load thread' call listing max minVersion anchors hstage hends hmin hload =>
    refine hholds.moved fun heq => ?_
    have hheld := hholds.of_eq heq hstage
    cases reading with
    | minVersion =>
      exact (hheld.le hends).trans ((le_of_minVersion hmin).trans (le_of_loadSignedManifest hload))
    | record => trivial
  | reread thread' ok call anchors hstage =>
    refine hholds.moved fun heq => ?_
    have hheld := hholds.of_eq heq hstage
    cases reading with
    | minVersion => exact hheld
    | record => exact h.anchored.marked.covered
  | rereadEntry thread' call anchors listing listing' max name hstage hnext =>
    refine hholds.moved fun heq => ?_
    have hheld := hholds.of_eq heq hstage
    cases reading with
    | minVersion => exact hheld
    | record => exact hheld.next hnext
  | accept thread' call anchors listing max isNew hstage hends haccept =>
    refine hholds.moved fun heq => ?_
    have hheld := hholds.of_eq heq hstage
    cases reading with
    | minVersion => exact hheld
    | record => exact (hheld.le hends).trans (le_of_admitVersion haccept)
  | present thread' ok call anchors isNew hstage | syncFile thread' ok call anchors isNew hstage
  | syncDir thread' ok call anchors isNew hstage | prune thread' ok call anchors hstage
  | pruneMarker thread' call anchors listing listing' name version hstage =>
    refine hholds.moved fun heq => ?_
    have hheld := hholds.of_eq heq hstage
    cases reading <;> exact hheld
  | create thread' ok call anchors isNew hstage =>
    refine Holds.moved (hholds.created _) fun heq => ?_
    have hheld := hholds.of_eq heq hstage
    cases reading <;> exact hheld
  | pruneEntry action thread' call anchors listing listing' hstage =>
    refine hholds.moved fun heq => ?_
    rcases hstage with hstage | ⟨name, hstage⟩
    · have hheld := hholds.of_eq heq hstage
      cases reading <;> exact hheld
    · have hheld := hholds.of_eq heq hstage
      cases reading <;> exact hheld
  | unlink thread' ok call anchors listing name hstage hmem =>
    have hreads : (s.loads thread).reads reading ≠ true := fun hreads =>
      hquiet hreads ⟨name, hmem, fun hafter => (Folder.mem_names_remove.1 hafter).2 rfl⟩
    refine Holds.moved (hholds.removed hreads name) fun heq => ?_
    have hheld := hholds.of_eq heq hstage
    cases reading <;> exact hheld
  | crash lost => cases reading <;> trivial

/-- A protected load returns no version below the anchor. -/
theorem Protected.le_of_returned {version : Nat} {reading : FloorReading} {thread : Nat}
    {s : FloorPlane} (h : Protected version reading thread s) {action : FloorAction}
    {anchors : LoadedTrustAnchors}
    (hreturn : (s.step P sd action).1 = some ⟨thread, .ok anchors⟩) :
    version ≤ anchors.version := by
  have hmove := floorMove_step P sd s action
  generalize s.step P sd action = next at hmove hreturn
  have hholds := h.holds
  cases hmove with
  | syncedDir thread' ok call anchors' isNew hstage =>
    cases hreturn
    rw [hstage] at hholds
    cases reading <;> exact hholds
  | done action thread' call anchors' hstage =>
    cases hreturn
    rcases hstage with hstage | ⟨listing, hstage⟩ <;>
      (rw [hstage] at hholds; cases reading <;> exact hholds)
  | _ => cases hreturn

end

/-- **No rollback past an undisturbed reading.** However the loads over a directory interleave and
wherever the machine stops: a load that begins after another has returned anchors returns none with
a lower version, where during one of its two readings of the floor no marker is removed. -/
theorem no_rollback_of_undisturbed (P : Platform) (sd : Serde) (folder : Folder Str)
    (events : List FloorAction) (pre : List FloorStep) (b : FloorStep) (during : List FloorStep)
    (r : FloorStep) (post : List FloorStep) (thread : Nat) (call : LoadCall)
    (anchors : LoadedTrustAnchors)
    (hload : ReturnsAnchors (trace (FloorPlane.step P sd) (.new folder) events) pre b during r post
      thread call anchors)
    (reading : FloorReading) (hundisturbed : Undisturbed during thread reading)
    (t : FloorStep) (ht : t ∈ pre) (thread' : Nat) (anchors' : LoadedTrustAnchors)
    (hreturned : t.answer = some ⟨thread', .ok anchors'⟩) :
    anchors'.version ≤ anchors.version := by
  have hstep : ∀ u ∈ [t, b, r], u ∈ trace (FloorPlane.step P sd) (.new folder) events ∧
      u.before.step P sd u.event = (u.answer, u.after) := by
    intro u hu
    have hmem : u ∈ trace (FloorPlane.step P sd) (.new folder) events := by
      rw [hload.run_eq]
      simp only [List.mem_cons, List.not_mem_nil, or_false] at hu
      rcases hu with rfl | rfl | rfl
      · exact List.mem_append_left _ ht
      · simp
      · simp
    exact ⟨hmem, (step_eq_of_mem_trace _ hmem).2⟩
  obtain ⟨htrace, htstep⟩ := hstep t (by simp)
  have hbstep := (hstep b (by simp)).2
  have hrstep := (hstep r (by simp)).2
  -- the other load leaves an anchor, which is still there when this one begins
  have hsound : Sound t.before ∧ Sound t.after :=
    (invariant (I := Sound) (fun _ action hs => hs.step action) (sound_new folder) events).1 t
      htrace
  have hanchored : Anchored anchors'.version t.after.folder := by
    have hreturn : (t.before.step P sd t.event).1 = some ⟨thread', .ok anchors'⟩ := by
      rw [htstep, hreturned]
    have hleft := anchored_of_returned hsound.1 hreturn
    rwa [htstep] at hleft
  have hbegun : Sound b.before ∧ Anchored anchors'.version b.before.folder := by
    obtain ⟨pre₁, pre₂, rfl⟩ := List.append_of_mem ht
    have hrun := hload.run_eq
    rw [List.append_assoc, List.cons_append] at hrun
    obtain ⟨-, between, -, -, hbetween⟩ := exists_between _ hrun
    rw [← hbetween]
    exact (invariant (I := fun s => Sound s ∧ Anchored anchors'.version s.folder)
      (fun _ action hs => ⟨hs.1.step action, hs.2.step hs.1 action⟩) ⟨hsound.2, hanchored⟩
      between).2
  have hprotected : Protected anchors'.version reading thread b.after := by
    have hbefore : Protected anchors'.version reading thread b.before := by
      refine ⟨hbegun.1, hbegun.2, ?_⟩
      rw [hload.idle]
      cases reading <;> trivial
    have hafter : Protected anchors'.version reading thread (b.before.step P sd b.event).2 := by
      refine hbefore.step fun hreads => ?_
      rw [hload.idle] at hreads
      cases reading <;> cases hreads
    rwa [hbstep] at hafter
  -- and the undisturbed reading holds it
  obtain ⟨-, rest, -, hduring, hreached⟩ := exists_between _ hload.run_eq
  have hguard : ∀ u ∈ trace (FloorPlane.step P sd) b.after rest,
      (u.before.loads thread).reads reading = true →
        ¬∃ name ∈ u.before.folder.names, name ∉ (u.before.step P sd u.event).2.folder.names := by
    intro u hu hreads
    rw [(step_eq_of_mem_trace _ hu).2]
    exact hundisturbed u (hduring ▸ hu) hreads
  have hfinal := (invariant_of_guard (I := Protected anchors'.version reading thread)
    (fun _ _ hs hquiet => hs.step hquiet) hprotected hguard).2
  rw [hreached] at hfinal
  exact hfinal.le_of_returned (by rw [hrstep, hload.returns])

/-! ## A listing that misses two markers, twice

The signatures are real ones. -/

namespace FloorSample

open TwoHops (body toDigest rootKey)

def manifest (version : Nat) (h : version < 2 ^ 64) : TrustAnchorManifest where
  profile := profileTag.toList
  manifestVersion := version
  version_lt := h
  currentIssuers := []
  retiringIssuers := []
  revokedIssuers := []
  issuedAt := 0
  expiresAt := 100

def signature3 : Bytes :=
  [81, 221, 66, 113, 84, 132, 130, 82, 151, 70, 33, 36, 15, 163, 254, 246, 120, 109, 140, 182,
   195, 37, 13, 186, 189, 155, 62, 95, 253, 151, 49, 49, 241, 214, 146, 104, 177, 128, 252, 193,
   255, 25, 125, 63, 74, 144, 166, 104, 102, 192, 133, 191, 207, 212, 133, 105, 195, 45, 125, 66,
   132, 164, 224, 6]

def signature5 : Bytes :=
  [51, 55, 62, 172, 138, 106, 45, 34, 182, 65, 83, 173, 91, 210, 170, 43, 18, 127, 65, 4, 68, 112,
   188, 131, 242, 61, 118, 62, 62, 208, 189, 250, 221, 126, 0, 49, 251, 88, 168, 196, 82, 255,
   126, 104, 134, 134, 87, 9, 191, 78, 222, 104, 184, 86, 54, 44, 122, 72, 43, 150, 6, 209, 177, 5]

def signature6 : Bytes :=
  [68, 10, 180, 50, 233, 76, 77, 41, 17, 59, 165, 45, 235, 126, 136, 231, 220, 205, 89, 139, 87,
   4, 223, 209, 206, 244, 207, 78, 5, 206, 139, 136, 177, 225, 172, 17, 70, 104, 161, 245, 249,
   16, 234, 156, 32, 197, 70, 22, 242, 197, 219, 211, 120, 190, 147, 84, 206, 248, 234, 247, 113,
   194, 235, 14]

def signature7 : Bytes :=
  [67, 17, 135, 159, 89, 236, 145, 184, 172, 179, 168, 133, 197, 138, 40, 125, 146, 129, 124, 25,
   184, 196, 192, 201, 174, 228, 30, 245, 168, 149, 102, 145, 120, 59, 193, 144, 129, 255, 33, 92,
   161, 41, 222, 38, 82, 138, 35, 22, 141, 207, 147, 20, 117, 102, 73, 99, 158, 20, 56, 80, 239,
   139, 236, 10]

def serde : Serde where
  toVec j := some (body j)
  readString _ := none
  emitDecimal _ := none

def preimage (m : TrustAnchorManifest) : Bytes :=
  utf8 manifestSigningDomain.toList ++ lengthPrefixed (utf8 ['o']) ++ body m.toValue

def signed : List (Bytes × Bytes) :=
  [(preimage (manifest 3 (by decide)), signature3), (preimage (manifest 5 (by decide)), signature5),
   (preimage (manifest 6 (by decide)), signature6), (preimage (manifest 7 (by decide)), signature7)]

def platform : Platform where
  sha256 _ := toDigest []
  fromSlice _ := none
  readDocument _ := none
  isPoint b := b == rootKey
  verifyStrict key message sig := key.bytes == rootKey && signed.contains (message, sig)

def load (version : Nat) (h : version < 2 ^ 64) (signature : Bytes) : LoadCall where
  signed := ⟨manifest version h, ['o'], b64urlEncode signature⟩
  resolveManifestSigner kid := if kid = ['o'] then some ⟨rootKey⟩ else none
  expectedProfile := profileTag.toList
  floor := ⟨0, none, nofun⟩
  now := 50

def listing (thread : Nat) (versions : List Nat) : List FloorAction :=
  .list thread true :: versions.map (fun v => .entry thread (some (markerName v)))
    ++ [.finish thread]

def persist (thread : Nat) : List FloorAction :=
  [.create thread true, .syncFile thread true, .syncDir thread true]

def initial : List FloorAction :=
  [[.begin 1 (load 5 (by decide) signature5)], listing 1 [], listing 1 [], persist 1,
    listing 1 [5]].flatten

def raise (thread current next : Nat) : List FloorAction :=
  [listing thread [current], listing thread [current], persist thread,
    [.list thread true, .entry thread (some (markerName current)), .unlink thread true,
      .entry thread (some (markerName next))]].flatten

/-- A load of version 3 whose two listings each overlap with a load that raises the floor: they
return neither the marker that goes nor the one that came. -/
def overtaken : List FloorAction :=
  [[.list 2 true, .begin 3 (load 6 (by decide) signature6)], raise 3 5 6,
    [.finish 3, .finish 2, .list 2 true, .begin 4 (load 7 (by decide) signature7)], raise 4 6 7,
    [.finish 4, .finish 2], persist 2,
    [.list 2 true, .entry 2 (some (markerName 3)), .entry 2 (some (markerName 7))]].flatten

def step := FloorPlane.step platform serde

def returned? (answer : Option LoadReturn) : Option (Nat × Nat) :=
  match answer with
  | some ⟨thread, .ok anchors⟩ => some (thread, anchors.version)
  | _ => none

theorem exists_of_returned? {answer : Option LoadReturn} {thread version : Nat}
    (h : returned? answer = some (thread, version)) :
    ∃ anchors, answer = some ⟨thread, .ok anchors⟩ ∧ anchors.version = version := by
  unfold returned? at h
  split at h
  next thread' anchors =>
    cases h
    exact ⟨anchors, rfl, rfl⟩
  next => cases h

def busy : Loading → Bool
  | .idle => false
  | _ => true

def first : FloorPlane := final step (.new ⟨[], []⟩) initial

def begun (thread : Nat) (call : LoadCall) : FloorPlane := (step first (.begin thread call)).2

def stepAt (s : FloorPlane) (action : FloorAction) : FloorStep :=
  ⟨s, action, (step s action).1, (step s action).2⟩

def run (thread : Nat) (call : LoadCall) (during : List FloorAction) : List FloorStep :=
  trace step (.new ⟨[], []⟩) (initial ++ .begin thread call :: (during ++ [.finish thread]))

theorem returnsAnchors (thread version : Nat) (call : LoadCall) (during : List FloorAction)
    (hidle : busy (first.loads thread) = false)
    (hbusy : (trace step (begun thread call) during).all (fun u => busy (u.before.loads thread))
      = true)
    (hreturn : returned? (step (final step (begun thread call) during) (.finish thread)).1
      = some (thread, version)) :
    ∃ b r anchors, ReturnsAnchors (run thread call during) (trace step (.new ⟨[], []⟩) initial) b
      (trace step (begun thread call) during) r [] thread call anchors ∧
      anchors.version = version := by
  obtain ⟨anchors, hreturns, hversion⟩ := exists_of_returned? hreturn
  have hstage : first.loads thread = .idle := by
    cases hstage : first.loads thread with
    | idle => rfl
    | _ =>
      rw [hstage] at hidle
      cases hidle
  refine ⟨stepAt first (.begin thread call),
    stepAt (final step (begun thread call) during) (.finish thread), anchors,
    ⟨?_, ?_, rfl, ?_, ?_⟩, hversion⟩
  · rw [run, trace_append, trace, trace_append]
    rfl
  · dsimp only [stepAt]
    exact hstage
  · intro u hu hidle
    have hone := List.all_eq_true.1 hbusy u hu
    rw [hidle] at hone
    cases hone
  · dsimp only [stepAt]
    exact hreturns

theorem first_returned :
    ∃ t ∈ trace step (.new ⟨[], []⟩) initial, ∃ anchors, t.answer = some ⟨1, .ok anchors⟩ ∧
      anchors.version = 5 := by
  have hbefore : (1, 5) ∈ (trace step (.new ⟨[], []⟩) initial).filterMap
      (fun t => returned? t.answer) := by decide +kernel
  obtain ⟨t, ht, hreturned⟩ := List.mem_filterMap.1 hbefore
  exact ⟨t, ht, exists_of_returned? hreturned⟩

/-- **The floor is rolled back**: version 5 was returned before the load of version 3 began, which
returns all the same. -/
theorem rolled_back :
    ∃ pre b during r post anchors, ReturnsAnchors
        (run 2 (load 3 (by decide) signature3) overtaken) pre b during r post 2
        (load 3 (by decide) signature3) anchors ∧
      ∃ t ∈ pre, ∃ anchors', t.answer = some ⟨1, .ok anchors'⟩ ∧
        anchors.version < anchors'.version := by
  have hrun : busy (first.loads 2) = false ∧
      (trace step (begun 2 (load 3 (by decide) signature3)) overtaken).all
        (fun u => busy (u.before.loads 2)) = true ∧
      returned? (step (final step (begun 2 (load 3 (by decide) signature3)) overtaken)
        (.finish 2)).1 = some (2, 3) := by decide +kernel
  obtain ⟨b, r, anchors, hload, hversion⟩ :=
    returnsAnchors 2 3 (load 3 (by decide) signature3) overtaken hrun.1 hrun.2.1 hrun.2.2
  obtain ⟨t, ht, anchors', hreturned, hversion'⟩ := first_returned
  exact ⟨_, b, _, r, [], anchors, hload, t, ht, anchors', hreturned, by omega⟩

theorem raised :
    ∃ (b r : FloorStep) (anchors : LoadedTrustAnchors) (t : FloorStep)
      (anchors' : LoadedTrustAnchors),
      ReturnsAnchors (run 3 (load 6 (by decide) signature6) (raise 3 5 6))
        (trace step (.new ⟨[], []⟩) initial) b
        (trace step (begun 3 (load 6 (by decide) signature6)) (raise 3 5 6)) r [] 3
        (load 6 (by decide) signature6) anchors ∧
      t.answer = some ⟨1, .ok anchors'⟩ ∧ anchors'.version ≤ anchors.version := by
  have hrun : busy (first.loads 3) = false ∧
      (trace step (begun 3 (load 6 (by decide) signature6)) (raise 3 5 6)).all
        (fun u => busy (u.before.loads 3)) = true ∧
      returned? (step (final step (begun 3 (load 6 (by decide) signature6)) (raise 3 5 6))
        (.finish 3)).1 = some (3, 6) ∧
      (trace step (begun 3 (load 6 (by decide) signature6)) (raise 3 5 6)).all (fun u =>
        !(u.before.loads 3).reads .minVersion
          || u.before.folder.names.all (u.after.folder.names.contains ·)) = true := by
    decide +kernel
  obtain ⟨hidle, hbusy, hreturn, hkept⟩ := hrun
  obtain ⟨b, r, anchors, hload, -⟩ :=
    returnsAnchors 3 6 (load 6 (by decide) signature6) (raise 3 5 6) hidle hbusy hreturn
  obtain ⟨t, ht, anchors', hreturned, -⟩ := first_returned
  have hundisturbed : Undisturbed
      (trace step (begun 3 (load 6 (by decide) signature6)) (raise 3 5 6)) 3 .minVersion := by
    rintro u hu hreads ⟨name, hbefore, hafter⟩
    have hone := List.all_eq_true.1 hkept u hu
    rw [hreads] at hone
    exact hafter (by simpa using List.all_eq_true.1 hone name hbefore)
  exact ⟨b, r, anchors, t, anchors', hload, hreturned,
    no_rollback_of_undisturbed platform serde _ _ _ b _ r [] 3 _ anchors hload .minVersion
      hundisturbed t ht 1 anchors' hreturned⟩

end FloorSample

end McpRe.Manifest

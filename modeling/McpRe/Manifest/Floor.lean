import McpRe.Lib.Folder
import McpRe.Manifest.Load

/-!
# The durable rollback floor

The version floor of a trust-anchor manifest is a directory with one empty marker for each accepted
version, and the floor is the largest of them (`manifest_floor.rs`). Several processes load
manifests over one directory: `load_signed_manifest_with_floor` reads the floor, verifies, reads the
floor again, creates and syncs its marker, and prunes the markers below it. Each step on the
directory is a step here, and the steps of the loads interleave.

The directory exists, as the constructor of the floor made it, and nobody else touches it. What an
operation can fail of is in the action.
-/

namespace McpRe.Manifest

open Lib Lib.Result Lib.Text Http

/-! ## Markers -/

/-- `version.to_string()`. -/
def markerName (version : Nat) : Str := Nat.toDigits 10 version

def markerVersion (name : Str) : Option Nat :=
  if I64.isDigits name && I64.noLeadingZero name
      && decide (Nat.ofDigitChars 10 name 0 < 2 ^ 64) then
    some (Nat.ofDigitChars 10 name 0)
  else none

/-- One turn of the loop of `read_floor`. -/
def raiseTo (max : Nat) (name : Str) : Nat :=
  match markerVersion name with
  | some version => Nat.max max version
  | none => max

/-! ## The floor -/

/-- The bounds that an operator declares. -/
structure FileManifestFloor where
  bootstrap : Nat
  ceiling : Option Nat
  /-- What the constructor checks. -/
  bounds : ∀ c ∈ ceiling, bootstrap ≤ c

namespace FileManifestFloor

def checkCeiling (self : FileManifestFloor) (value : Nat) : ManifestVerdict Unit :=
  match self.ceiling with
  | some ceiling => ensure (!decide (ceiling < value)) (.floorAboveCeiling value ceiling)
  | none => .ok ()

/-- `min_version`, of what was read. -/
def minVersion (self : FileManifestFloor) (durable : Nat) : ManifestVerdict Nat := do
  self.checkCeiling durable
  .ok (max durable self.bootstrap)

/-- `record` up to the marker, of what was read: is the version new to the floor? -/
def admitVersion (self : FileManifestFloor) (durable version : Nat) : ManifestVerdict Bool := do
  self.checkCeiling durable
  self.checkCeiling version
  ensure (!decide (version < durable))
    (.floorNotPersisted "trust-anchor floor was raised past this version concurrently")
  .ok (decide (durable ≠ version))

end FileManifestFloor

/-- What a failed `persist` is reported as. -/
def notPersisted (isNew : Bool) : TrustManifestError :=
  .floorNotPersisted (if isNew then "write trust-anchor floor" else "fsync trust-anchor floor")

/-! ## Loads that interleave -/

/-- The arguments of `load_signed_manifest_with_floor`. -/
structure LoadCall where
  signed : SignedTrustAnchorManifest
  resolveManifestSigner : Str → Option VerificationKey
  expectedProfile : Str
  floor : FileManifestFloor
  now : I64

/-- How far a load has come. -/
inductive Loading where
  | idle
  | begun (call : LoadCall)
  /-- In the `read_floor` of `min_version`. -/
  | reading (call : LoadCall) (listing : Listing Str) (max : Nat)
  /-- Verified against the floor that was read. -/
  | loaded (call : LoadCall) (anchors : LoadedTrustAnchors)
  /-- In the `read_floor` of `record`. -/
  | rereading (call : LoadCall) (anchors : LoadedTrustAnchors) (listing : Listing Str) (max : Nat)
  | creating (call : LoadCall) (anchors : LoadedTrustAnchors) (isNew : Bool)
  /-- The marker is created, and its file not synced. -/
  | created (call : LoadCall) (anchors : LoadedTrustAnchors) (isNew : Bool)
  /-- The marker is there, and the directory not synced. -/
  | marked (call : LoadCall) (anchors : LoadedTrustAnchors) (isNew : Bool)
  /-- The marker is durable, and the markers below it not pruned. -/
  | recorded (call : LoadCall) (anchors : LoadedTrustAnchors)
  | pruning (call : LoadCall) (anchors : LoadedTrustAnchors) (listing : Listing Str)
  /-- About to remove a marker below its own. -/
  | removing (call : LoadCall) (anchors : LoadedTrustAnchors) (listing : Listing Str) (name : Str)

/-- The listing of a load goes on under a change. -/
def Loading.notify (f : Listing Str → Listing Str) : Loading → Loading
  | .reading call listing max => .reading call (f listing) max
  | .rereading call anchors listing max => .rereading call anchors (f listing) max
  | .pruning call anchors listing => .pruning call anchors (f listing)
  | .removing call anchors listing name => .removing call anchors (f listing) name
  | stage => stage

/-- The directory, and the loads over it. -/
structure FloorPlane where
  folder : Folder Str
  loads : Nat → Loading

inductive FloorAction where
  | begin (thread : Nat) (call : LoadCall)
  /-- `read_dir`. -/
  | list (thread : Nat) (ok : Bool)
  /-- The next entry of a listing, `none` where it cannot be read. -/
  | entry (thread : Nat) (name : Option Str)
  /-- The listing has no more entries. -/
  | finish (thread : Nat)
  | create (thread : Nat) (ok : Bool)
  | syncFile (thread : Nat) (ok : Bool)
  | syncDir (thread : Nat) (ok : Bool)
  | unlink (thread : Nat) (ok : Bool)
  /-- The machine stops: every load ends, and names that were not synced may be lost. -/
  | crash (lost : List Str)

/-- What a load returned. -/
structure LoadReturn where
  thread : Nat
  result : ManifestVerdict LoadedTrustAnchors

namespace FloorPlane

def new (folder : Folder Str) : FloorPlane where
  folder := folder
  loads := fun _ => .idle

def moved (s : FloorPlane) (thread : Nat) (stage : Loading) : FloorPlane :=
  { s with loads := Function.update s.loads thread stage }

def returned (s : FloorPlane) (thread : Nat) (result : ManifestVerdict LoadedTrustAnchors) :
    Option LoadReturn × FloorPlane :=
  (some ⟨thread, result⟩, s.moved thread .idle)

/-- A name is created, in front of every listing. -/
def create (s : FloorPlane) (name : Str) : FloorPlane where
  folder := s.folder.create name
  loads := fun thread => (s.loads thread).notify (·.created name)

/-- A name is removed, in front of every listing. -/
def remove (s : FloorPlane) (name : Str) : FloorPlane where
  folder := s.folder.remove name
  loads := fun thread => (s.loads thread).notify (·.removed name)

def step (P : Platform) (sd : Serde) (s : FloorPlane) :
    FloorAction → Option LoadReturn × FloorPlane
  | .begin thread call =>
    match s.loads thread with
    | .idle => (none, s.moved thread (.begun call))
    | _ => (none, s)
  | .list thread ok =>
    match s.loads thread with
    | .begun call =>
      if ok then (none, s.moved thread (.reading call (.start s.folder) 0))
      else s.returned thread (.error (.floorUnreadable "read trust-anchor floor"))
    | .loaded call anchors =>
      if ok then (none, s.moved thread (.rereading call anchors (.start s.folder) 0))
      else s.returned thread (.error (.floorUnreadable "read trust-anchor floor"))
    | .recorded call anchors =>
      if ok then (none, s.moved thread (.pruning call anchors (.start s.folder)))
      else s.returned thread (.ok anchors)
    | _ => (none, s)
  | .entry thread none =>
    match s.loads thread with
    | .reading .. | .rereading .. =>
      s.returned thread (.error (.floorUnreadable "read trust-anchor floor entry"))
    | _ => (none, s)
  | .entry thread (some name) =>
    match s.loads thread with
    | .reading call listing max =>
      match listing.next name with
      | some listing => (none, s.moved thread (.reading call listing (raiseTo max name)))
      | none => (none, s)
    | .rereading call anchors listing max =>
      match listing.next name with
      | some listing => (none, s.moved thread (.rereading call anchors listing (raiseTo max name)))
      | none => (none, s)
    | .pruning call anchors listing =>
      match listing.next name with
      | some listing =>
        match markerVersion name with
        | some version =>
          if version < anchors.version then
            (none, s.moved thread (.removing call anchors listing name))
          else (none, s.moved thread (.pruning call anchors listing))
        | none => (none, s.moved thread (.pruning call anchors listing))
      | none => (none, s)
    | _ => (none, s)
  | .finish thread =>
    match s.loads thread with
    | .reading call listing max =>
      if listing.ends then
        match (call.floor.minVersion max).bind fun minVersion =>
            loadSignedManifest P sd call.signed call.resolveManifestSigner call.expectedProfile
              minVersion call.now with
        | .ok anchors => (none, s.moved thread (.loaded call anchors))
        | .error e => s.returned thread (.error e)
      else (none, s)
    | .rereading call anchors listing max =>
      if listing.ends then
        match call.floor.admitVersion max anchors.version with
        | .ok isNew => (none, s.moved thread (.creating call anchors isNew))
        | .error e => s.returned thread (.error e)
      else (none, s)
    | .pruning _ anchors listing =>
      if listing.ends then s.returned thread (.ok anchors) else (none, s)
    | _ => (none, s)
  | .create thread ok =>
    match s.loads thread with
    | .creating call anchors isNew =>
      if ok then
        if markerName anchors.version ∈ s.folder.names then
          (none, s.moved thread (.marked call anchors isNew))
        else
          (none, (s.create (markerName anchors.version)).moved thread
            (.created call anchors isNew))
      else s.returned thread (.error (notPersisted isNew))
    | _ => (none, s)
  | .syncFile thread ok =>
    match s.loads thread with
    | .created call anchors isNew =>
      if ok then (none, s.moved thread (.marked call anchors isNew))
      else s.returned thread (.error (notPersisted isNew))
    | _ => (none, s)
  | .syncDir thread ok =>
    match s.loads thread with
    | .marked call anchors isNew =>
      if ok then
        if isNew then
          (none, { s.moved thread (.recorded call anchors) with folder := s.folder.sync })
        else returned { s with folder := s.folder.sync } thread (.ok anchors)
      else s.returned thread (.error (notPersisted isNew))
    | _ => (none, s)
  | .unlink thread ok =>
    match s.loads thread with
    | .removing call anchors listing name =>
      if ok ∧ name ∈ s.folder.names then
        (none, (s.remove name).moved thread (.pruning call anchors (listing.removed name)))
      else (none, s.moved thread (.pruning call anchors listing))
    | _ => (none, s)
  | .crash lost => (none, ⟨s.folder.crash lost, fun _ => .idle⟩)

end FloorPlane

end McpRe.Manifest

import McpRe.Http.Verify.Identity
import McpRe.Replay.Shared

/-!
# What a store key says

The key of a verified request is nested joins: escaped fields inside an actor id and an audience
hash, the id inside the signer slot, the slots with their lengths inside the composite key. Each join
gives its parts back, so that one composite preimage stands for one identity. The signer slot does so
only if the separator stands equally often in the two labels: a profile id and a label are joined as
they are.
-/

namespace McpRe.Replay

open Lib Lib.Text Lib.Code
open McpRe.Http (Platform ActorIdentity AudienceTuple b64urlEncode)

/-! ## Keys of verified requests -/

/-- What a verified request is recorded by. -/
structure ReplayIdentity where
  profileId : Str
  signatureLabel : Str
  actor : ActorIdentity
  audience : AudienceTuple
  nonce : Str
  deriving DecidableEq, Repr

/-- The key that `prepare_http_dispatch` builds. -/
def ReplayIdentity.key (P : Platform) (a : ReplayIdentity) : HttpReplayKey where
  profileId := a.profileId
  signatureLabel := a.signatureLabel
  actorId := a.actor.actorId
  audienceHash := a.audience.audienceHash P
  nonce := a.nonce

/-- The bytes that `composite_replay_key` hashes. -/
def ReplayKey.preimage (key : ReplayKey) : Bytes :=
  utf8 (lengthPrefixed key.signer ++ '|' :: lengthPrefixed key.audience
    ++ '|' :: lengthPrefixed key.nonce)

/-! ## Length prefixes -/

theorem eq_nil_of_length_utf8 {s : Str} (h : (utf8 s).length = 0) : s = [] := by
  apply utf8_injective
  exact List.length_eq_zero_iff.1 h

theorem lengthPrefixed_append_inj {a b r r' : Str}
    (h : lengthPrefixed a ++ r = lengthPrefixed b ++ r') : a = b ∧ r = r' := by
  unfold lengthPrefixed at h
  rw [List.append_assoc, List.append_assoc, List.cons_append, List.cons_append] at h
  obtain ⟨hdigits, htext⟩ :=
    append_cons_inj_left h (notMem_toDigits rfl _) (notMem_toDigits rfl _)
  have hlength : (utf8 a).length = (utf8 b).length := toDigits_injective hdigits
  have hsplit : ∀ {x y c : Str}, x = y ++ c → (utf8 x).length = (utf8 y).length → c = [] := by
    intro x y c hx hlen
    apply eq_nil_of_length_utf8
    rw [hx, utf8, List.flatMap_append, List.length_append] at hlen
    exact Nat.add_eq_left.1 hlen
  rcases List.append_eq_append_iff.1 htext with ⟨c, hb, hr⟩ | ⟨c, ha, hr⟩
  · obtain rfl := hsplit hb hlength.symm
    exact ⟨by simpa using hb.symm, by simpa using hr⟩
  · obtain rfl := hsplit ha hlength
    exact ⟨by simpa using ha, by simpa using hr.symm⟩

theorem ReplayKey.preimage_eq_iff {key key' : ReplayKey} : key.preimage = key'.preimage ↔
    key.signer = key'.signer ∧ key.audience = key'.audience ∧ key.nonce = key'.nonce := by
  unfold ReplayKey.preimage
  rw [utf8_injective.eq_iff]
  constructor
  · intro h
    rw [List.append_assoc, List.append_assoc] at h
    obtain ⟨hsigner, h⟩ := lengthPrefixed_append_inj h
    obtain ⟨haudience, h⟩ := lengthPrefixed_append_inj (List.cons.inj h).2
    obtain ⟨hnonce, _⟩ := lengthPrefixed_append_inj (List.append_left_inj [] |>.2 (List.cons.inj h).2)
    exact ⟨hsigner, haudience, hnonce⟩
  · rintro ⟨hsigner, haudience, hnonce⟩
    rw [hsigner, haudience, hnonce]

/-! ## Slots -/

/-- A profile id, a label and a rest without the separator. -/
theorem slot_inj {p p' l l' r r' : Str} (hr : sep ∉ r) (hr' : sep ∉ r')
    (hlabels : l.count sep = l'.count sep)
    (h : p ++ sep :: l ++ sep :: r = p' ++ sep :: l' ++ sep :: r') : p = p' ∧ l = l' ∧ r = r' := by
  obtain ⟨hhead, hrest⟩ := append_cons_inj_right h hr hr'
  have hcount := congrArg (List.count sep) hhead
  simp only [List.count_append, List.count_cons_self] at hcount
  obtain ⟨hp, hl⟩ := append_cons_inj_of_count hhead (by omega)
  exact ⟨hp, hl, hrest⟩

section

variable (P : Platform) (a b : ReplayIdentity)

theorem signerSlot_key :
    (a.key P).signerSlot = a.profileId ++ sep :: a.signatureLabel ++ sep :: a.actor.actorId := rfl

theorem principalSlot_key :
    (a.key P).principalSlot
      = a.profileId ++ sep :: a.signatureLabel ++ sep :: a.actor.principal := by
  unfold HttpReplayKey.principalSlot ReplayIdentity.key
  rw [ActorIdentity.actorId_eq, rsplitOnce_append (Http.colon_notMem_fieldEscape _)]

theorem audienceHash_eq_iff {a b : AudienceTuple}
    (hsha : Set.InjOn P.sha256 {a.canonicalBytes, b.canonicalBytes}) :
    a.audienceHash P = b.audienceHash P ↔ a.canonicalBytes = b.canonicalBytes := by
  constructor
  · intro h
    have hbytes := Base64.encode_injective _ h
    exact hsha (by simp) (by simp) (Http.Digest.ext_iff.2 hbytes)
  · intro h
    unfold AudienceTuple.audienceHash
    rw [h]

variable {P a b}

theorem signerSlot_eq_iff (hlabels : a.signatureLabel.count sep = b.signatureLabel.count sep) :
    (a.key P).signerSlot = (b.key P).signerSlot ↔
      a.profileId = b.profileId ∧ a.signatureLabel = b.signatureLabel ∧ a.actor = b.actor := by
  rw [signerSlot_key, signerSlot_key]
  constructor
  · intro h
    obtain ⟨hprofile, hlabel, hactor⟩ :=
      slot_inj a.actor.sep_notMem_actorId b.actor.sep_notMem_actorId hlabels h
    exact ⟨hprofile, hlabel, ActorIdentity.actorId_eq_iff.1 hactor⟩
  · rintro ⟨hprofile, hlabel, hactor⟩
    rw [hprofile, hlabel, hactor]

theorem principalSlot_eq_iff (hlabels : a.signatureLabel.count sep = b.signatureLabel.count sep) :
    (a.key P).principalSlot = (b.key P).principalSlot ↔
      a.profileId = b.profileId ∧ a.signatureLabel = b.signatureLabel ∧
        a.actor.role = b.actor.role ∧ a.actor.trustDomain = b.actor.trustDomain ∧
        a.actor.subject = b.actor.subject := by
  rw [principalSlot_key, principalSlot_key, ← ActorIdentity.principal_eq_iff]
  constructor
  · exact slot_inj a.actor.sep_notMem_principal b.actor.sep_notMem_principal hlabels
  · rintro ⟨hprofile, hlabel, hactor⟩
    rw [hprofile, hlabel, hactor]

end

/-- **Replay keys are injective**: for all strings, if the separator stands equally often in the two
labels and SHA-256 does not collide on the two audiences, then two composite preimages are equal
exactly for one profile, label, actor, audience (an absent route being an empty one) and nonce; and
two principal slots are equal exactly for one profile, label, role, trust domain and subject. -/
theorem replay_key_injective (P : Platform) (a b : ReplayIdentity) (expires expires' : I64)
    (hsha : Set.InjOn P.sha256 {a.audience.canonicalBytes, b.audience.canonicalBytes})
    (hlabels : a.signatureLabel.count sep = b.signatureLabel.count sep) :
    (((a.key P).toCoreReplayKey expires).preimage = ((b.key P).toCoreReplayKey expires').preimage ↔
      a.profileId = b.profileId ∧ a.signatureLabel = b.signatureLabel ∧ a.actor = b.actor ∧
        a.audience.audienceId = b.audience.audienceId ∧
        a.audience.targetUri = b.audience.targetUri ∧
        a.audience.route.getD [] = b.audience.route.getD [] ∧ a.nonce = b.nonce) ∧
    (((a.key P).toCoreReplayKey expires).principal = ((b.key P).toCoreReplayKey expires').principal ↔
      a.profileId = b.profileId ∧ a.signatureLabel = b.signatureLabel ∧
        a.actor.role = b.actor.role ∧ a.actor.trustDomain = b.actor.trustDomain ∧
        a.actor.subject = b.actor.subject) := by
  refine ⟨?_, principalSlot_eq_iff hlabels⟩
  calc ((a.key P).toCoreReplayKey expires).preimage = ((b.key P).toCoreReplayKey expires').preimage
    _ ↔ (a.key P).signerSlot = (b.key P).signerSlot ∧
        a.audience.audienceHash P = b.audience.audienceHash P ∧ a.nonce = b.nonce :=
      ReplayKey.preimage_eq_iff
    _ ↔ _ := by
      rw [signerSlot_eq_iff hlabels, audienceHash_eq_iff P hsha,
        AudienceTuple.canonicalBytes_eq_iff]
      simp only [and_assoc]

def keyPlatform : Platform where
  sha256 input :=
    if input = [118, 31, 117, 37, 51, 65, 37, 49, 70, 31] then
      ⟨[68, 198, 113, 79, 202, 32, 188, 180, 77, 80, 143, 218, 4, 157, 65, 73, 240, 74, 6, 171, 187,
        118, 128, 206, 122, 7, 214, 241, 117, 73, 191, 97], rfl⟩
    else
      ⟨[60, 185, 46, 94, 70, 143, 8, 29, 143, 70, 118, 194, 197, 203, 233, 228, 160, 83, 89, 247,
        121, 233, 113, 32, 175, 31, 134, 95, 87, 161, 252, 119], rfl⟩
  fromSlice _ := none
  readDocument _ := none
  isPoint _ := false
  verifyStrict _ _ _ := false

/-- Fields that hold the separators of the joins around them. -/
def identityOne : ReplayIdentity where
  profileId := ['p', sep]
  signatureLabel := "l".toList
  actor := ⟨"h:".toList, "%3A".toList, ['s', sep], "k".toList⟩
  audience := ⟨"v".toList, ['u', ':', sep], none⟩
  nonce := "1:|".toList

/-- The same subject with another key, and the separator moved in its audience. -/
def identityTwo : ReplayIdentity :=
  { identityOne with
    actor := ⟨"h:".toList, "%3A".toList, ['s', sep], ":k".toList⟩
    audience := ⟨"v".toList, "u".toList, some [sep]⟩ }

theorem replay_key_injective_separators :
    ((identityOne.key keyPlatform).toCoreReplayKey 1).preimage
      ≠ ((identityTwo.key keyPlatform).toCoreReplayKey 1).preimage ∧
    ((identityOne.key keyPlatform).toCoreReplayKey 1).principal
      = ((identityTwo.key keyPlatform).toCoreReplayKey 1).principal := by
  have hsha : Set.InjOn keyPlatform.sha256
      {identityOne.audience.canonicalBytes, identityTwo.audience.canonicalBytes} := by
    rw [Set.injOn_pair]
    decide +kernel
  have h := replay_key_injective keyPlatform identityOne identityTwo 1 1 hsha (by decide)
  refine ⟨fun heq => ?_, h.2.2 (by decide)⟩
  have hactor := (h.1.1 heq).2.2.1
  revert hactor
  decide

/-- A label that starts where the profile id of the other key ends. -/
theorem replay_key_label_with_separator :
    let a := { identityOne with profileId := ['p', sep, 'q'], signatureLabel := ['l'] }
    let b := { identityOne with profileId := ['p'], signatureLabel := ['q', sep, 'l'] }
    ((a.key keyPlatform).toCoreReplayKey 1).preimage
        = ((b.key keyPlatform).toCoreReplayKey 1).preimage ∧
      a.profileId ≠ b.profileId ∧ a.signatureLabel ≠ b.signatureLabel := by
  decide +kernel

end McpRe.Replay

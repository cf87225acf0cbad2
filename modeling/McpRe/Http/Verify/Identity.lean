import McpRe.Http.Block
import McpRe.Lib.Code

/-!
# Identities can be read back

`field_escape` writes each character in a code that contains neither separator, so that the joins
built from escaped fields give their fields back: an actor id its four fields, the canonical bytes
of an audience tuple its three slots.
-/

namespace McpRe.Http

open Lib Lib.Text Lib.Code

/-! ## The escape -/

def escapeChar (c : Char) : Str :=
  if c = '%' then "%25".toList
  else if c = ':' then "%3A".toList
  else if c = Char.ofNat 0x1f then "%1F".toList
  else [c]

theorem fieldEscape_eq_flatMap (s : Str) : fieldEscape s = s.flatMap escapeChar := by
  unfold fieldEscape replaceChar
  rw [List.flatMap_assoc, List.flatMap_assoc]
  apply List.flatMap_congr
  intro c _
  unfold escapeChar
  split_ifs with hpercent hcolon hsep
  · subst hpercent
    decide
  · subst hcolon
    decide
  · subst hsep
    decide
  · simp [hcolon, hsep]

/-- The words of the escape, by how they start. -/
theorem escapeChar_cases (c : Char) :
    (∃ d, escapeChar c = ['%', d.1, d.2] ∧ (c, d) ∈ [('%', '2', '5'), (':', '3', 'A'),
      (Char.ofNat 0x1f, '1', 'F')]) ∨
    escapeChar c = [c] ∧ c ≠ '%' ∧ c ≠ ':' ∧ c ≠ Char.ofNat 0x1f := by
  unfold escapeChar
  split_ifs with hpercent hcolon hsep
  · exact .inl ⟨('2', '5'), rfl, by simp [hpercent]⟩
  · exact .inl ⟨('3', 'A'), rfl, by simp [hcolon]⟩
  · exact .inl ⟨('1', 'F'), rfl, by simp [hsep]⟩
  · exact .inr ⟨rfl, hpercent, hcolon, hsep⟩

theorem escapeChar_ne_nil (c : Char) : escapeChar c ≠ [] := by
  rcases escapeChar_cases c with ⟨d, h, _⟩ | ⟨h, _⟩ <;> rw [h] <;> exact List.cons_ne_nil _ _

theorem eq_of_escapeChar_prefix (a b : Char) (h : escapeChar a <+: escapeChar b) : a = b := by
  rcases escapeChar_cases a with ⟨d, ha, hda⟩ | ⟨ha, hpercent, _⟩ <;>
    rcases escapeChar_cases b with ⟨e, hb, heb⟩ | ⟨hb, hpercent', _⟩ <;> rw [ha, hb] at h
  · -- both escaped: the two digits tell the characters apart
    have hde : d = e := by
      simp only [List.cons_prefix_cons, List.nil_prefix, and_true, true_and] at h
      exact Prod.ext h.1 h.2
    subst hde
    simp only [List.mem_cons, Prod.mk.injEq, List.not_mem_nil, or_false] at hda heb
    rcases hda with ⟨rfl, rfl⟩ | ⟨rfl, rfl⟩ | ⟨rfl, rfl⟩ <;>
      rcases heb with ⟨rfl, heq⟩ | ⟨rfl, heq⟩ | ⟨rfl, heq⟩ <;> first | rfl | cases heq
  · simp at h
  · rw [List.cons_prefix_cons] at h
    exact absurd h.1 hpercent
  · rw [List.cons_prefix_cons] at h
    exact h.1

theorem fieldEscape_injective : Function.Injective fieldEscape := by
  rw [show fieldEscape = List.flatMap escapeChar from funext fieldEscape_eq_flatMap]
  exact flatMap_injective escapeChar_ne_nil eq_of_escapeChar_prefix

theorem notMem_fieldEscape {c : Char} (hc : c = ':' ∨ c = Char.ofNat 0x1f) (s : Str) :
    c ∉ fieldEscape s := by
  rw [fieldEscape_eq_flatMap, List.mem_flatMap]
  rintro ⟨d, _, hmem⟩
  rcases escapeChar_cases d with ⟨e, h, he⟩ | ⟨h, _, hcolon, hsep⟩ <;> rw [h] at hmem
  · simp only [List.mem_cons, Prod.mk.injEq, List.not_mem_nil, or_false] at he
    rcases he with ⟨_, rfl⟩ | ⟨_, rfl⟩ | ⟨_, rfl⟩ <;> rcases hc with rfl | rfl <;>
      revert hmem <;> decide
  · obtain rfl := List.mem_singleton.1 hmem
    rcases hc with rfl | rfl
    · exact hcolon rfl
    · exact hsep rfl

theorem colon_notMem_fieldEscape (s : Str) : ':' ∉ fieldEscape s := notMem_fieldEscape (.inl rfl) s

theorem sep_notMem_fieldEscape (s : Str) : Char.ofNat 0x1f ∉ fieldEscape s :=
  notMem_fieldEscape (.inr rfl) s

/-! ## Actors -/

namespace ActorIdentity

variable (a : ActorIdentity)

/-- The actor id without the key id: `role:trust_domain:subject`. -/
def principal : Str :=
  fieldEscape a.role ++ ':' :: fieldEscape a.trustDomain ++ ':' :: fieldEscape a.subject

theorem actorId_eq : a.actorId = a.principal ++ ':' :: fieldEscape a.keyid := by
  simp [actorId, principal]

theorem sep_notMem_principal : Char.ofNat 0x1f ∉ a.principal := by
  simp [principal, sep_notMem_fieldEscape]

theorem sep_notMem_actorId : Char.ofNat 0x1f ∉ a.actorId := by
  simp [actorId_eq, sep_notMem_principal, sep_notMem_fieldEscape]

variable {a} {b : ActorIdentity}

theorem principal_eq_iff : a.principal = b.principal ↔
    a.role = b.role ∧ a.trustDomain = b.trustDomain ∧ a.subject = b.subject := by
  constructor
  · intro h
    unfold principal at h
    rw [List.append_assoc, List.append_assoc, List.cons_append, List.cons_append] at h
    obtain ⟨hrole, h⟩ :=
      append_cons_inj_left h (colon_notMem_fieldEscape _) (colon_notMem_fieldEscape _)
    obtain ⟨hdomain, hsubject⟩ :=
      append_cons_inj_left h (colon_notMem_fieldEscape _) (colon_notMem_fieldEscape _)
    exact ⟨fieldEscape_injective hrole, fieldEscape_injective hdomain,
      fieldEscape_injective hsubject⟩
  · rintro ⟨hrole, hdomain, hsubject⟩
    unfold principal
    rw [hrole, hdomain, hsubject]

theorem actorId_eq_iff : a.actorId = b.actorId ↔ a = b := by
  constructor
  · intro h
    rw [actorId_eq, actorId_eq] at h
    obtain ⟨hprincipal, hkeyid⟩ :=
      append_cons_inj_right h (colon_notMem_fieldEscape _) (colon_notMem_fieldEscape _)
    obtain ⟨hrole, hdomain, hsubject⟩ := principal_eq_iff.1 hprincipal
    cases a
    cases b
    simp_all [fieldEscape_injective.eq_iff]
  · exact congrArg actorId

end ActorIdentity

/-! ## Audiences -/

theorem AudienceTuple.canonicalBytes_eq_iff {a b : AudienceTuple} :
    a.canonicalBytes = b.canonicalBytes ↔
      a.audienceId = b.audienceId ∧ a.targetUri = b.targetUri ∧ a.route.getD [] = b.route.getD [] := by
  unfold canonicalBytes
  rw [utf8_injective.eq_iff]
  constructor
  · intro h
    rw [List.append_assoc, List.append_assoc, List.cons_append, List.cons_append] at h
    obtain ⟨hid, h⟩ := append_cons_inj_left h (sep_notMem_fieldEscape _) (sep_notMem_fieldEscape _)
    obtain ⟨huri, hroute⟩ :=
      append_cons_inj_left h (sep_notMem_fieldEscape _) (sep_notMem_fieldEscape _)
    exact ⟨fieldEscape_injective hid, fieldEscape_injective huri, fieldEscape_injective hroute⟩
  · rintro ⟨hid, huri, hroute⟩
    rw [hid, huri, hroute]

end McpRe.Http

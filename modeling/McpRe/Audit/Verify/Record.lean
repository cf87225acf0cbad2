import McpRe.Audit.Record

/-!
# An audit record reads back

`escapeScalar` has a left inverse (`unescapeScalar_escapeScalar`), and no character of its image
ends a field, a name or a line (`plain_of_mem_escapeScalar`). A name or a token that is pushed as it
is, is its own escape (`pushVerbatimOrEscaped_eq`). So a record is its fields with a space between
them (`renderRecord_eq`), and splits back into them: `record_recovers`.
-/

namespace McpRe.Audit

open Lib Lib.Text

/-! ## Hexadecimal numerals -/

theorem hexDigit_digitChar {k : Nat} (h : k < 16) : hexDigit (Nat.digitChar k) = some k := by
  interval_cases k <;> rfl

theorem hexDigits_append (acc : Nat) (s t : Str) :
    hexDigits acc (s ++ t) = (hexDigits acc s).bind fun n => hexDigits n t := by
  induction s generalizing acc with
  | nil => rfl
  | cons c cs ih =>
    rw [List.cons_append, hexDigits, hexDigits]
    cases hexDigit c with
    | none => rfl
    | some d => exact ih (acc * 16 + d)

theorem hexDigits_lowerHex (n : Nat) : hexDigits 0 (lowerHex n) = some n := by
  induction n using Nat.strongRecOn with
  | ind n ih =>
    rw [lowerHex, Nat.toDigits_eq_if (by decide)]
    split_ifs with hlt
    · rw [hexDigits, hexDigit_digitChar hlt, Option.bind_some, hexDigits]
      simp
    · have hrest : n % 16 < 16 := Nat.mod_lt _ (by decide)
      rw [hexDigits_append, ← lowerHex, ih (n / 16) (by omega), Option.bind_some, hexDigits,
        hexDigit_digitChar hrest, Option.bind_some, hexDigits]
      congr 1
      omega

theorem isLowerHex_of_mem {n : Nat} {c : Char} (h : c ∈ lowerHex n) :
    ∃ k < 16, c = Nat.digitChar k := by
  induction n using Nat.strongRecOn with
  | ind n ih =>
    rw [lowerHex, Nat.toDigits_eq_if (by decide)] at h
    split_ifs at h with hlt
    · exact ⟨n, hlt, List.mem_singleton.1 h⟩
    · rcases List.mem_append.1 h with h | h
      · exact ih (n / 16) (by omega) h
      · exact ⟨n % 16, Nat.mod_lt _ (by decide), List.mem_singleton.1 h⟩

theorem hexDigits_lowerHex2 (n : Nat) : hexDigits 0 (lowerHex2 n) = some n := by
  have hzeros : ∀ k, hexDigits 0 (List.replicate k '0') = some 0 := by
    intro k
    induction k with
    | zero => rfl
    | succ k ih => exact ih
  rw [lowerHex2, hexDigits_append, hzeros, Option.bind_some, hexDigits_lowerHex]

theorem lowerHex2_mem {n : Nat} {c : Char} (h : c ∈ lowerHex2 n) : ∃ k < 16, c = Nat.digitChar k := by
  rcases List.mem_append.1 h with h | h
  · exact ⟨0, by decide, (List.mem_replicate.1 h).2⟩
  · exact isLowerHex_of_mem h

theorem length_lowerHex2 {n : Nat} (h : n < 256) : (lowerHex2 n).length = 2 := by
  rw [lowerHex2, List.length_append, List.length_replicate]
  have hle : (lowerHex n).length ≤ 2 := by
    rw [lowerHex, Nat.toDigits_eq_if (by decide)]
    split_ifs with hlt
    · simp
    · rw [Nat.toDigits_of_lt_base (by omega)]
      simp
  omega

theorem decodeCodepoint_of_hexDigits {hex : Str} {c : Char} (hne : hex ≠ [])
    (hhex : ∀ d ∈ hex, ∃ k < 16, d = Nat.digitChar k) (h : hexDigits 0 hex = some c.toNat) :
    decodeCodepoint hex = some c := by
  have hsign : ∀ ds, hex ≠ '+' :: ds := by
    rintro ds rfl
    obtain ⟨k, hk, hd⟩ := hhex '+' List.mem_cons_self
    revert hd
    interval_cases k <;> decide
  have hvalid : c.toNat.isValidChar := c.valid
  have hlt : c.toNat < 2 ^ 32 := c.val.toNat_lt
  have hread : fromStrRadix16 hex = some c.toNat := by
    unfold fromStrRadix16
    dsimp only
    split
    next ds => exact absurd rfl (hsign ds)
    next => rw [if_neg hne, h, Option.filter_some, if_pos (decide_eq_true hlt)]
  rw [decodeCodepoint, hread, Option.bind_some, fromU32, if_pos hvalid, Char.ofNat_toNat]

/-! ## The inverse of the escape -/

/-- The characters that end nothing. -/
def Plain (c : Char) : Prop :=
  (c == ' ' || c == '=' || decide (c.toNat < 0x20) || c.toNat == 0x7F || isHazard c) = false

instance (c : Char) : Decidable (Plain c) := inferInstanceAs (Decidable (_ = false))

theorem plain_digitChar {k : Nat} (h : k < 16) : Plain (Nat.digitChar k) := by
  interval_cases k <;> decide

/-- What the escape makes of a character, by the kinds that it tells apart. -/
inductive EscapedAs (c : Char) : Str → Prop where
  | letter (e : Char) (he : (c, e) ∈ [('\\', '\\'), ('\n', 'n'), ('\r', 'r'), ('\t', 't'), (' ', 's'),
      ('=', 'e')]) : EscapedAs c ['\\', e]
  | byte (h₁ h₂ : Char) (hplain : Plain h₁ ∧ Plain h₂) (hdecode : decodeCodepoint [h₁, h₂] = some c) :
      EscapedAs c ['\\', 'x', h₁, h₂]
  | code (hex : Str) (hhex : ∀ d ∈ hex, ∃ k < 16, d = Nat.digitChar k)
      (hdecode : decodeCodepoint hex = some c) :
      EscapedAs c ("\\u\x7b".toList ++ hex ++ "\x7d".toList)
  | self (hplain : Plain c) (hslash : c ≠ '\\') : EscapedAs c [c]

theorem escapedAs_escapeChar (index : Nat) (c : Char) : EscapedAs c (escapeChar index c) := by
  rw [escapeChar]
  by_cases hslash : c = '\\'
  · rw [if_pos hslash]
    exact .letter '\\' (by simp [hslash])
  rw [if_neg hslash]
  by_cases hlf : c = '\n'
  · rw [if_pos hlf]
    exact .letter 'n' (by simp [hlf])
  rw [if_neg hlf]
  by_cases hcr : c = '\r'
  · rw [if_pos hcr]
    exact .letter 'r' (by simp [hcr])
  rw [if_neg hcr]
  by_cases htab : c = '\t'
  · rw [if_pos htab]
    exact .letter 't' (by simp [htab])
  rw [if_neg htab]
  by_cases hspace : c = ' '
  · rw [if_pos hspace]
    exact .letter 's' (by simp [hspace])
  rw [if_neg hspace]
  by_cases heq : c = '='
  · rw [if_pos heq]
    exact .letter 'e' (by simp [heq])
  rw [if_neg heq]
  by_cases hdash : c = '-' ∧ index = 0
  · rw [if_pos hdash]
    exact .byte '2' 'd' (by decide) (by rw [hdash.1]; rfl)
  rw [if_neg hdash]
  by_cases hcontrol : c.toNat < 0x20 ∨ c.toNat = 0x7F
  · rw [if_pos hcontrol]
    have hlen := length_lowerHex2 (n := c.toNat) (by omega)
    have hmem : ∀ d ∈ lowerHex2 c.toNat, ∃ k < 16, d = Nat.digitChar k :=
      fun d hd => lowerHex2_mem hd
    have hread := decodeCodepoint_of_hexDigits (fun hnil => by rw [hnil] at hlen; cases hlen) hmem
      (hexDigits_lowerHex2 c.toNat)
    generalize lowerHex2 c.toNat = hex at hlen hmem hread
    match hex, hlen with
    | [h₁, h₂], _ =>
      obtain ⟨k₁, hk₁, rfl⟩ := hmem h₁ List.mem_cons_self
      obtain ⟨k₂, hk₂, rfl⟩ := hmem h₂ (List.mem_cons_of_mem _ List.mem_cons_self)
      exact .byte _ _ ⟨plain_digitChar hk₁, plain_digitChar hk₂⟩ hread
  rw [if_neg hcontrol]
  by_cases hhazard : isHazard c = true
  · rw [if_pos hhazard]
    exact .code _ (fun d hd => isLowerHex_of_mem hd) (decodeCodepoint_of_hexDigits
      Nat.toDigits_ne_nil (fun d hd => isLowerHex_of_mem hd) (hexDigits_lowerHex _))
  rw [if_neg hhazard]
  refine .self ?_ hslash
  simp only [not_or] at hcontrol
  simp [Plain, hspace, heq, hcontrol.1, hcontrol.2, hhazard]

theorem unescapeFrom_brace {hex rest : Str} (hhex : ∀ d ∈ hex, ∃ k < 16, d = Nat.digitChar k)
    (acc : Str) :
    unescapeFrom (.code acc) (hex ++ '\x7d' :: rest)
      = (decodeCodepoint (acc ++ hex)).bind fun c => (unescapeFrom .text rest).map (c :: ·) := by
  induction hex generalizing acc with
  | nil => rw [List.nil_append, unescapeFrom, if_pos rfl, List.append_nil]
  | cons d ds ih =>
    obtain ⟨k, hk, hd⟩ := hhex d List.mem_cons_self
    have hne : d ≠ '\x7d' := by
      rw [hd]
      interval_cases k <;> decide
    rw [List.cons_append, unescapeFrom, if_neg hne,
      ih (fun d' hd' => hhex d' (List.mem_cons_of_mem _ hd')), List.append_assoc,
      List.singleton_append]

theorem EscapedAs.unescape {c : Char} {s : Str} (h : EscapedAs c s) (rest : Str) :
    unescapeFrom .text (s ++ rest) = (unescapeFrom .text rest).map (c :: ·) := by
  cases h with
  | letter e he =>
    simp only [List.mem_cons, Prod.mk.injEq, List.not_mem_nil, or_false] at he
    rcases he with ⟨rfl, rfl⟩ | ⟨rfl, rfl⟩ | ⟨rfl, rfl⟩ | ⟨rfl, rfl⟩ | ⟨rfl, rfl⟩ | ⟨rfl, rfl⟩ <;>
      rfl
  | byte h₁ h₂ hplain hdecode =>
    have hstep : unescapeFrom .text (['\\', 'x', h₁, h₂] ++ rest)
        = (decodeCodepoint [h₁, h₂]).bind fun c => (unescapeFrom .text rest).map (c :: ·) := rfl
    rw [hstep, hdecode, Option.bind_some]
  | code hex hhex hdecode =>
    have hstep : unescapeFrom .text ("\\u\x7b".toList ++ hex ++ "\x7d".toList ++ rest)
        = unescapeFrom (.code []) (hex ++ '\x7d' :: rest) := by
      rw [List.append_assoc, List.append_assoc]
      rfl
    rw [hstep, unescapeFrom_brace hhex, List.nil_append, hdecode, Option.bind_some]
  | self hplain hslash =>
    rw [List.singleton_append, unescapeFrom, if_neg hslash, if_neg (by rw [hplain]; simp)]

/-- **The escape has a left inverse.** -/
theorem unescapeScalar_escapeScalar (s : Str) : unescapeScalar (escapeScalar s) = some s := by
  have hfrom : ∀ index, unescapeFrom .text (escapeFrom index s) = some s := by
    induction s with
    | nil => exact fun _ => rfl
    | cons c cs ih =>
      intro index
      rw [escapeFrom, (escapedAs_escapeChar index c).unescape, ih, Option.map_some]
  exact hfrom 0

theorem escapeScalar_injective : Function.Injective escapeScalar := by
  intro s t h
  have hread := unescapeScalar_escapeScalar s
  rw [h, unescapeScalar_escapeScalar] at hread
  exact (Option.some.inj hread).symm

/-! ## The image of the escape -/

theorem EscapedAs.plain {c : Char} {s : Str} (h : EscapedAs c s) : ∀ d ∈ s, Plain d := by
  cases h with
  | letter e he =>
    simp only [List.mem_cons, Prod.mk.injEq, List.not_mem_nil, or_false] at he
    rcases he with ⟨rfl, rfl⟩ | ⟨rfl, rfl⟩ | ⟨rfl, rfl⟩ | ⟨rfl, rfl⟩ | ⟨rfl, rfl⟩ | ⟨rfl, rfl⟩ <;>
      exact forall_mem_of_all (by decide)
  | byte h₁ h₂ hplain hdecode =>
    simp only [List.forall_mem_cons]
    exact ⟨by decide, by decide, hplain.1, hplain.2, by simp⟩
  | code hex hhex hdecode =>
    have hbraces : ∀ d ∈ "\\u\x7b".toList ++ "\x7d".toList, Plain d :=
      forall_mem_of_all (by decide)
    intro d hd
    rcases List.mem_append.1 hd with hd | hd
    · rcases List.mem_append.1 hd with hd | hd
      · exact hbraces d (List.mem_append_left _ hd)
      · obtain ⟨k, hk, rfl⟩ := hhex d hd
        exact plain_digitChar hk
    · exact hbraces d (List.mem_append_right _ hd)
  | self hplain hslash => simpa using hplain

/-- **No character of an escaped scalar ends a field or a line.** -/
theorem plain_of_mem_escapeScalar {s : Str} {d : Char} (h : d ∈ escapeScalar s) : Plain d := by
  have hfrom : ∀ index, d ∈ escapeFrom index s → Plain d := by
    clear h
    induction s with
    | nil => exact fun _ h => by cases h
    | cons c cs ih =>
      intro index h
      rcases List.mem_append.1 h with h | h
      · exact (escapedAs_escapeChar index c).plain d h
      · exact ih _ h
  exact hfrom 0 h

/-- Nothing escapes to a text that starts with a dash. -/
theorem head?_escapeScalar (s : Str) : (escapeScalar s).head? ≠ some '-' := by
  cases s with
  | nil => simp [escapeScalar, escapeFrom]
  | cons c cs =>
    rw [escapeScalar, escapeFrom]
    by_cases hdash : c = '-'
    · subst hdash
      have hescape : escapeChar 0 '-' = "\\x2d".toList := by decide
      simp [hescape]
    · have hescaped := escapedAs_escapeChar 0 c
      generalize escapeChar 0 c = e at hescaped ⊢
      cases hescaped <;> simp [hdash]

theorem escapeChar_of_not_escaped {index : Nat} {c : Char} (h : isEscapedChar c = false)
    (hdash : ¬(c = '-' ∧ index = 0)) : escapeChar index c = [c] := by
  simp only [isEscapedChar, Bool.or_eq_false_iff, beq_eq_false_iff_ne, decide_eq_false_iff_not] at h
  obtain ⟨⟨⟨⟨⟨hslash, hspace⟩, heq⟩, hcontrol⟩, hdel⟩, hhazard⟩ := h
  have hother : ∀ d : Char, d.toNat < 0x20 → c ≠ d := by
    rintro d hd rfl
    exact hcontrol hd
  rw [escapeChar, if_neg hslash, if_neg (hother '\n' (by decide)), if_neg (hother '\r' (by decide)),
    if_neg (hother '\t' (by decide)), if_neg hspace, if_neg heq, if_neg hdash,
    if_neg (not_or.2 ⟨hcontrol, hdel⟩), if_neg (by rw [hhazard]; simp)]

theorem escapeScalar_of_isSeparatorFree {s : Str} (h : isSeparatorFree s = true) :
    escapeScalar s = s := by
  -- past the first character a dash is a character like any other
  have hrest : ∀ (cs : Str) (index : Nat), index ≠ 0 → (∀ c ∈ cs, isEscapedChar c = false) →
      escapeFrom index cs = cs := by
    intro cs
    induction cs with
    | nil => exact fun _ _ _ => rfl
    | cons c cs ih =>
      intro index hindex hcs
      rw [escapeFrom, escapeChar_of_not_escaped (hcs c List.mem_cons_self) (fun hd => hindex hd.2),
        ih _ (by omega) fun d hd => hcs d (List.mem_cons_of_mem _ hd), List.singleton_append]
  simp only [isSeparatorFree, Bool.and_eq_true, Bool.not_eq_true', beq_eq_false_iff_ne,
    List.any_eq_false, Bool.not_eq_true] at h
  obtain ⟨⟨-, hdash⟩, hfree⟩ := h
  cases s with
  | nil => rfl
  | cons c cs =>
    have hfirst : ¬(c = '-' ∧ (0 : Nat) = 0) := fun hd => hdash (by rw [hd.1]; rfl)
    have hsize : 0 + c.utf8Size ≠ 0 := by
      have := c.utf8Size_pos
      omega
    rw [escapeScalar, escapeFrom, escapeChar_of_not_escaped (hfree c List.mem_cons_self) hfirst,
      hrest cs _ hsize fun d hd => hfree d (List.mem_cons_of_mem _ hd), List.singleton_append]

/-! ## Records -/

theorem pushVerbatimOrEscaped_eq (out text : Str) :
    pushVerbatimOrEscaped out text = out ++ escapeScalar text := by
  rw [pushVerbatimOrEscaped]
  split_ifs with h
  · rw [escapeScalar_of_isSeparatorFree h]
  · rfl

def renderedValue (v : AuditValue) : Str := pushValue [] v

theorem pushValue_eq (out : Str) (v : AuditValue) : pushValue out v = out ++ renderedValue v := by
  cases v with
  | token t => simp only [renderedValue, pushValue, pushVerbatimOrEscaped_eq, List.nil_append]
  | number n => rfl
  | text s => rfl
  | absent => rfl

def piece (f : AuditField) : Str := escapeScalar f.name ++ '=' :: renderedValue f.value

theorem pushField_nil (f : AuditField) : pushField [] f = piece f := by
  simp only [pushField, List.isEmpty_nil, Bool.not_true, Bool.false_eq_true, if_false,
    pushVerbatimOrEscaped_eq, pushValue_eq, List.nil_append, List.append_assoc]
  rfl

theorem pushField_of_ne_nil {out : Str} (h : out ≠ []) (f : AuditField) :
    pushField out f = out ++ [' '] ++ piece f := by
  have hne : (!out.isEmpty) = true := by simpa using h
  simp only [pushField, hne, if_true, pushVerbatimOrEscaped_eq, pushValue_eq, List.append_assoc]
  rfl

/-- **A record is its fields, with a space between them.** -/
theorem renderRecord_eq (fields : List AuditField) :
    renderRecord fields = [' '].intercalate (fields.map piece) := by
  have hloop : ∀ (fields : List AuditField) (f : AuditField) (out : Str), out ≠ [] →
      (f :: fields).foldl pushField out
        = out ++ [' '] ++ [' '].intercalate ((f :: fields).map piece) := by
    intro fields
    induction fields with
    | nil =>
      intro f out hout
      rw [List.foldl_cons, pushField_of_ne_nil hout]
      simp
    | cons f' fields ih =>
      intro f out hout
      have hjoin : [' '].intercalate ((f :: f' :: fields).map piece)
          = piece f ++ [' '] ++ [' '].intercalate ((f' :: fields).map piece) :=
        List.intercalate_cons_cons ..
      rw [List.foldl_cons, pushField_of_ne_nil hout, ih f' _ (by simp), hjoin]
      simp only [List.append_assoc]
  cases fields with
  | nil => rfl
  | cons f fields =>
    rw [renderRecord, List.foldl_cons, pushField_nil]
    cases fields with
    | nil => simp
    | cons f' fields =>
      rw [hloop fields f' _ (by simp [piece])]
      exact (List.intercalate_cons_cons ..).symm

/-! ### What a piece holds -/

theorem plain_of_mem_display {n : I64} {c : Char} (h : c ∈ n.display) : Plain c := by
  rcases I64.mem_display h with rfl | hdigit
  · decide
  · obtain ⟨k, hk, rfl⟩ := I64.exists_digitChar hdigit
    exact plain_digitChar (by omega)

theorem plain_of_mem_renderedValue {v : AuditValue} {c : Char} (h : c ∈ renderedValue v) :
    Plain c := by
  cases v with
  | token t =>
    rw [renderedValue, pushValue, pushVerbatimOrEscaped_eq] at h
    exact plain_of_mem_escapeScalar h
  | number n => exact plain_of_mem_display h
  | text s => exact plain_of_mem_escapeScalar h
  | absent =>
    rw [List.mem_singleton.1 h]
    decide

theorem Plain.ne {c : Char} (h : Plain c) : c ≠ ' ' ∧ c ≠ '=' := by
  constructor
  · rintro rfl
    cases h
  · rintro rfl
    cases h

theorem plain_of_mem_piece {f : AuditField} {c : Char} (h : c ∈ piece f) : Plain c ∨ c = '=' := by
  rcases List.mem_append.1 h with h | h
  · exact .inl (plain_of_mem_escapeScalar h)
  · rcases List.mem_cons.1 h with h | h
    · exact .inr h
    · exact .inl (plain_of_mem_renderedValue h)

theorem equals_notMem_escapeScalar (s : Str) : '=' ∉ escapeScalar s :=
  fun h => (plain_of_mem_escapeScalar h).ne.2 rfl

theorem splitOnce_piece (f : AuditField) :
    splitOnce '=' (piece f) = some (escapeScalar f.name, renderedValue f.value) :=
  splitOnce_append (equals_notMem_escapeScalar f.name)

theorem count_piece (f : AuditField) : (piece f).count '=' = 1 := by
  have hvalue : (renderedValue f.value).count '=' = 0 :=
    List.count_eq_zero.2 fun h => (plain_of_mem_renderedValue h).ne.2 rfl
  rw [piece, List.count_append, List.count_cons_self, hvalue,
    List.count_eq_zero.2 (equals_notMem_escapeScalar f.name)]

theorem splitOn_renderRecord {fields : List AuditField} (h : fields ≠ []) :
    (renderRecord fields).splitOn ' ' = fields.map piece := by
  rw [renderRecord_eq]
  refine List.splitOn_intercalate ' ' ?_ (by simpa using h)
  intro p hp hspace
  obtain ⟨f, -, rfl⟩ := List.mem_map.1 hp
  rcases plain_of_mem_piece hspace with hplain | heq
  · exact hplain.ne.1 rfl
  · cases heq

/-! ### What a value says -/

/-- What the value says, however it was given. -/
def AuditValue.content : AuditValue → Option Str
  | .token t | .text t => some t
  | .number n => some n.display
  | .absent => none

theorem renderedValue_token (t : Str) : renderedValue (.token t) = escapeScalar t :=
  pushVerbatimOrEscaped_eq [] t

/-- A number does not look like what stands for nothing. -/
theorem display_ne_absent (n : I64) : n.display ≠ absent := by
  intro h
  have hread := I64.fromStr_display n
  rw [h] at hread
  cases hread

theorem eq_of_escapeScalar_eq_display {s : Str} {n : I64} (h : escapeScalar s = n.display) :
    s = n.display := by
  have hdash : ¬n.val < 0 := by
    intro hneg
    apply head?_escapeScalar s
    rw [h, I64.display, if_pos hneg]
    rfl
  have hdigits : n.display = Nat.toDigits 10 n.val.natAbs := if_neg hdash
  have hplain : ∀ c ∈ n.display, ∃ k < 10, c = Nat.digitChar k := by
    intro c hc
    rw [hdigits] at hc
    exact I64.exists_digitChar (Nat.isDigit_of_mem_toDigits (by decide) (by decide) hc)
  have hfree : isSeparatorFree n.display = true := by
    simp only [isSeparatorFree, Bool.and_eq_true, Bool.not_eq_true', beq_eq_false_iff_ne,
      List.any_eq_false, Bool.not_eq_true]
    refine ⟨⟨by simpa using I64.display_ne_nil n, ?_⟩, ?_⟩
    · intro hhead
      obtain ⟨k, hk, hc⟩ := hplain '-' (List.mem_of_mem_head? hhead)
      revert hc
      interval_cases k <;> decide
    · intro c hc
      obtain ⟨k, hk, rfl⟩ := hplain c hc
      interval_cases k <;> decide
  rw [← escapeScalar_of_isSeparatorFree hfree] at h
  exact escapeScalar_injective h

theorem renderedValue_ne_absent {v : AuditValue} (h : v ≠ .absent) :
    renderedValue v ≠ renderedValue .absent := by
  have hescaped : ∀ s, escapeScalar s ≠ absent := by
    intro s hs
    apply head?_escapeScalar s
    rw [hs]
    rfl
  cases v with
  | token t =>
    rw [renderedValue_token]
    exact hescaped t
  | number n => exact display_ne_absent n
  | text s => exact hescaped s
  | absent => exact absurd rfl h

/-- **Values of one rendering say the same.** -/
theorem content_eq_of_renderedValue_eq {v w : AuditValue} (h : renderedValue v = renderedValue w) :
    v.content = w.content := by
  -- a token and a text are rendered alike
  have hdisplay : ∀ m n : I64, m.display = n.display → (AuditValue.number m).content
      = (AuditValue.number n).content := fun m n h => congrArg some h
  by_cases hv : v = .absent
  · by_cases hw : w = .absent
    · rw [hv, hw]
    · exact absurd (hv ▸ h).symm (renderedValue_ne_absent hw)
  by_cases hw : w = .absent
  · exact absurd (hw ▸ h) (renderedValue_ne_absent hv)
  have hescaped : ∀ u : AuditValue, u ≠ .absent → (∃ n, u = .number n) ∨
      ∃ s, u.content = some s ∧ renderedValue u = escapeScalar s := by
    intro u hu
    cases u with
    | token t => exact .inr ⟨t, rfl, renderedValue_token t⟩
    | number n => exact .inl ⟨n, rfl⟩
    | text s => exact .inr ⟨s, rfl, rfl⟩
    | absent => exact absurd rfl hu
  rcases hescaped v hv with ⟨m, rfl⟩ | ⟨s, hs, hrendered⟩
  · rcases hescaped w hw with ⟨n, rfl⟩ | ⟨t, ht, hrendered'⟩
    · exact hdisplay m n h
    · rw [ht, eq_of_escapeScalar_eq_display (hrendered'.symm.trans h.symm)]
      rfl
  · rcases hescaped w hw with ⟨n, rfl⟩ | ⟨t, ht, hrendered'⟩
    · rw [hs, eq_of_escapeScalar_eq_display (hrendered.symm.trans h)]
      rfl
    · rw [hs, ht, escapeScalar_injective (hrendered.symm.trans (h.trans hrendered'))]

theorem piece_inj {f g : AuditField} (h : piece f = piece g) :
    f.name = g.name ∧ f.value.content = g.value.content := by
  have hsplit := splitOnce_piece f
  rw [h, splitOnce_piece g, Option.some.injEq, Prod.mk.injEq] at hsplit
  exact ⟨(escapeScalar_injective hsplit.1).symm, (content_eq_of_renderedValue_eq hsplit.2).symm⟩

/-! ### The record -/

/-- Controls, and what ends a line for a reader of Unicode. -/
def EndsLine (c : Char) : Prop :=
  c.toNat < 0x20 ∨ (0x7F ≤ c.toNat ∧ c.toNat ≤ 0x9F) ∨ c.toNat = 0x2028 ∨ c.toNat = 0x2029

theorem Plain.not_endsLine {c : Char} (h : Plain c) : ¬EndsLine c := by
  simp only [Plain, isHazard, Bool.or_eq_false_iff, Bool.and_eq_false_iff, beq_eq_false_iff_ne,
    decide_eq_false_iff_not] at h
  simp only [EndsLine]
  omega

/-- The two halves of a piece give the field back. -/
def Recovers (f : AuditField) (name value : Str) : Prop :=
  unescapeScalar name = some f.name ∧
    match f.value with
    | .token t | .text t => unescapeScalar value = some t
    | .number n => value = n.display
    | .absent => value = absent

theorem recovers_piece (f : AuditField) :
    Recovers f (escapeScalar f.name) (renderedValue f.value) := by
  refine ⟨unescapeScalar_escapeScalar f.name, ?_⟩
  cases f.value with
  | token t =>
    rw [renderedValue_token]
    exact unescapeScalar_escapeScalar t
  | number n => rfl
  | text s => exact unescapeScalar_escapeScalar s
  | absent => rfl

theorem mem_pushField {out : Str} {f : AuditField} {c : Char} (h : c ∈ pushField out f) :
    c ∈ out ∨ c = ' ' ∨ c ∈ piece f := by
  by_cases hout : out = []
  · rw [hout, pushField_nil] at h
    exact .inr (.inr h)
  · rw [pushField_of_ne_nil hout, List.mem_append, List.mem_append, List.mem_singleton] at h
    rcases h with (h | h) | h
    · exact .inl h
    · exact .inr (.inl h)
    · exact .inr (.inr h)

theorem not_endsLine_of_mem_renderRecord {fields : List AuditField} {c : Char}
    (h : c ∈ renderRecord fields) : ¬EndsLine c := by
  have hpiece : ∀ f : AuditField, c = ' ' ∨ c ∈ piece f → ¬EndsLine c := by
    rintro f (rfl | hc)
    · simp [EndsLine]
    · rcases plain_of_mem_piece hc with hplain | rfl
      · exact hplain.not_endsLine
      · simp [EndsLine]
  have hloop : ∀ out : Str, (c ∈ out → ¬EndsLine c) → c ∈ fields.foldl pushField out →
      ¬EndsLine c := by
    clear h
    induction fields with
    | nil => exact fun out hout => hout
    | cons f fields ih =>
      intro out hout
      refine ih (pushField out f) fun hc => ?_
      rcases mem_pushField hc with hc | hc
      · exact hout hc
      · exact hpiece f hc
  exact hloop [] (fun hc => by cases hc) h

theorem pieces_eq_of_renderRecord_eq {fields fields' : List AuditField}
    (h : renderRecord fields' = renderRecord fields) : fields'.map piece = fields.map piece := by
  have hempty : ∀ fields : List AuditField, renderRecord fields = [] → fields = [] := by
    intro fields hnil
    by_contra hne
    have hpieces := splitOn_renderRecord hne
    rw [hnil, List.splitOn_nil] at hpieces
    cases fields with
    | nil => exact hne rfl
    | cons f fields => simp [piece] at hpieces
  by_cases hne : fields = []
  · rw [hne] at h ⊢
    rw [hempty fields' h]
  · have hne' : fields' ≠ [] := fun hnil => hne (hempty fields (by rw [← h, hnil]; rfl))
    rw [← splitOn_renderRecord hne, ← splitOn_renderRecord hne', h]

theorem fields_alike_of_pieces_eq {fields fields' : List AuditField}
    (h : fields'.map piece = fields.map piece) :
    fields'.map AuditField.name = fields.map AuditField.name ∧
      fields'.map (fun f => f.value.content) = fields.map fun f => f.value.content := by
  induction fields generalizing fields' with
  | nil =>
    rw [List.map_eq_nil_iff.1 h]
    exact ⟨rfl, rfl⟩
  | cons f fields ih =>
    cases fields' with
    | nil => cases h
    | cons f' fields' =>
      obtain ⟨hpiece, hrest⟩ := List.cons.inj h
      obtain ⟨hname, hcontent⟩ := piece_inj hpiece
      obtain ⟨hnames, hcontents⟩ := ih hrest
      simp only [List.map_cons, hname, hcontent, hnames, hcontents]
      exact ⟨trivial, trivial⟩

/-- **An audit record reads back.** No control and no line separator stands in it; split at its
spaces and at the first `=` it gives the fields back, one piece for each; what stands for nothing
stands for nothing else; and records of the same text have the same names and say the same. -/
theorem record_recovers (fields : List AuditField) :
    (∀ c ∈ renderRecord fields, ¬EndsLine c) ∧
    (fields ≠ [] → List.Forall₂ (fun f p => p.count '=' = 1 ∧
      ∃ name value, splitOnce '=' p = some (name, value) ∧ Recovers f name value)
      fields ((renderRecord fields).splitOn ' ')) ∧
    (∀ s, unescapeScalar (escapeScalar s) = some s) ∧
    (∀ v, v ≠ .absent → renderedValue v ≠ renderedValue .absent) ∧
    ∀ fields', renderRecord fields' = renderRecord fields →
      fields'.map AuditField.name = fields.map AuditField.name ∧
      fields'.map (fun f => f.value.content) = fields.map fun f => f.value.content := by
  refine ⟨fun c => not_endsLine_of_mem_renderRecord, ?_, unescapeScalar_escapeScalar,
    fun v => renderedValue_ne_absent, fun fields' h =>
      fields_alike_of_pieces_eq (pieces_eq_of_renderRecord_eq h)⟩
  intro hne
  rw [splitOn_renderRecord hne, List.forall₂_map_right_iff]
  refine List.forall₂_same.2 fun f _ => ⟨count_piece f, ?_⟩
  exact ⟨_, _, splitOnce_piece f, recovers_piece f⟩

namespace RecordSample

def forged : List AuditField :=
  [⟨"seq".toList, .number ⟨-7, by decide, by decide⟩⟩, ⟨"a b".toList, .text "x authz=y\n".toList⟩,
    ⟨"actor".toList, .token "-".toList⟩, ⟨"target".toList, .absent⟩]

theorem forged_recovers :
    renderRecord forged
      = "seq=-7 a\\sb=x\\sauthz\\ey\\n actor=\\x2d target=-".toList ∧
    (∀ c ∈ renderRecord forged, ¬EndsLine c) ∧
    List.Forall₂ (fun f p => p.count '=' = 1 ∧
      ∃ name value, splitOnce '=' p = some (name, value) ∧ Recovers f name value)
      forged ((renderRecord forged).splitOn ' ') :=
  ⟨by decide +kernel, (record_recovers forged).1,
    (record_recovers forged).2.1 (List.cons_ne_nil _ _)⟩

/-- A record of no field splits into one piece, with no `=` in it. -/
theorem empty_record_has_a_piece :
    (renderRecord []).splitOn ' ' = [[]] ∧ ([] : Str).count '=' = 0 ∧
      ¬List.Forall₂ (fun (f : AuditField) p => p.count '=' = 1 ∧
        ∃ name value, splitOnce '=' p = some (name, value) ∧ Recovers f name value)
        [] ((renderRecord []).splitOn ' ') := by
  refine ⟨rfl, rfl, ?_⟩
  intro h
  cases h

end RecordSample

end McpRe.Audit

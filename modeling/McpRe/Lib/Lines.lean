import McpRe.Lib.Text

/-!
# Lines

Texts over an alphabet with a carriage return and a line feed. A strict reader ends its lines at the
pair of the two only (`split`); a lenient one also at either by itself, and ends a header at its
first empty line (`readHead`). On a text in which neither stands alone (`Paired`) the two read the
same lines (`readHead_of_bare`). Splitting commutes with an encoding of the letters that keeps the
two apart from the rest (`split_flatMap`), as UTF-8 does (`split_utf8`).
-/

namespace Lib.Lines

section

variable {α : Type*} [DecidableEq α] (cr lf : α)

/-- The pieces of a text between the pairs. -/
def split : List α → List (List α)
  | [] => [[]]
  | [a] => [[a]]
  | a :: b :: s =>
    if a = cr ∧ b = lf then [] :: split s
    else (split (b :: s)).modifyHead (a :: ·)

/-- Every carriage return is in front of a line feed, and every line feed behind one. -/
def Paired : List α → Prop
  | [] => True
  | [a] => a ≠ cr ∧ a ≠ lf
  | a :: b :: s => if a = cr ∧ b = lf then Paired s else (a ≠ cr ∧ a ≠ lf) ∧ Paired (b :: s)

def splitHead : List α → Option (List α × List α)
  | [] => none
  | a :: s =>
    if [cr, lf, cr, lf].isPrefixOf (a :: s) then some ([], (a :: s).drop 4)
    else (splitHead s).map fun p => (a :: p.1, p.2)

/-- The lines of a lenient reader up to the first empty one, and what is behind it; the first
argument is what was read of the line. -/
def readHead (line : List α) : List α → Option (List (List α) × List α)
  | [] => none
  | [a] => if (a = cr ∨ a = lf) ∧ line = [] then some ([], []) else none
  | a :: b :: s =>
    if a = cr ∧ b = lf then
      if line = [] then some ([], s) else (readHead [] s).map fun p => (line :: p.1, p.2)
    else if a = cr ∨ a = lf then
      if line = [] then some ([], b :: s)
      else (readHead [] (b :: s)).map fun p => (line :: p.1, p.2)
    else readHead (line ++ [a]) (b :: s)

def Bare (l : List α) : Prop := cr ∉ l ∧ lf ∉ l

instance (l : List α) : Decidable (Bare cr lf l) := inferInstanceAs (Decidable (_ ∧ _))

variable {cr lf}

omit [DecidableEq α] in
theorem bare_nil : Bare cr lf [] := ⟨List.not_mem_nil, List.not_mem_nil⟩

omit [DecidableEq α] in
theorem bare_cons {a : α} {l : List α} :
    Bare cr lf (a :: l) ↔ (a ≠ cr ∧ a ≠ lf) ∧ Bare cr lf l := by
  simp only [Bare, List.mem_cons, not_or, ne_comm (a := a), ne_eq]
  tauto

/-! ## Splitting -/

theorem split_ne_nil (s : List α) : split cr lf s ≠ [] := by
  induction s using split.induct cr lf with
  | case1 => exact List.cons_ne_nil _ _
  | case2 a => exact List.cons_ne_nil _ _
  | case3 a b s hpair ih =>
    rw [split, if_pos hpair]
    exact List.cons_ne_nil _ _
  | case4 a b s hpair ih =>
    rw [split, if_neg hpair]
    cases hsplit : split cr lf (b :: s) with
    | nil => exact absurd hsplit ih
    | cons x xs => exact List.cons_ne_nil _ _

theorem split_cons_of_not_pair {a : α} {s : List α} (h : ¬(a = cr ∧ s.head? = some lf)) :
    split cr lf (a :: s) = (split cr lf s).modifyHead (a :: ·) := by
  cases s with
  | nil => rfl
  | cons b s =>
    have hpair : ¬(a = cr ∧ b = lf) := fun hp => h ⟨hp.1, congrArg some hp.2⟩
    rw [split, if_neg hpair]

theorem split_pair (s : List α) : split cr lf (cr :: lf :: s) = [] :: split cr lf s := by
  rw [split, if_pos ⟨rfl, rfl⟩]

theorem split_append {l : List α} (h : cr ∉ l) (s : List α) :
    split cr lf (l ++ s) = (split cr lf s).modifyHead (l ++ ·) := by
  induction l with
  | nil =>
    cases hsplit : split cr lf s with
    | nil => exact absurd hsplit (split_ne_nil s)
    | cons x xs => rw [List.nil_append, hsplit]; rfl
  | cons a l ih =>
    rw [List.mem_cons, not_or] at h
    rw [List.cons_append, split_cons_of_not_pair (fun hp => h.1 hp.1.symm), ih h.2,
      List.modifyHead_modifyHead]
    rfl

/-- A text is its lines, with a pair between them. -/
theorem intercalate_split (s : List α) : [cr, lf].intercalate (split cr lf s) = s := by
  induction s using split.induct cr lf with
  | case1 => rfl
  | case2 a => simp [split]
  | case3 a b s hpair ih =>
    obtain ⟨rfl, rfl⟩ := hpair
    rw [split_pair, List.intercalate_cons_of_ne_nil (split_ne_nil s), ih]
    rfl
  | case4 a b s hpair ih =>
    rw [split, if_neg hpair]
    cases hsplit : split cr lf (b :: s) with
    | nil => exact absurd hsplit (split_ne_nil _)
    | cons x xs =>
      rw [hsplit] at ih
      rw [List.modifyHead_cons]
      cases xs with
      | nil => simpa using ih
      | cons y ys =>
        rw [List.intercalate_cons_cons] at ih ⊢
        rw [List.cons_append, List.cons_append, ih]

/-- **Neither letter stands alone in a text exactly when neither stands in its lines.** -/
theorem paired_iff {s : List α} : Paired cr lf s ↔ ∀ l ∈ split cr lf s, Bare cr lf l := by
  induction s using split.induct cr lf with
  | case1 => simp [Paired, split, bare_nil]
  | case2 a => simp [Paired, split, bare_cons, bare_nil]
  | case3 a b s hpair ih =>
    obtain ⟨rfl, rfl⟩ := hpair
    rw [Paired, if_pos ⟨rfl, rfl⟩, split_pair, List.forall_mem_cons, ih]
    exact ⟨fun h => ⟨bare_nil, h⟩, fun h => h.2⟩
  | case4 a b s hpair ih =>
    rw [Paired, if_neg hpair, ih, split, if_neg hpair]
    cases hsplit : split cr lf (b :: s) with
    | nil => exact absurd hsplit (split_ne_nil _)
    | cons x xs =>
      rw [List.modifyHead_cons, List.forall_mem_cons, List.forall_mem_cons, bare_cons]
      simp only [and_assoc]

/-! ## The head of a message -/

/-- The head ends at the first empty line. -/
theorem splitHead_eq_some {raw head body : List α} (h : splitHead cr lf raw = some (head, body)) :
    raw = head ++ [cr, lf, cr, lf] ++ body ∧
      ∀ head' body', raw = head' ++ [cr, lf, cr, lf] ++ body' → head.length ≤ head'.length := by
  induction raw generalizing head with
  | nil => cases h
  | cons a s ih =>
    rw [splitHead] at h
    split_ifs at h with hfound
    · cases h
      refine ⟨?_, fun head' body' _ => Nat.zero_le _⟩
      obtain ⟨t, ht⟩ := List.isPrefixOf_iff_prefix.1 hfound
      rw [← ht]
      rfl
    · cases hs : splitHead cr lf s with
      | none =>
        rw [hs] at h
        cases h
      | some p =>
        rw [hs] at h
        cases h
        obtain ⟨heq, hfirst⟩ := ih hs
        refine ⟨by rw [heq]; rfl, ?_⟩
        intro head' body' hraw
        cases head' with
        | nil =>
          refine absurd (List.isPrefixOf_iff_prefix.2 ⟨body', ?_⟩) hfound
          exact hraw.symm
        | cons a' head' =>
          have htail := hfirst head' body' (List.cons.inj hraw).2
          simpa using htail

/-! ## The lenient reader -/

/-- The lenient reader takes a line to the pair behind it. -/
theorem readHead_append {l : List α} (h : Bare cr lf l) (line s : List α) :
    readHead cr lf line (l ++ cr :: lf :: s)
      = if line ++ l = [] then some ([], s)
        else (readHead cr lf [] s).map fun p => ((line ++ l) :: p.1, p.2) := by
  induction l generalizing line with
  | nil => simp only [List.nil_append, List.append_nil, readHead, and_self, if_true]
  | cons a l ih =>
    obtain ⟨⟨hcr, hlf⟩, hl⟩ := bare_cons.1 h
    have hstep : ∀ t, t ≠ [] →
        readHead cr lf line (a :: t) = readHead cr lf (line ++ [a]) t := by
      intro t ht
      cases t with
      | nil => exact absurd rfl ht
      | cons b t =>
        rw [readHead, if_neg (fun hp => hcr hp.1), if_neg (not_or.2 ⟨hcr, hlf⟩)]
    rw [List.cons_append, hstep _ (by simp), ih hl, List.append_assoc, List.singleton_append]

/-- **The lenient reader reads lines that hold neither letter as they were joined.** -/
theorem readHead_of_bare {ls : List (List α)} (hls : ls ≠ [])
    (hbare : ∀ l ∈ ls, Bare cr lf l ∧ l ≠ []) (body : List α) :
    readHead cr lf [] ([cr, lf].intercalate ls ++ [cr, lf, cr, lf] ++ body) = some (ls, body) := by
  have hlast : readHead cr lf [] (cr :: lf :: body) = some ([], body) := by
    rw [readHead, if_pos ⟨rfl, rfl⟩, if_pos rfl]
  induction ls with
  | nil => exact absurd rfl hls
  | cons l ls ih =>
    obtain ⟨hl, hnil⟩ := hbare l List.mem_cons_self
    have hfinish : ∀ s, readHead cr lf [] (l ++ cr :: lf :: s)
        = (readHead cr lf [] s).map fun p => (l :: p.1, p.2) := by
      intro s
      rw [readHead_append hl, List.nil_append, if_neg hnil]
    cases ls with
    | nil =>
      have hone : [cr, lf].intercalate [l] ++ [cr, lf, cr, lf] ++ body
          = l ++ cr :: lf :: cr :: lf :: body := by simp
      rw [hone, hfinish, hlast, Option.map_some]
    | cons l' ls =>
      have hjoin : [cr, lf].intercalate (l :: l' :: ls) ++ [cr, lf, cr, lf] ++ body
          = l ++ cr :: lf :: ([cr, lf].intercalate (l' :: ls) ++ [cr, lf, cr, lf] ++ body) := by
        rw [List.intercalate_cons_cons]
        simp
      rw [hjoin, hfinish, ih (List.cons_ne_nil _ _) fun m hm => hbare m (List.mem_cons_of_mem _ hm),
        Option.map_some]

end

/-! ## Encodings -/

section

variable {α β : Type*} [DecidableEq α] [DecidableEq β] {cr lf : α} {cr' lf' : β}
  {enc : α → List β}

/-- **Splitting commutes with an encoding** that keeps the two letters apart from the others. -/
theorem split_flatMap (hne : cr' ≠ lf') (hcr : enc cr = [cr']) (hlf : enc lf = [lf'])
    (hother : ∀ a, a ≠ cr → a ≠ lf → enc a ≠ [] ∧ cr' ∉ enc a ∧ lf' ∉ enc a) (s : List α) :
    split cr' lf' (s.flatMap enc) = (split cr lf s).map fun l => l.flatMap enc := by
  have hmap : ∀ (a : α) (ls : List (List α)),
      (ls.modifyHead (a :: ·)).map (fun l => l.flatMap enc)
        = (ls.map fun l => l.flatMap enc).modifyHead (enc a ++ ·) := by
    intro a ls
    cases ls <;> rfl
  have hstart : ∀ (b : α) (s : List α), b ≠ lf → ((b :: s).flatMap enc).head? ≠ some lf' := by
    intro b s hb hhead
    rw [List.flatMap_cons] at hhead
    by_cases hbcr : b = cr
    · rw [hbcr, hcr] at hhead
      exact hne (Option.some.inj hhead)
    · obtain ⟨hnil, -, hnot⟩ := hother b hbcr hb
      rw [List.head?_append_of_ne_nil _ hnil] at hhead
      exact hnot (List.mem_of_mem_head? hhead)
  induction s using split.induct cr lf with
  | case1 => rfl
  | case2 a =>
    simp only [List.flatMap_cons, List.flatMap_nil, List.append_nil, split, List.map_cons,
      List.map_nil]
    by_cases hacr : a = cr
    · rw [hacr, hcr, split]
    · by_cases half : a = lf
      · rw [half, hlf, split]
      · have happend : split cr' lf' (enc a ++ []) = _ := split_append (hother a hacr half).2.1 []
        rwa [List.append_nil, split, List.modifyHead_cons, List.append_nil] at happend
  | case3 a b s hpair ih =>
    obtain ⟨rfl, rfl⟩ := hpair
    rw [List.flatMap_cons, List.flatMap_cons, hcr, hlf, List.singleton_append,
      List.singleton_append, split_pair, split_pair, ih]
    rfl
  | case4 a b s hpair ih =>
    have hsplit : split cr lf (a :: b :: s) = (split cr lf (b :: s)).modifyHead (a :: ·) := by
      rw [split, if_neg hpair]
    rw [hsplit, hmap, ← ih, List.flatMap_cons]
    by_cases hacr : a = cr
    · have hblf : b ≠ lf := fun hb => hpair ⟨hacr, hb⟩
      rw [hacr, hcr, List.singleton_append,
        split_cons_of_not_pair fun hp => hstart b s hblf hp.2]
      rfl
    · refine split_append ?_ _
      by_cases half : a = lf
      · rw [half, hlf]
        simpa using hne
      · exact (hother a hacr half).2.1

end

/-! ## UTF-8 -/

open Lib.Text

theorem utf8_of_fromUtf8 {bytes : Bytes} {s : Str} (h : fromUtf8 bytes = some s) :
    bytes = utf8 s := by
  have hvalid : bytes.toByteArray.IsValidUTF8 := by
    rw [← ByteArray.validateUTF8_eq_true_iff, ← ByteArray.isSome_utf8Decode?_eq_validateUTF8]
    rw [fromUtf8, Option.map_eq_some_iff] at h
    obtain ⟨a, ha, -⟩ := h
    rw [ha, Option.isSome_some]
  obtain ⟨m, hm⟩ := hvalid
  have hbytes : bytes = utf8 m := by
    have hdata : bytes.toByteArray.data = (utf8 m).toByteArray.data := congrArg ByteArray.data hm
    rw [List.data_toByteArray, List.data_toByteArray] at hdata
    simpa using hdata
  rw [hbytes, fromUtf8_utf8] at h
  rw [hbytes, Option.some.inj h]

theorem toNat_eq_of_mem_utf8EncodeChar {c : Char} {b : UInt8} (hb : b < 128)
    (h : b ∈ String.utf8EncodeChar c) : c.toNat = b.toNat := by
  have hlt : b.toNat < 128 := hb
  have hcode : c.val.toNat = c.toNat := rfl
  rw [String.utf8EncodeChar] at h
  split_ifs at h with h1 h2 h3
  · rw [List.mem_singleton.1 h, UInt8.toNat_ofNat', hcode]
    omega
  -- the bytes of a longer code all have the high bit
  all_goals
    simp only [List.mem_cons, List.not_mem_nil, or_false] at h
    exfalso
  · rcases h with h | h
    all_goals
      rw [h, UInt8.toNat_ofNat'] at hlt
      omega
  · rcases h with h | h | h
    all_goals
      rw [h, UInt8.toNat_ofNat'] at hlt
      omega
  · rcases h with h | h | h | h
    all_goals
      rw [h, UInt8.toNat_ofNat'] at hlt
      omega

theorem not_mem_utf8EncodeChar {c : Char} (hcr : c ≠ '\r') (hlf : c ≠ '\n') :
    String.utf8EncodeChar c ≠ [] ∧ 13 ∉ String.utf8EncodeChar c ∧
      10 ∉ String.utf8EncodeChar c := by
  refine ⟨String.utf8EncodeChar_ne_nil, fun h => hcr ?_, fun h => hlf ?_⟩
  · exact Char.toNat_inj.1 (toNat_eq_of_mem_utf8EncodeChar (by decide) h)
  · exact Char.toNat_inj.1 (toNat_eq_of_mem_utf8EncodeChar (by decide) h)

/-- The lines of an encoded text are its encoded lines. -/
theorem split_utf8 (s : Str) : split 13 10 (utf8 s) = (split '\r' '\n' s).map utf8 := by
  have hcr : String.utf8EncodeChar '\r' = [13] := rfl
  have hlf : String.utf8EncodeChar '\n' = [10] := rfl
  exact split_flatMap (by decide) hcr hlf (fun _ => not_mem_utf8EncodeChar) s

theorem bare_utf8 {s : Str} : Bare 13 10 (utf8 s) ↔ Bare '\r' '\n' s := by
  induction s with
  | nil => exact ⟨fun _ => bare_nil, fun _ => bare_nil⟩
  | cons c s ih =>
    have hcons : utf8 (c :: s) = String.utf8EncodeChar c ++ utf8 s := rfl
    rw [bare_cons, ← ih, hcons]
    simp only [Bare, List.mem_append, not_or]
    constructor
    · rintro ⟨⟨hcr, hcrs⟩, hlf, hlfs⟩
      refine ⟨⟨?_, ?_⟩, hcrs, hlfs⟩
      · rintro rfl
        exact hcr List.mem_cons_self
      · rintro rfl
        exact hlf List.mem_cons_self
    · rintro ⟨⟨hcr, hlf⟩, hcrs, hlfs⟩
      obtain ⟨-, hnotcr, hnotlf⟩ := not_mem_utf8EncodeChar hcr hlf
      exact ⟨⟨hnotcr, hcrs⟩, hnotlf, hlfs⟩

end Lib.Lines

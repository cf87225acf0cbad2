import McpRe.Lib.Text

/-!
# Splitting at separators outside quoted strings

A one-pass scanner over text in which a `"` opens and closes a string and, inside a string, a `\`
escapes one character. `pieces sep` cuts a text at every `sep` that stands outside the strings.

* `eq_flatten_pieces`: nothing is lost but the separators;
* `pieces_flatten`: pieces that are `Closed` (they open no string they do not close, and have no
  separator outside their strings) are found again;
* `noneOutside_split`: a character that is absent outside the strings of a text is absent
  outside the strings of each piece.
-/

namespace Lib.QuoteSplit

open Lib.Text

/-- Where the scanner stands: outside every string, inside one, or right after a `\` in one. -/
inductive Quote where
  | outside
  | inside
  | escaped
  deriving DecidableEq, Repr

/-- One character of the scan. -/
def Quote.next : Quote → Char → Quote
  | .outside, c => if c = '"' then .inside else .outside
  | .inside, c => if c = '\\' then .escaped else if c = '"' then .outside else .inside
  | .escaped, _ => .inside

/-- Where the scan of `s` ends. -/
def Quote.after (q : Quote) (s : Str) : Quote :=
  s.foldl Quote.next q

@[simp]
theorem Quote.after_nil (q : Quote) : q.after [] = q := rfl

@[simp]
theorem Quote.after_cons (q : Quote) (c : Char) (s : Str) :
    q.after (c :: s) = (q.next c).after s := rfl

@[simp]
theorem Quote.after_append (q : Quote) (s t : Str) : q.after (s ++ t) = (q.after s).after t := by
  simp [Quote.after]

/-- No character of `p` stands outside the strings of a text scanned from `q`. -/
def noneOutside (p : Char → Bool) : Quote → Str → Bool
  | _, [] => true
  | q, c :: cs => !(q = .outside && p c) && noneOutside p (q.next c) cs

@[simp]
theorem noneOutside_append (p : Char → Bool) (q : Quote) (s t : Str) :
    noneOutside p q (s ++ t) = (noneOutside p q s && noneOutside p (q.after s) t) := by
  induction s generalizing q with
  | nil => simp [noneOutside]
  | cons c cs ih => simp [noneOutside, ih, Bool.and_assoc]

/-- The first piece of a text scanned from `q`, and the others. -/
def split (sep : Char) : Quote → Str → Str × List Str
  | _, [] => ([], [])
  | q, c :: cs =>
    if q = .outside ∧ c = sep then
      ([], (split sep .outside cs).1 :: (split sep .outside cs).2)
    else
      (c :: (split sep (q.next c) cs).1, (split sep (q.next c) cs).2)

/-- The pieces of `s` between the separators outside its strings. -/
def pieces (sep : Char) (s : Str) : List Str :=
  (split sep .outside s).1 :: (split sep .outside s).2

/-- The rest of a text after its first piece: each further piece behind its separator. -/
def behind (sep : Char) (ps : List Str) : Str :=
  ps.flatMap (sep :: ·)

@[simp]
theorem behind_nil (sep : Char) : behind sep [] = [] := rfl

@[simp]
theorem behind_cons (sep : Char) (p : Str) (ps : List Str) :
    behind sep (p :: ps) = sep :: (p ++ behind sep ps) := by
  simp [behind]

theorem split_eq_append (sep : Char) (q : Quote) (s : Str) :
    s = (split sep q s).1 ++ behind sep (split sep q s).2 := by
  induction s generalizing q with
  | nil => rfl
  | cons c cs ih =>
    rw [split]
    split_ifs with h
    · simpa [h.2] using ih .outside
    · simpa using ih (q.next c)

/-- **Splitting loses nothing** but the separators themselves. -/
theorem eq_flatten_pieces {sep : Char} {s p : Str} {ps : List Str} (h : pieces sep s = p :: ps) :
    s = p ++ behind sep ps := by
  cases h
  exact split_eq_append sep .outside s

theorem split_append {sep : Char} {q : Quote} {s : Str} (h : noneOutside (· == sep) q s)
    (t : Str) :
    split sep q (s ++ t) = (s ++ (split sep (q.after s) t).1, (split sep (q.after s) t).2) := by
  induction s generalizing q with
  | nil => rfl
  | cons c cs ih =>
    simp only [noneOutside, Bool.and_eq_true, Bool.not_eq_true'] at h
    have hc : ¬ (q = .outside ∧ c = sep) := by
      rintro ⟨rfl, rfl⟩
      simp at h
    simp [split, hc, ih h.2]

/-- What is absent outside the strings of a text is absent outside the strings of its pieces. -/
theorem noneOutside_split {p : Char → Bool} {sep : Char} (hsep : sep ≠ '"') {q : Quote} {s : Str}
    (h : noneOutside p q s) :
    noneOutside p q (split sep q s).1 ∧ ∀ x ∈ (split sep q s).2, noneOutside p .outside x := by
  induction s generalizing q with
  | nil => simp [split, noneOutside]
  | cons c cs ih =>
    simp only [noneOutside, Bool.and_eq_true] at h
    obtain ⟨hfirst, hrest⟩ := ih h.2
    rw [split]
    split_ifs with hcut
    · -- a separator leaves the scanner outside, where the next piece starts
      obtain ⟨rfl, rfl⟩ := hcut
      have hq : Quote.outside.next c = .outside := by simp [Quote.next, hsep]
      rw [hq] at hfirst hrest
      exact ⟨rfl, by simpa using ⟨hfirst, hrest⟩⟩
    · exact ⟨by simp [noneOutside, h.1, hfirst], hrest⟩

/-! ## Closed text -/

/-- Text that closes every string it opens and has no character of `p` outside its strings. -/
structure Closed (p : Char → Bool) (s : Str) : Prop where
  after_eq : Quote.outside.after s = .outside
  none : noneOutside p .outside s = true

theorem Closed.nil (p : Char → Bool) : Closed p [] := ⟨rfl, rfl⟩

theorem Closed.append {p : Char → Bool} {s t : Str} (hs : Closed p s) (ht : Closed p t) :
    Closed p (s ++ t) where
  after_eq := by rw [Quote.after_append, hs.after_eq, ht.after_eq]
  none := by rw [noneOutside_append, hs.none, hs.after_eq, ht.none]; rfl

theorem Closed.of_plain {p : Char → Bool} {s : Str} (hq : '"' ∉ s) (hp : ∀ c ∈ s, p c = false) :
    Closed p s := by
  induction s with
  | nil => exact .nil p
  | cons c cs ih =>
    simp only [List.mem_cons, not_or, forall_eq_or_imp] at hq hp
    obtain ⟨ha, hn⟩ := ih hq.2 hp.2
    have hc : Quote.outside.next c = .outside := by simp [Quote.next, Ne.symm hq.1]
    exact ⟨by simp [hc, ha], by simp [noneOutside, hc, hp.1, hn]⟩

theorem inside_of_forall {p : Char → Bool} {s : Str} (h : ∀ c ∈ s, c ≠ '"' ∧ c ≠ '\\') :
    Quote.inside.after s = .inside ∧ noneOutside p .inside s = true := by
  induction s with
  | nil => exact ⟨rfl, rfl⟩
  | cons c cs ih =>
    simp only [List.mem_cons, forall_eq_or_imp] at h
    have hc : Quote.inside.next c = .inside := by simp [Quote.next, h.1.1, h.1.2]
    simpa [noneOutside, hc] using ih h.2

/-- A string in quotes is closed when it needs no escape. -/
theorem Closed.quoted {p : Char → Bool} {s : Str} (hp : p '"' = false)
    (h : ∀ c ∈ s, c ≠ '"' ∧ c ≠ '\\') : Closed p ('"' :: s ++ ['"']) := by
  obtain ⟨ha, hn⟩ := inside_of_forall (p := p) h
  have hopen : Quote.outside.next '"' = .inside := rfl
  exact ⟨by simp [ha, Quote.next], by simp [noneOutside, hopen, hp, hn, ha]⟩

theorem noneOutside_mono {p p' : Char → Bool} (hpp : ∀ c, p c = true → p' c = true) {q : Quote}
    {s : Str} (h : noneOutside p' q s = true) : noneOutside p q s = true := by
  induction s generalizing q with
  | nil => rfl
  | cons c cs ih =>
    simp only [noneOutside, Bool.and_eq_true, Bool.not_eq_true', Bool.and_eq_false_iff] at h ⊢
    refine ⟨h.1.imp_right fun hc => ?_, ih h.2⟩
    rw [Bool.eq_false_iff] at hc ⊢
    exact fun hp => hc (hpp c hp)

theorem Closed.mono {p p' : Char → Bool} (hpp : ∀ c, p c = true → p' c = true) {s : Str}
    (h : Closed p' s) : Closed p s :=
  ⟨h.after_eq, noneOutside_mono hpp h.none⟩

theorem Closed.behind {p : Char → Bool} {sep : Char} (hq : sep ≠ '"') (hsep : p sep = false)
    {ps : List Str} (h : ∀ x ∈ ps, Closed p x) : Closed p (behind sep ps) := by
  induction ps with
  | nil => exact .nil p
  | cons x xs ih =>
    have hhead : Closed p [sep] := .of_plain (by simpa using hq.symm) (by simpa using hsep)
    rw [behind_cons, ← List.singleton_append]
    exact hhead.append ((h x (by simp)).append (ih fun y hy => h y (by simp [hy])))

theorem pieces_of_closed {sep : Char} {s : Str} (h : Closed (· == sep) s) :
    pieces sep s = [s] := by
  have := split_append h.none []
  simp only [List.append_nil, split] at this
  rw [pieces, this]

/-- **Closed pieces are found again.** -/
theorem pieces_flatten {sep : Char} {p : Str} {ps : List Str}
    (h : ∀ x ∈ p :: ps, Closed (· == sep) x) : pieces sep (p ++ behind sep ps) = p :: ps := by
  induction ps generalizing p with
  | nil => simpa using pieces_of_closed (h p (by simp))
  | cons x xs ih =>
    have hp := h p (by simp)
    have := ih fun y hy => h y (List.mem_cons_of_mem _ hy)
    rw [pieces, split_append hp.none, hp.after_eq, behind_cons, split, if_pos ⟨rfl, rfl⟩]
    simpa [pieces] using this

end Lib.QuoteSplit

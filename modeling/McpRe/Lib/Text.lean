import Mathlib.Tactic
import Mathlib.Data.List.DropRight

/-!
# Text

The string operations of a Rust `str`, over the list of its characters: trimming, splitting once,
stripping an affix, ASCII case folding and UTF-8.

* `trim_eq_self` and `exists_eq_append_trim` say what trimming may remove;
* `splitOnce_eq_some`, `stripPrefix_eq_some` and `stripSuffix_eq_some` characterise an accepted
  split by the text it came from;
* `utf8_injective`: two texts with the same bytes are the same text.
-/

namespace Lib.Text

/-- A Rust `String` or `&str`, by its characters. -/
abbrev Str := List Char

/-- A Rust `Vec<u8>` or `&[u8]`. -/
abbrev Bytes := List UInt8

/-- One instance for all modules that look a text up in a list. -/
instance instLawfulBEqStr : LawfulBEq (List Char) := inferInstance

/-- A check of every character, in a form that computes: that of `∀ c ∈ s, p c` itself may run over
all characters there are. -/
theorem forall_mem_of_all {s : Str} {p : Char → Prop} [DecidablePred p]
    (h : (s.all fun c => decide (p c)) = true) : ∀ c ∈ s, p c := by
  simpa using h

/-! ## Whitespace -/

/-- `char::is_whitespace`: the Unicode `White_Space` property. -/
def isWhitespace (c : Char) : Bool :=
  let n := c.toNat
  (9 ≤ n && n ≤ 13) || n == 0x20 || n == 0x85 || n == 0xA0 || n == 0x1680
    || (0x2000 ≤ n && n ≤ 0x200A) || n == 0x2028 || n == 0x2029 || n == 0x202F
    || n == 0x205F || n == 0x3000

def trim (s : Str) : Str :=
  (s.dropWhile isWhitespace).rdropWhile isWhitespace

/-- No whitespace at either end. -/
structure Trimmed (s : Str) : Prop where
  head : ∀ c ∈ s.head?, isWhitespace c = false
  last : ∀ c ∈ s.getLast?, isWhitespace c = false

theorem Trimmed.append {s t : Str} (hs : s ≠ []) (ht : t ≠ [])
    (hhead : ∀ c ∈ s.head?, isWhitespace c = false)
    (hlast : ∀ c ∈ t.getLast?, isWhitespace c = false) : Trimmed (s ++ t) where
  head := by simpa [List.head?_append_of_ne_nil _ hs] using hhead
  last := by simpa [List.getLast?_append_of_ne_nil _ ht] using hlast

theorem trim_eq_self {s : Str} (h : Trimmed s) : trim s = s := by
  have hd : s.dropWhile isWhitespace = s := by
    cases s with
    | nil => rfl
    | cons c cs => simp [h.head c (by simp)]
  rw [trim, hd, List.rdropWhile_eq_self_iff]
  intro hs
  simpa using h.last _ (List.getLast?_eq_some_getLast hs)

theorem exists_eq_append_trim (s : Str) :
    ∃ l r, s = l ++ trim s ++ r ∧
      (∀ c ∈ l, isWhitespace c = true) ∧ ∀ c ∈ r, isWhitespace c = true := by
  refine ⟨s.takeWhile isWhitespace, (s.dropWhile isWhitespace).rtakeWhile isWhitespace, ?_, ?_, ?_⟩
  · rw [trim, List.append_assoc, List.rdropWhile_append_rtakeWhile,
      List.takeWhile_append_dropWhile]
  · exact fun c hc => List.mem_takeWhile_imp hc
  · exact fun c hc => List.mem_rtakeWhile_imp hc

theorem trim_append_left {l : Str} (hl : ∀ c ∈ l, isWhitespace c = true) (s : Str) :
    trim (l ++ s) = trim s := by
  rw [trim, List.dropWhile_append_of_pos hl, trim]

theorem trim_append_right {r : Str} (hr : ∀ c ∈ r, isWhitespace c = true) (s : Str) :
    trim (s ++ r) = trim s := by
  have hdrop : ∀ t : Str, (t ++ r).rdropWhile isWhitespace = t.rdropWhile isWhitespace := by
    intro t
    rw [List.rdropWhile, List.reverse_append, List.dropWhile_append_of_pos (by simpa using hr),
      List.rdropWhile]
  by_cases hs : ∀ c ∈ s, isWhitespace c = true
  · -- only whitespace: both trim to nothing
    have hnil : ∀ t : Str, (∀ c ∈ t, isWhitespace c = true) → trim t = [] := by
      intro t ht
      rw [trim, List.dropWhile_eq_nil_iff.2 ht]
      rfl
    rw [hnil s hs, hnil]
    intro c hc
    exact (List.mem_append.1 hc).elim (hs c) (hr c)
  · have hne : s.dropWhile isWhitespace ≠ [] := fun h => hs (List.dropWhile_eq_nil_iff.1 h)
    rw [trim, List.dropWhile_append, if_neg (by simpa using hne), hdrop, trim]

/-! ## Splitting and stripping -/

/-- `str::split_once` at a character. -/
def splitOnce (sep : Char) : Str → Option (Str × Str)
  | [] => none
  | c :: cs =>
    if c = sep then some ([], cs)
    else (splitOnce sep cs).map fun p => (c :: p.1, p.2)

theorem splitOnce_eq_some {sep : Char} {s a b : Str} :
    splitOnce sep s = some (a, b) ↔ s = a ++ sep :: b ∧ sep ∉ a := by
  induction s generalizing a with
  | nil => simp [splitOnce]
  | cons c cs ih =>
    by_cases hc : c = sep
    · subst hc
      cases a <;> simp [splitOnce, eq_comm]
      grind
    · cases a with
      | nil => simp [splitOnce, hc]
      | cons x xs =>
        have := @ih xs
        simp only [splitOnce, hc, if_false, Option.map_eq_some_iff]
        constructor
        · rintro ⟨⟨p, q⟩, hp, heq⟩
          grind
        · grind

theorem splitOnce_append {sep : Char} {a b : Str} (h : sep ∉ a) :
    splitOnce sep (a ++ sep :: b) = some (a, b) :=
  splitOnce_eq_some.2 ⟨rfl, h⟩

def stripPrefix : Str → Str → Option Str
  | [], s => some s
  | _ :: _, [] => none
  | p :: ps, c :: cs => if p = c then stripPrefix ps cs else none

theorem stripPrefix_eq_some {p s t : Str} : stripPrefix p s = some t ↔ s = p ++ t := by
  induction p generalizing s with
  | nil => simp [stripPrefix]
  | cons x xs ih =>
    cases s with
    | nil => simp [stripPrefix]
    | cons c cs =>
      by_cases hc : x = c
      · simp [stripPrefix, hc, ih]
      · simp [stripPrefix, hc, eq_comm (a := c)]

/-- `str::split_once` at a text. -/
def splitOnceAt (sep : Str) : Str → Option (Str × Str)
  | [] => (stripPrefix sep []).map fun t => ([], t)
  | c :: cs =>
    match stripPrefix sep (c :: cs) with
    | some t => some ([], t)
    | none => (splitOnceAt sep cs).map fun p => (c :: p.1, p.2)

/-- `str::contains` of a text. -/
def containsText (sub s : Str) : Bool := (splitOnceAt sub s).isSome

theorem containsText_append (a sub b : Str) : containsText sub (a ++ sub ++ b) = true := by
  have hstrip : ∀ t, stripPrefix sub (sub ++ t) = some t := fun t => stripPrefix_eq_some.2 rfl
  induction a with
  | nil =>
    cases sub with
    | nil => cases b <;> simp [containsText, splitOnceAt, stripPrefix]
    | cons x xs =>
      have := hstrip b
      rw [List.cons_append] at this
      simp [containsText, splitOnceAt, this]
  | cons c cs ih =>
    rw [containsText, List.cons_append, List.cons_append, splitOnceAt]
    cases stripPrefix sub (c :: (cs ++ sub ++ b)) with
    | some t => rfl
    | none => simpa [containsText] using ih

def stripSuffix (p s : Str) : Option Str :=
  (stripPrefix p.reverse s.reverse).map List.reverse

theorem stripSuffix_eq_some {p s t : Str} : stripSuffix p s = some t ↔ s = t ++ p := by
  simp only [stripSuffix, Option.map_eq_some_iff, stripPrefix_eq_some]
  constructor
  · rintro ⟨r, hr, rfl⟩
    rw [← List.reverse_inj, hr]
    simp
  · rintro rfl
    exact ⟨t.reverse, by simp, by simp⟩

theorem exists_eq_append_of_containsText {sub s : Str} (h : containsText sub s = true) :
    ∃ a b, s = a ++ sub ++ b := by
  induction s with
  | nil =>
    simp only [containsText, splitOnceAt, Option.isSome_map, Option.isSome_iff_exists] at h
    obtain ⟨t, ht⟩ := h
    exact ⟨[], t, stripPrefix_eq_some.1 ht⟩
  | cons c cs ih =>
    rw [containsText, splitOnceAt] at h
    split at h
    next t ht => exact ⟨[], t, stripPrefix_eq_some.1 ht⟩
    next =>
      rw [Option.isSome_map] at h
      obtain ⟨a, b, hab⟩ := ih h
      exact ⟨c :: a, b, by rw [hab]; rfl⟩

theorem intercalate_append {sep : Str} {xs ys : List Str} (hx : xs ≠ []) (hy : ys ≠ []) :
    sep.intercalate (xs ++ ys) = sep.intercalate xs ++ sep ++ sep.intercalate ys := by
  induction xs with
  | nil => exact absurd rfl hx
  | cons x xs ih =>
    rcases eq_or_ne xs [] with rfl | hxs
    · simp [List.intercalate_cons_of_ne_nil hy]
    · rw [List.cons_append, List.intercalate_cons_of_ne_nil (by simp [hxs]),
        List.intercalate_cons_of_ne_nil hxs, ih hxs]
      simp

/-- A text splits into non-empty pieces exactly when no separator stands at an end or beside
another. -/
theorem nil_notMem_splitOn_iff {sep : Char} {s : Str} :
    [] ∉ s.splitOn sep ↔ s ≠ [] ∧ s.head? ≠ some sep ∧ s.getLast? ≠ some sep ∧
      containsText [sep, sep] s = false := by
  constructor
  · intro h
    refine ⟨?_, ?_, ?_, ?_⟩
    · rintro rfl
      simp at h
    · intro hhead
      obtain ⟨t, rfl⟩ := List.head?_eq_some_iff.1 hhead
      have := List.splitOn_append_cons_self (a := sep) [] t
      simp_all
    · intro hlast
      obtain ⟨t, rfl⟩ := List.getLast?_eq_some_iff.1 hlast
      have := List.splitOn_append_cons_self (a := sep) t []
      simp_all
    · rw [Bool.eq_false_iff]
      intro hsub
      obtain ⟨a, b, rfl⟩ := exists_eq_append_of_containsText hsub
      have hcut := List.splitOn_append_cons_self (a := sep) a (sep :: b)
      have hnext := List.splitOn_append_cons_self (a := sep) [] b
      simp_all
  · rintro ⟨hne, hhead, hlast, hsub⟩ hmem
    obtain ⟨pre, post, hsplit⟩ := List.append_of_mem hmem
    have hs : [sep].intercalate (s.splitOn sep) = s := List.intercalate_splitOn sep
    rw [hsplit] at hs
    cases post with
    | nil =>
      rcases eq_or_ne pre [] with rfl | hpre
      · exact hne (by simpa using hs.symm)
      · rw [intercalate_append hpre (by simp)] at hs
        exact hlast (by simp [← hs])
    | cons q qs =>
      have hpost : [sep].intercalate ([] :: q :: qs) = sep :: [sep].intercalate (q :: qs) := by
        simp [List.intercalate_cons_cons]
      rcases eq_or_ne pre [] with rfl | hpre
      · rw [List.nil_append, hpost] at hs
        exact hhead (by simp [← hs])
      · rw [intercalate_append hpre (by simp), hpost] at hs
        have := containsText_append ([sep].intercalate pre) [sep, sep] ([sep].intercalate (q :: qs))
        rw [← hs] at hsub
        simp_all

theorem notMem_of_mem_splitOn {sep : Char} {s p : Str} (h : p ∈ s.splitOn sep) : sep ∉ p := by
  induction s generalizing p with
  | nil =>
    have hp : p = [] := by simpa using h
    simp [hp]
  | cons c cs ih =>
    rw [List.splitOn_cons_eq_if_modifyHead] at h
    split_ifs at h with hc
    · rcases List.mem_cons.1 h with rfl | h
      · simp
      · exact ih h
    · cases hsplit : cs.splitOn sep with
      | nil => exact absurd hsplit (List.splitOn_ne_nil sep cs)
      | cons x xs =>
        rw [hsplit, List.modifyHead_cons] at h
        have hx : sep ∉ x := ih (by simp [hsplit])
        rcases List.mem_cons.1 h with rfl | h
        · have hne : sep ≠ c := fun h => hc (by rw [h]; exact beq_self_eq_true c)
          simp [hx, hne]
        · exact ih (by simp [hsplit, h])

theorem map_trim_splitOn {sep : Char} (hsep : isWhitespace sep = false) (s : Str) :
    (s.splitOn sep).map trim = ((trim s).splitOn sep).map trim := by
  obtain ⟨l, r, hs, hl, hr⟩ := exists_eq_append_trim s
  have hnl : sep ∉ l := fun h => by simp [hl sep h] at hsep
  have hnr : sep ∉ r := fun h => by simp [hr sep h] at hsep
  set t := trim s with ht
  have hfree : ∀ p ∈ t.splitOn sep, sep ∉ p := fun p hp => notMem_of_mem_splitOn hp
  have hjoin : [sep].intercalate (t.splitOn sep) = t := List.intercalate_splitOn sep
  -- put the whitespace into the pieces at the two ends and split the joined text again
  rcases List.eq_nil_or_concat (t.splitOn sep) with hnil | ⟨init, last, hpieces⟩
  · exact absurd hnil (List.splitOn_ne_nil sep t)
  rw [List.concat_eq_append] at hpieces
  rw [hpieces] at hfree hjoin
  cases init with
  | nil =>
    have hlast : sep ∉ last := hfree last (by simp)
    have hsplit : s.splitOn sep = [l ++ last ++ r] := by
      have hwhole : sep ∉ l ++ last ++ r := by simp [hnl, hnr, hlast]
      rw [hs, ← hjoin]
      simpa using List.splitOn_eq_singleton hwhole
    rw [hsplit, hpieces]
    simp [trim_append_right hr, trim_append_left hl]
  | cons first mid =>
    have hjoined : s = [sep].intercalate ((l ++ first) :: mid ++ [last ++ r]) := by
      rw [hs, ← hjoin, List.cons_append, List.cons_append,
        List.intercalate_cons_of_ne_nil (by simp), List.intercalate_cons_of_ne_nil (by simp)]
      rcases eq_or_ne mid [] with rfl | hmid
      · simp
      · rw [intercalate_append hmid (by simp), intercalate_append hmid (by simp)]
        simp
    have hsplit : s.splitOn sep = (l ++ first) :: mid ++ [last ++ r] := by
      rw [hjoined]
      refine List.splitOn_intercalate sep ?_ (by simp)
      intro p hp
      simp only [List.cons_append, List.mem_cons, List.mem_append, List.not_mem_nil, or_false] at hp
      rcases hp with rfl | hp | rfl
      · simp [hnl, hfree first (by simp)]
      · exact hfree p (by simp [hp])
      · simp [hnr, hfree last (by simp)]
    rw [hsplit, hpieces]
    simp [trim_append_right hr, trim_append_left hl]

/-! ## ASCII case and UTF-8 -/

def eqIgnoreAsciiCase (a b : Str) : Bool :=
  a.map Char.toLower == b.map Char.toLower

/-- `str::as_bytes`. -/
def utf8 (s : Str) : Bytes :=
  s.flatMap String.utf8EncodeChar

theorem utf8_injective : Function.Injective utf8 := by
  intro s t h
  have h' : s.utf8Encode = t.utf8Encode := congrArg List.toByteArray h
  have := congrArg ByteArray.utf8Decode? h'
  simpa using this

/-- `str::from_utf8`. -/
def fromUtf8 (bytes : Bytes) : Option Str :=
  bytes.toByteArray.utf8Decode?.map Array.toList

@[simp]
theorem fromUtf8_utf8 (s : Str) : fromUtf8 (utf8 s) = some s := by
  have h : (utf8 s).toByteArray = s.utf8Encode := rfl
  simp [fromUtf8, h]

end Lib.Text

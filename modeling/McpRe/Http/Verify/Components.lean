import McpRe.Http.SignatureInput

/-!
# The inner list has one spelling

`parseCoveredComponents_eq_ok`: the reader accepts a list of components from exactly one text, the
one `innerList` prints, and only when no component is named twice.
-/

namespace McpRe.Http

open Lib Lib.Result Lib.Text Lib.QuoteSplit

/-! ## Identifiers -/

theorem ComponentName.ofText_text (n : ComponentName) : ofText n.text.toList = some n := by
  cases n <;> decide

theorem ComponentName.ofText_eq_some {s : Str} {n : ComponentName} :
    ofText s = some n ↔ s = n.text.toList := by
  constructor
  · intro h
    have := List.find?_some h
    exact (beq_iff_eq.1 this).symm
  · rintro rfl
    exact ofText_text n

/-- The characters of a component name: none of the structured-field delimiters. -/
def isNameChar (c : Char) : Bool :=
  c == '@' || c == '-' || (decide ('a' ≤ c) && decide (c ≤ 'z'))

theorem ComponentName.all_isNameChar (n : ComponentName) : n.text.toList.all isNameChar = true := by
  cases n <;> decide

theorem ComponentName.notMem_text {n : ComponentName} {c : Char} (h : isNameChar c = false) :
    c ∉ n.text.toList := by
  intro hc
  have := List.all_eq_true.1 n.all_isNameChar c hc
  rw [h] at this
  exact absurd this (by decide)

theorem parseComponent_identifier (c : CoveredComponent) :
    parseComponent c.identifier = .ok c := by
  obtain ⟨n, req⟩ := c
  cases req <;> cases n <;> decide

theorem parseComponent_eq_ok {item : Str} {c : CoveredComponent} :
    parseComponent item = .ok c ↔ item = c.identifier := by
  constructor
  · intro h
    simp only [parseComponent, bind_eq_ok, okOr_eq_ok, Option.bind_eq_some_iff,
      stripPrefix_eq_some, stripSuffix_eq_some, ComponentName.ofText_eq_some,
      Except.ok.injEq] at h
    obtain ⟨name, ⟨quoted, hpart, hquoted⟩, known, hknown, rfl⟩ := h
    rw [hquoted, hknown] at hpart
    split at hpart
    next p hp =>
      have hitem := stripSuffix_eq_some.1 hp
      simp only at hpart
      simp [hitem, hpart, CoveredComponent.identifier]
    next hp =>
      simp only at hpart
      simp [hpart, CoveredComponent.identifier]
  · rintro rfl
    exact parseComponent_identifier c

theorem identifier_ne_nil (c : CoveredComponent) : c.identifier ≠ [] := by
  simp [CoveredComponent.identifier]

theorem space_notMem_identifier (c : CoveredComponent) : ' ' ∉ c.identifier := by
  have hname : ' ' ∉ c.name.text.toList := ComponentName.notMem_text (by decide)
  cases hreq : c.req <;> simp [CoveredComponent.identifier, hreq, hname]

theorem identifier_injective : Function.Injective CoveredComponent.identifier := by
  intro c d h
  have hc := parseComponent_identifier c
  rw [h, parseComponent_identifier d, Except.ok.injEq] at hc
  exact hc.symm

/-! ## The list -/

theorem collectComponents_eq_ok {acc r : List CoveredComponent} {items : List Str}
    (hacc : acc.Nodup) :
    collectComponents acc items = .ok r ↔
      ∃ cs : List CoveredComponent,
        items = cs.map CoveredComponent.identifier ∧ r = acc ++ cs ∧ r.Nodup := by
  induction items generalizing acc with
  | nil =>
    simp only [collectComponents, Except.ok.injEq, List.nil_eq, List.map_eq_nil_iff]
    constructor
    · rintro rfl
      exact ⟨[], rfl, by simp, hacc⟩
    · rintro ⟨cs, rfl, hr, -⟩
      simpa using hr.symm
  | cons item items ih =>
    simp only [collectComponents, bind_eq_ok, ensure_eq_ok, parseComponent_eq_ok]
    constructor
    · rintro ⟨c, rfl, -, hnew, hrest⟩
      have hc : c ∉ acc := by simpa using hnew
      have hacc' : (acc ++ [c]).Nodup := by
        rw [List.nodup_append]
        refine ⟨hacc, by simp, ?_⟩
        rintro a ha b hb rfl
        exact hc (by simpa [List.mem_singleton.1 hb] using ha)
      obtain ⟨cs, hitems, hr, hnodup⟩ := (ih hacc').1 hrest
      exact ⟨c :: cs, by simp [hitems], by simp [hr], hnodup⟩
    · rintro ⟨cs, hitems, hr, hnodup⟩
      cases cs with
      | nil => simp at hitems
      | cons c cs =>
        obtain ⟨rfl, htail⟩ := List.cons.inj hitems
        have hr' : r = acc ++ [c] ++ cs := by simp [hr]
        have hacc' : (acc ++ [c]).Nodup := by
          rw [hr'] at hnodup
          exact (List.nodup_append.1 hnodup).1
        have hc : c ∉ acc := by
          intro hmem
          exact (List.nodup_append.1 hacc').2.2 c hmem c (by simp) rfl
        exact ⟨c, rfl, (), by simpa using hc, (ih hacc').2 ⟨cs, htail, hr', hnodup⟩⟩

theorem splitOn_innerList {cs : List CoveredComponent} (h : cs ≠ []) :
    (innerList cs).splitOn ' ' = cs.map CoveredComponent.identifier := by
  refine List.splitOn_intercalate ' ' ?_ (by simpa using h)
  intro l hl
  obtain ⟨c, -, rfl⟩ := List.mem_map.1 hl
  exact space_notMem_identifier c

theorem filter_splitOn_innerList (cs : List CoveredComponent) :
    ((innerList cs).splitOn ' ').filter (fun i => !i.isEmpty)
      = cs.map CoveredComponent.identifier := by
  rcases eq_or_ne cs [] with rfl | h
  · rfl
  · rw [splitOn_innerList h, List.filter_eq_self]
    intro i hi
    obtain ⟨c, -, rfl⟩ := List.mem_map.1 hi
    simpa using identifier_ne_nil c

theorem innerList_injective : Function.Injective innerList := by
  intro cs ds h
  apply List.map_injective_iff.2 identifier_injective
  rw [← filter_splitOn_innerList cs, ← filter_splitOn_innerList ds, h]

theorem mem_innerList {cs : List CoveredComponent} {ch : Char} (h : ch ∈ innerList cs) :
    ch = ' ' ∨ ∃ c ∈ cs, ch ∈ c.identifier := by
  induction cs with
  | nil => simp [innerList] at h
  | cons c cs ih =>
    rcases eq_or_ne cs [] with rfl | hne
    · exact .inr ⟨c, by simp, by simpa [innerList] using h⟩
    · rw [innerList, List.map_cons, List.intercalate_cons_of_ne_nil (by simpa using hne)] at h
      simp only [List.mem_append, List.mem_singleton] at h
      rcases h with (h | h) | h
      · exact .inr ⟨c, by simp, h⟩
      · exact .inl h
      · rcases ih h with h | ⟨d, hd, h⟩
        · exact .inl h
        · exact .inr ⟨d, List.mem_cons_of_mem _ hd, h⟩

theorem tab_notMem_innerList (cs : List CoveredComponent) : '\t' ∉ innerList cs := by
  intro h
  rcases mem_innerList h with h | ⟨c, -, h⟩
  · exact absurd h (by decide)
  · have hname : '\t' ∉ c.name.text.toList := ComponentName.notMem_text (by decide)
    cases hreq : c.req <;> simp [CoveredComponent.identifier, hreq, hname] at h

/-- **The inner list has one spelling**: the reader accepts exactly the printed lists of distinct
components. -/
theorem parseCoveredComponents_eq_ok {list : Str} {cs : List CoveredComponent} :
    parseCoveredComponents list = .ok cs ↔ list = innerList cs ∧ cs.Nodup := by
  simp only [parseCoveredComponents, bind_eq_ok, ensure_eq_ok, collectComponents_eq_ok
    List.nodup_nil, List.nil_append, Bool.not_eq_true', Bool.or_eq_false_iff,
    beq_eq_false_iff_ne, ne_eq]
  constructor
  · rintro ⟨-, ⟨⟨hhead, hlast⟩, hsub⟩, -, -, ds, hitems, rfl, hnodup⟩
    refine ⟨?_, hnodup⟩
    rcases eq_or_ne list [] with rfl | hne
    · have : cs = [] := by simpa using hitems.symm
      rw [this]
      rfl
    · -- no piece is empty, so the filter of the source drops nothing
      have hnil : [] ∉ list.splitOn ' ' := nil_notMem_splitOn_iff.2 ⟨hne, hhead, hlast, hsub⟩
      rw [List.filter_eq_self.2] at hitems
      · rw [innerList, ← hitems, List.intercalate_splitOn]
      · intro i hi
        simp only [Bool.not_eq_true', List.isEmpty_eq_false_iff]
        rintro rfl
        exact hnil hi
  · rintro ⟨rfl, hnodup⟩
    have hspacing : (innerList cs).head? ≠ some ' ' ∧ (innerList cs).getLast? ≠ some ' ' ∧
        containsText [' ', ' '] (innerList cs) = false := by
      rcases eq_or_ne cs [] with rfl | hne
      · decide
      · refine (nil_notMem_splitOn_iff.1 ?_).2
        rw [splitOn_innerList hne]
        intro h
        obtain ⟨c, -, hc⟩ := List.mem_map.1 h
        exact identifier_ne_nil c hc
    refine ⟨(), ⟨⟨hspacing.1, hspacing.2.1⟩, hspacing.2.2⟩, (), ?_, cs, ?_, rfl, hnodup⟩
    · simpa using tab_notMem_innerList cs
    · exact filter_splitOn_innerList cs

end McpRe.Http

import McpRe.Http.Verify.Spelling

/-!
# The signature base is injective

Each line of the base is free of newlines, so the base determines its lines; the last line is the
printed member value, so it determines the components and parameters (`Spelling`); and with the
components fixed each line determines the component's value.
-/

namespace McpRe.Http

open Lib Lib.Result Lib.Text Lib.QuoteSplit

/-! ## Lines -/

theorem newline_notMem_of_printable {s : Str} (h : ∀ c ∈ s, isPrintable c = true) : '\n' ∉ s := by
  intro hc
  exact absurd (h _ hc) (by decide)

theorem componentValue_eq_ok {c : CoveredComponent} {source : SourceMessage} {v : Str} :
    componentValue c source = .ok v ↔
      resolveComponentValue c source = .ok v ∧ '\r' ∉ v ∧ '\n' ∉ v := by
  simp only [componentValue, bind_eq_ok, ensure_eq_ok, Except.ok.injEq, List.all_eq_true]
  have hfree : (∀ x ∈ v, (!(x == '\r' || x == '\n')) = true) ↔ '\r' ∉ v ∧ '\n' ∉ v := by
    simp only [Bool.not_eq_true', Bool.or_eq_false_iff, beq_eq_false_iff_ne]
    constructor
    · intro h
      exact ⟨fun hr => (h _ hr).1 rfl, fun hn => (h _ hn).2 rfl⟩
    · rintro ⟨hr, hn⟩ x hx
      exact ⟨fun he => hr (he ▸ hx), fun he => hn (he ▸ hx)⟩
  constructor
  · rintro ⟨w, hw, _, hall, rfl⟩
    exact ⟨hw, hfree.1 hall⟩
  · rintro ⟨hv, hno⟩
    exact ⟨v, hv, (), hfree.2 hno, rfl⟩

theorem componentLine_eq_ok {source : SourceMessage} {c : CoveredComponent} {line : Str} :
    componentLine source c = .ok line ↔
      ∃ v, componentValue c source = .ok v ∧ line = c.identifier ++ ": ".toList ++ v := by
  simp only [componentLine, bind_eq_ok, Except.ok.injEq]
  exact exists_congr fun v => and_congr_right fun _ => eq_comm

theorem newline_notMem_componentLine {source : SourceMessage} {c : CoveredComponent} {line : Str}
    (h : componentLine source c = .ok line) : '\n' ∉ line := by
  obtain ⟨v, hv, rfl⟩ := componentLine_eq_ok.1 h
  have hident := newline_notMem_of_printable (isPrintable_identifier c)
  simp [hident, (componentValue_eq_ok.1 hv).2.2]

theorem printable_serialized {p : SignatureParams} {cs : List CoveredComponent} {s : Str}
    (h : p.serializeWith cs = .ok s) : ∀ c ∈ s, isPrintable c = true := by
  obtain ⟨hp, rfl⟩ := serializeWith_eq_ok.1 h
  intro c hc
  simp only [List.cons_append, List.mem_cons, List.mem_append, behind, List.mem_flatMap] at hc
  rcases hc with rfl | hc | rfl | ⟨s, hs, rfl | hc⟩
  · decide
  · rcases mem_innerList hc with rfl | ⟨d, -, hd⟩
    · decide
    · exact isPrintable_identifier d c hd
  · decide
  · decide
  · exact (hp.segmentText hs).printable c hc

theorem signatureBase_eq_ok {cs : List CoveredComponent} {p : SignatureParams}
    {source : SourceMessage} {base : Bytes} (h : signatureBase cs p source = .ok base) :
    ∃ lines s, List.Forall₂ (fun c line => componentLine source c = .ok line) cs lines ∧
      p.serializeWith cs = .ok s ∧
      base = utf8 (['\n'].intercalate (lines ++ [signatureParamsLabel.toList ++ s])) := by
  simp only [signatureBase, bind_eq_ok, mapM_eq_ok, Except.ok.injEq] at h
  obtain ⟨lines, hlines, s, hs, rfl⟩ := h
  exact ⟨lines, s, hlines, hs, rfl⟩

theorem newline_notMem_lines {cs : List CoveredComponent} {source : SourceMessage}
    {lines : List Str}
    (hlines : List.Forall₂ (fun c line => componentLine source c = .ok line) cs lines) :
    ∀ line ∈ lines, '\n' ∉ line := by
  induction hlines with
  | nil => simp
  | cons hc _ ih =>
    intro line hline
    rcases List.mem_cons.1 hline with rfl | hline
    · exact newline_notMem_componentLine hc
    · exact ih line hline

theorem splitOn_base {cs : List CoveredComponent} {p : SignatureParams} {source : SourceMessage}
    {lines : List Str} {s : Str}
    (hlines : List.Forall₂ (fun c line => componentLine source c = .ok line) cs lines)
    (hs : p.serializeWith cs = .ok s) :
    (['\n'].intercalate (lines ++ [signatureParamsLabel.toList ++ s])).splitOn '\n'
      = lines ++ [signatureParamsLabel.toList ++ s] := by
  refine List.splitOn_intercalate '\n' ?_ (by simp)
  intro line hline
  rcases List.mem_append.1 hline with hline | hline
  · exact newline_notMem_lines hlines line hline
  · rw [List.mem_singleton.1 hline]
    have hlabel : '\n' ∉ signatureParamsLabel.toList := by decide
    have hvalue := newline_notMem_of_printable (printable_serialized hs)
    simp [hlabel, hvalue]

/-! ## Injectivity -/

theorem componentValue_eq_of_lines {source₁ source₂ : SourceMessage} {cs : List CoveredComponent}
    {lines : List Str}
    (h₁ : List.Forall₂ (fun c line => componentLine source₁ c = .ok line) cs lines)
    (h₂ : List.Forall₂ (fun c line => componentLine source₂ c = .ok line) cs lines) :
    ∀ c ∈ cs, ∃ v, componentValue c source₁ = .ok v ∧ componentValue c source₂ = .ok v := by
  induction h₁ with
  | nil => simp
  | cons hc _ ih =>
    cases h₂ with
    | cons hc₂ hrest =>
      intro d hd
      rcases List.mem_cons.1 hd with rfl | hd
      · obtain ⟨v, hv, hline⟩ := componentLine_eq_ok.1 hc
        obtain ⟨w, hw, hline₂⟩ := componentLine_eq_ok.1 hc₂
        rw [hline] at hline₂
        obtain rfl : v = w := List.append_cancel_left hline₂
        exact ⟨v, hv, hw⟩
      · exact ih hrest d hd

/-- **Equal bases come from equal components, parameters and component values.** -/
theorem signatureBase_injective {cs₁ cs₂ : List CoveredComponent} {p₁ p₂ : SignatureParams}
    {source₁ source₂ : SourceMessage} {base : Bytes}
    (h₁ : signatureBase cs₁ p₁ source₁ = .ok base) (h₂ : signatureBase cs₂ p₂ source₂ = .ok base) :
    cs₁ = cs₂ ∧ p₁ = p₂ ∧
      ∀ c ∈ cs₁, ∃ v, componentValue c source₁ = .ok v ∧ componentValue c source₂ = .ok v := by
  obtain ⟨lines₁, s₁, hl₁, hs₁, rfl⟩ := signatureBase_eq_ok h₁
  obtain ⟨lines₂, s₂, hl₂, hs₂, hbase⟩ := signatureBase_eq_ok h₂
  have htext := congrArg (List.splitOn '\n') (utf8_injective hbase)
  rw [splitOn_base hl₁ hs₁, splitOn_base hl₂ hs₂] at htext
  obtain ⟨rfl, hlast⟩ := List.append_inj' htext rfl
  obtain rfl : s₁ = s₂ := List.append_cancel_left (List.singleton_inj.1 hlast)
  obtain ⟨rfl, rfl⟩ := serializeWith_injective hs₁ hs₂
  exact ⟨rfl, rfl, componentValue_eq_of_lines hl₁ hl₂⟩

/-- **A base says what it was built from**: components, in their order and as often as they stand
there, parameters, and at each position the value the component resolves to in its own source. -/
theorem signature_base_determines {cs₁ cs₂ : List CoveredComponent} {p₁ p₂ : SignatureParams}
    {source₁ source₂ : SourceMessage} {base₁ base₂ : Bytes}
    (h₁ : signatureBase cs₁ p₁ source₁ = .ok base₁) (h₂ : signatureBase cs₂ p₂ source₂ = .ok base₂)
    (hbase : base₁ = base₂) :
    cs₁ = cs₂ ∧ p₁ = p₂ ∧
      List.Forall₂ (fun c₁ c₂ => ∃ v, resolveComponentValue c₁ source₁ = .ok v ∧
        resolveComponentValue c₂ source₂ = .ok v) cs₁ cs₂ := by
  subst hbase
  obtain ⟨rfl, rfl, hvalues⟩ := signatureBase_injective h₁ h₂
  refine ⟨rfl, rfl, List.forall₂_same.2 fun c hc => ?_⟩
  obtain ⟨v, hv₁, hv₂⟩ := hvalues c hc
  exact ⟨v, (componentValue_eq_ok.1 hv₁).1, (componentValue_eq_ok.1 hv₂).1⟩

/-- Two requests that differ in a header outside the covered components, one of them named twice. -/
theorem signature_base_determines_repeated :
    let cs : List CoveredComponent := [⟨.method, false⟩, ⟨.method, false⟩]
    let source (headers : Headers) : SourceMessage :=
      .request ⟨"GET".toList, "https://h/".toList, headers, []⟩
    ∃ base, signatureBase cs .default (source []) = .ok base ∧
      signatureBase cs .default (source [("x".toList, "y".toList)]) = .ok base ∧
      List.Forall₂ (fun c₁ c₂ => ∃ v, resolveComponentValue c₁ (source []) = .ok v ∧
        resolveComponentValue c₂ (source [("x".toList, "y".toList)]) = .ok v) cs cs := by
  intro cs source
  have h₁ : signatureBase cs .default (source []) = .ok _ := rfl
  have h₂ : signatureBase cs .default (source [("x".toList, "y".toList)]) = .ok _ := rfl
  exact ⟨_, h₁, h₂, (signature_base_determines h₁ h₂ rfl).2.2⟩

end McpRe.Http

import McpRe.Retention.Record
import McpRe.Http.Verify.Floor
import McpRe.Http.Verify.Spelling

/-!
# Retention keeps what the verifier covered

The verifier and the retained record read the `Signature-Input` dictionary each with a reader of its
own. The verifier takes the member spelled `label=`; retention takes the first member whose name is
the label once trimmed. They part on a member that has whitespace in front of its `=`, which the
verifier passes over: `retention_exact_iff` says that this is all.
-/

namespace McpRe.Retention

open Lib Lib.Result Lib.Text Lib.QuoteSplit
open McpRe.Http

/-! ## The member each reader takes -/

/-- Retention's test: the name in front of `=`, trimmed, is the label. -/
def isNamed (label member : Str) : Bool :=
  match splitOnce '=' member with
  | some (name, _) => trim name == label
  | none => false

/-- The verifier's test: the trimmed member starts with the label and `=`. -/
def isSpelled (label member : Str) : Bool :=
  ((stripPrefix label (trim member)).bind (stripPrefix ['='])).isSome

/-- The header names in a member's list. -/
def memberNames (member : Str) : List Str :=
  (((splitOnce '=' member).bind fun p => parenthesized p.2).map headerNames).getD []

theorem listIn_eq (label : Str) (members : List Str) :
    listIn label members = (members.find? (isNamed label)).bind fun member =>
      (splitOnce '=' member).bind fun p => parenthesized p.2 := by
  induction members with
  | nil => rfl
  | cons member members ih =>
    rw [listIn]
    cases hsplit : splitOnce '=' member with
    | none =>
      have hnamed : isNamed label member = false := by simp [isNamed, hsplit]
      rw [List.find?_cons_of_neg (by simp [hnamed]), ← ih]
    | some p =>
      by_cases hname : trim p.1 = label
      · have hnamed : isNamed label member = true := by simp [isNamed, hsplit, hname]
        rw [List.find?_cons_of_pos hnamed]
        simp [hname, hsplit]
      · have hnamed : isNamed label member = false := by simp [isNamed, hsplit, hname]
        rw [List.find?_cons_of_neg (by simp [hnamed]), ← ih]
        simp [hname]

theorem names_componentListFor (value label : Str) :
    ((componentListFor value label).map headerNames).getD []
      = (((dictionaryMembers value).find? (isNamed label)).map memberNames).getD [] := by
  rw [componentListFor, listIn_eq]
  cases (dictionaryMembers value).find? (isNamed label) with
  | none => rfl
  | some member => simp [memberNames]

/-- What the loop of `member_value` returns: a member the label spells has the value returned, and
a value not there at the start is that of such a member. -/
theorem findMember_eq_ok {label : Str} {members : List Str} {found r : Option Str}
    (h : findMember label found members = .ok r) :
    (∀ w, found = some w → r = some w) ∧
      (∀ m ∈ members, ∀ w, (stripPrefix label m).bind (stripPrefix ['=']) = some w → r = some w) ∧
      (r = found ∨ ∃ m ∈ members, (stripPrefix label m).bind (stripPrefix ['=']) = r) := by
  induction members generalizing found with
  | nil =>
    cases h
    exact ⟨fun w hw => hw, by simp, .inl rfl⟩
  | cons m members ih =>
    rw [findMember] at h
    split at h
    · cases h
    · cases hm : (stripPrefix label m).bind (stripPrefix ['=']) with
      | none =>
        rw [hm] at h
        obtain ⟨hfound, hall, hr⟩ := ih h
        refine ⟨hfound, ?_, ?_⟩
        · intro m' hm' w hw
          rcases List.mem_cons.1 hm' with rfl | hm'
          · rw [hm] at hw
            cases hw
          · exact hall m' hm' w hw
        · rcases hr with hr | ⟨m', hm', hr⟩
          · exact .inl hr
          · exact .inr ⟨m', List.mem_cons_of_mem _ hm', hr⟩
      | some v =>
        rw [hm] at h
        simp only at h
        split at h
        · cases h
        · rename_i hnone
          split at h
          · cases h
          · obtain ⟨hv, hall, -⟩ := ih h
            have hr : r = some v := hv v rfl
            refine ⟨?_, ?_, .inr ⟨m, List.mem_cons_self, by rw [hm, hr]⟩⟩
            · intro w hw
              simp [hw] at hnone
            · intro m' hm' w hw
              rcases List.mem_cons.1 hm' with rfl | hm'
              · rw [hm] at hw
                rw [hr, hw]
              · exact hall m' hm' w hw

/-- The verified member: one member of the dictionary, trimmed, is the label, `=` and the value
the verifier reads, and every member the label spells is such a one. -/
theorem memberValue_eq_ok {value label v : Str} (h : memberValue value label = .ok v) :
    (∃ m ∈ dictionaryMembers value, trim m = label ++ '=' :: v) ∧
      ∀ m ∈ dictionaryMembers value, isSpelled label m = true → trim m = label ++ '=' :: v := by
  simp only [memberValue, bind_eq_ok, okOr_eq_ok] at h
  obtain ⟨_, hfind, rfl⟩ := h
  obtain ⟨-, hall, hr⟩ := findMember_eq_ok hfind
  have htext : ∀ m : Str, (stripPrefix label (trim m)).bind (stripPrefix ['=']) = some v →
      trim m = label ++ '=' :: v := by
    intro m hm
    obtain ⟨t, ht, hv⟩ := Option.bind_eq_some_iff.1 hm
    rw [stripPrefix_eq_some.1 ht, stripPrefix_eq_some.1 hv]
    rfl
  constructor
  · rcases hr with hr | ⟨_, hm, hr⟩
    · cases hr
    · obtain ⟨m, hmem, rfl⟩ := List.mem_map.1 hm
      exact ⟨m, hmem, htext m hr⟩
  · intro m hmem hspelled
    obtain ⟨w, hw⟩ := Option.isSome_iff_exists.1 hspelled
    have hvw := hall (trim m) (List.mem_map_of_mem hmem) w hw
    exact htext m (by rw [hw, ← hvw])

/-! ## The names in a verified member -/

theorem splitOnP_congr {p q : Char → Bool} {s : Str} (h : ∀ c ∈ s, p c = q c) :
    s.splitOnP p = s.splitOnP q := by
  induction s with
  | nil => rfl
  | cons c s ih =>
    rw [List.splitOnP_cons_eq_if_modifyHead, List.splitOnP_cons_eq_if_modifyHead,
      h c List.mem_cons_self, ih fun d hd => h d (List.mem_cons_of_mem _ hd)]

theorem splitWhitespace_innerList (cs : List CoveredComponent) :
    splitWhitespace (innerList cs) = cs.map CoveredComponent.identifier := by
  have hspace : ∀ c ∈ innerList cs, isWhitespace c = (c == ' ') := by
    intro c hc
    rcases mem_innerList hc with rfl | ⟨d, -, hd⟩
    · decide
    · cases hw : isWhitespace c with
      | true =>
        have := eq_space_of_isPrintable (isPrintable_identifier d c hd) hw
        simp [this]
      | false =>
        have hne : c ≠ ' ' := by
          intro heq
          rw [heq] at hw
          exact absurd hw (by decide)
        simp [hne]
  rw [splitWhitespace, splitOnP_congr hspace]
  exact filter_splitOn_innerList cs

theorem componentNames_innerList (cs : List CoveredComponent) :
    componentNames (innerList cs) = cs.map fun c => c.name.text.toList := by
  have hquote : ∀ n : ComponentName, '"' ∉ n.text.toList := fun n =>
    ComponentName.notMem_text (by decide)
  rw [componentNames, splitWhitespace_innerList, List.filterMap_map]
  induction cs with
  | nil => rfl
  | cons c cs ih =>
    rw [List.filterMap_cons, ih]
    simp [CoveredComponent.identifier, stripPrefix, splitOnce_append (hquote c.name)]

/-- The header components of the list the verifier parsed. -/
def verifiedNames (parsed : ParsedSignatureInput) : List Str :=
  (parsed.components.filter fun c => !isDerived c.name).map fun c => c.name.text.toList

theorem toAsciiLowercase_text (n : ComponentName) :
    toAsciiLowercase n.text.toList = n.text.toList := by
  cases n <;> decide

theorem headerNames_innerList (parsed : ParsedSignatureInput) :
    headerNames (innerList parsed.components) = verifiedNames parsed := by
  have hderived : ∀ n : ComponentName,
      (n.text.toList.head? != some '@') = !isDerived n := by
    intro n
    cases n <;> rfl
  rw [headerNames, componentNames_innerList, List.filter_map, List.map_map, verifiedNames]
  simp only [Function.comp_def, hderived, toAsciiLowercase_text]

theorem memberNames_of_spelled {label v m : Str} {parsed : ParsedSignatureInput}
    (hequals : '=' ∉ label) (htrimmed : Trimmed label) (hm : trim m = label ++ '=' :: v)
    (hv : trim v = v) (hparsed : parseSignatureInput v = .ok parsed) :
    isNamed label m = true ∧ memberNames m = verifiedNames parsed := by
  obtain ⟨lead, trail, htext, hlead, -⟩ := exists_eq_append_trim m
  obtain ⟨-, -, raws, hv', -⟩ := parseSignatureInput_sound hparsed
  rw [hv] at hv'
  have heq : '=' ∉ lead ++ label := by
    intro hmem
    rcases List.mem_append.1 hmem with hmem | hmem
    · exact absurd (hlead _ hmem) (by decide)
    · exact hequals hmem
  have hsplit : splitOnce '=' m = some (lead ++ label, v ++ trail) := by
    rw [htext, hm]
    simpa using splitOnce_append (b := v ++ trail) heq
  have hlist : parenthesized (v ++ trail) = some (innerList parsed.components) := by
    have hclose := splitOnce_append (b := behind ';' raws ++ trail)
      (close_notMem_innerList parsed.components)
    rw [hv', parenthesized]
    simp [splitOnce, hclose]
  constructor
  · simp [isNamed, hsplit, trim_append_left hlead, trim_eq_self htrimmed]
  · simp [memberNames, hsplit, hlist, headerNames_innerList]

/-! ## The covered set -/

theorem flatMap_namesOf (headers : Headers) (label : Str) :
    headers.flatMap (namesOf label) = (fieldValues headers "signature-input").flatMap
      fun value => ((componentListFor value label).map headerNames).getD [] := by
  induction headers with
  | nil => rfl
  | cons kv headers ih =>
    rw [List.flatMap_cons, ih]
    by_cases hfield : isField "signature-input" kv = true
    · simp [namesOf, fieldValues, hfield]
    · simp [namesOf, fieldValues, hfield]

/-- The covered set is kept by the names of one member: the first that retention takes for the
label's. -/
theorem coveredHeaders_eq {headers : Headers} {label value : Str}
    (hvalue : fieldValues headers "signature-input" = [value]) :
    coveredHeaders headers label = headers.filter
      (isKept ((((dictionaryMembers value).find? (isNamed label)).map memberNames).getD [])) := by
  rw [coveredHeaders, flatMap_namesOf, hvalue, List.flatMap_singleton, names_componentListFor]

theorem filter_eq_filter_iff {α : Type*} {p q : α → Bool} {l : List α} :
    l.filter p = l.filter q ↔ ∀ a ∈ l, p a = q a := by
  refine ⟨fun h a ha => ?_, List.filter_congr⟩
  rw [Bool.eq_iff_iff]
  constructor
  · intro hp
    have hmem : a ∈ l.filter q := h ▸ List.mem_filter.2 ⟨ha, hp⟩
    exact (List.mem_filter.1 hmem).2
  · intro hq
    have hmem : a ∈ l.filter p := h ▸ List.mem_filter.2 ⟨ha, hq⟩
    exact (List.mem_filter.1 hmem).2

/-- The headers the claim of an exact projection names: those of the covered list the verifier
parsed, and the two that carry the signature. -/
def verifiedHeaders (headers : Headers) (parsed : ParsedSignatureInput) : Headers :=
  headers.filter (isKept (verifiedNames parsed))

/-- A decoy: the first member whose trimmed name is the label has whitespace in front of its `=`,
so that the verifier passes over it, and of the lists of the two members one names a header of the
request that the other does not. -/
structure Decoyed (r : HttpRequest) (parsed : ParsedSignatureInput) (value member : Str)
    (header : Str × Str) : Prop where
  input : fieldValues r.headers "signature-input" = [value]
  first : (dictionaryMembers value).find? (isNamed requestLabel.toList) = some member
  spaced : isSpelled requestLabel.toList member = false
  carried : header ∈ r.headers
  unsigned : toAsciiLowercase header.1 ∉ ["signature".toList, "signature-input".toList]
  differs : ¬(toAsciiLowercase header.1 ∈ memberNames member ↔
    toAsciiLowercase header.1 ∈ verifiedNames parsed)

theorem requestSignatureInput_eq_ok {r : HttpRequest} {parsed : ParsedSignatureInput}
    (h : requestSignatureInput r = .ok parsed) :
    ∃ value v, fieldValues r.headers "signature-input" = [value] ∧
      memberValue value requestLabel.toList = .ok v ∧ parseSignatureInput v = .ok parsed := by
  simp only [requestSignatureInput, bind_eq_ok] at h
  obtain ⟨value, hvalue, v, hv, hparsed⟩ := h
  exact ⟨value, v, requiredHeader_eq_ok.1 hvalue, hv, hparsed⟩

theorem find_isNamed {value v : Str} {parsed : ParsedSignatureInput}
    (hv : memberValue value requestLabel.toList = .ok v)
    (hparsed : parseSignatureInput v = .ok parsed) :
    ∃ member, (dictionaryMembers value).find? (isNamed requestLabel.toList) = some member ∧
      (isSpelled requestLabel.toList member = true →
        memberNames member = verifiedNames parsed) := by
  have hequals : '=' ∉ requestLabel.toList := by decide
  have hplain : ∀ c ∈ requestLabel.toList, isWhitespace c = false :=
    forall_mem_of_all (by decide)
  have htrimmed : Trimmed requestLabel.toList :=
    ⟨fun c hc => hplain c (List.mem_of_mem_head? hc),
      fun c hc => hplain c (List.mem_of_getLast? hc)⟩
  obtain ⟨⟨m, hmem, hm⟩, hall⟩ := memberValue_eq_ok hv
  have htrim := trim_of_memberValue hv
  have hnamed := (memberNames_of_spelled hequals htrimmed hm htrim hparsed).1
  obtain ⟨member, hfind⟩ : ∃ member,
      (dictionaryMembers value).find? (isNamed requestLabel.toList) = some member :=
    Option.isSome_iff_exists.1 (List.find?_isSome.2 ⟨m, hmem, hnamed⟩)
  refine ⟨member, hfind, fun hspelled => ?_⟩
  have htext := hall member (List.mem_of_find?_eq_some hfind) hspelled
  exact (memberNames_of_spelled hequals htrimmed htext htrim hparsed).2

theorem isKept_eq_true {xs : List Str} {kv : Str × Str} :
    isKept xs kv = true ↔
      toAsciiLowercase kv.1 ∈ ["signature".toList, "signature-input".toList] ∨
        toAsciiLowercase kv.1 ∈ xs := by
  simp only [isKept, Bool.or_eq_true, beq_iff_eq, List.contains_eq_mem, decide_eq_true_eq,
    List.mem_cons, List.not_mem_nil, or_false]

theorem isKept_eq_iff {xs ys : List Str} {kv : Str × Str} :
    isKept xs kv = isKept ys kv ↔
      (toAsciiLowercase kv.1 ∉ ["signature".toList, "signature-input".toList] →
        (toAsciiLowercase kv.1 ∈ xs ↔ toAsciiLowercase kv.1 ∈ ys)) := by
  rw [Bool.eq_iff_iff, isKept_eq_true, isKept_eq_true]
  by_cases hsigned : toAsciiLowercase kv.1 ∈ ["signature".toList, "signature-input".toList]
  · simp only [hsigned, true_or, not_true_eq_false, false_implies]
  · simp only [hsigned, false_or, not_false_eq_true, true_implies]

/-- The covered set is the verified one exactly when no decoy names another set of the request's
headers. -/
theorem coveredHeaders_eq_verified_iff {r : HttpRequest} {parsed : ParsedSignatureInput}
    (hparsed : requestSignatureInput r = .ok parsed) :
    coveredHeaders r.headers requestLabel.toList = verifiedHeaders r.headers parsed ↔
      ∀ value member header, ¬Decoyed r parsed value member header := by
  obtain ⟨value, v, hvalue, hv, hinput⟩ := requestSignatureInput_eq_ok hparsed
  obtain ⟨member, hfind, hspelled⟩ := find_isNamed hv hinput
  have hcovered : coveredHeaders r.headers requestLabel.toList = _ := coveredHeaders_eq hvalue
  rw [hfind] at hcovered
  simp only [Option.map_some, Option.getD_some] at hcovered
  rw [hcovered, verifiedHeaders, filter_eq_filter_iff]
  simp only [isKept_eq_iff]
  constructor
  · intro hkept value' member' header hd
    obtain rfl : value = value' := List.singleton_inj.1 (hvalue.symm.trans hd.input)
    obtain rfl : member = member' := Option.some.inj (hfind.symm.trans hd.first)
    exact hd.differs (hkept header hd.carried hd.unsigned)
  · intro hnone header hheader hunsigned
    cases hsp : isSpelled requestLabel.toList member with
    | true => rw [hspelled hsp]
    | false =>
      by_contra hdiffers
      exact hnone value member header ⟨hvalue, hfind, hsp, hheader, hunsigned, hdiffers⟩

/-! ## The projection is accepted again -/

section

variable {headers : Headers} {keep : Str × Str → Bool}

/-- The fields of a name are all kept. -/
def Keeps (headers : Headers) (keep : Str × Str → Bool) (name : String) : Prop :=
  ∀ kv ∈ headers, isField name kv = true → keep kv = true

theorem findField_filter {dup : HttpProfileError} {name : String} {f : Str → Str}
    (h : Keeps headers keep name) (found : Option Str) :
    findField dup name f found (headers.filter keep) = findField dup name f found headers := by
  induction headers generalizing found with
  | nil => rfl
  | cons kv headers ih =>
    have hrest : Keeps headers keep name := fun kv' hkv' => h kv' (List.mem_cons_of_mem _ hkv')
    cases hkeep : keep kv with
    | true =>
      rw [List.filter_cons_of_pos hkeep]
      simp only [findField, ih hrest]
    | false =>
      have hfield : isField name kv = false := by
        rw [Bool.eq_false_iff]
        intro hfield
        rw [h kv List.mem_cons_self hfield] at hkeep
        cases hkeep
      rw [List.filter_cons_of_neg (by simp [hkeep]), ih hrest]
      simp [findField, hfield]

theorem singleHeader_filter {name : String} (h : Keeps headers keep name) :
    singleHeader (headers.filter keep) name = singleHeader headers name :=
  findField_filter h none

theorem requiredHeader_filter {name : String} (h : Keeps headers keep name) :
    requiredHeader (headers.filter keep) name = requiredHeader headers name := by
  rw [requiredHeader, singleHeader_filter h, requiredHeader]

theorem requireCoverage_filter {covered : List CoveredComponent} {names : List ComponentName}
    (h : ∀ n ∈ names, Keeps headers keep n.text) :
    requireCoverage (headers.filter keep) covered names
      = requireCoverage headers covered names := by
  induction names with
  | nil => rfl
  | cons n names ih =>
    simp only [requireCoverage, singleHeader_filter (h n List.mem_cons_self),
      ih fun m hm => h m (List.mem_cons_of_mem _ hm)]

theorem requestComponent_filter {r : HttpRequest} {n : ComponentName}
    (h : isDerived n = false → Keeps r.headers keep n.text) :
    requestComponent { r with headers := r.headers.filter keep } n = requestComponent r n := by
  cases hd : isDerived n with
  | true => cases n <;> first | rfl | simp [isDerived] at hd
  | false =>
    rw [requestComponent_field hd, requestComponent_field hd]
    simp only [fieldComponent, findField_filter (h hd)]

theorem mapM_congr {α β ε : Type*} {f g : α → Except ε β} {l : List α}
    (h : ∀ a ∈ l, f a = g a) : l.mapM f = l.mapM g := by
  induction l with
  | nil => rfl
  | cons a l ih =>
    rw [List.mapM_cons, List.mapM_cons, h a List.mem_cons_self,
      ih fun b hb => h b (List.mem_cons_of_mem _ hb)]

theorem signatureBase_filter {r : HttpRequest} {components : List CoveredComponent}
    (params : SignatureParams)
    (h : ∀ c ∈ components, isDerived c.name = false → Keeps r.headers keep c.name.text) :
    signatureBase components params (.request { r with headers := r.headers.filter keep })
      = signatureBase components params (.request r) := by
  have hline : ∀ c ∈ components,
      componentLine (.request { r with headers := r.headers.filter keep }) c
        = componentLine (.request r) c := by
    intro c hc
    simp only [componentLine, componentValue, resolveComponentValue,
      requestComponent_filter (h c hc)]
  rw [signatureBase, mapM_congr hline, signatureBase]

theorem rejectContentEncoding_filter {u : Unit} (h : rejectContentEncoding headers = .ok u) :
    rejectContentEncoding (headers.filter keep) = .ok u := by
  simp only [rejectContentEncoding, ensure_eq_ok, List.all_eq_true] at h ⊢
  intro kv hkv
  exact h kv (List.mem_filter.1 hkv).1

end

/-- Every header the floor reads is kept: the two that carry the signature, the covered ones, and
those that are covered when they are there. -/
structure KeepsRead (r : HttpRequest) (parsed : ParsedSignatureInput)
    (keep : Str × Str → Bool) : Prop where
  signature : Keeps r.headers keep "signature"
  input : Keeps r.headers keep "signature-input"
  covered : ∀ c ∈ parsed.components, isDerived c.name = false → Keeps r.headers keep c.name.text
  conditional : ∀ n ∈ conditionallyCoveredRequestHeaders, Keeps r.headers keep n.text

theorem keeps_of_isKept {headers : Headers} {names : List Str} {name : String}
    (h : ∀ kv, toAsciiLowercase kv.1 = toAsciiLowercase name.toList → isKept names kv = true) :
    Keeps headers (isKept names) name := by
  intro kv _ hfield
  exact h kv (by simpa [isField, eqIgnoreAsciiCase, toAsciiLowercase] using hfield)

theorem keepsRead_verified {P : Platform} {r : HttpRequest} {policy : VerifierPolicy} {now : I64}
    {parsed : ParsedSignatureInput} {out : CryptographicFloorVerifiedRequest}
    (ha : FloorAccepted P r policy now parsed out) :
    KeepsRead r parsed (isKept (verifiedNames parsed)) := by
  have hcovered : ∀ c ∈ parsed.components, isDerived c.name = false →
      Keeps r.headers (isKept (verifiedNames parsed)) c.name.text := by
    intro c hc hderived
    refine keeps_of_isKept fun kv hkv => ?_
    have hmem : c.name.text.toList ∈ verifiedNames parsed :=
      List.mem_map_of_mem (List.mem_filter.2 ⟨hc, by simp [hderived]⟩)
    exact isKept_eq_true.2 (.inr (by rwa [hkv, toAsciiLowercase_text]))
  refine ⟨?_, ?_, hcovered, ?_⟩
  · refine keeps_of_isKept fun kv hkv => isKept_eq_true.2 (.inl ?_)
    rw [hkv]
    decide
  · refine keeps_of_isKept fun kv hkv => isKept_eq_true.2 (.inl ?_)
    rw [hkv]
    decide
  · -- a header of the set that is there is covered; one that is not has no field to keep
    intro n hn
    obtain ⟨v, hv, hcov⟩ := ha.conditional n hn
    rcases singleHeader_eq_ok.1 hv with ⟨hnil, -⟩ | ⟨w, -, rfl⟩
    · intro kv hkv hfield
      have hmem : kv.2 ∈ fieldValues r.headers n.text :=
        List.mem_map_of_mem (List.mem_filter.2 ⟨hkv, hfield⟩)
      rw [hnil] at hmem
      cases hmem
    · exact hcovered ⟨n, false⟩ (hcov rfl) (isDerived_conditional n hn)

section

variable {r : HttpRequest} {parsed : ParsedSignatureInput} {keep : Str × Str → Bool}

def keeping (r : HttpRequest) (keep : Str × Str → Bool) : HttpRequest :=
  { r with headers := r.headers.filter keep }

theorem KeepsRead.requestSignatureInput (hk : KeepsRead r parsed keep) :
    requestSignatureInput (keeping r keep) = requestSignatureInput r := by
  simp only [Http.requestSignatureInput, keeping, requiredHeader_filter hk.input]

theorem KeepsRead.signatureValue (hk : KeepsRead r parsed keep) (what : String) (label : Str) :
    signatureValueB64url (keeping r keep).headers what label
      = signatureValueB64url r.headers what label := by
  simp only [signatureValueB64url, keeping, requiredHeader_filter hk.signature]

theorem KeepsRead.methodDivergence (hk : KeepsRead r parsed keep) (P : Platform) :
    rejectMcpMethodDivergence P (keeping r keep) = rejectMcpMethodDivergence P r := by
  have hmethod : Keeps r.headers keep mcpMethodHeader := hk.conditional .mcpMethod (by decide)
  simp only [rejectMcpMethodDivergence, keeping, singleHeader_filter hmethod]

theorem KeepsRead.mcpTransport (hk : KeepsRead r parsed keep) (P : Platform)
    (policy : VerifierPolicy) :
    policy.enforceMcpTransport P (keeping r keep) = policy.enforceMcpTransport P r := by
  have hmethod : Keeps r.headers keep mcpMethodHeader := hk.conditional .mcpMethod (by decide)
  have hversion : Keeps r.headers keep mcpProtocolVersionHeader :=
    hk.conditional .mcpProtocolVersion (by decide)
  have hname : Keeps r.headers keep mcpNameHeader := hk.conditional .mcpName (by decide)
  simp only [VerifierPolicy.enforceMcpTransport, McpTransportPolicy.enforce,
    McpTransportPolicy.read, keeping, singleHeader_filter hmethod, singleHeader_filter hversion,
    singleHeader_filter hname]

theorem requireJsonMediaType_filter {headers : Headers} {what : String} {u : Unit}
    (hk : Keeps headers keep "content-type") (h : requireJsonMediaType headers what = .ok u) :
    requireJsonMediaType (headers.filter keep) what = .ok u := by
  rw [← h, requireJsonMediaType, requiredHeader_filter hk, requireJsonMediaType]

theorem floorRequest_keeping {P : Platform} {resolve : Resolver} {policy : VerifierPolicy}
    {now : I64} {out : CryptographicFloorVerifiedRequest}
    (h : floorRequest P r resolve policy now = .ok out)
    (ha : FloorAccepted P r policy now parsed out) (hk : KeepsRead r parsed keep) :
    floorRequest P (keeping r keep) resolve policy now = .ok out := by
  have hcontentType : Keeps r.headers keep "content-type" :=
    hk.covered ⟨.contentType, false⟩ (ha.required .contentType (by decide)) rfl
  have hcontentDigest : Keeps r.headers keep "content-digest" :=
    hk.covered ⟨.contentDigest, false⟩ (ha.required .contentDigest (by decide)) rfl
  have hinput := hk.requestSignatureInput
  rw [ha.input] at hinput
  unfold floorRequest at h ⊢
  obtain ⟨u, hencoding, h⟩ := bind_eq_ok.1 h
  obtain ⟨u', hmediaType, h⟩ := bind_eq_ok.1 h
  obtain ⟨digest, hdigest, h⟩ := bind_eq_ok.1 h
  obtain ⟨u'', hmatches, h⟩ := bind_eq_ok.1 h
  rw [ha.input, ok_bind] at h
  refine bind_eq_ok.2 ⟨u, rejectContentEncoding_filter hencoding, ?_⟩
  refine bind_eq_ok.2 ⟨u', requireJsonMediaType_filter hcontentType hmediaType, ?_⟩
  refine bind_eq_ok.2 ⟨digest, (requiredHeader_filter hcontentDigest).trans hdigest, ?_⟩
  refine bind_eq_ok.2 ⟨u'', hmatches, ?_⟩
  have hconditional : requireConditionalCoverage (keeping r keep).headers parsed.components
      = requireConditionalCoverage r.headers parsed.components :=
    requireCoverage_filter hk.conditional
  have hbase : signatureBase parsed.components parsed.params (.request (keeping r keep))
      = signatureBase parsed.components parsed.params (.request r) :=
    signatureBase_filter parsed.params hk.covered
  rw [hinput, ok_bind, hconditional, hbase, hk.signatureValue, hk.methodDivergence, hk.mcpTransport]
  exact h

end

/-! ## The record -/

theorem intoHop_of (r : HttpRequest) (response : HttpResponse) :
    ∃ hop, (RetainedHopRecord.of r response).intoHop = .ok hop ∧
      hop.request = { r with headers := coveredHeaders r.headers requestLabel.toList } := by
  simp [RetainedHopRecord.intoHop, RetainedHopRecord.of, RetainedHopRecord.overRequest,
    retainedRequest, b64urlEncode, b64urlDecode, Base64.decode_encode]

/-- **Retention keeps what the verifier covered**: of an accepted request the covered set is the
verified one, and the record's request is accepted again with the same base and evidence, exactly
when no decoy member stands in front of the verified one. -/
theorem retention_exact_iff {P : Platform} {r : HttpRequest} {resolve : Resolver}
    {policy : VerifierPolicy} {now : I64} {out : CryptographicFloorVerifiedRequest}
    {parsed : ParsedSignatureInput} (h : floorRequest P r resolve policy now = .ok out)
    (hparsed : requestSignatureInput r = .ok parsed) :
    (coveredHeaders r.headers requestLabel.toList = verifiedHeaders r.headers parsed ∧
      ∀ response, ∃ hop out', (RetainedHopRecord.of r response).intoHop = .ok hop ∧
        floorRequest P hop.request resolve policy now = .ok out' ∧
        out'.requestSignatureBase = out.requestSignatureBase ∧ out'.evidence = out.evidence) ↔
      ∀ value member header, ¬Decoyed r parsed value member header := by
  rw [← coveredHeaders_eq_verified_iff hparsed]
  refine ⟨fun hexact => hexact.1, fun hcovered => ⟨hcovered, fun response => ?_⟩⟩
  obtain ⟨parsed', ha⟩ := floorRequest_eq_ok h
  obtain rfl : parsed' = parsed := Except.ok.inj (ha.input.symm.trans hparsed)
  obtain ⟨hop, hhop, hrequest⟩ := intoHop_of r response
  refine ⟨hop, out, hhop, ?_, rfl, rfl⟩
  rw [hrequest, hcovered]
  exact floorRequest_keeping h ha (keepsRead_verified ha)

namespace RecordSample

/-- The signed sample request, its `Signature-Input` behind `lead`, with a cookie. -/
def cookieRequest (lead : String) : HttpRequest :=
  let signed := sampleRequest [("Cookie".toList, "session=secret".toList)]
  { signed with
    headers := signed.headers.map fun kv =>
      if isField "signature-input" kv then (kv.1, lead.toList ++ kv.2) else kv }

def parsedSample : ParsedSignatureInput := ⟨sampleComponents, sampleParams⟩

theorem retention_exact_iff_other_label :
    ∃ out, floorRequest samplePlatform (cookieRequest "decoy=(\"cookie\"), ") sampleResolver
        .default 150 = .ok out ∧
      requestSignatureInput (cookieRequest "decoy=(\"cookie\"), ") = .ok parsedSample ∧
      coveredHeaders (cookieRequest "decoy=(\"cookie\"), ").headers requestLabel.toList
        = verifiedHeaders (cookieRequest "decoy=(\"cookie\"), ").headers parsedSample ∧
      ∀ response, ∃ hop out',
        (RetainedHopRecord.of (cookieRequest "decoy=(\"cookie\"), ") response).intoHop = .ok hop ∧
        floorRequest samplePlatform hop.request sampleResolver .default 150 = .ok out' ∧
        out'.requestSignatureBase = out.requestSignatureBase ∧ out'.evidence = out.evidence := by
  -- the label's member is the second, and nothing stands in front of its `=`
  obtain ⟨hok, hparsed, hspelled⟩ :
      (floorRequest samplePlatform (cookieRequest "decoy=(\"cookie\"), ") sampleResolver .default
        150).isOk = true ∧
      requestSignatureInput (cookieRequest "decoy=(\"cookie\"), ") = .ok parsedSample ∧
      ((fieldValues (cookieRequest "decoy=(\"cookie\"), ").headers "signature-input").all
        fun value => ((dictionaryMembers value).find? (isNamed requestLabel.toList)).all
          (isSpelled requestLabel.toList)) = true := by decide +kernel
  obtain ⟨out, hout⟩ := exists_of_isOk hok
  refine ⟨out, hout, hparsed, (retention_exact_iff hout hparsed).2 ?_⟩
  intro value member header hd
  rw [hd.input] at hspelled
  simp [hd.first, hd.spaced] at hspelled

/-- A member named like the label, with a space in front of its `=`: the verifier passes over it,
and retention keeps the cookie it lists and drops the signed headers. -/
theorem cookie_retained :
    (floorRequest samplePlatform (cookieRequest "mcp-re =(\"cookie\"), ") sampleResolver .default
        150).isOk = true ∧
      requestSignatureInput (cookieRequest "mcp-re =(\"cookie\"), ") = .ok parsedSample ∧
      (coveredHeaders (cookieRequest "mcp-re =(\"cookie\"), ").headers requestLabel.toList).map
          Prod.fst = ["Signature-Input".toList, "Signature".toList, "Cookie".toList] ∧
      (verifiedHeaders (cookieRequest "mcp-re =(\"cookie\"), ").headers parsedSample).map Prod.fst
        = ["Content-Type".toList, "Content-Digest".toList, "Signature-Input".toList,
          "Signature".toList] ∧
      (floorRequest samplePlatform
        { cookieRequest "mcp-re =(\"cookie\"), " with
          headers := coveredHeaders (cookieRequest "mcp-re =(\"cookie\"), ").headers
            requestLabel.toList } sampleResolver .default 150).isOk = false := by
  decide +kernel

end RecordSample

end McpRe.Retention

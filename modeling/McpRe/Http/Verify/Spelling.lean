import McpRe.Http.Verify.Components
import McpRe.Http.Verify.Parameters
import McpRe.Lib.Code

/-!
# The spelling of a `Signature-Input` member

The printed member value of a set of components and parameters is read back as that set, and an
accepted member value is the printed one exactly when its only whitespace is the space: the reader
of the parameter tail refuses a space or a tab outside a quoted value, but trims every other
whitespace character around a parameter away.
-/

namespace McpRe.Http

open Lib Lib.Result Lib.Text Lib.QuoteSplit

/-! ## Printed text -/

def isDelimiter (c : Char) : Bool := c == ';' || c == ',' || c == ' ' || c == '\t'

def isPrintable (c : Char) : Bool := decide (0x20 ≤ c.toNat) && decide (c.toNat ≤ 0x7E)

theorem eq_space_of_isPrintable {c : Char} (h : isPrintable c = true) (hw : isWhitespace c = true) :
    c = ' ' := by
  simp only [isPrintable, isWhitespace, Bool.and_eq_true, Bool.or_eq_true, decide_eq_true_eq,
    beq_iff_eq] at h hw
  exact Char.toNat_inj.1 (by change c.toNat = 32; omega)

theorem isPrintable_of_isDigit {c : Char} (h : c.isDigit = true) : isPrintable c = true := by
  obtain ⟨k, hk, rfl⟩ := I64.exists_digitChar h
  simp only [isPrintable, Nat.toNat_digitChar_of_lt_ten hk, Bool.and_eq_true, decide_eq_true_eq]
  omega

/-- The facts of a value's text that its printing and reading rest on. -/
structure ValueText (v : Str) : Prop where
  closed : Closed isDelimiter v
  ne_nil : v ≠ []
  last : ∀ c ∈ v.getLast?, isWhitespace c = false
  printable : ∀ c ∈ v, isPrintable c = true

theorem valueText_display (n : I64) : ValueText n.display where
  closed := by
    refine .of_plain ?_ ?_
    · intro h
      rcases I64.mem_display h with h | h
      · exact absurd h (by decide)
      · exact absurd h (by decide)
    · intro c hc
      rcases I64.mem_display hc with rfl | h
      · decide
      · obtain ⟨k, hk, rfl⟩ := I64.exists_digitChar h
        interval_cases k <;> decide
  ne_nil := I64.display_ne_nil n
  last := by
    intro c hc
    rcases I64.mem_display (List.mem_of_mem_getLast? hc) with rfl | h
    · decide
    · obtain ⟨k, hk, rfl⟩ := I64.exists_digitChar h
      interval_cases k <;> decide
  printable := by
    intro c hc
    rcases I64.mem_display hc with rfl | h
    · decide
    · exact isPrintable_of_isDigit h

theorem isPrintable_of_isSfChar {c : Char} (h : isSfChar c = true) :
    isPrintable c = true ∧ c ≠ '"' ∧ c ≠ '\\' := by
  simpa [isSfChar, isPrintable, and_assoc] using h

theorem valueText_quoted {s : Str} (h : s.all isSfChar = true) : ValueText (quoted s) where
  closed := .quoted rfl fun c hc => (isPrintable_of_isSfChar (List.all_eq_true.1 h c hc)).2
  ne_nil := by simp [quoted]
  last := by
    intro c hc
    rw [quoted, List.getLast?_concat, Option.mem_some_iff] at hc
    rw [← hc]
    decide
  printable := by
    intro c hc
    simp only [quoted, List.cons_append, List.mem_cons, List.mem_append, List.not_mem_nil,
      or_false] at hc
    rcases hc with rfl | hc | rfl
    · decide
    · exact (isPrintable_of_isSfChar (List.all_eq_true.1 h c hc)).1
    · decide

theorem SignatureParams.Printable.valueText {p : SignatureParams} (hp : p.Printable)
    {k : ParamKey} {v : Str} (hv : p.value k = some v) : ValueText v := by
  cases k <;> simp only [SignatureParams.value, Option.map_eq_some_iff] at hv <;>
    obtain ⟨x, hx, rfl⟩ := hv
  case created | expires => exact valueText_display x
  case nonce => exact valueText_quoted (hp.nonce x hx).1
  case keyid => exact valueText_quoted (hp.keyid x hx)
  case alg => exact valueText_quoted (hp.alg x hx)
  case tag => exact valueText_quoted (hp.tag x hx)

/-- The facts of a printed segment. -/
structure SegmentText (s : Str) : Prop where
  closed : Closed isDelimiter s
  ne_nil : s ≠ []
  trimmed : Trimmed s
  printable : ∀ c ∈ s, isPrintable c = true

theorem SignatureParams.Printable.segmentText {p : SignatureParams} (hp : p.Printable)
    {s : Str} (hs : s ∈ p.segments) : SegmentText s := by
  obtain ⟨k, -, hk⟩ := List.mem_filterMap.1 hs
  obtain ⟨v, hv, rfl⟩ := Option.map_eq_some_iff.1 hk
  obtain ⟨hclosed, hne, hlast, hprintable⟩ := hp.valueText hv
  have hkey : ∀ c ∈ k.text.toList ++ ['='],
      c ≠ '"' ∧ isDelimiter c = false ∧ isPrintable c = true ∧ isWhitespace c = false := by
    cases k <;> exact forall_mem_of_all (by decide)
  have hseg : segment k v = (k.text.toList ++ ['=']) ++ v := by simp [segment]
  rw [hseg]
  refine ⟨.append (.of_plain ?_ fun c hc => (hkey c hc).2.1) hclosed, by simp, ?_, ?_⟩
  · exact fun h => (hkey _ h).1 rfl
  · exact Trimmed.append (by simp) hne
      (fun c hc => (hkey c (List.mem_of_mem_head? hc)).2.2.2) hlast
  · intro c hc
    rcases List.mem_append.1 hc with hc | hc
    · exact (hkey c hc).2.2.1
    · exact hprintable c hc

theorem closed_identifier (c : CoveredComponent) : Closed (· == ',') c.identifier := by
  have hname : Closed (· == ',') ('"' :: c.name.text.toList ++ ['"']) := by
    refine .quoted rfl fun ch hch => ⟨?_, ?_⟩
    · rintro rfl
      exact ComponentName.notMem_text (by decide) hch
    · rintro rfl
      exact ComponentName.notMem_text (by decide) hch
  have hreq : Closed (· == ',') (if c.req then ";req".toList else []) := by
    cases c.req
    · exact .nil _
    · exact ⟨by decide, by decide⟩
  simpa [CoveredComponent.identifier] using hname.append hreq

theorem closed_innerList (cs : List CoveredComponent) : Closed (· == ',') (innerList cs) := by
  induction cs with
  | nil => exact .nil _
  | cons c cs ih =>
    rcases eq_or_ne cs [] with rfl | hne
    · simpa [innerList] using closed_identifier c
    · have hspace : Closed (· == ',') [' '] := ⟨by decide, by decide⟩
      rw [innerList, List.map_cons, List.intercalate_cons_of_ne_nil (by simpa using hne)]
      exact ((closed_identifier c).append hspace).append ih

theorem notMem_innerList {ch : Char} (hname : isNameChar ch = false) (hspace : ch ≠ ' ')
    (hident : ch ∉ "\";req".toList) (cs : List CoveredComponent) : ch ∉ innerList cs := by
  intro h
  rcases mem_innerList h with h | ⟨c, -, h⟩
  · exact hspace h
  · have hn : ch ∉ c.name.text.toList := ComponentName.notMem_text hname
    cases hreq : c.req <;> simp_all [CoveredComponent.identifier]

/-! ## The printed text is read back -/

theorem splitParameters_behind {segs : List Str} (h : ∀ s ∈ segs, SegmentText s) :
    splitParameters (behind ';' segs) = [] :: segs := by
  have hclosed : ∀ s ∈ [] :: segs, Closed (· == ';') s := by
    intro s hs
    rcases List.mem_cons.1 hs with rfl | hs
    · exact .nil _
    · exact (h s hs).closed.mono fun c hc => by simp_all [isDelimiter]
  rw [splitParameters, ← List.nil_append (behind ';' segs), pieces_flatten hclosed,
    List.map_cons, List.map_congr_left fun s hs => trim_eq_self (h s hs).trimmed]
  simp [trim]

theorem parseSignatureParameters_behind {p : SignatureParams} (hp : p.Printable) :
    parseSignatureParameters (behind ';' p.segments) = .ok p := by
  have hsegs : ∀ s ∈ p.segments, SegmentText s := fun s hs => hp.segmentText hs
  have hsplit := splitParameters_behind hsegs
  have hcheck : checkTailSpelling (behind ';' p.segments) = .ok () := by
    unfold checkTailSpelling
    split_ifs with hempty
    · rfl
    · have hhead : (behind ';' p.segments).head? = some ';' := by
        cases hs : p.segments with
        | nil => simp [hs] at hempty
        | cons x xs => simp
      have hspace : noneOutside (fun c => c == ' ' || c == '\t') .outside
          (behind ';' p.segments) = true := by
        refine (Closed.behind (by decide) (by decide) fun s hs => ?_).none
        exact (hsegs s hs).closed.mono fun c hc => by
          simp only [isDelimiter, Bool.or_eq_true] at hc ⊢
          tauto
      have hfull : (p.segments.any fun seg => seg.isEmpty) = false := by
        rw [List.any_eq_false]
        intro s hs
        simpa using (hsegs s hs).ne_nil
      simp [hhead, hsplit, hfull, hspace]
  rw [parseSignatureParameters, hcheck, ok_bind, hsplit, assignAll]
  simpa using assignAll_complete hp

theorem trimmed_serialized {p : SignatureParams} (hp : p.Printable)
    (cs : List CoveredComponent) :
    Trimmed ('(' :: innerList cs ++ ')' :: behind ';' p.segments) := by
  apply Trimmed.append (by simp) (by simp) (by simp; decide)
  intro c hc
  rcases List.eq_nil_or_concat p.segments with hnil | ⟨init, s, hs⟩
  · rw [hnil] at hc
    have : c = ')' := by simpa [eq_comm] using hc
    rw [this]
    decide
  · obtain ⟨-, hne, htrim, -⟩ := hp.segmentText (s := s) (by simp [hs])
    have hbehind : ')' :: behind ';' p.segments = (')' :: (behind ';' init ++ [';'])) ++ s := by
      simp [hs, behind]
    rw [hbehind, List.getLast?_append_of_ne_nil _ hne] at hc
    exact htrim.last c hc

theorem close_notMem_innerList (cs : List CoveredComponent) : ')' ∉ innerList cs :=
  notMem_innerList (by decide) (by decide) (by decide) cs

/-- The printed text determines what it was printed from, a component being named twice or not. -/
theorem serializeWith_injective {p q : SignatureParams} {cs ds : List CoveredComponent} {s : Str}
    (hps : p.serializeWith cs = .ok s) (hqs : q.serializeWith ds = .ok s) : cs = ds ∧ p = q := by
  obtain ⟨hp, rfl⟩ := serializeWith_eq_ok.1 hps
  obtain ⟨hq, hs⟩ := serializeWith_eq_ok.1 hqs
  rw [List.cons_append, List.cons_append] at hs
  obtain ⟨hlist, htail⟩ := Code.append_cons_inj_left (List.cons.inj hs).2
    (close_notMem_innerList cs) (close_notMem_innerList ds)
  have hparsed := parseSignatureParameters_behind hp
  rw [htail, parseSignatureParameters_behind hq] at hparsed
  exact ⟨innerList_injective hlist, (Except.ok.inj hparsed).symm⟩

theorem parseSignatureInput_serialized {p : SignatureParams} {cs : List CoveredComponent} {s : Str}
    (hs : p.serializeWith cs = .ok s) (hcs : cs.Nodup) :
    parseSignatureInput s = .ok ⟨cs, p⟩ := by
  obtain ⟨hp, rfl⟩ := serializeWith_eq_ok.1 hs
  have hclose := close_notMem_innerList cs
  rw [parseSignatureInput, trim_eq_self (trimmed_serialized hp cs), List.cons_append]
  simp only [splitOnce_append hclose, okOr_some, ok_bind,
    parseCoveredComponents_eq_ok.2 ⟨rfl, hcs⟩, parseSignatureParameters_behind hp]

/-- A label that starts a dictionary member: nothing in it splits the dictionary or is trimmed. -/
structure IsLabel (label : Str) : Prop where
  noQuote : '"' ∉ label
  noComma : ',' ∉ label
  head : ∀ c ∈ label.head?, isWhitespace c = false

theorem isLabel_requestLabel : IsLabel requestLabel.toList := by
  have hplain : ∀ c ∈ requestLabel.toList, isWhitespace c = false := forall_mem_of_all (by decide)
  exact ⟨by decide, by decide, fun c hc => hplain c (List.mem_of_mem_head? hc)⟩

theorem isLabel_responseLabel : IsLabel responseLabel.toList := by
  have hplain : ∀ c ∈ responseLabel.toList, isWhitespace c = false := forall_mem_of_all (by decide)
  exact ⟨by decide, by decide, fun c hc => hplain c (List.mem_of_mem_head? hc)⟩

theorem memberValue_single {label s : Str} (hlabel : IsLabel label) (hclosed : Closed (· == ',') s)
    (htrim : Trimmed s) (hne : s ≠ []) : memberValue (label ++ '=' :: s) label = .ok s := by
  have hsplit : splitDictionary (label ++ '=' :: s) = [label ++ '=' :: s] := by
    have hfront : Closed (· == ',') (label ++ ['=']) := by
      refine .of_plain (by simpa using hlabel.noQuote) fun c hc => ?_
      rcases List.mem_append.1 hc with hc | hc
      · rw [beq_eq_false_iff_ne]
        rintro rfl
        exact hlabel.noComma hc
      · rw [List.mem_singleton.1 hc]
        rfl
    have heq : label ++ '=' :: s = (label ++ ['=']) ++ s := by simp
    have htrimmed : Trimmed (label ++ '=' :: s) := by
      rw [heq]
      refine Trimmed.append (by simp) hne (fun c hc => ?_) htrim.last
      cases label with
      | nil =>
        have : c = '=' := by simpa [eq_comm] using hc
        rw [this]
        decide
      | cons x xs => exact hlabel.head c (by simpa using hc)
    rw [splitDictionary, List.map_congr_left (g := id)]
    · rw [List.map_id, heq, pieces_of_closed (hfront.append hclosed)]
    · intro m hm
      rw [heq, pieces_of_closed (hfront.append hclosed), List.mem_singleton, ← heq] at hm
      rw [hm]
      exact trim_eq_self htrimmed
  have hmember : (label ++ '=' :: s).isEmpty = false := by simp
  have hstrip : (stripPrefix label (label ++ '=' :: s)).bind (stripPrefix ['=']) = some s := by
    rw [Option.bind_eq_some_iff]
    exact ⟨_, stripPrefix_eq_some.2 rfl, stripPrefix_eq_some.2 rfl⟩
  simp [memberValue, hsplit, findMember, hmember, hstrip, trim_eq_self htrim]

theorem closed_serialized {p : SignatureParams} (hp : p.Printable) (cs : List CoveredComponent) :
    Closed (· == ',') ('(' :: innerList cs ++ ')' :: behind ';' p.segments) := by
  have hopen : Closed (· == ',') ['('] := ⟨by decide, by decide⟩
  have hclose : Closed (· == ',') [')'] := ⟨by decide, by decide⟩
  have htail : Closed (· == ',') (behind ';' p.segments) := by
    refine .behind (by decide) (by decide) fun s hs => ?_
    exact (hp.segmentText hs).closed.mono fun c hc => by simp_all [isDelimiter]
  simpa using (hopen.append (closed_innerList cs)).append (hclose.append htail)

/-- **The header the printer writes is read back exactly**: the dictionary yields the printed
member value, and the member value the components and parameters it was printed from. -/
theorem signature_input_round_trip {label : Str} (hlabel : IsLabel label) {p : SignatureParams}
    {cs : List CoveredComponent} {s : Str} (hcs : cs.Nodup) (hs : p.serializeWith cs = .ok s) :
    memberValue (label ++ '=' :: s) label = .ok s ∧ parseSignatureInput s = .ok ⟨cs, p⟩ := by
  obtain ⟨hp, rfl⟩ := serializeWith_eq_ok.1 hs
  refine ⟨?_, parseSignatureInput_serialized hs hcs⟩
  exact memberValue_single hlabel (closed_serialized hp cs) (trimmed_serialized hp cs) (by simp)

theorem signature_input_round_trip_delimiters :
    let cs : List CoveredComponent := [⟨.method, false⟩, ⟨.contentDigest, true⟩]
    let p : SignatureParams := ⟨some (I64.clamp (-5)), none, some "a;b,c) =".toList, none, none, none⟩
    let s := "(\"@method\" \"content-digest\";req);created=-5;nonce=\"a;b,c) =\"".toList
    cs.Nodup ∧ p.serializeWith cs = .ok s ∧
      memberValue (requestLabel.toList ++ '=' :: s) requestLabel.toList = .ok s ∧
      parseSignatureInput s = .ok ⟨cs, p⟩ := by
  refine ⟨by decide, by decide +kernel, ?_⟩
  exact signature_input_round_trip isLabel_requestLabel (by decide) (by decide +kernel)

/-! ## What the reader accepts -/

/-- The only whitespace of a text is the space. -/
def OnlySpaces (v : Str) : Prop := ∀ c ∈ v, isWhitespace c = true → c = ' '

instance (v : Str) : Decidable (OnlySpaces v) :=
  List.decidableBAll (fun c => isWhitespace c = true → c = ' ') v

theorem isPrintable_identifier (d : CoveredComponent) :
    ∀ c ∈ d.identifier, isPrintable c = true := by
  obtain ⟨n, req⟩ := d
  cases req <;> cases n <;> exact forall_mem_of_all (by decide)

theorem onlySpaces_serialized {p : SignatureParams} (hp : p.Printable)
    (cs : List CoveredComponent) :
    OnlySpaces ('(' :: innerList cs ++ ')' :: behind ';' p.segments) := by
  intro c hc hw
  have hplain : ∀ c ∈ ['(', ')', ';'], isWhitespace c = false :=
    forall_mem_of_all (by decide)
  simp only [List.cons_append, List.mem_cons, List.mem_append, behind, List.mem_flatMap] at hc
  rcases hc with rfl | hc | rfl | ⟨s, hs, rfl | hc⟩
  · simp [hplain] at hw
  · rcases mem_innerList hc with rfl | ⟨d, -, hd⟩
    · rfl
    · exact eq_space_of_isPrintable (isPrintable_identifier d c hd) hw
  · simp [hplain] at hw
  · simp [hplain] at hw
  · exact eq_space_of_isPrintable ((hp.segmentText hs).printable c hc) hw

def isSpaceOrTab (c : Char) : Bool := c == ' ' || c == '\t'

/-- What an accepted parameter tail is made of: raw segments behind a `;` each, whose trimmed texts
are the printed segments. -/
theorem parseSignatureParameters_sound {tail : Str} {p : SignatureParams}
    (h : parseSignatureParameters tail = .ok p) :
    p.Printable ∧ ∃ raws : List Str, tail = behind ';' raws ∧ p.segments = raws.map trim ∧
      ∀ raw ∈ raws, noneOutside isSpaceOrTab .outside raw = true := by
  have hdefault : SignatureParams.Printable .default := by
    constructor <;> (intro s hs; cases hs)
  obtain ⟨_, hcheck, hread⟩ := bind_eq_ok.1 h
  cases tail with
  | nil =>
    obtain rfl : SignatureParams.default = p := by simpa [splitParameters, pieces, split, trim,
      assignAll] using hread
    exact ⟨hdefault, [], rfl, rfl, by simp⟩
  | cons c t =>
    simp only [checkTailSpelling, List.isEmpty_cons, Bool.false_eq_true, if_false, bind_eq_ok,
      ensure_eq_ok, List.head?_cons, beq_iff_eq, Option.some.injEq] at hcheck
    obtain ⟨-, rfl, -, hfull, hspace⟩ := hcheck
    have hpieces : pieces ';' (';' :: t) = [] :: pieces ';' t := by simp [pieces, split]
    have hsplit : splitParameters (';' :: t) = [] :: (pieces ';' t).map trim := by
      rw [splitParameters, hpieces]
      rfl
    rw [hsplit, assignAll] at hread
    have hne : ∀ s ∈ (pieces ';' t).map trim, s ≠ [] := by
      rintro s hs rfl
      rw [hsplit] at hfull
      simp only [List.drop_one, List.tail_cons, Bool.not_eq_true', List.any_eq_false] at hfull
      exact hfull [] hs rfl
    obtain ⟨hsegs, hp⟩ := assignAll_sound hne (fun k _ => by cases k <;> rfl) hdefault
      (by simpa using hread)
    refine ⟨hp, pieces ';' t, ?_, hsegs, ?_⟩
    · have hflat := eq_flatten_pieces hpieces
      rwa [List.nil_append] at hflat
    · have hsep : ';' ≠ '"' := by decide
      have hrest := (noneOutside_split hsep hspace).2
      rw [pieces, List.cons.injEq] at hpieces
      rwa [hpieces.2] at hrest

theorem parseSignatureInput_sound {v : Str} {parsed : ParsedSignatureInput}
    (h : parseSignatureInput v = .ok parsed) :
    parsed.components.Nodup ∧ parsed.params.Printable ∧ ∃ raws : List Str,
      trim v = '(' :: innerList parsed.components ++ ')' :: behind ';' raws ∧
      parsed.params.segments = raws.map trim ∧
      ∀ raw ∈ raws, noneOutside isSpaceOrTab .outside raw = true := by
  unfold parseSignatureInput at h
  split at h
  next rest hrest =>
    simp only [bind_eq_ok, okOr_eq_ok, Except.ok.injEq, Prod.exists] at h
    obtain ⟨list, tail, hcut, cs, hcs, p, hp, rfl⟩ := h
    obtain ⟨rfl, -⟩ := splitOnce_eq_some.1 hcut
    obtain ⟨rfl, hnodup⟩ := parseCoveredComponents_eq_ok.1 hcs
    obtain ⟨hprint, raws, rfl, hsegs, hspace⟩ := parseSignatureParameters_sound hp
    exact ⟨hnodup, hprint, raws, by simpa using hrest, hsegs, hspace⟩
  next => cases h

/-- A raw segment whose only whitespace is the space is already trimmed, when no space stands
outside its quotes and what is left after trimming is a printed segment. -/
theorem trim_raw {raw : Str} (hspaces : OnlySpaces raw) (hseg : SegmentText (trim raw))
    (hnone : noneOutside isSpaceOrTab .outside raw = true) : trim raw = raw := by
  obtain ⟨l, r, hraw, hl, hr⟩ := exists_eq_append_trim raw
  -- both ends are scanned outside quotes, where the check has refused every space
  have hend : ∀ e : Str, (∀ c ∈ e, isWhitespace c = true) → (∀ c ∈ e, c ∈ raw) →
      noneOutside isSpaceOrTab .outside e = true → e = [] := by
    intro e hws hmem hout
    cases e with
    | nil => rfl
    | cons c cs =>
      obtain rfl := hspaces c (hmem c (by simp)) (hws c (by simp))
      simp [noneOutside, isSpaceOrTab] at hout
  rw [hraw, noneOutside_append, noneOutside_append, Bool.and_eq_true, Bool.and_eq_true] at hnone
  obtain ⟨⟨hnl, -⟩, hnr⟩ := hnone
  obtain rfl : l = [] := hend l hl (fun c hc => by rw [hraw]; simp [hc]) hnl
  rw [List.nil_append, hseg.closed.after_eq] at hnr
  obtain rfl : r = [] := hend r hr (fun c hc => by rw [hraw]; simp [hc]) hnr
  simpa using hraw.symm

theorem serializeWith_eq_of_onlySpaces {v : Str} {parsed : ParsedSignatureInput}
    (hv : trim v = v) (hp : parseSignatureInput v = .ok parsed) (hspaces : OnlySpaces v) :
    parsed.params.serializeWith parsed.components = .ok v := by
  obtain ⟨-, hprint, raws, htext, hsegs, hnone⟩ := parseSignatureInput_sound hp
  rw [hv] at htext
  have htrim : raws.map trim = raws := by
    rw [List.map_congr_left (g := id), List.map_id]
    intro raw hraw
    refine trim_raw ?_ ?_ (hnone raw hraw)
    · intro c hc
      apply hspaces c
      rw [htext]
      simp only [List.cons_append, List.mem_cons, List.mem_append, behind, List.mem_flatMap]
      exact .inr (.inr (.inr ⟨raw, hraw, .inr hc⟩))
    · apply hprint.segmentText
      rw [hsegs]
      exact List.mem_map_of_mem hraw
  exact serializeWith_eq_ok.2 ⟨hprint, by rw [hsegs, htrim, htext]⟩

theorem trim_of_memberValue {h l v : Str} (hv : memberValue h l = .ok v) : trim v = v := by
  have hfind : ∀ (ms : List Str) (found r : Option Str), (∀ w ∈ found, trim w = w) →
      findMember l found ms = .ok r → ∀ w ∈ r, trim w = w := by
    intro ms
    induction ms with
    | nil =>
      intro found r hfound hr
      cases hr
      exact hfound
    | cons m ms ih =>
      intro found r hfound hr
      rw [findMember] at hr
      by_cases hm : m.isEmpty = true
      · rw [if_pos hm] at hr
        cases hr
      rw [if_neg hm] at hr
      cases hw : (stripPrefix l m).bind (stripPrefix ['=']) with
      | none =>
        rw [hw] at hr
        exact ih found r hfound hr
      | some w =>
        simp only [hw] at hr
        split_ifs at hr with hsome hspace
        exact ih (some w) r (by simpa using not_not.1 hspace) hr
  simp only [memberValue, bind_eq_ok, okOr_eq_ok] at hv
  obtain ⟨r, hr, rfl⟩ := hv
  exact hfind _ none (some v) (by simp) hr v rfl

/-- **When an accepted member value is the printed one**: exactly when its only whitespace is the
space. Such accepted values are then determined by what they denote. -/
theorem accepted_spelling_iff (h l v : Str) (parsed : ParsedSignatureInput)
    (hv : memberValue h l = .ok v) (hparsed : parseSignatureInput v = .ok parsed) :
    (parsed.params.serializeWith parsed.components = .ok v ↔ OnlySpaces v) ∧
      (OnlySpaces v → ∀ h' l' v', memberValue h' l' = .ok v' →
        parseSignatureInput v' = .ok parsed → OnlySpaces v' → v' = v) := by
  have hspelled : ∀ {h l v : Str}, memberValue h l = .ok v → parseSignatureInput v = .ok parsed →
      OnlySpaces v → parsed.params.serializeWith parsed.components = .ok v :=
    fun hv hp hs => serializeWith_eq_of_onlySpaces (trim_of_memberValue hv) hp hs
  refine ⟨⟨fun hser => ?_, hspelled hv hparsed⟩, ?_⟩
  · obtain ⟨hprint, rfl⟩ := serializeWith_eq_ok.1 hser
    exact onlySpaces_serialized hprint _
  · intro hs h' l' v' hv' hp' hs'
    have heq := hspelled hv' hp' hs'
    rw [hspelled hv hparsed hs, Except.ok.injEq] at heq
    exact heq.symm

theorem accepted_spelling_iff_plain :
    let v := "(\"@method\");created=1;keyid=\"a b\"".toList
    let p : SignatureParams := ⟨some 1, none, none, some "a b".toList, none, none⟩
    memberValue ("x=1, mcp-re=".toList ++ v) requestLabel.toList = .ok v ∧
      (p.serializeWith [⟨.method, false⟩] = .ok v ↔ OnlySpaces v) := by
  intro v p
  refine ⟨by decide +kernel, ?_⟩
  exact (accepted_spelling_iff ("x=1, mcp-re=".toList ++ v) requestLabel.toList v
    ⟨[⟨.method, false⟩], p⟩ (by decide +kernel) (by decide +kernel)).1

/-- A no-break space after a parameter is trimmed away: the member value is accepted, is not the
printed one, and denotes the same components and parameters as the text without it. -/
theorem accepted_spelling_no_break_space :
    let v := "(\"@method\");created=1\u00a0;expires=2".toList
    let v' := "(\"@method\");created=1;expires=2".toList
    let parsed : ParsedSignatureInput :=
      ⟨[⟨.method, false⟩], ⟨some 1, some 2, none, none, none, none⟩⟩
    memberValue (requestLabel.toList ++ '=' :: v) requestLabel.toList = .ok v ∧
      parseSignatureInput v = .ok parsed ∧
      parsed.params.serializeWith parsed.components ≠ .ok v ∧
      memberValue (requestLabel.toList ++ '=' :: v') requestLabel.toList = .ok v' ∧
      parseSignatureInput v' = .ok parsed ∧ v ≠ v' := by
  decide +kernel

end McpRe.Http

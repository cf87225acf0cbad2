import McpRe.Transport.Response

/-!
# An accepted reply and its readings

`parse_response` holds every header line to one reading, and not its status line: a lone carriage
return or line feed in the reason phrase is accepted, and so is a length with a sign. What an
accepted reply promises (`OneReading`), up to what a lenient reader makes of it (`lenientRead`), it
keeps exactly when it has neither: `one_reading_iff`.
-/

namespace McpRe.Transport

open Lib Lib.Text Lib.Result Lib.Lines

/-! ## What is on the wire -/

/-- The fields of some header lines as they stand on the wire. -/
def wireFields (lines : List Bytes) : List (Str × Str) :=
  lines.filterMap fun line => (fromUtf8 line).bind (splitOnce ':')

def named (name : Str) (fields : List (Str × Str)) : List (Str × Str) :=
  fields.filter fun f => eqIgnoreAsciiCase f.1 name

/-- How a field is kept. -/
def kept (f : Str × Str) : Str × Str := (toAsciiLowercase f.1, trim f.2)

/-- A reader that ends a line at a lone carriage return or line feed, too. -/
def lenientRead (debug : Str → Str) (raw : Bytes) : Option HttpResponseParts := do
  let (lines, body) ← readHead 13 10 [] raw
  let statusLine ← lines.head?.bind fromUtf8
  let status ← (parseStatusLine debug statusLine).toOption
  pure { status, headers := (wireFields lines.tail).map kept, body }

def headOf (raw : Bytes) : Bytes := ((splitHead 13 10 raw).map Prod.fst).getD []

def fieldsOf (raw : Bytes) : List (Str × Str) := wireFields (split 13 10 (headOf raw)).tail

/-- What an accepted reply promises. -/
structure OneReading (debug : Str → Str) (raw : Bytes) (parts : HttpResponseParts) : Prop where
  /-- The body is what follows the first empty line. -/
  framed : raw = headOf raw ++ [13, 10, 13, 10] ++ parts.body ∧
    ∀ head' body', raw = head' ++ [13, 10, 13, 10] ++ body' → (headOf raw).length ≤ head'.length
  paired : Paired 13 10 (headOf raw)
  noEncoding : named "Transfer-Encoding".toList (fieldsOf raw) = []
  /-- At most one length, in digits, and right. -/
  length : (named "Content-Length".toList (fieldsOf raw)).length ≤ 1 ∧
    ∀ f ∈ named "Content-Length".toList (fieldsOf raw),
      I64.isDigits (trim f.2) = true ∧ Nat.ofDigitChars 10 (trim f.2) 0 = parts.body.length
  lenient : lenientRead debug raw = some parts

/-- Neither a lone carriage return or line feed in the status line, nor a length with a sign. -/
def Unambiguous (raw : Bytes) : Prop :=
  (∀ line ∈ (split 13 10 (headOf raw)).head?, Bare 13 10 line) ∧
    ∀ f ∈ named "Content-Length".toList (fieldsOf raw), (trim f.2).head? ≠ some '+'

/-! ## What the parser accepts -/

section

variable {debug : Str → Str}

theorem parseHeaderLine_eq_ok {line : Str} {h : Str × Str}
    (hok : parseHeaderLine debug line = .ok h) :
    Bare '\r' '\n' line ∧ ∃ f, splitOnce ':' line = some f ∧ h = kept f := by
  rw [parseHeaderLine] at hok
  split_ifs at hok with hfold hbare
  · cases hok
  · cases hok
  · have hline : Bare 13 10 (utf8 line) := by
      simp only [List.any_eq_true, Bool.or_eq_true, beq_iff_eq, not_exists, not_and, not_or] at hbare
      exact ⟨fun h13 => (hbare 13 h13).1 rfl, fun h10 => (hbare 10 h10).2 rfl⟩
    refine ⟨bare_utf8.1 hline, ?_⟩
    cases hsplit : splitOnce ':' line with
    | none =>
      rw [hsplit] at hok
      cases hok
    | some f =>
      rw [hsplit] at hok
      dsimp only at hok
      split_ifs at hok
      · cases hok
      · cases hok
        exact ⟨f, rfl, rfl⟩

theorem parseHeaderBlock_eq_ok {lines : List Str} {headers : List (Str × Str)}
    (hok : parseHeaderBlock debug lines = .ok headers) :
    (∀ line ∈ lines, Bare '\r' '\n' line ∧ line ≠ []) ∧
      headers = (wireFields (lines.map utf8)).map kept := by
  rw [parseHeaderBlock, mapM_eq_ok] at hok
  induction hok with
  | nil => exact ⟨fun line h => (by cases h), rfl⟩
  | @cons line h lines headers hline _ ih =>
    obtain ⟨hbare, f, hsplit, rfl⟩ := parseHeaderLine_eq_ok hline
    refine ⟨?_, ?_⟩
    · intro l hl
      rcases List.mem_cons.1 hl with rfl | hl
      · refine ⟨hbare, ?_⟩
        rintro rfl
        cases hsplit
      · exact ih.1 l hl
    · rw [ih.2]
      simp [wireFields, hsplit]

theorem parseStatusLine_ne_nil {line : Str} {status : Nat}
    (hok : parseStatusLine debug line = .ok status) : line ≠ [] := by
  rintro rfl
  cases hok

theorem filter_kept (name : Str) (fields : List (Str × Str)) :
    (fields.map kept).filter (fun h => h.1 == toAsciiLowercase name)
      = (named name fields).map kept := by
  rw [List.filter_map]
  rfl

/-- A length without a sign is digits. -/
theorem usizeFromStr_eq_some {value : Str} {n : Nat} (h : usizeFromStr value = some n)
    (hsign : value.head? ≠ some '+') :
    I64.isDigits value = true ∧ Nat.ofDigitChars 10 value 0 = n := by
  unfold usizeFromStr at h
  split at h
  next ds => exact absurd rfl hsign
  next ds =>
    split_ifs at h with hdigits
    rw [Option.filter_eq_some_iff] at h
    exact ⟨hdigits, Option.some.inj h.1⟩

theorem not_isDigits_of_sign {value : Str} (h : value.head? = some '+') :
    I64.isDigits value = false := by
  cases value with
  | nil => cases h
  | cons c cs =>
    cases h
    rfl

theorem checkFraming_eq_ok {fields : List (Str × Str)} {bodyLen : Nat}
    (hok : checkFraming debug (fields.map kept) bodyLen = .ok ()) :
    named "Transfer-Encoding".toList fields = [] ∧
      (named "Content-Length".toList fields).length ≤ 1 ∧
      ∀ f ∈ named "Content-Length".toList fields, usizeFromStr (trim f.2) = some bodyLen := by
  have hlength := filter_kept "Content-Length".toList fields
  rw [checkFraming] at hok
  split_ifs at hok with hencoding
  · cases hok
  · refine ⟨?_, ?_⟩
    · have hnone := filter_kept "Transfer-Encoding".toList fields
      have hfilter : (fields.map kept).filter
          (fun h => h.1 == toAsciiLowercase "Transfer-Encoding".toList) = [] := by
        rw [List.filter_eq_nil_iff]
        intro h hh heq
        exact hencoding (List.any_eq_true.2 ⟨h, hh, heq⟩)
      rw [hfilter] at hnone
      exact List.map_eq_nil_iff.1 hnone.symm
    · rw [show "content-length".toList = toAsciiLowercase "Content-Length".toList from rfl,
        hlength] at hok
      generalize named "Content-Length".toList fields = lengths at hok ⊢
      match lengths with
      | [] => exact ⟨by simp, fun f hf => by cases hf⟩
      | [f] =>
        refine ⟨by simp, fun f' hf' => ?_⟩
        rw [List.mem_singleton.1 hf']
        simp only [List.map_cons, List.map_nil, kept] at hok
        cases hvalue : usizeFromStr (trim f.2) with
        | none =>
          rw [hvalue] at hok
          cases hok
        | some n =>
          rw [hvalue] at hok
          dsimp only at hok
          split_ifs at hok with hne
          · cases hok
          · rw [not_not.1 hne]
      | _ :: _ :: _ => cases hok

theorem parseResponse_eq_ok {raw : Bytes} {parts : HttpResponseParts}
    (hok : parseResponse debug raw = .ok parts) :
    ∃ head statusLine lines, splitHead 13 10 raw = some (utf8 head, parts.body) ∧
      split '\r' '\n' head = statusLine :: lines ∧
      parseStatusLine debug statusLine = .ok parts.status ∧
      parseHeaderBlock debug lines = .ok parts.headers ∧
      checkFraming debug parts.headers parts.body.length = .ok () := by
  rw [parseResponse] at hok
  simp only [bind_eq_ok, okOr_eq_ok] at hok
  obtain ⟨⟨headBytes, body⟩, hhead, head, hutf8, hok⟩ := hok
  obtain rfl := utf8_of_fromUtf8 hutf8
  cases hlines : split '\r' '\n' head with
  | nil => exact absurd hlines (split_ne_nil head)
  | cons statusLine lines =>
    rw [hlines] at hok
    simp only [bind_eq_ok, pure_eq_ok, Except.ok.injEq] at hok
    obtain ⟨status, hstatus, headers, hheaders, ⟨⟩, hframing, rfl⟩ := hok
    exact ⟨head, statusLine, lines, hhead, hlines, hstatus, hheaders, hframing⟩

end

/-! ## The readings -/

/-- **An accepted reply has one reading exactly when** its status line has no lone carriage return
or line feed and its length no sign. -/
theorem one_reading_iff (debug : Str → Str) (raw : Bytes) (parts : HttpResponseParts)
    (hok : parseResponse debug raw = .ok parts) :
    OneReading debug raw parts ↔ Unambiguous raw := by
  obtain ⟨head, statusLine, lines, hhead, hlines, hstatus, hheaders, hframing⟩ :=
    parseResponse_eq_ok hok
  obtain ⟨hbare, hfields⟩ := parseHeaderBlock_eq_ok hheaders
  have hheadOf : headOf raw = utf8 head := by rw [headOf, hhead]; rfl
  have hsplit : split 13 10 (headOf raw) = utf8 statusLine :: lines.map utf8 := by
    rw [hheadOf, split_utf8, hlines, List.map_cons]
  have hfieldsOf : fieldsOf raw = wireFields (lines.map utf8) := by rw [fieldsOf, hsplit]; rfl
  rw [hfields, ← hfieldsOf] at hframing
  obtain ⟨hencoding, hone, hlength⟩ := checkFraming_eq_ok hframing
  constructor
  · intro h
    refine ⟨?_, ?_⟩
    · intro line hline
      exact paired_iff.1 h.paired line (List.mem_of_mem_head? hline)
    · intro f hf hsign
      have hdigits := (h.length.2 f hf).1
      rw [not_isDigits_of_sign hsign] at hdigits
      cases hdigits
  · rintro ⟨hplain, hsign⟩
    rw [hsplit] at hplain
    have hlinesBare : ∀ l ∈ utf8 statusLine :: lines.map utf8, Bare 13 10 l ∧ l ≠ [] := by
      intro l hl
      rcases List.mem_cons.1 hl with rfl | hl
      · refine ⟨hplain _ rfl, fun hnil => parseStatusLine_ne_nil hstatus ?_⟩
        exact utf8_injective hnil
      · obtain ⟨line, hline, rfl⟩ := List.mem_map.1 hl
        refine ⟨bare_utf8.2 (hbare line hline).1, fun hnil => (hbare line hline).2 ?_⟩
        exact utf8_injective hnil
    obtain ⟨hraw, hfirst⟩ := splitHead_eq_some hhead
    rw [← hheadOf] at hraw hfirst
    refine ⟨⟨hraw, hfirst⟩, ?_, hencoding, ⟨hone, fun f hf => ?_⟩, ?_⟩
    · rw [paired_iff, hsplit]
      exact fun l hl => (hlinesBare l hl).1
    · exact usizeFromStr_eq_some (hlength f hf) (hsign f hf)
    · -- joined again, the lines are the head
      have hread := readHead_of_bare (List.cons_ne_nil _ _) hlinesBare parts.body
      rw [← hsplit, intercalate_split, ← hraw, hsplit] at hread
      rw [lenientRead, hread]
      simp only [Option.bind_eq_bind, Option.bind_some, List.head?_cons, fromUtf8_utf8, hstatus,
        List.tail_cons, ← hfields]
      rfl

/-! ## Replies -/

section

variable {raw body : Bytes} {head : Str}

theorem fieldsOf_eq (h : splitHead 13 10 raw = some (utf8 head, body)) :
    fieldsOf raw = (split '\r' '\n' head).tail.filterMap (splitOnce ':') := by
  rw [fieldsOf, headOf, h, Option.map_some, Option.getD_some, split_utf8, ← List.map_tail, wireFields,
    List.filterMap_map]
  refine List.filterMap_congr fun line _ => ?_
  rw [Function.comp, fromUtf8_utf8, Option.bind_some]

theorem parseResponse_eq (debug : Str → Str) (h : splitHead 13 10 raw = some (utf8 head, body)) :
    parseResponse debug raw = (match split '\r' '\n' head with
      | [] => malformed "empty response".toList
      | statusLine :: lines =>
        parseStatusLine debug statusLine >>= fun status =>
          parseHeaderBlock debug lines >>= fun headers =>
            checkFraming debug headers body.length >>= fun _ =>
              .ok { status, headers, body }) := by
  rw [parseResponse, h]
  simp only [okOr_some, ok_bind, fromUtf8_utf8]
  rfl

end

namespace ResponseSample

/-- A reply with a length. -/
def plain : Bytes := utf8 "HTTP/1.1 200 OK\r\nContent-Length: 2\r\nX: y\r\n\r\n\x7b\x7d".toList

/-- The same status with a line feed in its reason, and with a sign in front of the length. -/
def folded : Bytes := utf8 "HTTP/1.1 200 OK\nContent-Length: 0\r\n\r\n\x7b\x7d".toList

def signed : Bytes := utf8 "HTTP/1.1 200 OK\r\nContent-Length: +2\r\n\r\n\x7b\x7d".toList

def parts (headers : List (Str × Str)) : HttpResponseParts := ⟨200, headers, utf8 "\x7b\x7d".toList⟩

theorem splitHead_plain : splitHead 13 10 plain
    = some (utf8 "HTTP/1.1 200 OK\r\nContent-Length: 2\r\nX: y".toList,
      utf8 "\x7b\x7d".toList) := by decide +kernel

theorem splitHead_folded : splitHead 13 10 folded
    = some (utf8 "HTTP/1.1 200 OK\nContent-Length: 0".toList, utf8 "\x7b\x7d".toList) := by
  decide +kernel

theorem splitHead_signed : splitHead 13 10 signed
    = some (utf8 "HTTP/1.1 200 OK\r\nContent-Length: +2".toList, utf8 "\x7b\x7d".toList) := by
  decide +kernel

theorem plain_one_reading :
    parseResponse id plain
        = .ok (parts [("content-length".toList, "2".toList), ("x".toList, "y".toList)]) ∧
      OneReading id plain
        (parts [("content-length".toList, "2".toList), ("x".toList, "y".toList)]) := by
  have hok : parseResponse id plain
      = .ok (parts [("content-length".toList, "2".toList), ("x".toList, "y".toList)]) := by
    rw [parseResponse_eq id splitHead_plain]
    decide +kernel
  refine ⟨hok, (one_reading_iff id plain _ hok).2 ⟨?_, ?_⟩⟩
  · rw [headOf, splitHead_plain, Option.map_some, Option.getD_some]
    decide +kernel
  · rw [fieldsOf_eq splitHead_plain]
    decide +kernel

/-- The others are accepted and have two. -/
theorem two_readings_accepted :
    (parseResponse id folded = .ok (parts []) ∧ ¬Paired 13 10 (headOf folded) ∧
      lenientRead id folded = some (parts [("content-length".toList, "0".toList)]) ∧
      ¬OneReading id folded (parts [])) ∧
    (parseResponse id signed = .ok (parts [("content-length".toList, "+2".toList)]) ∧
      ¬OneReading id signed (parts [("content-length".toList, "+2".toList)])) := by
  have hlenient : lenientRead id folded = some (parts [("content-length".toList, "0".toList)]) := by
    have hread : readHead 13 10 [] folded
        = some (["HTTP/1.1 200 OK".toList, "Content-Length: 0".toList].map utf8,
          utf8 "\x7b\x7d".toList) := by decide +kernel
    rw [lenientRead, hread]
    simp only [Option.bind_eq_bind, Option.bind_some, List.map_cons, List.head?_cons,
      fromUtf8_utf8, List.tail_cons, wireFields, List.filterMap_cons]
    decide +kernel
  refine ⟨⟨?_, ?_, hlenient, ?_⟩, ?_, ?_⟩
  · rw [parseResponse_eq id splitHead_folded]
    decide +kernel
  · rw [headOf, splitHead_folded, paired_iff]
    decide +kernel
  · intro h
    have hsame := h.lenient.symm.trans hlenient
    revert hsame
    decide +kernel
  · rw [parseResponse_eq id splitHead_signed]
    decide +kernel
  · intro h
    have hdigits := h.length.2
    rw [fieldsOf_eq splitHead_signed] at hdigits
    revert hdigits
    decide +kernel

end ResponseSample

end McpRe.Transport

import McpRe.Http.SignatureInput

/-!
# The parameter tail

A parameter set is the table of its values' texts, one per key (`SignatureParams.value`), and its
printed tail is that table in rank order (`segments`).

* `serializeWith_eq_ok`: what the printer accepts and prints;
* `assignAll_sound`: an accepted run of the reader's loop has read the segments of its result;
* `assignAll_complete`: the loop reads the segments of any printable set back.
-/

namespace McpRe.Http

open Lib Lib.Result Lib.Text Lib.QuoteSplit

/-! ## Values and segments -/

def quoted (s : Str) : Str := '"' :: s ++ ['"']

theorem quoted_injective : Function.Injective quoted := by
  intro s t h
  simpa [quoted] using h

/-- The text of a parameter's value, where it is there. -/
def SignatureParams.value (p : SignatureParams) : ParamKey → Option Str
  | .created => p.created.map I64.display
  | .expires => p.expires.map I64.display
  | .nonce => p.nonce.map quoted
  | .keyid => p.keyid.map quoted
  | .alg => p.alg.map quoted
  | .tag => p.tag.map quoted

def segment (key : ParamKey) (v : Str) : Str := key.text.toList ++ '=' :: v

def SignatureParams.segments (p : SignatureParams) : List Str :=
  ParamKey.all.filterMap fun k => (p.value k).map (segment k)

theorem display_injective : Function.Injective I64.display := by
  intro a b h
  have := I64.fromStr_display a
  rw [h, I64.fromStr_display b] at this
  exact (Option.some.inj this).symm

theorem SignatureParams.ext_value {p q : SignatureParams} (h : ∀ k, p.value k = q.value k) :
    p = q := by
  have hd := Option.map_injective display_injective
  have hq := Option.map_injective quoted_injective
  obtain ⟨c, e, n, k, a, t⟩ := p
  obtain ⟨c', e', n', k', a', t'⟩ := q
  obtain rfl := hd (h .created)
  obtain rfl := hd (h .expires)
  obtain rfl := hq (h .nonce)
  obtain rfl := hq (h .keyid)
  obtain rfl := hq (h .alg)
  obtain rfl := hq (h .tag)
  rfl

/-- What the printer checks of a parameter set. -/
structure SignatureParams.Printable (p : SignatureParams) : Prop where
  nonce : ∀ s, p.nonce = some s → s.all isSfChar = true ∧ (utf8 s).length ≤ maxNonceChars
  keyid : ∀ s, p.keyid = some s → s.all isSfChar = true
  alg : ∀ s, p.alg = some s → s.all isSfChar = true
  tag : ∀ s, p.tag = some s → s.all isSfChar = true

/-! ## The printer -/

theorem pushString_eq_ok {out key what check v r} :
    pushString out key what check v = .ok r ↔
      (∀ s, v = some s → s.all isSfChar = true ∧ ∃ u, check s = .ok u) ∧
      r = out ++ behind ';' (v.map (stringSegment key)).toList := by
  cases v with
  | none => simpa [pushString] using eq_comm
  | some s =>
    simp only [pushString, validateSfString, bind_eq_ok, ensure_eq_ok, Except.ok.injEq,
      Option.some.injEq, forall_eq', Option.map_some, Option.toList_some, behind_cons,
      behind_nil, List.append_nil]
    constructor
    · rintro ⟨-, hs, u, hu, rfl⟩
      exact ⟨⟨hs, u, hu⟩, rfl⟩
    · rintro ⟨⟨hs, u, hu⟩, rfl⟩
      exact ⟨(), hs, u, hu, rfl⟩

theorem pushInteger_eq (out : Str) (key : String) (v : Option I64) :
    pushInteger out key v = out ++ behind ';' (v.map (integerSegment key)).toList := by
  cases v <;> simp [pushInteger]

/-- **What the printer accepts and prints**: the inner list, then each segment behind a `;`. -/
theorem serializeWith_eq_ok {p : SignatureParams} {cs : List CoveredComponent} {s : Str} :
    p.serializeWith cs = .ok s ↔
      p.Printable ∧ s = '(' :: innerList cs ++ ')' :: behind ';' p.segments := by
  have hsegments : p.segments = (p.created.map (integerSegment "created")).toList
      ++ (p.expires.map (integerSegment "expires")).toList
      ++ (p.nonce.map (stringSegment "nonce")).toList
      ++ (p.keyid.map (stringSegment "keyid")).toList
      ++ (p.alg.map (stringSegment "alg")).toList
      ++ (p.tag.map (stringSegment "tag")).toList := by
    obtain ⟨c, e, n, k, a, t⟩ := p
    cases c <;> cases e <;> cases n <;> cases k <;> cases a <;> cases t <;> rfl
  simp only [SignatureParams.serializeWith, bind_eq_ok, pushString_eq_ok, pushInteger_eq,
    validateNonceLength, ensure_eq_ok, decide_eq_true_eq]
  constructor
  · rintro ⟨o₁, ⟨hnonce, rfl⟩, o₂, ⟨hkeyid, rfl⟩, o₃, ⟨halg, rfl⟩, htag, rfl⟩
    refine ⟨⟨fun s hs => ?_, fun s hs => (hkeyid s hs).1, fun s hs => (halg s hs).1,
      fun s hs => (htag s hs).1⟩, ?_⟩
    · obtain ⟨hsf, -, hlen⟩ := hnonce s hs
      exact ⟨hsf, hlen⟩
    · simp [hsegments, behind]
  · rintro ⟨hp, rfl⟩
    refine ⟨_, ⟨fun s hs => ⟨(hp.nonce s hs).1, (), (hp.nonce s hs).2⟩, rfl⟩, _,
      ⟨fun s hs => ⟨hp.keyid s hs, (), trivial⟩, rfl⟩, _, ⟨fun s hs => ⟨hp.alg s hs, (), trivial⟩, rfl⟩,
      fun s hs => ⟨hp.tag s hs, (), trivial⟩, ?_⟩
    simp [hsegments, behind]

/-! ## The reader, one parameter -/

theorem parameterKey_text (k : ParamKey) : parameterKey k.text.toList = .ok k := by
  cases k <;> decide

theorem parameterKey_eq_ok {s : Str} {k : ParamKey} :
    parameterKey s = .ok k ↔ s = k.text.toList := by
  constructor
  · intro h
    rw [parameterKey, okOr_eq_ok] at h
    have := List.find?_some h
    exact (beq_iff_eq.1 this).symm
  · rintro rfl
    exact parameterKey_text k

theorem unquote_eq_ok {v s : Str} : unquote v = .ok s ↔ v = quoted s ∧ s.all isSfChar = true := by
  simp only [unquote, validateSfString, bind_eq_ok, okOr_eq_ok, ensure_eq_ok,
    Option.bind_eq_some_iff, stripPrefix_eq_some, stripSuffix_eq_some, Except.ok.injEq]
  constructor
  · rintro ⟨inner, ⟨_, rfl, rfl⟩, -, hs, rfl⟩
    exact ⟨rfl, hs⟩
  · rintro ⟨rfl, hs⟩
    exact ⟨s, ⟨s ++ ['"'], rfl, rfl⟩, (), hs, rfl⟩

/-- An integer parameter has one spelling. -/
theorem parseI64_eq_ok {s : Str} {n : I64} : parseI64 s = .ok n ↔ s = n.display := by
  simp only [parseI64, bind_eq_ok, ensure_eq_ok, okOr_eq_ok]
  constructor
  · rintro ⟨-, hd, -, hz, -, hneg, hn⟩
    cases hs : stripPrefix ['-'] s with
    | some ds =>
      obtain rfl : s = '-' :: ds := stripPrefix_eq_some.1 hs
      rw [hs, Option.getD_some] at hd hz hneg
      have h0 : ds ≠ ['0'] := by
        rintro rfl
        simp at hneg
      exact (I64.display_of_fromStr_neg hd hz h0 hn).symm
    | none =>
      rw [hs, Option.getD_none] at hd hz
      exact (I64.display_of_fromStr_digits hd hz hn).symm
  · rintro rfl
    have hread := I64.fromStr_display n
    have hdigits := I64.isDigits_toDigits n.val.natAbs
    have hzero := I64.noLeadingZero_toDigits n.val.natAbs
    rcases lt_or_ge n.val 0 with hn | hn
    · have htext : n.display = '-' :: Nat.toDigits 10 n.val.natAbs := by simp [I64.display, hn]
      have hne := I64.toDigits_ne_zero (n := n.val.natAbs) (by omega)
      refine ⟨(), ?_, (), ?_, (), ?_, hread⟩ <;> simp [htext, stripPrefix, hdigits, hzero, hne]
    · have htext : n.display = Nat.toDigits 10 n.val.natAbs := by
        rw [I64.display, if_neg (by omega)]
      have hsign : n.display.head? ≠ some '-' := by
        intro h
        rw [htext] at h
        have := List.mem_of_mem_head? h
        exact absurd (Nat.isDigit_of_mem_toDigits (by decide) (by decide) this) (by decide)
      have hstrip : stripPrefix ['-'] n.display = none := by
        rw [Option.eq_none_iff_forall_ne_some]
        intro t ht
        exact hsign (by rw [stripPrefix_eq_some.1 ht]; rfl)
      refine ⟨(), ?_, (), ?_, (), ?_, hread⟩
      · rw [hstrip, Option.getD_none, htext]
        exact hdigits
      · rw [hstrip, Option.getD_none, htext]
        exact hzero
      · simp [hsign]

theorem assign_value {p q : SignatureParams} {key : ParamKey} {v : Str}
    (h : assign p key v = .ok q) :
    q.value key = some v ∧ (∀ k, k ≠ key → q.value k = p.value k) ∧
      (p.Printable → q.Printable) := by
  cases key <;>
    simp only [assign, bind_eq_ok, parseI64_eq_ok, unquote_eq_ok, validateNonceLength,
      ensure_eq_ok, decide_eq_true_eq, Except.ok.injEq] at h
  case created | expires =>
    obtain ⟨n, rfl, rfl⟩ := h
    refine ⟨rfl, ?_, fun hp => ⟨hp.nonce, hp.keyid, hp.alg, hp.tag⟩⟩
    intro k hk
    cases k <;> first | rfl | exact absurd rfl hk
  case nonce =>
    obtain ⟨s, ⟨rfl, hs⟩, -, hlen, rfl⟩ := h
    refine ⟨rfl, ?_, fun hp => ⟨?_, hp.keyid, hp.alg, hp.tag⟩⟩
    · intro k hk
      cases k <;> first | rfl | exact absurd rfl hk
    · rintro t ht
      cases ht
      exact ⟨hs, hlen⟩
  case keyid =>
    obtain ⟨s, ⟨rfl, hs⟩, rfl⟩ := h
    refine ⟨rfl, ?_, fun hp => ⟨hp.nonce, ?_, hp.alg, hp.tag⟩⟩
    · intro k hk
      cases k <;> first | rfl | exact absurd rfl hk
    · rintro t ht
      cases ht
      exact hs
  case alg =>
    obtain ⟨s, ⟨rfl, hs⟩, rfl⟩ := h
    refine ⟨rfl, ?_, fun hp => ⟨hp.nonce, hp.keyid, ?_, hp.tag⟩⟩
    · intro k hk
      cases k <;> first | rfl | exact absurd rfl hk
    · rintro t ht
      cases ht
      exact hs
  case tag =>
    obtain ⟨s, ⟨rfl, hs⟩, rfl⟩ := h
    refine ⟨rfl, ?_, fun hp => ⟨hp.nonce, hp.keyid, hp.alg, ?_⟩⟩
    · intro k hk
      cases k <;> first | rfl | exact absurd rfl hk
    · rintro t ht
      cases ht
      exact hs

theorem exists_assign {p : SignatureParams} (hp : p.Printable) (q : SignatureParams)
    {key : ParamKey} {v : Str} (hv : p.value key = some v) : ∃ q', assign q key v = .ok q' := by
  cases key <;> simp only [SignatureParams.value, Option.map_eq_some_iff] at hv <;>
    obtain ⟨x, hx, rfl⟩ := hv <;>
    simp only [assign, bind_eq_ok, parseI64_eq_ok, unquote_eq_ok, validateNonceLength,
      ensure_eq_ok, decide_eq_true_eq, Except.ok.injEq]
  case created | expires => exact ⟨_, x, rfl, rfl⟩
  case nonce => exact ⟨_, x, ⟨rfl, (hp.nonce x hx).1⟩, (), (hp.nonce x hx).2, rfl⟩
  case keyid => exact ⟨_, x, ⟨rfl, hp.keyid x hx⟩, rfl⟩
  case alg => exact ⟨_, x, ⟨rfl, hp.alg x hx⟩, rfl⟩
  case tag => exact ⟨_, x, ⟨rfl, hp.tag x hx⟩, rfl⟩

/-! ## The reader's loop -/

theorem equals_notMem_text (k : ParamKey) : '=' ∉ k.text.toList := by
  cases k <;> decide

theorem segment_ne_nil (k : ParamKey) (v : Str) : segment k v ≠ [] := by
  simp [segment]

theorem assignAll_cons {p r : SignatureParams} {last : Int} {s : Str} {ss : List Str}
    (hs : s ≠ []) :
    assignAll p last (s :: ss) = .ok r ↔
      ∃ key v q, s = segment key v ∧ last < key.rank ∧ assign p key v = .ok q ∧
        assignAll q key.rank ss = .ok r := by
  have hne : s.isEmpty = false := by simpa using hs
  simp only [assignAll, hne, bind_eq_ok, okOr_eq_ok, ensure_eq_ok, parameterKey_eq_ok,
    decide_eq_true_eq, Bool.false_eq_true, if_false, Prod.exists, splitOnce_eq_some]
  constructor
  · rintro ⟨_, v, ⟨rfl, -⟩, key, rfl, -, hrank, q, hq, hrest⟩
    exact ⟨key, v, q, rfl, hrank, hq, hrest⟩
  · rintro ⟨key, v, q, rfl, hrank, hq, hrest⟩
    exact ⟨_, v, ⟨rfl, equals_notMem_text key⟩, key, rfl, (), hrank, q, hq, hrest⟩

theorem ParamKey.exists_split (key : ParamKey) :
    ∃ before after, ParamKey.all = before ++ key :: after ∧ (∀ k ∈ before, k ≠ key) ∧
      ∀ k ∈ after, k ≠ key ∧ key.rank < k.rank := by
  cases key
  case created => exact ⟨[], [expires, nonce, keyid, alg, tag], rfl, by decide, by decide⟩
  case expires => exact ⟨[created], [nonce, keyid, alg, tag], rfl, by decide, by decide⟩
  case nonce => exact ⟨[created, expires], [keyid, alg, tag], rfl, by decide, by decide⟩
  case keyid => exact ⟨[created, expires, nonce], [alg, tag], rfl, by decide, by decide⟩
  case alg => exact ⟨[created, expires, nonce, keyid], [tag], rfl, by decide, by decide⟩
  case tag => exact ⟨[created, expires, nonce, keyid, alg], [], rfl, by decide, by decide⟩

/-- A value set behind every value so far is printed last. -/
theorem segments_assign {p q : SignatureParams} {key : ParamKey} {v : Str} {last : Int}
    (hlast : ∀ k, last < k.rank → p.value k = none) (hrank : last < key.rank)
    (hv : q.value key = some v) (hsame : ∀ k, k ≠ key → q.value k = p.value k) :
    q.segments = p.segments ++ [segment key v] := by
  obtain ⟨before, after, hall, hbefore, hafter⟩ := key.exists_split
  have hfront : before.filterMap (fun k => (q.value k).map (segment k))
      = before.filterMap fun k => (p.value k).map (segment k) := by
    apply List.filterMap_congr
    intro k hk
    rw [hsame k (hbefore k hk)]
  have hback : ∀ r : SignatureParams, (∀ k, k ≠ key → r.value k = p.value k) →
      after.filterMap (fun k => (r.value k).map (segment k)) = [] := by
    intro r hr
    rw [List.filterMap_eq_nil_iff]
    intro k hk
    rw [hr k (hafter k hk).1, hlast k (by have := (hafter k hk).2; omega)]
    rfl
  rw [SignatureParams.segments, SignatureParams.segments, hall, List.filterMap_append,
    List.filterMap_append, List.filterMap_cons, List.filterMap_cons, hv, hlast key hrank, hfront,
    hback q hsame, hback p fun _ _ => rfl]
  simp

/-- **The loop reads what it prints**: on success the result has the segments it started with and
the ones it read. -/
theorem assignAll_sound {p r : SignatureParams} {last : Int} {ss : List Str}
    (hss : ∀ s ∈ ss, s ≠ []) (hlast : ∀ k, last < k.rank → p.value k = none)
    (hp : p.Printable) (h : assignAll p last ss = .ok r) :
    r.segments = p.segments ++ ss ∧ r.Printable := by
  induction ss generalizing p last with
  | nil =>
    cases h
    exact ⟨by simp, hp⟩
  | cons s ss ih =>
    obtain ⟨key, v, q, rfl, hrank, hq, hrest⟩ := (assignAll_cons (hss s (by simp))).1 h
    obtain ⟨hv, hsame, hprint⟩ := assign_value hq
    have hnext : ∀ k, key.rank < k.rank → q.value k = none := by
      intro k hk
      rw [hsame k (by rintro rfl; omega)]
      exact hlast k (by omega)
    obtain ⟨hsegs, hr⟩ := ih (fun s hs => hss s (by simp [hs])) hnext (hprint hp) hrest
    rw [hsegs, segments_assign hlast hrank hv hsame]
    exact ⟨by simp, hr⟩

theorem assignAll_keys {p : SignatureParams} (hp : p.Printable) {ks : List ParamKey}
    {q : SignatureParams} {last : Int} (hsorted : ks.Pairwise fun a b => a.rank < b.rank)
    (hlast : ∀ k ∈ ks, last < k.rank) (hq : ∀ k, k ∉ ks → q.value k = p.value k)
    (hnone : ∀ k ∈ ks, q.value k = none) :
    assignAll q last (ks.filterMap fun k => (p.value k).map (segment k)) = .ok p := by
  induction ks generalizing q last with
  | nil => simp [assignAll, SignatureParams.ext_value fun k => hq k (by simp)]
  | cons k ks ih =>
    obtain ⟨hk, hks⟩ := List.pairwise_cons.1 hsorted
    have hnotMem : k ∉ ks := fun hmem => lt_irrefl _ (hk k hmem)
    cases hv : p.value k with
    | none =>
      simp only [List.filterMap_cons, hv, Option.map_none]
      refine ih hks (fun j hj => hlast j (by simp [hj])) ?_ (fun j hj => hnone j (by simp [hj]))
      intro j hj
      by_cases hjk : j = k
      · rw [hjk, hv, hnone k (by simp)]
      · exact hq j (by simp [hjk, hj])
    | some v =>
      simp only [List.filterMap_cons, hv, Option.map_some]
      obtain ⟨q', hq'⟩ := exists_assign hp q hv
      obtain ⟨hset, hsame, -⟩ := assign_value hq'
      refine (assignAll_cons (segment_ne_nil k v)).2
        ⟨k, v, q', rfl, hlast k (by simp), hq', ih hks hk ?_ ?_⟩
      · intro j hj
        by_cases hjk : j = k
        · rw [hjk, hset, hv]
        · rw [hsame j hjk, hq j (by simp [hjk, hj])]
      · intro j hj
        rw [hsame j (by rintro rfl; exact hnotMem hj), hnone j (by simp [hj])]

/-- **The loop reads any printable set back.** -/
theorem assignAll_complete {p : SignatureParams} (hp : p.Printable) :
    assignAll .default (-1) p.segments = .ok p := by
  refine assignAll_keys hp (by decide) (by decide) ?_ ?_
  · intro k hk
    exact absurd (by cases k <;> decide) hk
  · intro k _
    cases k <;> rfl

end McpRe.Http

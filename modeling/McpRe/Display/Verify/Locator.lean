import McpRe.Display.Locator

/-!
# A rendered locator says only where it points

A `Reference` is a text taken apart as RFC 3986 does it. What is rendered of it is computed from its
scheme, its host and port and from which other components it has (`project_text`), and every other
text is rendered as one of two fixed ones.

* `locator_reveals_only`: two references that agree on those render alike; what is no reference, or
  has an empty authority, renders as a fixed text; and no rendering has an `@`.
-/

namespace McpRe.Display

open Lib Lib.Text

def behindUserinfo (hostPort : Str) : Option Str → Str
  | none => hostPort
  | some info => info ++ '@' :: hostPort

/-- A reference with an authority: the scheme up to the first `://`, the authority up to the first
`/`, `?` or `#`, the user information up to the authority's last `@`. -/
structure Reference where
  scheme : Str
  userinfo : Option Str
  hostPort : Str
  path : Str
  query : Option Str
  fragment : Option Str
  scheme_plain : containsText schemeMark scheme = false
  userinfo_plain : ∀ info ∈ userinfo, ∀ c ∈ info, endsAuthority c = false
  hostPort_plain : ∀ c ∈ hostPort, endsAuthority c = false
  hostPort_last : '@' ∉ hostPort
  path_rooted : ∀ c ∈ path.head?, c = '/'
  path_plain : '?' ∉ path ∧ '#' ∉ path
  query_plain : ∀ text ∈ query, '#' ∉ text

namespace Reference

variable (r : Reference)

def authority : Str := behindUserinfo r.hostPort r.userinfo

def tail : Str := r.path ++ behind '?' r.query ++ behind '#' r.fragment

def text : Str := r.scheme ++ schemeMark ++ (r.authority ++ r.tail)

/-- The path has a character other than `/`. -/
def hasPath : Bool := r.path.any (· != '/')

end Reference

/-! ## Taking a reference apart -/

theorem authority_plain (r : Reference) : ∀ c ∈ r.authority, endsAuthority c = false := by
  intro c hc
  unfold Reference.authority behindUserinfo at hc
  cases hinfo : r.userinfo with
  | none =>
    rw [hinfo] at hc
    exact r.hostPort_plain c hc
  | some info =>
    simp only [hinfo, List.mem_append, List.mem_cons] at hc
    rcases hc with hc | rfl | hc
    · exact r.userinfo_plain info hinfo c hc
    · rfl
    · exact r.hostPort_plain c hc

theorem head?_tail (r : Reference) : ∀ c ∈ r.tail.head?, endsAuthority c = true := by
  intro c hc
  unfold Reference.tail at hc
  cases hpath : r.path with
  | cons x path =>
    rw [hpath] at hc
    obtain rfl : x = c := by simpa using hc
    have hx : x = '/' := r.path_rooted x (by rw [hpath]; rfl)
    rw [hx]
    rfl
  | nil =>
    rw [hpath] at hc
    cases hquery : r.query with
    | some query =>
      rw [hquery] at hc
      obtain rfl : '?' = c := by simpa [behind] using hc
      rfl
    | none =>
      rw [hquery] at hc
      cases hfragment : r.fragment with
      | some fragment =>
        rw [hfragment] at hc
        obtain rfl : '#' = c := by simpa [behind] using hc
        rfl
      | none =>
        rw [hfragment] at hc
        cases hc

theorem takeWhile_authority (r : Reference) :
    (r.authority ++ r.tail).takeWhile (fun c => !endsAuthority c) = r.authority := by
  rw [List.takeWhile_append_of_pos (by simpa using authority_plain r)]
  have hnil : r.tail.takeWhile (fun c => !endsAuthority c) = [] := by
    have hhead := head?_tail r
    cases htail : r.tail with
    | nil => rfl
    | cons c cs =>
      rw [htail] at hhead
      rw [List.takeWhile_cons_of_neg (by simp [hhead c rfl])]
  rw [hnil, List.append_nil]

theorem splitUserinfo_authority (r : Reference) :
    splitUserinfo r.authority = (r.userinfo.isSome, r.hostPort) := by
  unfold splitUserinfo Reference.authority behindUserinfo
  cases r.userinfo with
  | none =>
    dsimp only
    rw [rsplitOnce_eq_none.2 r.hostPort_last]
    rfl
  | some info =>
    dsimp only
    rw [rsplitOnce_append r.hostPort_last]
    rfl

/-- The components that are named as taken out. -/
def components (userinfo path query fragment : Bool) : List Str :=
  (if userinfo then ["userinfo removed".toList] else [])
    ++ (if path then ["path removed".toList] else [])
    ++ (if query then ["query removed".toList] else [])
    ++ (if fragment then ["fragment removed".toList] else [])

def note (userinfo path query fragment : Bool) : Str :=
  if (components userinfo path query fragment).isEmpty then []
  else " (".toList ++ ", ".toList.intercalate (components userinfo path query fragment) ++ ")".toList

theorem hash_notMem_before (r : Reference) : '#' ∉ r.path ++ behind '?' r.query := by
  cases hquery : r.query with
  | none => simpa [behind] using r.path_plain.2
  | some query => simpa [behind, r.path_plain.2] using r.query_plain query hquery

theorem removed_tail (r : Reference) (userinfo : Bool) :
    removed userinfo r.tail = note userinfo r.hasPath r.query.isSome r.fragment.isSome := by
  unfold removed Reference.tail
  rw [splitOff_behind (hash_notMem_before r)]
  dsimp only
  rw [splitOff_behind r.path_plain.1]
  rfl

def Reference.rendering (r : Reference) : Str :=
  if isScheme r.scheme then
    if r.authority.isEmpty then noAuthority
    else match routingCoordinates r.hostPort with
      | none => unparseable
      | some coordinates => r.scheme ++ schemeMark ++ coordinates
        ++ note r.userinfo.isSome r.hasPath r.query.isSome r.fragment.isSome
  else unparseable

/-- **What is rendered of a reference** is computed from its scheme, its host and port, and which
other components it has. -/
theorem project_text (r : Reference) : project r.text = r.rendering := by
  have hsplit : splitOnceAt schemeMark r.text = some (r.scheme, r.authority ++ r.tail) :=
    splitOnceAt_append (by decide) r.scheme_plain _
  unfold project
  rw [hsplit]
  dsimp only
  rw [takeWhile_authority, splitUserinfo_authority, List.drop_left]
  dsimp only
  rw [removed_tail]
  rfl

theorem isEmpty_authority (r : Reference) :
    r.authority.isEmpty = (!r.userinfo.isSome && r.hostPort.isEmpty) := by
  unfold Reference.authority behindUserinfo
  cases r.userinfo with
  | none => rfl
  | some info => simp

/-! ## Every text with a scheme's mark is one -/

/-- Any text splits at its last `@`. -/
theorem exists_eq_userinfo (s : Str) :
    ∃ (userinfo : Option Str) (hostPort : Str),
      '@' ∉ hostPort ∧ s = behindUserinfo hostPort userinfo := by
  cases hsplit : rsplitOnce '@' s with
  | none => exact ⟨none, s, rsplitOnce_eq_none.1 hsplit, rfl⟩
  | some parts =>
    obtain ⟨heq, hplain⟩ := rsplitOnce_eq_some.1 hsplit
    exact ⟨some parts.1, parts.2, hplain, heq⟩

theorem exists_reference {scheme : Str} (hscheme : containsText schemeMark scheme = false)
    (rest : Str) : ∃ r : Reference, r.text = scheme ++ schemeMark ++ rest := by
  -- the authority, and within what follows it the fragment and then the query
  let plain := fun c => !endsAuthority c
  obtain ⟨userinfo, hostPort, hlast, hauthority⟩ := exists_eq_userinfo (rest.takeWhile plain)
  obtain ⟨htail, hbefore⟩ := splitOff_spec '#' (rest.dropWhile plain)
  generalize (splitOff '#' (rest.dropWhile plain)).1 = before at htail hbefore
  generalize (splitOff '#' (rest.dropWhile plain)).2 = fragment at htail
  obtain ⟨hquery, hpath⟩ := splitOff_spec '?' before
  generalize (splitOff '?' before).1 = path at hquery hpath
  generalize (splitOff '?' before).2 = query at hquery
  subst hquery
  have hplain : ∀ c ∈ rest.takeWhile plain, endsAuthority c = false := by
    intro c hc
    simpa [plain] using List.mem_takeWhile_imp hc
  have hrooted : ∀ c ∈ path.head?, c = '/' := by
    intro c hc
    have hhead : (rest.dropWhile plain).head? = some c := by
      rw [htail, List.append_assoc, List.head?_append, hc]
      rfl
    have hends := List.head?_dropWhile_not plain rest
    rw [hhead] at hends
    have hmem : c ∈ path := List.mem_of_mem_head? hc
    have hq : c ≠ '?' := by
      rintro rfl
      exact hpath hmem
    have hh : c ≠ '#' := by
      rintro rfl
      exact hbefore (List.mem_append_left _ hmem)
    simpa [plain, endsAuthority, hq, hh] using hends
  refine ⟨⟨scheme, userinfo, hostPort, path, query, fragment, hscheme, ?_, ?_, hlast, hrooted,
    ⟨hpath, fun h => hbefore (List.mem_append_left _ h)⟩, ?_⟩, ?_⟩
  · rintro info rfl c hc
    exact hplain c (by rw [hauthority]; exact List.mem_append_left _ hc)
  · intro c hc
    refine hplain c ?_
    rw [hauthority]
    cases userinfo with
    | none => exact hc
    | some info => exact List.mem_append_right _ (List.mem_cons_of_mem _ hc)
  · rintro text rfl hmem
    exact hbefore (List.mem_append_right _ (List.mem_cons_of_mem _ hmem))
  · change scheme ++ schemeMark ++ (behindUserinfo hostPort userinfo
      ++ (path ++ behind '?' query ++ behind '#' fragment)) = _
    rw [← htail, ← hauthority, List.takeWhile_append_dropWhile]

/-- Every text is a reference, or has no scheme's mark. -/
theorem reference_or_plain (raw : Str) :
    (∃ r : Reference, r.text = raw) ∨ splitOnceAt schemeMark raw = none := by
  cases hsplit : splitOnceAt schemeMark raw with
  | none => exact .inr rfl
  | some parts =>
    obtain ⟨heq, hplain⟩ := (splitOnceAt_eq_some (by decide)).1 hsplit
    obtain ⟨r, hr⟩ := exists_reference hplain parts.2
    exact .inl ⟨r, hr.trans heq.symm⟩

/-! ## Fixed texts -/

def IsFixed (shown : Str) : Prop := shown = unparseable ∨ shown = noAuthority

theorem isFixed_of_plain {raw : Str} (h : splitOnceAt schemeMark raw = none) :
    IsFixed (project raw) := by
  unfold project
  rw [h]
  dsimp only
  split_ifs
  · exact .inr rfl
  · exact .inl rfl

theorem isFixed_of_empty_authority {r : Reference} (h : r.authority = []) :
    IsFixed (project r.text) := by
  rw [project_text, Reference.rendering, h]
  split_ifs with hscheme hempty
  · exact .inr rfl
  · exact absurd rfl hempty
  · exact .inl rfl

/-! ## The coordinates -/

theorem portSuffix_eq_some {after suffix : Str} (h : portSuffix after = some suffix) :
    suffix = after := by
  unfold portSuffix at h
  by_cases hempty : after.isEmpty = true
  · rw [if_pos hempty] at h
    cases h
    exact (List.isEmpty_iff.1 hempty).symm
  · rw [if_neg hempty] at h
    obtain ⟨port, hport, h⟩ := Option.bind_eq_some_iff.1 h
    split_ifs at h
    cases h
    exact (stripPrefix_eq_some.1 hport).symm

theorem routingCoordinates_eq_some {hostPort coordinates : Str}
    (h : routingCoordinates hostPort = some coordinates) : coordinates = hostPort := by
  unfold routingCoordinates at h
  cases hbracket : stripPrefix ['['] hostPort with
  | some afterBracket =>
    rw [hbracket] at h
    obtain ⟨⟨literal, after⟩, hsplit, h⟩ := Option.bind_eq_some_iff.1 h
    dsimp only at h
    split_ifs at h
    obtain ⟨suffix, hsuffix, h⟩ := Option.bind_eq_some_iff.1 h
    cases h
    rw [portSuffix_eq_some hsuffix, stripPrefix_eq_some.1 hbracket, (splitOnce_eq_some.1 hsplit).1]
    rfl
  | none =>
    rw [hbracket] at h
    dsimp only at h
    cases hport : rsplitOnce ':' hostPort with
    | none =>
      rw [hport] at h
      dsimp only at h
      split_ifs at h
      cases h
      rfl
    | some parts =>
      rw [hport] at h
      dsimp only at h
      split_ifs at h
      cases h
      exact (rsplitOnce_eq_some.1 hport).1.symm

/-! ## No `@` -/

theorem at_notMem_note (userinfo path query fragment : Bool) :
    '@' ∉ note userinfo path query fragment := by
  cases userinfo <;> cases path <;> cases query <;> cases fragment <;> decide

theorem at_notMem_of_isScheme {scheme : Str} (h : isScheme scheme = true) : '@' ∉ scheme := by
  intro hmem
  cases scheme with
  | nil => cases h
  | cons c cs =>
    simp only [isScheme, Bool.and_eq_true, List.all_eq_true] at h
    rcases List.mem_cons.1 hmem with rfl | hmem
    · exact absurd h.1 (by decide)
    · exact absurd (h.2 '@' hmem) (by decide)

theorem at_notMem_of_isFixed {shown : Str} (h : IsFixed shown) : '@' ∉ shown := by
  rcases h with rfl | rfl
  · decide
  · decide

theorem at_notMem_project (raw : Str) : '@' ∉ project raw := by
  rcases reference_or_plain raw with ⟨r, rfl⟩ | hplain
  · rw [project_text, Reference.rendering]
    split_ifs with hscheme hempty
    · exact at_notMem_of_isFixed (.inr rfl)
    · cases hcoordinates : routingCoordinates r.hostPort with
      | none => exact at_notMem_of_isFixed (.inl rfl)
      | some coordinates =>
        obtain rfl := routingCoordinates_eq_some hcoordinates
        simp only [List.mem_append, not_or]
        exact ⟨⟨⟨at_notMem_of_isScheme hscheme, by decide⟩, r.hostPort_last⟩, at_notMem_note _ _ _ _⟩
    · exact at_notMem_of_isFixed (.inl rfl)
  · exact at_notMem_of_isFixed (isFixed_of_plain hplain)

/-- **A rendered locator reveals only where it points.** -/
theorem locator_reveals_only :
    (∀ a b : Reference, a.scheme = b.scheme → a.hostPort = b.hostPort →
      a.userinfo.isSome = b.userinfo.isSome → a.hasPath = b.hasPath →
      a.query.isSome = b.query.isSome → a.fragment.isSome = b.fragment.isSome →
        RedactedLocator.of a.text = RedactedLocator.of b.text) ∧
    (∀ raw : Str, ((¬∃ r : Reference, r.text = raw) ∨
        ∃ r : Reference, r.text = raw ∧ r.authority = []) →
      IsFixed (RedactedLocator.of raw).shown) ∧
    ∀ raw : Str, '@' ∉ (RedactedLocator.of raw).shown := by
  refine ⟨?_, ?_, at_notMem_project⟩
  · intro a b hscheme hhost huser hpath hquery hfragment
    rw [RedactedLocator.of, RedactedLocator.of, project_text, project_text, Reference.rendering,
      Reference.rendering, isEmpty_authority, isEmpty_authority, hscheme, hhost, huser, hpath, hquery, hfragment]
  · rintro raw (hnone | ⟨r, rfl, hempty⟩)
    · rcases reference_or_plain raw with hsome | hplain
      · exact absurd hsome hnone
      · exact isFixed_of_plain hplain
    · exact isFixed_of_empty_authority hempty

/-- A store's locator, with a password that holds marks of its own. -/
def store (password : Str) (h : ∀ c ∈ password, endsAuthority c = false) : Reference where
  scheme := "redis".toList
  userinfo := some password
  hostPort := "host:6379".toList
  path := []
  query := none
  fragment := none
  scheme_plain := rfl
  userinfo_plain := by
    rintro info hinfo
    cases hinfo
    exact h
  hostPort_plain := forall_mem_of_all rfl
  hostPort_last := by decide
  path_rooted := nofun
  path_plain := ⟨nofun, nofun⟩
  query_plain := nofun

theorem locator_reveals_only_passwords :
    RedactedLocator.of (store "a:b@c".toList (forall_mem_of_all rfl)).text
        = RedactedLocator.of (store "[s3cret]".toList (forall_mem_of_all rfl)).text ∧
      IsFixed (RedactedLocator.of "u:s3cret@host:6379".toList).shown := by
  obtain ⟨halike, hfixed, _⟩ := locator_reveals_only
  refine ⟨halike _ _ rfl rfl rfl rfl rfl rfl, hfixed _ (.inl ?_)⟩
  rintro ⟨r, hr⟩
  have hnone : splitOnceAt schemeMark "u:s3cret@host:6379".toList = none := by decide
  exact splitOnceAt_eq_none.1 hnone r.scheme (r.authority ++ r.tail) hr.symm

end McpRe.Display

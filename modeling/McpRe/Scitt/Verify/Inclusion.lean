import McpRe.Scitt.Merkle

/-!
# Inclusion paths: completeness and soundness

The service's tree refines the library's (`mthAndPath_some`, `mthAndPath_none`) and the verifier's
fold its climb along the index walk (`foldPath_eq_ok`). Completeness and soundness of the receipt's
inclusion check are the library's, at this node hash.

* `inclusion_shape`: which paths fold at all, and what the sides say of the index;
* `inclusion_complete`, `inclusion_sound`: which fold to the tree's root;
* `root_commits_to_log`: one root, one log.
-/

namespace McpRe.Scitt

open Lib Lib.Result Lib.Text
open McpRe.Http (Platform Digest Verdict)

def node (P : Platform) (left right : Digest) : Digest := nodeHash P left.bytes right.bytes

/-! ## The tree -/

theorem mthAndPath_none (P : Platform) (leaves : List Digest) :
    mthAndPath P leaves none = (Merkle.root (node P) (P.sha256 []) leaves, []) := by
  induction leaves using Merkle.split_induction with
  | nil => rw [mthAndPath, Merkle.root]
  | one x => rw [mthAndPath, Merkle.root]
  | split xs h2 ihl ihr =>
    rw [Merkle.root_split (node P) (P.sha256 []) h2]
    obtain ⟨a, b, rest, rfl⟩ := Merkle.exists_cons_cons h2
    rw [mthAndPath]
    simp only [ihl, ihr]
    rfl

theorem mthAndPath_some (P : Platform) (leaves : List Digest) (t : Nat) :
    mthAndPath P leaves (some t)
      = (Merkle.root (node P) (P.sha256 []) leaves,
        Merkle.auditPath (node P) (P.sha256 []) t leaves) := by
  induction leaves using Merkle.split_induction generalizing t with
  | nil => rw [mthAndPath, Merkle.root, Merkle.auditPath]
  | one x => rw [mthAndPath, Merkle.root, Merkle.auditPath]
  | split xs h2 ihl ihr =>
    have hleft := mthAndPath_none P (xs.take (Merkle.splitPoint xs.length))
    have hright := mthAndPath_none P (xs.drop (Merkle.splitPoint xs.length))
    rw [Merkle.root_split (node P) (P.sha256 []) h2]
    rcases Nat.lt_or_ge t (Merkle.splitPoint xs.length) with ht | ht
    · rw [Merkle.auditPath_left (node P) (P.sha256 []) h2 ht]
      obtain ⟨a, b, rest, rfl⟩ := Merkle.exists_cons_cons h2
      rw [mthAndPath]
      simp only [if_pos ht, ihl, hright, List.append_nil]
      rfl
    · rw [Merkle.auditPath_right (node P) (P.sha256 []) h2 ht]
      obtain ⟨a, b, rest, rfl⟩ := Merkle.exists_cons_cons h2
      rw [mthAndPath]
      simp only [if_neg (Nat.not_lt.2 ht), ihr, hleft, List.nil_append]
      rfl

/-! ## The fold -/

theorem foldPath_eq_ok (P : Platform) (f s : Nat) (r r' : Digest) (path : List Digest) :
    foldPath P f s r (path.map Digest.bytes) = .ok (0, r') ↔
      path.length = (Merkle.walkSides f s).length ∧
        Merkle.climb (node P) r ((Merkle.walkSides f s).zip path) = r' := by
  induction path generalizing f s r with
  | nil =>
    rw [List.map_nil, foldPath, Merkle.walkSides]
    by_cases hs : s = 0
    · simp [hs, Merkle.climb]
    · rw [if_neg hs]
      split_ifs <;> simp [hs]
  | cons x path ih =>
    rw [List.map_cons, foldPath, Merkle.walkSides]
    by_cases hs : s = 0
    · simp [hs]
    · rw [if_neg hs, if_neg hs]
      by_cases hside : f % 2 = 1 ∨ f = s
      · rw [if_pos hside, if_pos hside, ih]
        simp [Merkle.climb, Merkle.pairOf, node]
      · rw [if_neg hside, if_neg hside, ih]
        simp [Merkle.climb, Merkle.pairOf, node]

theorem rootFromInclusionProof_eq_ok {P : Platform} {leaf r : Digest} {i n : Nat}
    {path : List Digest} :
    rfc9162RootFromInclusionProof P leaf i n (path.map Digest.bytes) = .ok r ↔
      i < n ∧ path.length = (Merkle.auditSides i n).length ∧
        Merkle.climb (node P) leaf ((Merkle.auditSides i n).zip path) = r := by
  simp only [rfc9162RootFromInclusionProof, bind_eq_ok, ensure_eq_ok, decide_eq_true_eq,
    Prod.exists, beq_iff_eq, Except.ok.injEq]
  constructor
  · rintro ⟨_, hi, snode, r', hfold, _, rfl, rfl⟩
    obtain ⟨hlen, hclimb⟩ := (foldPath_eq_ok P i (n - 1) leaf r' path).1 hfold
    rw [Merkle.walkSides_eq_auditSides hi] at hlen hclimb
    exact ⟨hi, hlen, hclimb⟩
  · rintro ⟨hi, hlen, hclimb⟩
    rw [← Merkle.walkSides_eq_auditSides hi] at hlen hclimb
    exact ⟨(), hi, 0, r, (foldPath_eq_ok P i (n - 1) leaf r path).2 ⟨hlen, hclimb⟩, (), rfl, rfl⟩

/-! ## Completeness -/

/-- **Merkle completeness**: the audit path of the tree folds its leaf to the tree's root, which
is the same whether or not a path is asked for. -/
theorem inclusion_complete (P : Platform) (leaves : List Digest) (i : Nat)
    (hi : i < leaves.length) :
    rfc9162RootFromInclusionProof P leaves[i] i leaves.length
        ((mthAndPath P leaves (some i)).2.map Digest.bytes)
      = .ok (mthAndPath P leaves none).1 ∧
    (mthAndPath P leaves (some i)).1 = (mthAndPath P leaves none).1 := by
  rw [mthAndPath_some, mthAndPath_none, rootFromInclusionProof_eq_ok]
  have hclimb := Merkle.climb_auditPath (node P) (P.sha256 []) (List.getElem?_eq_getElem hi)
  exact ⟨⟨hi, Merkle.length_auditPath _ _ _ _, hclimb⟩, rfl⟩

/-! A log of the three entries `a`, `b` and `c`, with their SHA-256 values. -/

def sampleLeafA : Digest :=
  ⟨[2, 42, 105, 121, 230, 218, 183, 170, 90, 228, 195, 229, 228, 95, 126, 151, 113, 18, 167, 230,
    53, 147, 130, 13, 190, 193, 236, 115, 138, 36, 249, 60], rfl⟩

def sampleLeafB : Digest :=
  ⟨[87, 235, 53, 97, 93, 71, 243, 78, 199, 20, 202, 205, 245, 253, 116, 96, 138, 94, 142, 16,
    39, 36, 232, 11, 36, 178, 135, 192, 194, 123, 106, 49], rfl⟩

def sampleLeafC : Digest :=
  ⟨[89, 127, 203, 49, 40, 45, 52, 101, 76, 32, 13, 52, 24, 252, 165, 112, 92, 100, 142, 191,
    50, 110, 199, 61, 141, 222, 241, 24, 65, 248, 118, 216], rfl⟩

def sampleNodeAB : Digest :=
  ⟨[177, 55, 152, 95, 244, 132, 251, 96, 13, 185, 49, 7, 199, 123, 3, 101, 200, 13, 120, 245,
    180, 41, 222, 208, 253, 151, 54, 29, 7, 121, 153, 235], rfl⟩

def sampleRoot : Digest :=
  ⟨[54, 100, 46, 115, 194, 84, 10, 177, 33, 227, 166, 191, 149, 69, 176, 162, 73, 130, 205, 131,
    14, 177, 61, 60, 209, 157, 227, 206, 108, 2, 30, 193], rfl⟩

def sampleEntries : List Bytes := [[97], [98], [99]]

/-- SHA-256 on what the log of `a`, `b` and `c` hashes; the root stands for every other value. -/
def sampleLog : Platform where
  sha256 input :=
    if input = [0, 97] then sampleLeafA
    else if input = [0, 98] then sampleLeafB
    else if input = [0, 99] then sampleLeafC
    else if input = 1 :: sampleLeafA.bytes ++ sampleLeafB.bytes then sampleNodeAB
    else sampleRoot
  fromSlice _ := none
  readDocument _ := none
  isPoint _ := false
  verifyStrict _ _ _ := false

theorem inclusion_complete_last :
    rfc9162RootFromInclusionProof sampleLog sampleLeafC 2 3
        ((mthAndPath sampleLog [sampleLeafA, sampleLeafB, sampleLeafC] (some 2)).2.map
          Digest.bytes)
      = .ok (mthAndPath sampleLog [sampleLeafA, sampleLeafB, sampleLeafC] none).1 ∧
    (mthAndPath sampleLog [sampleLeafA, sampleLeafB, sampleLeafC] (some 2)).1
      = (mthAndPath sampleLog [sampleLeafA, sampleLeafB, sampleLeafC] none).1 :=
  inclusion_complete sampleLog [sampleLeafA, sampleLeafB, sampleLeafC] 2 (by decide)

/-! ## The shape of a path -/

/-- The sides on which the fold of a path takes the siblings in, in the fold's order. -/
def foldSides : Nat → Nat → List Bytes → List Merkle.Side
  | _, _, [] => []
  | fnode, snode, _ :: path =>
    if snode = 0 then []
    else if fnode % 2 = 1 ∨ fnode = snode then
      Merkle.Side.left
        :: foldSides ((Merkle.strip fnode snode).1 / 2) ((Merkle.strip fnode snode).2 / 2) path
    else Merkle.Side.right :: foldSides (fnode / 2) (snode / 2) path

theorem foldSides_eq_take (f s : Nat) (path : List Bytes) :
    foldSides f s path = (Merkle.walkSides f s).take path.length := by
  induction path generalizing f s with
  | nil => rw [foldSides, List.length_nil, List.take_zero]
  | cons sibling path ih =>
    rw [foldSides, Merkle.walkSides, List.length_cons]
    by_cases hs : s = 0
    · rw [if_pos hs, if_pos hs, List.take_nil]
    · rw [if_neg hs, if_neg hs]
      by_cases hside : f % 2 = 1 ∨ f = s
      · rw [if_pos hside, if_pos hside, List.take_succ_cons, ih]
      · rw [if_neg hside, if_neg hside, List.take_succ_cons, ih]

/-- The fold uses up the levels exactly on paths of the walk's length, whatever the siblings are. -/
theorem exists_foldPath_eq_ok (P : Platform) (f s : Nat) (r : Digest) (path : List Bytes) :
    (∃ r', foldPath P f s r path = .ok (0, r')) ↔
      path.length = (Merkle.walkSides f s).length := by
  induction path generalizing f s r with
  | nil =>
    rw [foldPath, Merkle.walkSides]
    by_cases hs : s = 0
    · simp [hs]
    · rw [if_neg hs]
      split_ifs <;> simp [hs]
  | cons sibling path ih =>
    rw [foldPath, Merkle.walkSides]
    by_cases hs : s = 0
    · simp [hs]
    · rw [if_neg hs, if_neg hs]
      by_cases hside : f % 2 = 1 ∨ f = s
      · rw [if_pos hside, if_pos hside, ih, List.length_cons, List.length_cons, Nat.succ_inj]
      · rw [if_neg hside, if_neg hside, ih, List.length_cons, List.length_cons, Nat.succ_inj]

theorem exists_rootFromInclusionProof_eq_ok {P : Platform} {leaf : Digest} {i n : Nat}
    {path : List Bytes} :
    (∃ root, rfc9162RootFromInclusionProof P leaf i n path = .ok root) ↔
      i < n ∧ path.length = (Merkle.auditSides i n).length := by
  simp only [rfc9162RootFromInclusionProof, bind_eq_ok, ensure_eq_ok, decide_eq_true_eq,
    Prod.exists, beq_iff_eq, Except.ok.injEq]
  constructor
  · rintro ⟨root, _, hi, snode, r, hfold, _, rfl, rfl⟩
    rw [← Merkle.walkSides_eq_auditSides hi]
    exact ⟨hi, (exists_foldPath_eq_ok P i (n - 1) leaf path).1 ⟨r, hfold⟩⟩
  · rintro ⟨hi, hlen⟩
    rw [← Merkle.walkSides_eq_auditSides hi] at hlen
    obtain ⟨r, hfold⟩ := (exists_foldPath_eq_ok P i (n - 1) leaf path).2 hlen
    exact ⟨r, (), hi, 0, r, hfold, (), rfl, rfl⟩

theorem length_mthAndPath (P : Platform) (leaves : List Digest) (i : Nat) :
    (mthAndPath P leaves (some i)).2.length = (Merkle.auditSides i leaves.length).length := by
  rw [mthAndPath_some]
  exact Merkle.length_auditPath _ _ _ _

theorem foldSides_of_eq_ok {P : Platform} {leaf root : Digest} {i n : Nat} {path : List Bytes}
    (h : rfc9162RootFromInclusionProof P leaf i n path = .ok root) :
    i < n ∧ foldSides i (n - 1) path = Merkle.auditSides i n := by
  obtain ⟨hi, hlen⟩ := exists_rootFromInclusionProof_eq_ok.1 ⟨root, h⟩
  rw [foldSides_eq_take, Merkle.walkSides_eq_auditSides hi, hlen, List.take_length]
  exact ⟨hi, rfl⟩

/-- **The shape of a path**: an index folds exactly the paths of its audit path's length, and at one
size two indexes that take their siblings in on the same sides are one. -/
theorem inclusion_shape (P : Platform) (leaf : Digest) (n : Nat) :
    (∀ i < n, ∀ leaves : List Digest, leaves.length = n → ∀ path : List Bytes,
      (∃ root, rfc9162RootFromInclusionProof P leaf i n path = .ok root) ↔
        path.length = (mthAndPath P leaves (some i)).2.length) ∧
    ∀ (i j : Nat) (leaf' : Digest) (path path' : List Bytes) (root root' : Digest),
      rfc9162RootFromInclusionProof P leaf i n path = .ok root →
      rfc9162RootFromInclusionProof P leaf' j n path' = .ok root' →
      foldSides i (n - 1) path = foldSides j (n - 1) path' → i = j := by
  constructor
  · rintro i hi leaves rfl path
    rw [exists_rootFromInclusionProof_eq_ok, length_mthAndPath]
    exact and_iff_right hi
  · intro i j leaf' path path' root root' hok hok' hsides
    obtain ⟨hi, hside⟩ := foldSides_of_eq_ok hok
    obtain ⟨hj, hside'⟩ := foldSides_of_eq_ok hok'
    rw [hside, hside'] at hsides
    exact Merkle.auditSides_inj hi hj hsides

/-- Three leaves: the last has a path of one sibling, and the first two, which fold the same path,
take it in on different sides. -/
theorem inclusion_shape_three :
    (∃ root, rfc9162RootFromInclusionProof sampleLog sampleLeafA 2 3 [sampleNodeAB.bytes]
      = .ok root) ∧
    foldSides 0 2 [sampleLeafB.bytes, sampleLeafC.bytes]
      ≠ foldSides 1 2 [sampleLeafB.bytes, sampleLeafC.bytes] := by
  obtain ⟨hshape, hsides⟩ := inclusion_shape sampleLog sampleLeafA 3
  have hlen : [sampleNodeAB.bytes].length
      = (mthAndPath sampleLog [sampleLeafA, sampleLeafB, sampleLeafC] (some 2)).2.length := by
    rw [length_mthAndPath, ← Merkle.walkSides_eq_auditSides (by decide)]
    decide +kernel
  refine ⟨(hshape 2 (by decide) _ rfl _).2 hlen, fun heq => ?_⟩
  have hpair : ∀ i ≤ 1, ∃ root, rfc9162RootFromInclusionProof sampleLog sampleLeafA i 3
      [sampleLeafB.bytes, sampleLeafC.bytes] = .ok root := by
    intro i hi
    refine exists_rootFromInclusionProof_eq_ok.2 ⟨by omega, ?_⟩
    rw [← Merkle.walkSides_eq_auditSides (by omega)]
    interval_cases i <;> decide +kernel
  obtain ⟨root, hzero⟩ := hpair 0 (by decide)
  obtain ⟨root', hone⟩ := hpair 1 (by decide)
  cases hsides 0 1 _ _ _ _ _ hzero hone heq

/-! ## Soundness -/

/-- The byte strings of two children. -/
def pairBytes (p : Digest × Digest) : Bytes × Bytes := (p.1.bytes, p.2.bytes)

theorem pairBytes_injective : Function.Injective pairBytes := by
  intro p q h
  obtain ⟨hleft, hright⟩ := Prod.mk.inj h
  exact Prod.ext (Digest.ext_iff.2 hleft) (Digest.ext_iff.2 hright)

def treePairs (P : Platform) (leaves : List Digest) : List (Bytes × Bytes) :=
  (Merkle.rootPairs (node P) (P.sha256 []) leaves).map pairBytes

/-- The pairs of byte strings that the fold of a path hashes. -/
def foldPairs (P : Platform) : Nat → Nat → Digest → List Bytes → List (Bytes × Bytes)
  | _, _, _, [] => []
  | fnode, snode, r, sibling :: path =>
    if snode = 0 then []
    else if fnode % 2 = 1 ∨ fnode = snode then
      (sibling, r.bytes) :: foldPairs P ((Merkle.strip fnode snode).1 / 2)
        ((Merkle.strip fnode snode).2 / 2) (nodeHash P sibling r.bytes) path
    else
      (r.bytes, sibling) :: foldPairs P (fnode / 2) (snode / 2) (nodeHash P r.bytes sibling) path

theorem foldPairs_eq (P : Platform) (f s : Nat) (r : Digest) (path : List Digest) :
    foldPairs P f s r (path.map Digest.bytes)
      = (Merkle.climbPairs (node P) r ((Merkle.walkSides f s).zip path)).map pairBytes := by
  induction path generalizing f s r with
  | nil => rw [List.map_nil, foldPairs, List.zip_nil_right, Merkle.climbPairs, List.map_nil]
  | cons x path ih =>
    rw [List.map_cons, foldPairs, Merkle.walkSides]
    by_cases hs : s = 0
    · simp [hs, Merkle.climbPairs]
    · rw [if_neg hs, if_neg hs]
      by_cases hside : f % 2 = 1 ∨ f = s
      · rw [if_pos hside, if_pos hside, ih]
        simp [Merkle.climbPairs, Merkle.pairOf, pairBytes, node]
      · rw [if_neg hside, if_neg hside, ih]
        simp [Merkle.climbPairs, Merkle.pairOf, pairBytes, node]

theorem exists_digests {path : List Bytes} (h32 : ∀ sibling ∈ path, sibling.length = 32) :
    ∃ digests : List Digest, path = digests.map Digest.bytes :=
  ⟨path.pmap Digest.mk h32, by simp [List.map_pmap]⟩

/-- **Merkle soundness**: a path of 32-byte siblings that folds a candidate entry to the tree's
root is the audit path of the candidate's own position. The two hashes need to be collision-free
only on what the tree and the fold hash; of an empty tree nothing is accepted. -/
theorem inclusion_sound (P : Platform) (entries : List Bytes) (i : Nat) (candidate : Bytes)
    (path : List Bytes) (h32 : ∀ sibling ∈ path, sibling.length = 32)
    (hleaf : Set.InjOn (entryHash P) {e | e = candidate ∨ e ∈ entries})
    (hnode : Set.InjOn (fun p : Bytes × Bytes => nodeHash P p.1 p.2)
      {p | p ∈ treePairs P (entries.map (entryHash P)) ∨
        p ∈ foldPairs P i (entries.length - 1) (entryHash P candidate) path})
    (h : rfc9162RootFromInclusionProof P (entryHash P candidate) i entries.length path
      = .ok (mthAndPath P (entries.map (entryHash P)) none).1) :
    i < entries.length ∧ entries[i]? = some candidate ∧
      path = (mthAndPath P (entries.map (entryHash P)) (some i)).2.map Digest.bytes := by
  obtain ⟨digests, rfl⟩ := exists_digests h32
  rw [mthAndPath_none, rootFromInclusionProof_eq_ok] at h
  obtain ⟨hi, hlen, hclimb⟩ := h
  rw [foldPairs_eq, Merkle.walkSides_eq_auditSides hi] at hnode
  have hlength : (entries.map (entryHash P)).length = entries.length := List.length_map _
  rw [← hlength] at hi hlen hclimb hnode
  -- the same collision-freeness, on pairs of digests
  have hpairs : Set.InjOn (fun p : Digest × Digest => node P p.1 p.2)
      {p | p ∈ Merkle.rootPairs (node P) (P.sha256 []) (entries.map (entryHash P)) ∨
        p ∈ Merkle.climbPairs (node P) (entryHash P candidate)
          ((Merkle.auditSides i (entries.map (entryHash P)).length).zip digests)} := by
    intro p hp q hq hpq
    have hbytes : pairBytes p = pairBytes q :=
      hnode (hp.imp List.mem_map_of_mem List.mem_map_of_mem)
        (hq.imp List.mem_map_of_mem List.mem_map_of_mem) hpq
    exact pairBytes_injective hbytes
  obtain ⟨hget, hpath⟩ := Merkle.eq_auditPath_of_climb (node P) (P.sha256 []) hpairs hi hlen
    (fun p hp => .inl hp) (fun p hp => .inr hp) hclimb
  refine ⟨hlength ▸ hi, ?_, by rw [mthAndPath_some, hpath]⟩
  rw [List.getElem?_map, Option.map_eq_some_iff] at hget
  obtain ⟨entry, hentry, hhash⟩ := hget
  rw [hentry, hleaf (.inr (List.mem_of_getElem? hentry)) (.inl rfl) hhash]

/-! The last entry of the log: the tree of three is not balanced, and the path has one sibling. -/

theorem sampleLog_leaves :
    sampleEntries.map (entryHash sampleLog) = [sampleLeafA, sampleLeafB, sampleLeafC] := by
  decide

theorem sampleLog_node : nodeHash sampleLog sampleLeafA.bytes sampleLeafB.bytes = sampleNodeAB := by
  decide

theorem sampleLog_treePairs :
    treePairs sampleLog [sampleLeafA, sampleLeafB, sampleLeafC]
      = [(sampleNodeAB.bytes, sampleLeafC.bytes), (sampleLeafA.bytes, sampleLeafB.bytes)] := by
  have h3 : Merkle.splitPoint 3 = 2 := by decide
  have h2 : Merkle.splitPoint 2 = 1 := by decide
  simp [treePairs, pairBytes, Merkle.rootPairs, Merkle.root, h3, h2, node, sampleLog_node]

theorem sampleLog_fold :
    rfc9162RootFromInclusionProof sampleLog (entryHash sampleLog [99]) 2 3 [sampleNodeAB.bytes]
      = .ok (mthAndPath sampleLog (sampleEntries.map (entryHash sampleLog)) none).1 := by
  have h3 : Merkle.splitPoint 3 = 2 := by decide
  have h2 : Merkle.splitPoint 2 = 1 := by decide
  rw [sampleLog_leaves]
  simp only [mthAndPath, List.length_cons, List.length_nil, Nat.reduceAdd, h3, h2,
    List.take_succ_cons, List.take_zero, List.drop_succ_cons, List.drop_zero, sampleLog_node]
  decide +kernel

theorem inclusion_sound_last :
    rfc9162RootFromInclusionProof sampleLog (entryHash sampleLog [99]) 2 3 [sampleNodeAB.bytes]
        = .ok (mthAndPath sampleLog (sampleEntries.map (entryHash sampleLog)) none).1 ∧
      2 < sampleEntries.length ∧ sampleEntries[2]? = some [99] ∧
      [sampleNodeAB.bytes]
        = (mthAndPath sampleLog (sampleEntries.map (entryHash sampleLog)) (some 2)).2.map
            Digest.bytes := by
  refine ⟨sampleLog_fold, inclusion_sound sampleLog sampleEntries 2 [99] [sampleNodeAB.bytes]
    (by decide) ?_ ?_ sampleLog_fold⟩
  · have hall : ∀ e ∈ sampleEntries, ∀ e' ∈ sampleEntries,
        entryHash sampleLog e = entryHash sampleLog e' → e = e' := by decide
    have hmem : ∀ e, e = [99] ∨ e ∈ sampleEntries → e ∈ sampleEntries := by
      simp [sampleEntries]
    intro e he e' he' heq
    exact hall e (hmem e he) e' (hmem e' he') heq
  · let pairs := [(sampleNodeAB.bytes, sampleLeafC.bytes), (sampleLeafA.bytes, sampleLeafB.bytes)]
    have hall : ∀ p ∈ pairs, ∀ q ∈ pairs,
        nodeHash sampleLog p.1 p.2 = nodeHash sampleLog q.1 q.2 → p = q := by decide +kernel
    have hfold : ∀ p ∈ foldPairs sampleLog 2 2 (entryHash sampleLog [99]) [sampleNodeAB.bytes],
        p ∈ pairs := by decide +kernel
    rw [sampleLog_leaves, sampleLog_treePairs]
    intro p hp q hq heq
    exact hall p (hp.elim id (hfold p)) q (hq.elim id (hfold q)) heq

/-! ## What the root commits to -/

/-- Everything that is hashed for the tree of a log. -/
def hashed (P : Platform) (entries : List Bytes) : Set Bytes :=
  {x | x = [] ∨ (∃ e ∈ entries, x = 0x00 :: e) ∨
    ∃ p ∈ treePairs P (entries.map (entryHash P)), x = 0x01 :: p.1 ++ p.2}

theorem node_injOn {P : Platform} {U : Set Bytes} (hsha : Set.InjOn P.sha256 U) :
    Set.InjOn (fun p : Digest × Digest => node P p.1 p.2)
      {p | 0x01 :: p.1.bytes ++ p.2.bytes ∈ U} := by
  intro p hp q hq h
  have hbytes : 0x01 :: p.1.bytes ++ p.2.bytes = 0x01 :: q.1.bytes ++ q.2.bytes := hsha hp hq h
  have hlen : p.1.bytes.length = q.1.bytes.length := p.1.length_eq.trans q.1.length_eq.symm
  obtain ⟨hl, hr⟩ := List.append_inj (List.cons.inj hbytes).2 hlen
  exact pairBytes_injective (Prod.ext hl hr)

end McpRe.Scitt

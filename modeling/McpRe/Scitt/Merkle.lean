import McpRe.Http.Digest
import McpRe.Lib.Merkle

/-!
# The receipt's Merkle tree

The tree as the transparency service builds it (`scitt/prototype/tree.rs`) and the fold of an
inclusion path as the verifier runs it (`scitt/merkle.rs`): two implementations that the source
keeps apart on purpose.
-/

namespace McpRe.Scitt

open Lib Lib.Result Lib.Text
open McpRe.Http (Platform Digest Verdict)

/-! ## Hashes -/

/-- A signed statement, by its two encodings. -/
structure SignedStatement where
  toCose : Bytes
  sigStructure : Bytes

/-- `StatementLeafProfile`: which bytes of a statement the leaf is over. -/
inductive StatementLeafProfile where
  | statementBytes
  | statementDigest
  | sigStructureDigest
  deriving DecidableEq, Repr

/-- The leaf entry of a statement. -/
def leafEntry (P : Platform) (statement : SignedStatement) : StatementLeafProfile → Bytes
  | .statementBytes => statement.toCose
  | .statementDigest => (P.sha256 statement.toCose).bytes
  | .sigStructureDigest => (P.sha256 statement.sigStructure).bytes

/-- The hash of a leaf entry, under the leaf prefix. -/
def entryHash (P : Platform) (entry : Bytes) : Digest := P.sha256 (0x00 :: entry)

def leafHash (P : Platform) (statement : SignedStatement) (profile : StatementLeafProfile) :
    Digest :=
  entryHash P (leafEntry P statement profile)

/-- `node_hash`, under the node prefix. -/
def nodeHash (P : Platform) (left right : Bytes) : Digest := P.sha256 (0x01 :: left ++ right)

/-! ## The fold -/

/-- The loop of `rfc9162_root_from_inclusion_proof`: the last index that is left, and the running
hash. `Merkle.strip` is its inner `while`. -/
def foldPath (P : Platform) : Nat → Nat → Digest → List Bytes → Verdict (Nat × Digest)
  | _, snode, r, [] => .ok (snode, r)
  | fnode, snode, r, sibling :: path =>
    if snode = 0 then .error .receiptInclusionInvalid
    else if fnode % 2 = 1 ∨ fnode = snode then
      foldPath P ((Merkle.strip fnode snode).1 / 2) ((Merkle.strip fnode snode).2 / 2)
        (nodeHash P sibling r.bytes) path
    else foldPath P (fnode / 2) (snode / 2) (nodeHash P r.bytes sibling) path

def rfc9162RootFromInclusionProof (P : Platform) (leaf : Digest) (leafIndex treeSize : Nat)
    (path : List Bytes) : Verdict Digest := do
  ensure (decide (leafIndex < treeSize)) .receiptInclusionInvalid
  -- the source takes the predecessor checked; past the refusal above it always exists
  let (snode, r) ← foldPath P leafIndex (treeSize - 1) leaf path
  ensure (snode == 0) .receiptInclusionInvalid
  .ok r

/-! ## The tree -/

/-- `mth_and_path`: the tree hash, and what is pushed on the path. `Merkle.splitPoint` is
`len().next_power_of_two() / 2`. -/
def mthAndPath (P : Platform) (leaves : List Digest) (target : Option Nat) :
    Digest × List Digest :=
  match leaves with
  | [] => (P.sha256 [], [])
  | [single] => (single, [])
  | x :: y :: rest =>
    let k := Merkle.splitPoint (x :: y :: rest).length
    let leftLeaves := (x :: y :: rest).take k
    let rightLeaves := (x :: y :: rest).drop k
    match target with
    | some t =>
      if t < k then
        let (left, path) := mthAndPath P leftLeaves (some t)
        let (right, path') := mthAndPath P rightLeaves none
        (nodeHash P left.bytes right.bytes, path ++ path' ++ [right])
      else
        let (left, path) := mthAndPath P leftLeaves none
        let (right, path') := mthAndPath P rightLeaves (some (t - k))
        (nodeHash P left.bytes right.bytes, path ++ path' ++ [left])
    | none =>
      let (left, path) := mthAndPath P leftLeaves none
      let (right, path') := mthAndPath P rightLeaves none
      (nodeHash P left.bytes right.bytes, path ++ path')
termination_by leaves.length
decreasing_by
  all_goals
    have hlt := Merkle.splitPoint_lt (n := rest.length + 1 + 1) (by omega)
    have hpos := Merkle.splitPoint_pos (n := rest.length + 1 + 1) (by omega)
    simp only [List.length_take, List.length_drop, List.length_cons]
    omega

end McpRe.Scitt

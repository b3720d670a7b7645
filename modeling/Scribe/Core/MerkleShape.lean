import Scribe.Core.Envelope

/-!
# The shape of the tree `scribe_merkle_build` builds

`Core/Merkle.lean` models one pass of the build loop by pairing the list head first
(`pairLevel`) and proves the root is `specRoot`.  Here `pairLevelIdx` is the pass as the C
loop indexes it, parent `i` from `current_level[2i]` and `current_level[2i + 1]` with the
odd boundary, and `pairLevelIdx_eq` shows the two agree for every level size.

The built tree then has the shape the spec describes (`buildFrom_shape`): its leaves, left
to right, are the added leaves in order, each once; every internal node hashes its two
children, or its one child twice; and its root is `specRoot` of the leaf digests.  The
tree hash that `scribe_envelope_finalize` computes is `specRoot` of the non-zero change
digests, before then after for each change.
-/

namespace Scribe

namespace MerkleNode

/-- The leaves under a node, left to right. -/
def frontier : MerkleNode → List MerkleNode
  | empty => []
  | leaf h => [leaf h]
  | node _ left none => left.frontier
  | node _ left (some right) => left.frontier ++ right.frontier

/-- Every internal node holds `hash_internal(left, right)`, or `hash_internal(left, left)`
when it has one child. -/
def WellHashed (sha256 : Bytes → Hash) : MerkleNode → Prop
  | empty => True
  | leaf _ => True
  | node h left none => h = hashCombine sha256 left.hash left.hash ∧ left.WellHashed sha256
  | node h left (some right) =>
      h = hashCombine sha256 left.hash right.hash ∧ left.WellHashed sha256 ∧
        right.WellHashed sha256

end MerkleNode

section Build

variable (sha256 : Bytes → Hash)

/-! ## The pass as the code indexes it -/

/-- Parent `i` of `current_level` in `scribe_merkle_build`: its left child is
`current_level[2i]`; `right_idx` is `2i + 1`, or `left_idx` when that is past the end, and
then `right` is `NULL` and the hash combines the left child with itself. -/
def levelParent (level : List MerkleNode) (i : Nat) : MerkleNode :=
  let leftIdx := i * 2
  let rightIdx := if i * 2 + 1 ≥ level.length then leftIdx else i * 2 + 1
  let left := level.getD leftIdx .empty
  if leftIdx = rightIdx then .node (hashCombine sha256 left.hash left.hash) left none
  else
    let right := level.getD rightIdx .empty
    .node (hashCombine sha256 left.hash right.hash) left (some right)

/-- One pass of the `while (level_size > 1)` loop: `next_size = (level_size + 1) / 2`
parents, parent `i` from `levelParent`. -/
def pairLevelIdx (level : List MerkleNode) : List MerkleNode :=
  (List.range ((level.length + 1) / 2)).map (levelParent sha256 level)

/-- Parent `i` pairs `2i` with `2i + 1` when that index is in the level, and takes `2i`
alone otherwise. -/
theorem levelParent_eq (level : List MerkleNode) (i : Nat) :
    levelParent sha256 level i =
      if i * 2 + 1 < level.length then
        .node (hashCombine sha256 (level.getD (i * 2) .empty).hash
          (level.getD (i * 2 + 1) .empty).hash) (level.getD (i * 2) .empty)
          (some (level.getD (i * 2 + 1) .empty))
      else
        .node (hashCombine sha256 (level.getD (i * 2) .empty).hash
          (level.getD (i * 2) .empty).hash) (level.getD (i * 2) .empty) none := by
  unfold levelParent
  dsimp only
  by_cases h : i * 2 + 1 < level.length
  · rw [if_neg (Nat.not_le.mpr h), if_neg (by omega), if_pos h]
  · rw [if_pos (Nat.le_of_not_lt h), if_pos rfl, if_neg h]

theorem levelParent_cons_cons (x y : MerkleNode) (rest : List MerkleNode) (i : Nat) :
    levelParent sha256 (x :: y :: rest) (i + 1) = levelParent sha256 rest i := by
  have hleft : (i + 1) * 2 = i * 2 + 1 + 1 := by omega
  have hright : (i + 1) * 2 + 1 = i * 2 + 1 + 1 + 1 := by omega
  have hlen : i * 2 + 1 + 1 + 1 < (x :: y :: rest).length ↔ i * 2 + 1 < rest.length := by
    simp only [List.length_cons]; omega
  rw [levelParent_eq, levelParent_eq, hright, hleft]
  simp only [hlen, List.getD_cons_succ]

/-- The indexed pass is `pairLevel`, for every level size. -/
theorem pairLevelIdx_eq (level : List MerkleNode) :
    pairLevelIdx sha256 level = pairLevel sha256 level := by
  induction level using pairLevel.induct sha256 with
  | case1 => rfl
  | case2 x =>
      rw [pairLevelIdx, show (([x] : List MerkleNode).length + 1) / 2 = 0 + 1 by simp,
        List.range_succ_eq_map, List.range_zero, List.map_nil, List.map_singleton, levelParent_eq,
        if_neg (by simp)]
      rfl
  | case3 x y rest ih =>
      have hsize : ((x :: y :: rest).length + 1) / 2 = (rest.length + 1) / 2 + 1 := by
        simp only [List.length_cons]; omega
      rw [pairLevelIdx, hsize, List.range_succ_eq_map, List.map_cons, List.map_map, pairLevel, ← ih]
      congr 1
      rw [pairLevelIdx]
      exact List.map_congr_left fun i _ => levelParent_cons_cons sha256 x y rest i

/-! ## Leaves and digests of the built tree -/

theorem flatMap_frontier_pairLevel (level : List MerkleNode) :
    (pairLevel sha256 level).flatMap MerkleNode.frontier = level.flatMap MerkleNode.frontier := by
  induction level using pairLevel.induct sha256 with
  | case1 => rfl
  | case2 x => simp [pairLevel, MerkleNode.frontier]
  | case3 x y rest ih => simp [pairLevel, MerkleNode.frontier, ih]

/-- The leaves of the built tree are those of the bottom level, in order. -/
theorem frontier_buildLoop (level : List MerkleNode) :
    (buildLoop sha256 level).frontier = level.flatMap MerkleNode.frontier := by
  induction level using buildLoop.induct sha256 with
  | case1 => simp [buildLoop, MerkleNode.frontier]
  | case2 x => simp [buildLoop]
  | case3 x y rest ih => rw [buildLoop, ih, flatMap_frontier_pairLevel]

theorem wellHashed_pairLevel (level : List MerkleNode)
    (h : ∀ n ∈ level, n.WellHashed sha256) : ∀ n ∈ pairLevel sha256 level, n.WellHashed sha256 := by
  induction level using pairLevel.induct sha256 with
  | case1 => exact h
  | case2 x => simpa [pairLevel, MerkleNode.WellHashed] using h
  | case3 x y rest ih =>
      simp only [List.mem_cons, forall_eq_or_imp] at h
      simp only [pairLevel, List.mem_cons, forall_eq_or_imp]
      exact ⟨⟨rfl, h.1, h.2.1⟩, ih h.2.2⟩

/-- The loop builds a well-hashed tree over well-hashed nodes. -/
theorem wellHashed_buildLoop (level : List MerkleNode) (h : ∀ n ∈ level, n.WellHashed sha256) :
    (buildLoop sha256 level).WellHashed sha256 := by
  induction level using buildLoop.induct sha256 with
  | case1 => rw [buildLoop]; trivial
  | case2 x => rw [buildLoop]; exact h x (List.mem_singleton_self x)
  | case3 x y rest ih =>
      rw [buildLoop]
      exact ih (wellHashed_pairLevel sha256 _ h)

/-- For every sequence of `scribe_merkle_add_field` and `scribe_merkle_add_hash` calls,
`scribe_merkle_build` gives a root whose leaves, left to right, are the added leaves in
order (`hash_leaf(data)` for a field, the digest itself for a hash), each once; whose every
internal node holds `hash_internal(left, right)`, or `hash_internal(left, left)` for an
only child; and whose digest is `specRoot` of the leaf digests. -/
theorem buildFrom_shape (adds : List LeafAdd) :
    ∃ root, (buildFrom sha256 adds).root = some root ∧
      root.frontier = adds.map (fun add => .leaf (add.digest sha256)) ∧
      root.WellHashed sha256 ∧ root.hash = specRoot sha256 (adds.map (LeafAdd.digest sha256)) := by
  have hleaves : (adds.map fun add => MerkleNode.leaf (add.digest sha256)).flatMap
      MerkleNode.frontier = adds.map (fun add => .leaf (add.digest sha256)) := by
    induction adds with
    | nil => rfl
    | cons add adds ih => simp only [List.map_cons, List.flatMap_cons, ih]; rfl
  refine ⟨_, by rw [buildFrom_eq], ?_, ?_, ?_⟩
  · rw [frontier_buildLoop, hleaves]
  · exact wellHashed_buildLoop sha256 _ fun n hn => by
      obtain ⟨add, -, rfl⟩ := List.mem_map.mp hn
      trivial
  · rw [hash_buildLoop, List.map_map]
    rfl

/-! ## The tree hash of finalize -/

/-- The digests finalize builds its tree over, as the spec lists them: before then after
for each change in order, the zero ones left out. -/
def specChangeDigests (changes : List Change) : List Hash :=
  (changes.flatMap fun change => [change.beforeHash, change.afterHash]).filter
    fun h => !hashIsZero h

theorem map_digest_changeLeaves (changes : List Change) :
    (changeLeaves changes).map (LeafAdd.digest sha256) = specChangeDigests changes := by
  induction changes with
  | nil => rfl
  | cons change rest ih =>
      have hspec : specChangeDigests (change :: rest) =
          ([change.beforeHash, change.afterHash].filter fun h => !hashIsZero h) ++
            specChangeDigests rest := by
        simp only [specChangeDigests, List.flatMap_cons, List.filter_append]
      rw [hspec, changeLeaves, List.flatMap_cons, ← changeLeaves, List.map_append, ih]
      congr 1
      cases hb : hashIsZero change.beforeHash <;> cases ha : hashIsZero change.afterHash <;>
        simp [hb, ha, LeafAdd.digest, List.filter]

/-- Finalize keeps the tree hash its first step computes, whatever the serializations
give. -/
theorem treeHash_envelopeFinalize (env : Envelope) :
    (envelopeFinalize sha256 env).1.treeHash = (finalizeTreeHash sha256 env).treeHash := by
  unfold envelopeFinalize
  dsimp only
  cases envelopeToJson (finalizeTreeHash sha256 env) with
  | none => rfl
  | some _ => cases envelopeToJson ((finalizeTreeHash sha256 env).withCommitId Hash.zero) <;> rfl

/-- On an envelope whose `tree_hash` is zero, finalize sets it to `specRoot` of the non-zero
change digests, before then after for each change. -/
theorem treeHash_envelopeFinalize_of_zero {env : Envelope} (hzero : env.treeHash = Hash.zero) :
    (envelopeFinalize sha256 env).1.treeHash = specRoot sha256 (specChangeDigests env.changes) := by
  rw [treeHash_envelopeFinalize, finalizeTreeHash_eq, ← map_digest_changeLeaves]
  split_ifs with h
  · rfl
  · have hnil : env.changes = [] := by simpa [hashIsZero_eq_true, hzero] using h
    rw [hnil, hzero]
    simp [changeLeaves, specRoot]

/-- `scribe_merkle_build` implements the spec: its passes pair `2i` with `2i + 1` exactly as
`pairLevel` does; the tree has the added leaves, in order, as its leaves, and well-hashed
internal nodes, with root `specRoot` of the leaf digests; and finalize gives an envelope whose
tree hash is zero the tree hash `specRoot` of its non-zero change digests. -/
theorem merkleBuild_implements_spec (adds : List LeafAdd) (env : Envelope)
    (hzero : env.treeHash = Hash.zero) :
    (∀ level, pairLevelIdx sha256 level = pairLevel sha256 level) ∧
      (∃ root, (buildFrom sha256 adds).root = some root ∧
        root.frontier = adds.map (fun add => .leaf (add.digest sha256)) ∧
        root.WellHashed sha256 ∧ root.hash = specRoot sha256 (adds.map (LeafAdd.digest sha256))) ∧
      (envelopeFinalize sha256 env).1.treeHash = specRoot sha256 (specChangeDigests env.changes) :=
  ⟨pairLevelIdx_eq sha256, buildFrom_shape sha256 adds, treeHash_envelopeFinalize_of_zero sha256 hzero⟩

end Build

/-- Three leaves, the last paired with itself, and `ordersEnvelope`, whose tree hash is zero
and whose two changes carry three non-zero digests. -/
theorem merkleBuild_implements_spec_three :
    let adds : List LeafAdd := [.field [], .hash (Hash.ofByte 1), .hash (Hash.ofByte 2)]
    (∀ level, pairLevelIdx sumDigest level = pairLevel sumDigest level) ∧
      (∃ root, (buildFrom sumDigest adds).root = some root ∧
        root.frontier = adds.map (fun add => .leaf (add.digest sumDigest)) ∧
        root.WellHashed sumDigest ∧ root.hash = specRoot sumDigest (adds.map (LeafAdd.digest sumDigest))) ∧
      (envelopeFinalize sumDigest ordersEnvelope).1.treeHash =
        specRoot sumDigest (specChangeDigests ordersEnvelope.changes) :=
  merkleBuild_implements_spec sumDigest _ ordersEnvelope rfl

end Scribe

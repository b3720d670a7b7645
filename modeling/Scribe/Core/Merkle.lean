import Scribe.Core.Hash

/-!
# The Merkle tree of `core/merkle.c`

The builder collects leaves (`scribe_merkle_add_field` hashes raw bytes with the leaf prefix,
`scribe_merkle_add_hash` stores a digest as it is), and `scribe_merkle_build` pairs each
level bottom-up until one node is left.  On an odd level the last node becomes the only
child of its parent, whose hash is `hash_internal(x, x)`.

`specRoot` states the same computation on digests alone; `hash_buildLoop` shows the pointer
tree built by the loop has that root.  The inclusion-proof functions are modelled as the
code has them: `scribe_merkle_proof_create` allocates a proof of the right depth and never
fills it in.
-/

namespace Scribe

/-- `scribe_merkle_node_t`, as far as the hashes go: the `calloc`ed root of an empty tree,
a leaf, or an internal node whose right child is `NULL` for an odd last node. -/
inductive MerkleNode where
  | empty
  | leaf (hash : Hash)
  | node (hash : Hash) (left : MerkleNode) (right : Option MerkleNode)

namespace MerkleNode

/-- The `hash` field of a node. -/
def hash : MerkleNode → Hash
  | empty => Hash.zero
  | leaf h => h
  | node h _ _ => h

end MerkleNode

/-- `scribe_merkle_tree_t`: the leaves added so far, the root once built, and the flag that
forbids adding after `scribe_merkle_build`. -/
structure MerkleTree where
  leaves : List MerkleNode
  root : Option MerkleNode
  built : Bool

/-- `scribe_merkle_tree_new`. -/
def merkleTreeNew : MerkleTree := ⟨[], none, false⟩

section Build

variable (sha256 : Bytes → Hash)

/-- `scribe_merkle_add_field`: a leaf whose hash is `SHA256(0x00 ‖ data)`. -/
def merkleAddField (tree : MerkleTree) (data : Bytes) : MerkleTree × ScribeError :=
  if tree.built then (tree, .invalidArg)
  else ({ tree with leaves := tree.leaves ++ [.leaf (hashLeaf sha256 data)] }, .ok)

/-- `scribe_merkle_add_hash`: a leaf whose hash is the given digest, not re-hashed. -/
def merkleAddHash (tree : MerkleTree) (digest : Hash) : MerkleTree × ScribeError :=
  if tree.built then (tree, .invalidArg)
  else ({ tree with leaves := tree.leaves ++ [.leaf digest] }, .ok)

/-- One pass of the `while (level_size > 1)` loop of `scribe_merkle_build`: parent `i`
takes `current_level[2i]` and `current_level[2i + 1]`, or `current_level[2i]` alone when
`2i + 1` is past the end, in which case its hash combines the left child with itself. -/
def pairLevel : List MerkleNode → List MerkleNode
  | [] => []
  | [x] => [.node (hashCombine sha256 x.hash x.hash) x none]
  | x :: y :: rest => .node (hashCombine sha256 x.hash y.hash) x (some y) :: pairLevel rest

@[simp]
theorem length_pairLevel (level : List MerkleNode) :
    (pairLevel sha256 level).length = (level.length + 1) / 2 := by
  induction level using pairLevel.induct sha256 with
  | case1 => rfl
  | case2 x => simp [pairLevel]
  | case3 x y rest ih => simp [pairLevel, ih]; omega

/-- The levels of `scribe_merkle_build` from the leaves up: no leaves give the `calloc`ed
zero root, one leaf is the root itself, and otherwise the level is paired again. -/
def buildLoop : List MerkleNode → MerkleNode
  | [] => .empty
  | [x] => x
  | x :: y :: rest => buildLoop (pairLevel sha256 (x :: y :: rest))
termination_by level => level.length
decreasing_by simp only [length_pairLevel, List.length_cons]; omega

/-- `scribe_merkle_build`.  Building twice is a no-op. -/
def merkleBuild (tree : MerkleTree) : MerkleTree :=
  if tree.built then tree
  else { tree with root := some (buildLoop sha256 tree.leaves), built := true }

/-- `scribe_merkle_root`: `NULL` before the tree is built. -/
def merkleRoot (tree : MerkleTree) : Option Hash := tree.root.map MerkleNode.hash

/-! ## The root on digests alone -/

/-- `pairLevel` on the digests of the nodes. -/
def pairHashes : List Hash → List Hash
  | [] => []
  | [x] => [hashCombine sha256 x x]
  | x :: y :: rest => hashCombine sha256 x y :: pairHashes rest

@[simp]
theorem length_pairHashes (level : List Hash) :
    (pairHashes sha256 level).length = (level.length + 1) / 2 := by
  induction level using pairHashes.induct sha256 with
  | case1 => rfl
  | case2 x => simp [pairHashes]
  | case3 x y rest ih => simp [pairHashes, ih]; omega

/-- The root of the spec: zero for no leaves, the leaf for one, and otherwise the root of
the level above, where an odd last digest is paired with itself. -/
def specRoot : List Hash → Hash
  | [] => Hash.zero
  | [x] => x
  | x :: y :: rest => specRoot (pairHashes sha256 (x :: y :: rest))
termination_by level => level.length
decreasing_by simp only [length_pairHashes, List.length_cons]; omega

theorem map_hash_pairLevel (level : List MerkleNode) :
    (pairLevel sha256 level).map MerkleNode.hash =
      pairHashes sha256 (level.map MerkleNode.hash) := by
  induction level using pairLevel.induct sha256 with
  | case1 => rfl
  | case2 x => rfl
  | case3 x y rest ih => simp [pairLevel, pairHashes, ih, MerkleNode.hash]

/-- The pointer tree built by the loop has the spec root. -/
theorem hash_buildLoop (level : List MerkleNode) :
    (buildLoop sha256 level).hash = specRoot sha256 (level.map MerkleNode.hash) := by
  induction level using buildLoop.induct sha256 with
  | case1 => simp [buildLoop, specRoot, MerkleNode.hash]
  | case2 x => simp [buildLoop, specRoot]
  | case3 x y rest ih =>
      rw [buildLoop, ih, map_hash_pairLevel]
      simp only [List.map_cons]
      rw [specRoot]

/-- One call that adds a leaf: `scribe_merkle_add_field` with its data, or
`scribe_merkle_add_hash` with a digest. -/
inductive LeafAdd where
  | field (data : Bytes)
  | hash (digest : Hash)

/-- The leaf digest the call stores. -/
def LeafAdd.digest : LeafAdd → Hash
  | .field data => hashLeaf sha256 data
  | .hash digest => digest

/-- Make the call on a tree. -/
def LeafAdd.apply (tree : MerkleTree) : LeafAdd → MerkleTree × ScribeError
  | .field data => merkleAddField sha256 tree data
  | .hash digest => merkleAddHash tree digest

/-- A fresh tree, the calls in order, then `scribe_merkle_build`. -/
def buildFrom (adds : List LeafAdd) : MerkleTree :=
  merkleBuild sha256 (adds.foldl (fun tree add => (add.apply sha256 tree).1) merkleTreeNew)

theorem foldl_apply (adds : List LeafAdd) (leaves : List MerkleNode) :
    adds.foldl (fun tree add => (add.apply sha256 tree).1) ⟨leaves, none, false⟩ =
      ⟨leaves ++ adds.map (fun add => .leaf (add.digest sha256)), none, false⟩ := by
  induction adds generalizing leaves with
  | nil => simp
  | cons add adds ih =>
      have hstep : (add.apply sha256 ⟨leaves, none, false⟩).1 =
          ⟨leaves ++ [.leaf (add.digest sha256)], none, false⟩ := by
        cases add <;> rfl
      rw [List.foldl_cons, hstep, ih]
      simp

theorem buildFrom_eq (adds : List LeafAdd) :
    buildFrom sha256 adds =
      let leaves := adds.map (fun add => .leaf (add.digest sha256))
      ⟨leaves, some (buildLoop sha256 leaves), true⟩ := by
  rw [buildFrom, show merkleTreeNew = ⟨[], none, false⟩ from rfl, foldl_apply]
  simp [merkleBuild]

/-- Adding leaves with any mix of the two calls and building gives the spec root of the
leaf digests, in insertion order. -/
theorem merkleRoot_buildFrom (adds : List LeafAdd) :
    merkleRoot (buildFrom sha256 adds) = some (specRoot sha256 (adds.map (LeafAdd.digest sha256))) := by
  rw [buildFrom_eq]
  simp only [merkleRoot, Option.map_some', hash_buildLoop, List.map_map]
  rfl

/-! ## Binding

Equal roots of equally long leaf lists come from equal leaves, unless two of the
`scribe_hash_combine` inputs hashed while building the two roots collide. -/

/-- The `scribe_hash_combine` inputs one pass of the loop hashes. -/
def levelInputs : List Hash → List Bytes
  | [] => []
  | [x] => [combineInput x x]
  | x :: y :: rest => combineInput x y :: levelInputs rest

/-- Every `scribe_hash_combine` input hashed while building the root. -/
def nodeInputs : List Hash → List Bytes
  | [] => []
  | [_] => []
  | x :: y :: rest =>
      levelInputs (x :: y :: rest) ++ nodeInputs (pairHashes sha256 (x :: y :: rest))
termination_by level => level.length
decreasing_by simp only [length_pairHashes, List.length_cons]; omega

@[simp]
theorem specRoot_cons_cons (x y : Hash) (rest : List Hash) :
    specRoot sha256 (x :: y :: rest) = specRoot sha256 (pairHashes sha256 (x :: y :: rest)) := by
  rw [specRoot]

theorem levelInputs_subset_nodeInputs {x y : Hash} {rest : List Hash} {a : Bytes}
    (ha : a ∈ levelInputs (x :: y :: rest)) : a ∈ nodeInputs sha256 (x :: y :: rest) := by
  rw [nodeInputs]; exact List.mem_append_left _ ha

theorem nodeInputs_pairHashes_subset {x y : Hash} {rest : List Hash} {a : Bytes}
    (ha : a ∈ nodeInputs sha256 (pairHashes sha256 (x :: y :: rest))) :
    a ∈ nodeInputs sha256 (x :: y :: rest) := by
  rw [nodeInputs]; exact List.mem_append_right _ ha

/-- One level: equal parents of equally long levels have equal children, or two of the
level's inputs collide. -/
theorem eq_of_pairHashes_eq (level level' : List Hash) (hlen : level.length = level'.length)
    (heq : pairHashes sha256 level = pairHashes sha256 level') :
    level = level' ∨
      ∃ a ∈ levelInputs level, ∃ b ∈ levelInputs level', Collision sha256 a b := by
  induction level using pairHashes.induct sha256 generalizing level' with
  | case1 => exact .inl (List.length_eq_zero.mp hlen.symm).symm
  | case2 x =>
      obtain ⟨x', rfl⟩ := List.length_eq_one.mp hlen.symm
      simp only [pairHashes, List.cons.injEq, and_true] at heq
      rcases hashCombine_eq sha256 heq with ⟨rfl, -⟩ | hcollide
      · exact .inl rfl
      · exact .inr ⟨_, List.mem_singleton_self _, _, List.mem_singleton_self _, hcollide⟩
  | case3 x y rest ih =>
      match level', hlen with
      | x' :: y' :: rest', hlen =>
          simp only [pairHashes, List.cons.injEq] at heq
          rcases hashCombine_eq sha256 heq.1 with ⟨rfl, rfl⟩ | hcollide
          · rcases ih rest' (by simpa using hlen) heq.2 with rfl | ⟨a, ha, b, hb, hcollide⟩
            · exact .inl rfl
            · exact .inr ⟨a, List.mem_cons_of_mem _ ha, b, List.mem_cons_of_mem _ hb, hcollide⟩
          · exact .inr ⟨_, List.mem_cons_self _ _, _, List.mem_cons_self _ _, hcollide⟩

/-- Equal roots of equally long leaf lists: equal leaves, or a collision between an input
hashed for one root and an input hashed for the other. -/
theorem eq_of_specRoot_eq (level level' : List Hash) (hlen : level.length = level'.length)
    (heq : specRoot sha256 level = specRoot sha256 level') :
    level = level' ∨
      ∃ a ∈ nodeInputs sha256 level, ∃ b ∈ nodeInputs sha256 level', Collision sha256 a b := by
  induction level using specRoot.induct sha256 generalizing level' with
  | case1 => exact .inl (List.length_eq_zero.mp hlen.symm).symm
  | case2 x =>
      obtain ⟨x', rfl⟩ := List.length_eq_one.mp hlen.symm
      exact .inl (by simpa [specRoot] using heq)
  | case3 x y rest ih =>
      match level', hlen with
      | x' :: y' :: rest', hlen =>
          rw [specRoot_cons_cons, specRoot_cons_cons] at heq
          rcases ih _ (by simp only [length_pairHashes, hlen]) heq with
            hpair | ⟨a, ha, b, hb, hcollide⟩
          · rcases eq_of_pairHashes_eq sha256 _ _ hlen hpair with h | ⟨a, ha, b, hb, hcollide⟩
            · exact .inl h
            · exact .inr ⟨a, levelInputs_subset_nodeInputs sha256 ha, b,
                levelInputs_subset_nodeInputs sha256 hb, hcollide⟩
          · exact .inr ⟨a, nodeInputs_pairHashes_subset sha256 ha, b,
              nodeInputs_pairHashes_subset sha256 hb, hcollide⟩

/-- Leaf-hash binding as the code gives it: two trees built from the same number of leaves
with the same root have the same leaf digests, or the two builds hashed colliding
`scribe_hash_combine` inputs. -/
theorem eq_of_merkleRoot_buildFrom_eq (adds adds' : List LeafAdd)
    (hlen : adds.length = adds'.length)
    (hroot : merkleRoot (buildFrom sha256 adds) = merkleRoot (buildFrom sha256 adds')) :
    adds.map (LeafAdd.digest sha256) = adds'.map (LeafAdd.digest sha256) ∨
      ∃ a ∈ nodeInputs sha256 (adds.map (LeafAdd.digest sha256)),
        ∃ b ∈ nodeInputs sha256 (adds'.map (LeafAdd.digest sha256)), Collision sha256 a b := by
  rw [merkleRoot_buildFrom, merkleRoot_buildFrom, Option.some.injEq] at hroot
  exact eq_of_specRoot_eq sha256 _ _ (by simpa using hlen) hroot

/-- On a level of even length, a last leaf added twice pairs exactly as a last leaf added
once pairs with itself. -/
theorem pairHashes_append_pair (level : List Hash) (x : Hash) (heven : level.length % 2 = 0) :
    pairHashes sha256 (level ++ [x, x]) = pairHashes sha256 (level ++ [x]) := by
  induction level using pairHashes.induct sha256 with
  | case1 => rfl
  | case2 y => simp at heven
  | case3 y z rest ih =>
      have hrest : rest.length % 2 = 0 := by simp only [List.length_cons] at heven; omega
      show pairHashes sha256 (y :: z :: (rest ++ [x, x])) =
        pairHashes sha256 (y :: z :: (rest ++ [x]))
      rw [pairHashes, pairHashes, ih hrest]

/-- Duplicating the odd last leaf of a tree of three or more leaves keeps its root. -/
theorem specRoot_append_dup (level : List Hash) (x : Hash) (hpos : 0 < level.length)
    (heven : level.length % 2 = 0) :
    specRoot sha256 (level ++ [x, x]) = specRoot sha256 (level ++ [x]) := by
  match level, hpos with
  | y :: z :: rest, _ =>
      have hpair := pairHashes_append_pair sha256 (y :: z :: rest) x heven
      simp only [List.cons_append] at hpair ⊢
      rw [specRoot_cons_cons, specRoot_cons_cons, hpair]
  | [y], _ => simp at heven

end Build

/-- Leaves `1, 2, 3` and `4, 5, 6` under `oddDigest`, a stand-in that reads only the length
of what it hashes: every node input of a tree is 65 bytes, so the two trees of three leaves
share their root, and their node inputs hold the collision. -/
theorem eq_of_merkleRoot_buildFrom_eq_three :
    let adds : List LeafAdd := [.hash (Hash.ofByte 1), .hash (Hash.ofByte 2), .hash (Hash.ofByte 3)]
    let adds' : List LeafAdd := [.hash (Hash.ofByte 4), .hash (Hash.ofByte 5), .hash (Hash.ofByte 6)]
    adds.map (LeafAdd.digest oddDigest) ≠ adds'.map (LeafAdd.digest oddDigest) ∧
      (adds.map (LeafAdd.digest oddDigest) = adds'.map (LeafAdd.digest oddDigest) ∨
        ∃ a ∈ nodeInputs oddDigest (adds.map (LeafAdd.digest oddDigest)),
          ∃ b ∈ nodeInputs oddDigest (adds'.map (LeafAdd.digest oddDigest)),
            Collision oddDigest a b) := by
  intro adds adds'
  have hnode : ∀ x y : Hash, hashCombine oddDigest x y = Hash.ofByte 131 := fun x y => by
    simp [hashCombine, oddDigest, combineInput, x.length_bytes, y.length_bytes]
  refine ⟨by decide, eq_of_merkleRoot_buildFrom_eq oddDigest adds adds' rfl ?_⟩
  rw [merkleRoot_buildFrom, merkleRoot_buildFrom]
  simp only [adds, adds', List.map, LeafAdd.digest, specRoot_cons_cons, pairHashes, hnode]

/-- Leaves `0, 1, 2` and `0, 1, 2, 2` (as digests `Hash.ofByte`) differ and build the same
root: the odd last leaf is paired with itself, as its added copy would be. -/
theorem merkleRoot_buildFrom_dup_last :
    [Hash.zero, Hash.ofByte 1, Hash.ofByte 2] ≠
        [Hash.zero, Hash.ofByte 1, Hash.ofByte 2, Hash.ofByte 2] ∧
      merkleRoot (buildFrom sumDigest [.hash Hash.zero, .hash (Hash.ofByte 1), .hash (Hash.ofByte 2)]) =
        merkleRoot (buildFrom sumDigest
          [.hash Hash.zero, .hash (Hash.ofByte 1), .hash (Hash.ofByte 2), .hash (Hash.ofByte 2)]) := by
  refine ⟨by simp, ?_⟩
  rw [merkleRoot_buildFrom, merkleRoot_buildFrom]
  exact congrArg some
    (specRoot_append_dup sumDigest [Hash.zero, Hash.ofByte 1] (Hash.ofByte 2) (by simp) rfl).symm

/-! ## Inclusion proofs -/

/-- `scribe_merkle_proof_t`: sibling digests and position words, `depth` of each.  A
position of `0` means the sibling is on the right. -/
structure MerkleProof where
  hashes : List Hash
  positions : List Int
  length_positions : positions.length = hashes.length

namespace MerkleProof

/-- The `depth` field. -/
def depth (proof : MerkleProof) : Nat := proof.hashes.length

end MerkleProof

/-- The depth loop of `scribe_merkle_proof_create`:
`while (n > 1) { n = (n + 1) / 2; depth++; }`. -/
def treeDepth (n : Nat) : Nat :=
  if n ≤ 1 then 0 else treeDepth ((n + 1) / 2) + 1
termination_by n
decreasing_by omega

/-- `scribe_merkle_proof_create`: `NULL` before the build or for an index past the leaves;
otherwise a proof of depth `treeDepth leaf_count` whose sibling and position arrays are
left as `calloc` returned them. -/
def merkleProofCreate (tree : MerkleTree) (leafIndex : Nat) : Option MerkleProof :=
  if !tree.built || tree.leaves.length ≤ leafIndex then none
  else
    let depth := treeDepth tree.leaves.length
    some ⟨List.replicate depth Hash.zero, List.replicate depth 0, by simp⟩

section Verify

variable (sha256 : Bytes → Hash)

/-- One iteration of the loop of `scribe_merkle_proof_verify`. -/
def proofStep (current sibling : Hash) (position : Int) : Hash :=
  if position = 0 then hashCombine sha256 current sibling
  else hashCombine sha256 sibling current

/-- The digest the verification loop ends with. -/
def proofFold (steps : List (Hash × Int)) (leafHash : Hash) : Hash :=
  steps.foldl (fun current step => proofStep sha256 current step.1 step.2) leafHash

/-- `scribe_merkle_proof_verify`. -/
def merkleProofVerify (proof : MerkleProof) (leafHash rootHash : Hash) : Bool :=
  proofFold sha256 (proof.hashes.zip proof.positions) leafHash == rootHash

end Verify

end Scribe

import Scribe.Core.Merkle
import Mathlib.Data.List.GetD

/-!
# Inclusion proofs against the built tree

What an inclusion proof of leaf `i` should hold (the spec, §4.3): at each level from the
leaves up, the sibling of the node on the path and a side bit.  `canonicalSteps` computes
it from the levels of `scribe_merkle_build`, and `pathMatches` says which step lists
`scribe_merkle_proof_verify` can accept for leaf `i`: the canonical siblings, and the
canonical bits except where the path node is an odd last node, whose parent hashes it
with itself so that either bit gives the same digest.

Completeness (`proofFold_of_pathMatches`) and soundness (`pathMatches_of_proofFold`) are
proved for every leaf list and every proof whose depth is the tree height.  Soundness is
collision extraction: an accepted proof either follows the tree or makes two
`scribe_hash_combine` inputs, one hashed by the verifier and one by the builder, collide.
-/

namespace Scribe

section Levels

variable (sha256 : Bytes → Hash)

/-- The sibling of position `i` on a level: the right neighbour of an even position (the
node itself when it is the odd last one) and the left neighbour of an odd one. -/
def siblingAt (level : List Hash) (i : Nat) : Hash :=
  if i % 2 = 0 then level.getD (i + 1) (level.getD i Hash.zero)
  else level.getD (i - 1) Hash.zero

/-- The canonical inclusion proof of position `i`: sibling and side bit at each level. -/
def canonicalSteps : List Hash → Nat → List (Hash × Int)
  | [], _ => []
  | [_], _ => []
  | x :: y :: rest, i =>
      (siblingAt (x :: y :: rest) i, ((i % 2 : Nat) : Int)) ::
        canonicalSteps (pairHashes sha256 (x :: y :: rest)) (i / 2)
termination_by level => level.length
decreasing_by simp only [length_pairHashes, List.length_cons]; omega

/-- The canonical proof as a `scribe_merkle_proof_t`. -/
def canonicalProof (level : List Hash) (i : Nat) : MerkleProof :=
  ⟨(canonicalSteps sha256 level i).map Prod.fst, (canonicalSteps sha256 level i).map Prod.snd,
    by simp⟩

/-- Whether the path node at position `i` is the odd last node of its level. -/
def selfPaired (level : List Hash) (i : Nat) : Bool :=
  i % 2 = 0 && i + 1 = level.length

/-- One step accepted at position `i`: the canonical sibling, and a side bit that puts the
path node on its own side unless it is paired with itself. -/
def stepMatches (level : List Hash) (i : Nat) (sibling : Hash) (position : Int) : Bool :=
  sibling == siblingAt level i && (selfPaired level i || (position == 0) == (i % 2 == 0))

/-- The step lists that follow the path to position `i` up to the root. -/
def pathMatches : List Hash → Nat → List (Hash × Int) → Bool
  | [], _, _ => false
  | [_], i, steps => i == 0 && steps.isEmpty
  | _ :: _ :: _, _, [] => false
  | x :: y :: rest, i, (sibling, position) :: steps =>
      decide (i < rest.length + 2) && stepMatches (x :: y :: rest) i sibling position &&
        pathMatches (pairHashes sha256 (x :: y :: rest)) (i / 2) steps
termination_by level => level.length
decreasing_by simp only [length_pairHashes, List.length_cons]; omega

/-- The input `scribe_merkle_proof_verify` hashes for one step. -/
def stepInput (current sibling : Hash) (position : Int) : Bytes :=
  if position = 0 then combineInput current sibling else combineInput sibling current

/-- Every `scribe_hash_combine` input hashed by the verification loop. -/
def foldInputs : List (Hash × Int) → Hash → List Bytes
  | [], _ => []
  | (sibling, position) :: steps, current =>
      stepInput current sibling position ::
        foldInputs steps (proofStep sha256 current sibling position)

/-! ## Index arithmetic of one level -/

theorem getD_pairHashes (level : List Hash) (j : Nat) :
    (pairHashes sha256 level).getD j Hash.zero =
      if 2 * j < level.length then
        hashCombine sha256 (level.getD (2 * j) Hash.zero)
          (level.getD (2 * j + 1) (level.getD (2 * j) Hash.zero))
      else Hash.zero := by
  induction level using pairHashes.induct sha256 generalizing j with
  | case1 => simp [pairHashes]
  | case2 x => cases j <;> simp [pairHashes]
  | case3 x y rest ih =>
      cases j with
      | zero => simp [pairHashes]
      | succ j =>
          simp only [pairHashes, List.getD_cons_succ, ih, List.length_cons]
          simp only [show 2 * (j + 1) = 2 * j + 1 + 1 by ring, List.getD_cons_succ]
          split_ifs <;> first | rfl | omega

theorem combineInput_mem_levelInputs (level : List Hash) {j : Nat}
    (hj : 2 * j < level.length) :
    combineInput (level.getD (2 * j) Hash.zero)
        (level.getD (2 * j + 1) (level.getD (2 * j) Hash.zero)) ∈ levelInputs level := by
  induction level using levelInputs.induct generalizing j with
  | case1 => simp at hj
  | case2 x => obtain rfl : j = 0 := by simp at hj; omega
               simp [levelInputs]
  | case3 x y rest ih =>
      cases j with
      | zero => simp [levelInputs]
      | succ j =>
          simp only [levelInputs, List.mem_cons]
          right
          simpa [show 2 * (j + 1) = 2 * j + 1 + 1 by ring] using
            ih (j := j) (by simp at hj; omega)

theorem getD_of_lt {level : List Hash} {n : Nat} (hn : n < level.length) (d d' : Hash) :
    level.getD n d = level.getD n d' := by
  rw [List.getD_eq_getElem level d hn, List.getD_eq_getElem level d' hn]

theorem treeDepth_of_two_le {n : Nat} (hn : 2 ≤ n) : treeDepth n = treeDepth ((n + 1) / 2) + 1 := by
  rw [treeDepth, if_neg (by omega)]

theorem treeDepth_of_le_one {n : Nat} (hn : n ≤ 1) : treeDepth n = 0 := by
  rw [treeDepth, if_pos hn]

/-! ## Completeness -/

/-- A step accepted at position `i` takes the path node to its parent. -/
theorem proofStep_of_stepMatches {level : List Hash} {i : Nat} {sibling : Hash}
    {position : Int} (hi : i < level.length)
    (hstep : stepMatches level i sibling position = true) :
    proofStep sha256 (level.getD i Hash.zero) sibling position =
      (pairHashes sha256 level).getD (i / 2) Hash.zero := by
  simp only [stepMatches, selfPaired, Bool.and_eq_true, beq_iff_eq, Bool.or_eq_true,
    decide_eq_true_eq] at hstep
  obtain ⟨rfl, hbit⟩ := hstep
  rw [getD_pairHashes, if_pos (by omega)]
  rcases Nat.mod_two_eq_zero_or_one i with heven | hodd
  · have hhalf : 2 * (i / 2) = i := by omega
    rw [hhalf]
    by_cases hposition : position = 0
    · simp only [proofStep, siblingAt, if_pos heven, if_pos hposition]
    · have hlast : i + 1 = level.length := by
        rcases hbit with hself | hside
        · exact hself.2
        · simp [hposition, heven] at hside
      simp only [proofStep, siblingAt, if_pos heven, if_neg hposition]
      rw [List.getD_eq_default level _ (by omega : level.length ≤ i + 1)]
  · have hhalf : 2 * (i / 2) = i - 1 := by omega
    have hposition : position ≠ 0 := by
      rcases hbit with hself | hside
      · omega
      · simpa [hodd] using hside
    rw [hhalf, show i - 1 + 1 = i by omega]
    simp only [proofStep, siblingAt, if_neg (by omega : ¬i % 2 = 0), if_neg hposition]
    rw [getD_of_lt hi (level.getD (i - 1) Hash.zero) Hash.zero]

/-- Completeness: every step list that follows the path to position `i` folds, from the
digest at `i`, to the root. -/
theorem proofFold_of_pathMatches (level : List Hash) (i : Nat) (steps : List (Hash × Int))
    (hmatch : pathMatches sha256 level i steps = true) :
    proofFold sha256 steps (level.getD i Hash.zero) = specRoot sha256 level := by
  induction level, i, steps using pathMatches.induct sha256 with
  | case1 i steps => simp [pathMatches] at hmatch
  | case2 x i steps =>
      simp only [pathMatches, Bool.and_eq_true, beq_iff_eq, List.isEmpty_iff] at hmatch
      obtain ⟨rfl, rfl⟩ := hmatch
      simp [proofFold, specRoot]
  | case3 x y rest i => simp [pathMatches] at hmatch
  | case4 x y rest i sibling position steps ih =>
      simp only [pathMatches, Bool.and_eq_true, decide_eq_true_eq] at hmatch
      obtain ⟨⟨hi, hstep⟩, hrest⟩ := hmatch
      rw [specRoot_cons_cons, ← ih hrest, proofFold, List.foldl_cons,
        proofStep_of_stepMatches sha256 (by simpa using hi) hstep]
      rfl

theorem pathMatches_canonicalSteps (level : List Hash) (i : Nat) (hi : i < level.length) :
    pathMatches sha256 level i (canonicalSteps sha256 level i) = true := by
  induction level, i using canonicalSteps.induct sha256 with
  | case1 i => simp at hi
  | case2 x i =>
      obtain rfl : i = 0 := by simpa using hi
      simp [canonicalSteps, pathMatches]
  | case3 x y rest i ih =>
      have hi' : i < rest.length + 2 := by simpa using hi
      have hhalf : i / 2 < (pairHashes sha256 (x :: y :: rest)).length := by
        simp only [length_pairHashes, List.length_cons]; omega
      rw [canonicalSteps, pathMatches]
      simp only [ih hhalf, decide_eq_true hi', stepMatches, beq_self_eq_true, Bool.true_and,
        Bool.and_true]
      rcases Nat.mod_two_eq_zero_or_one i with h | h <;> simp [h]

theorem length_canonicalSteps (level : List Hash) (i : Nat) :
    (canonicalSteps sha256 level i).length = treeDepth level.length := by
  induction level, i using canonicalSteps.induct sha256 with
  | case1 i => simp [canonicalSteps, treeDepth_of_le_one]
  | case2 x i => simp [canonicalSteps, treeDepth_of_le_one]
  | case3 x y rest i ih =>
      rw [canonicalSteps, List.length_cons, ih, length_pairHashes,
        treeDepth_of_two_le (n := (x :: y :: rest).length) (by simp)]

/-! ## Soundness -/

/-- One accepted verification step that lands on node `j` of the level above started from
child `2j` or `2j + 1` of it and matched there, or the two hashed inputs collide. -/
theorem stepMatches_of_proofStep {level : List Hash} {j : Nat} (hj : 2 * j < level.length)
    {current sibling : Hash} {position : Int}
    (heq : proofStep sha256 current sibling position =
      hashCombine sha256 (level.getD (2 * j) Hash.zero)
        (level.getD (2 * j + 1) (level.getD (2 * j) Hash.zero))) :
    (∃ i, i / 2 = j ∧ i < level.length ∧ level.getD i Hash.zero = current ∧
        stepMatches level i sibling position = true) ∨
      Collision sha256 (stepInput current sibling position)
        (combineInput (level.getD (2 * j) Hash.zero)
          (level.getD (2 * j + 1) (level.getD (2 * j) Hash.zero))) := by
  by_cases hposition : position = 0
  · simp only [proofStep, stepInput, hposition, if_true] at heq ⊢
    rcases hashCombine_eq sha256 heq with ⟨rfl, rfl⟩ | hcollide
    · refine .inl ⟨2 * j, by omega, hj, rfl, ?_⟩
      simp [stepMatches, siblingAt]
    · exact .inr hcollide
  · simp only [proofStep, stepInput, hposition, if_false] at heq ⊢
    rcases hashCombine_eq sha256 heq with ⟨rfl, rfl⟩ | hcollide
    · by_cases hright : 2 * j + 1 < level.length
      · refine .inl ⟨2 * j + 1, by omega, hright, getD_of_lt hright _ _, ?_⟩
        simp [stepMatches, siblingAt, selfPaired, hposition, Nat.add_mod]
      · have hdefault := List.getD_eq_default level (level.getD (2 * j) Hash.zero)
          (by omega : level.length ≤ 2 * j + 1)
        refine .inl ⟨2 * j, by omega, hj, hdefault.symm, ?_⟩
        simp [stepMatches, siblingAt, selfPaired, hdefault, show 2 * j + 1 = level.length by omega]
    · exact .inr hcollide

/-- Soundness: a proof of the tree's height that folds from `x` to the root follows the path
to a leaf whose digest is `x`, or a verifier input collides with a builder input. -/
theorem pathMatches_of_proofFold (steps : List (Hash × Int)) :
    ∀ (level : List Hash) (x : Hash), 0 < level.length →
      steps.length = treeDepth level.length →
      proofFold sha256 steps x = specRoot sha256 level →
      (∃ i < level.length, level.getD i Hash.zero = x ∧ pathMatches sha256 level i steps) ∨
        ∃ a ∈ foldInputs sha256 steps x, ∃ b ∈ nodeInputs sha256 level, Collision sha256 a b := by
  induction steps with
  | nil =>
      intro level x hpos hdepth hfold
      match level, hpos, hdepth with
      | [z], _, _ =>
          left
          refine ⟨0, by simp, ?_, by simp [pathMatches]⟩
          simpa [proofFold, specRoot] using hfold.symm
      | _ :: _ :: _, _, hdepth =>
          rw [treeDepth_of_two_le (by simp)] at hdepth
          simp at hdepth
  | cons step steps ih =>
      intro level x hpos hdepth hfold
      obtain ⟨sibling, position⟩ := step
      match level, hpos, hdepth with
      | [z], _, hdepth => simp [treeDepth_of_le_one] at hdepth
      | a :: b :: rest, _, hdepth =>
          rw [treeDepth_of_two_le (by simp)] at hdepth
          rw [specRoot_cons_cons] at hfold
          have hup := ih (pairHashes sha256 (a :: b :: rest)) (proofStep sha256 x sibling position)
            (by simp only [length_pairHashes, List.length_cons]; omega) (by simpa using hdepth)
            (by simpa [proofFold] using hfold)
          rcases hup with ⟨j, hj, hnode, hrest⟩ | ⟨u, hu, v, hv, hcollide⟩
          · have hjlevel : 2 * j < (a :: b :: rest).length := by
              simp only [length_pairHashes] at hj; omega
            rw [getD_pairHashes, if_pos hjlevel] at hnode
            rcases stepMatches_of_proofStep sha256 hjlevel hnode.symm with
              ⟨i, rfl, hi, hleaf, hstep⟩ | hcollide
            · refine .inl ⟨i, hi, hleaf, ?_⟩
              have hi' : i < rest.length + 2 := by simpa using hi
              rw [pathMatches]
              simp only [decide_eq_true hi', hstep, hrest, Bool.and_self]
            · exact .inr ⟨_, List.mem_cons_self _ _, _,
                levelInputs_subset_nodeInputs sha256
                  (combineInput_mem_levelInputs _ hjlevel), hcollide⟩
          · exact .inr ⟨u, List.mem_cons_of_mem _ hu, v,
              nodeInputs_pairHashes_subset sha256 hv, hcollide⟩

end Levels

/-! ## What the functions of `merkle.c` give -/

section Functions

variable (sha256 : Bytes → Hash)

/-- `scribe_merkle_proof_create` on a built tree: for every leaf index, a proof of the
tree's height whose siblings are zero digests and whose side bits are all `0`. -/
theorem merkleProofCreate_buildFrom (adds : List LeafAdd) {i : Nat} (hi : i < adds.length) :
    merkleProofCreate (buildFrom sha256 adds) i =
      some ⟨List.replicate (treeDepth adds.length) Hash.zero,
        List.replicate (treeDepth adds.length) 0, by simp⟩ := by
  simp [merkleProofCreate, buildFrom_eq, hi]

theorem treeDepth_two : treeDepth 2 = 1 := by
  rw [treeDepth_of_two_le le_rfl, treeDepth_of_le_one (by norm_num)]

/-- Two leaves `a, b` with `b` nonzero: the proof created for leaf `0` holds a zero sibling
where the canonical proof holds `b`, and the verifier accepts it against the root only if
SHA-256 maps `0x01 ‖ a ‖ 0³²` and `0x01 ‖ a ‖ b` to one digest. -/
theorem merkleProofCreate_two_leaves (a b : Hash) (hb : b ≠ Hash.zero) :
    merkleRoot (buildFrom sha256 [.hash a, .hash b]) = some (hashCombine sha256 a b) ∧
      ∃ proof, merkleProofCreate (buildFrom sha256 [.hash a, .hash b]) 0 = some proof ∧
        proof ≠ canonicalProof sha256 [a, b] 0 ∧
        (merkleProofVerify sha256 proof a (hashCombine sha256 a b) = true →
          Collision sha256 (combineInput a Hash.zero) (combineInput a b)) := by
  have hcanonical : canonicalSteps sha256 [a, b] 0 = [(b, 0)] := by
    rw [canonicalSteps]
    simp [siblingAt, pairHashes, canonicalSteps]
  refine ⟨by simp [merkleRoot_buildFrom, LeafAdd.digest, pairHashes, specRoot],
    ⟨[Hash.zero], [0], rfl⟩, ?_, ?_, ?_⟩
  · rw [merkleProofCreate_buildFrom sha256 _ (by simp)]
    simp [treeDepth_two]
  · simp [canonicalProof, hcanonical, Ne.symm hb]
  · intro hverify
    simp only [merkleProofVerify, proofFold, List.zip_cons_cons, List.zip_nil_right,
      List.foldl_cons, List.foldl_nil, proofStep, if_true, beq_iff_eq] at hverify
    rcases hashCombine_eq sha256 hverify with ⟨-, hzero⟩ | hcollide
    · exact absurd hzero.symm hb
    · exact hcollide

theorem merkleProofCreate_two_leaves_zero_one :
    merkleRoot (buildFrom sumDigest [.hash Hash.zero, .hash (Hash.ofByte 1)]) =
        some (hashCombine sumDigest Hash.zero (Hash.ofByte 1)) ∧
      ∃ proof, merkleProofCreate (buildFrom sumDigest [.hash Hash.zero, .hash (Hash.ofByte 1)]) 0 =
          some proof ∧
        proof ≠ canonicalProof sumDigest [Hash.zero, Hash.ofByte 1] 0 ∧
        (merkleProofVerify sumDigest proof Hash.zero (hashCombine sumDigest Hash.zero (Hash.ofByte 1)) =
            true →
          Collision sumDigest (combineInput Hash.zero Hash.zero) (combineInput Hash.zero (Hash.ofByte 1))) :=
  merkleProofCreate_two_leaves sumDigest Hash.zero (Hash.ofByte 1) (by decide)

/-- `scribe_merkle_proof_verify` against the root of a built tree accepts a proof of the
tree's height exactly when it follows the path to a leaf whose digest is `x`, unless a
verifier input collides with a builder input.  `pathMatches` leaves the side bit free
where the path node is paired with itself. -/
theorem merkleProofVerify_iff_pathMatches (adds : List LeafAdd) (hn : 0 < adds.length)
    (proof : MerkleProof) (x root : Hash)
    (hroot : merkleRoot (buildFrom sha256 adds) = some root)
    (hdepth : proof.depth = treeDepth adds.length) :
    (merkleProofVerify sha256 proof x root = true ↔
        ∃ i < adds.length, (adds.map (LeafAdd.digest sha256)).getD i Hash.zero = x ∧
          pathMatches sha256 (adds.map (LeafAdd.digest sha256)) i
            (proof.hashes.zip proof.positions) = true) ∨
      ∃ a ∈ foldInputs sha256 (proof.hashes.zip proof.positions) x,
        ∃ b ∈ nodeInputs sha256 (adds.map (LeafAdd.digest sha256)), Collision sha256 a b := by
  rw [merkleRoot_buildFrom, Option.some.injEq] at hroot
  subst hroot
  have hlen : (proof.hashes.zip proof.positions).length =
      treeDepth (adds.map (LeafAdd.digest sha256)).length := by
    simp [proof.length_positions, ← hdepth, MerkleProof.depth]
  by_cases hcollide : ∃ a ∈ foldInputs sha256 (proof.hashes.zip proof.positions) x,
      ∃ b ∈ nodeInputs sha256 (adds.map (LeafAdd.digest sha256)), Collision sha256 a b
  · exact .inr hcollide
  refine .inl ⟨fun hverify => ?_, fun ⟨i, _, hleaf, hmatch⟩ => ?_⟩
  · rcases pathMatches_of_proofFold sha256 _ _ x (by simpa using hn) hlen
      (by simpa [merkleProofVerify] using hverify) with ⟨i, hi, hleaf, hmatch⟩ | h
    · exact ⟨i, by simpa using hi, hleaf, hmatch⟩
    · exact absurd h hcollide
  · have hfold := proofFold_of_pathMatches sha256 _ _ _ hmatch
    rw [hleaf] at hfold
    simp [merkleProofVerify, hfold]

/-- The tree of leaves `1, 2, 3`, of height two, and the proof for leaf `0` that lists its
sibling `2` and then the node of `3` paired with itself, both on the right. -/
theorem merkleProofVerify_iff_pathMatches_three :
    let adds : List LeafAdd := [.hash (Hash.ofByte 1), .hash (Hash.ofByte 2), .hash (Hash.ofByte 3)]
    let proof : MerkleProof :=
      ⟨[Hash.ofByte 2, hashCombine sumDigest (Hash.ofByte 3) (Hash.ofByte 3)], [0, 0], rfl⟩
    let root := specRoot sumDigest (adds.map (LeafAdd.digest sumDigest))
    (merkleProofVerify sumDigest proof (Hash.ofByte 1) root = true ↔
        ∃ i < adds.length, (adds.map (LeafAdd.digest sumDigest)).getD i Hash.zero = Hash.ofByte 1 ∧
          pathMatches sumDigest (adds.map (LeafAdd.digest sumDigest)) i
            (proof.hashes.zip proof.positions) = true) ∨
      ∃ a ∈ foldInputs sumDigest (proof.hashes.zip proof.positions) (Hash.ofByte 1),
        ∃ b ∈ nodeInputs sumDigest (adds.map (LeafAdd.digest sumDigest)), Collision sumDigest a b := by
  intro adds proof root
  exact merkleProofVerify_iff_pathMatches sumDigest adds (by decide) proof (Hash.ofByte 1) root
    (merkleRoot_buildFrom sumDigest adds)
    (by show 2 = treeDepth 3; rw [treeDepth_of_two_le (by decide), show (3 + 1) / 2 = 2 from rfl,
      treeDepth_two])

/-- Two forgeries the verifier accepts.  The empty proof verifies the root of a two-leaf
tree as a "leaf", though the tree's height is one; and for the odd last leaf `c` of the
tree `a, b, c`, where `c` is paired with itself, both side bits verify. -/
theorem merkleProofVerify_accepts_forgeries :
    merkleProofVerify sumDigest ⟨[], [], rfl⟩ (specRoot sumDigest [Hash.zero, Hash.ofByte 1])
        (specRoot sumDigest [Hash.zero, Hash.ofByte 1]) = true ∧
      treeDepth 2 ≠ 0 ∧
      merkleProofVerify sumDigest
          ⟨[Hash.ofByte 2, hashCombine sumDigest Hash.zero (Hash.ofByte 1)], [0, 1], rfl⟩
          (Hash.ofByte 2) (specRoot sumDigest [Hash.zero, Hash.ofByte 1, Hash.ofByte 2]) = true ∧
      merkleProofVerify sumDigest
          ⟨[Hash.ofByte 2, hashCombine sumDigest Hash.zero (Hash.ofByte 1)], [1, 1], rfl⟩
          (Hash.ofByte 2) (specRoot sumDigest [Hash.zero, Hash.ofByte 1, Hash.ofByte 2]) = true := by
  refine ⟨by simp [merkleProofVerify, proofFold], by simp [treeDepth_two], ?_, ?_⟩ <;>
    simp [merkleProofVerify, proofFold, proofStep, pairHashes, specRoot]

end Functions

end Scribe

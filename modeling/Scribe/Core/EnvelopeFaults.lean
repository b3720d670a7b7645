import Scribe.Commands.Verify

/-!
# Failure paths of `scribe_envelope_finalize` and `scribe_envelope_verify`

`Core/Envelope.lean` models finalize and verify with every allocation succeeding.  Here each
allocation and digest computation inside them may fail, as the C code allows: the tree of
`scribe_merkle_tree_new`, the leaf of each `scribe_merkle_add_hash`, the nodes of
`scribe_merkle_build`, the document of each `scribe_envelope_to_json`, `scribe_hash_bytes`,
and in verify the clone: `scribe_envelope_new`, the `strdup` of each string its setters copy,
and the growth of its change array.  With nothing failing the models are those of
`Core/Envelope.lean` (`envelopeFinalizeF_none`, `envelopeVerifyF_none`).

Most of these failures go unreported: the results of `scribe_merkle_add_hash`,
`scribe_merkle_build`, the second serialization and `scribe_hash_bytes` are ignored, and a
setter whose `strdup` fails leaves the clone's string `NULL`.  `envelopeFinalizeF_sound` says
what holds whatever fails: only the two digests change; the tree hash is unchanged or the
root of some of the change digests, in order; an error leaves `commit_id` as it was; and
`SCRIBE_OK` comes with a zero `commit_id` or one that verifies.  `envelopeFinalize_misreports`
gives runs where the reports are wrong, with the stand-in digest `messageDigest` of
`Commands/Verify.lean`.
-/

namespace Scribe

/-- `scribe_envelope_to_json`, whose document cannot be allocated when `fails`. -/
def envelopeToJsonF (fails : Bool) (env : Envelope) : Option Bytes :=
  if fails then none else envelopeToJson env

@[simp]
theorem envelopeToJsonF_false (env : Envelope) : envelopeToJsonF false env = envelopeToJson env := by
  rw [envelopeToJsonF, if_neg Bool.false_ne_true]

@[simp]
theorem envelopeToJsonF_true (env : Envelope) : envelopeToJsonF true env = none := rfl

theorem envelopeToJson_of_envelopeToJsonF {fails : Bool} {env : Envelope} {json : Bytes}
    (h : envelopeToJsonF fails env = some json) : envelopeToJson env = some json := by
  cases fails
  · rwa [envelopeToJsonF_false] at h
  · cases h

/-! ## Finalize -/

/-- The allocations and digests of `scribe_envelope_finalize` that fail. -/
structure FinalizeFaults where
  /-- `scribe_merkle_tree_new` returns `NULL`. -/
  treeNew : Bool
  /-- The `i`-th call of `scribe_merkle_add_hash` cannot grow the leaf array or allocate
  the leaf. -/
  addHash : Nat → Bool
  /-- An allocation inside `scribe_merkle_build` fails. -/
  build : Bool
  /-- The first `scribe_envelope_to_json` returns `NULL`. -/
  firstJson : Bool
  /-- The second `scribe_envelope_to_json` returns `NULL`. -/
  secondJson : Bool
  /-- `scribe_hash_bytes` fails before `EVP_DigestFinal_ex` writes the digest. -/
  hashBytes : Bool

/-- Nothing fails. -/
def FinalizeFaults.none : FinalizeFaults := ⟨false, fun _ => false, false, false, false, false⟩

/-- The leaves the tree holds when the `i`-th `scribe_merkle_add_hash`, counting from `i`,
fails for `fails i`: a failed call adds nothing. -/
def keptLeaves (fails : Nat → Bool) (i : Nat) : List LeafAdd → List LeafAdd
  | [] => []
  | leaf :: rest => (if fails i then [] else [leaf]) ++ keptLeaves fails (i + 1) rest

theorem keptLeaves_none (i : Nat) :
    ∀ leaves : List LeafAdd, keptLeaves (fun _ => false) i leaves = leaves
  | [] => rfl
  | leaf :: rest => by simp [keptLeaves, keptLeaves_none (i + 1) rest]

theorem keptLeaves_sublist (fails : Nat → Bool) :
    ∀ (i : Nat) (leaves : List LeafAdd), (keptLeaves fails i leaves).Sublist leaves
  | _, [] => List.Sublist.slnil
  | i, leaf :: rest => by
      have hrest := keptLeaves_sublist fails (i + 1) rest
      cases h : fails i
      · simpa [keptLeaves, h] using hrest
      · simpa [keptLeaves, h] using hrest.cons leaf

section Digest

variable (sha256 : Bytes → Hash)

/-- The tree-hash step of `scribe_envelope_finalize` under `faults`; `none` is the
`SCRIBE_ERR_NOMEM` of a `NULL` tree.  A failed build of two or more leaves leaves the tree
without a root, and `tree_hash` as it was; the build of one leaf allocates nothing, and that
of none gives the zero root, which `tree_hash` already is. -/
def finalizeTreeHashF (faults : FinalizeFaults) (env : Envelope) : Option Envelope :=
  if hashIsZero env.treeHash && !env.changes.isEmpty then
    if faults.treeNew then none
    else
      let leaves := keptLeaves faults.addHash 0 (changeLeaves env.changes)
      if faults.build && leaves.length ≠ 1 then some env
      else
        match merkleRoot (buildFrom sha256 leaves) with
        | some root => some { env with treeHash := root }
        | none => some env
  else some env

/-- The commit-id step of `scribe_envelope_finalize` under `faults`: the results of the
second serialization and of `scribe_hash_bytes` are ignored. -/
def finalizeCommitIdF (faults : FinalizeFaults) (env : Envelope) : Envelope × ScribeError :=
  match envelopeToJsonF faults.firstJson env with
  | none => (env, .nomem)
  | some _ =>
      let env := env.withCommitId Hash.zero
      match envelopeToJsonF faults.secondJson env with
      | some json =>
          (if faults.hashBytes then env
            else env.withCommitId (hashBytes sha256 (strlenPrefix json)), .ok)
      | none => (env, .ok)

/-- `scribe_envelope_finalize` under `faults`. -/
def envelopeFinalizeF (faults : FinalizeFaults) (env : Envelope) : Envelope × ScribeError :=
  match finalizeTreeHashF sha256 faults env with
  | none => (env, .nomem)
  | some env => finalizeCommitIdF sha256 faults env

theorem finalizeTreeHashF_eq (faults : FinalizeFaults) (env : Envelope) :
    finalizeTreeHashF sha256 faults env =
      if hashIsZero env.treeHash && !env.changes.isEmpty then
        if faults.treeNew then none
        else if faults.build && (keptLeaves faults.addHash 0 (changeLeaves env.changes)).length ≠ 1
          then some env
        else some { env with treeHash := (specRoot sha256
          ((keptLeaves faults.addHash 0 (changeLeaves env.changes)).map (LeafAdd.digest sha256))) }
      else some env := by
  simp only [finalizeTreeHashF, merkleRoot_buildFrom]

theorem finalizeTreeHashF_none (env : Envelope) :
    finalizeTreeHashF sha256 FinalizeFaults.none env = some (finalizeTreeHash sha256 env) := by
  rw [finalizeTreeHashF_eq, finalizeTreeHash_eq]
  split <;> simp [FinalizeFaults.none, keptLeaves_none]

/-- With nothing failing, finalize is the model of `Core/Envelope.lean`. -/
theorem envelopeFinalizeF_none (env : Envelope) :
    envelopeFinalizeF sha256 FinalizeFaults.none env = envelopeFinalize sha256 env := by
  unfold envelopeFinalizeF finalizeCommitIdF envelopeFinalize
  rw [finalizeTreeHashF_none]
  cases h : envelopeToJson (finalizeTreeHash sha256 env) with
  | none => simp only [h, FinalizeFaults.none, envelopeToJsonF_false]
  | some _ =>
      cases h' : envelopeToJson ((finalizeTreeHash sha256 env).withCommitId Hash.zero) <;>
        simp only [h, h', FinalizeFaults.none, envelopeToJsonF_false, Bool.false_eq_true, if_false]

/-- The tree-hash step changes `tree_hash` only, to the root of some of the change digests
in order. -/
theorem finalizeTreeHashF_some {faults : FinalizeFaults} {env env' : Envelope}
    (h : finalizeTreeHashF sha256 faults env = some env') :
    { env' with treeHash := env.treeHash } = env ∧
      (env'.treeHash = env.treeHash ∨ ∃ kept : List LeafAdd,
        kept.Sublist (changeLeaves env.changes) ∧
        env'.treeHash = specRoot sha256 (kept.map (LeafAdd.digest sha256))) := by
  rw [finalizeTreeHashF_eq] at h
  split_ifs at h <;> cases h
  all_goals first
    | exact ⟨rfl, .inl rfl⟩
    | exact ⟨rfl, .inr ⟨_, keptLeaves_sublist _ 0 _, rfl⟩⟩

theorem envelopeFinalizeF_of_tree {faults : FinalizeFaults} {env env' : Envelope}
    (h : finalizeTreeHashF sha256 faults env = some env') :
    envelopeFinalizeF sha256 faults env = finalizeCommitIdF sha256 faults env' := by
  unfold envelopeFinalizeF
  rw [h]

/-- When the second serialization fails, finalize reports `SCRIBE_OK` with `commit_id`
zero. -/
theorem finalizeCommitIdF_secondJson {faults : FinalizeFaults} {env : Envelope}
    (hfirst : (envelopeToJsonF faults.firstJson env).isSome = true)
    (hsecond : faults.secondJson = true) :
    finalizeCommitIdF sha256 faults env = (env.withCommitId Hash.zero, .ok) := by
  obtain ⟨first, hfirst⟩ := Option.isSome_iff_exists.mp hfirst
  unfold finalizeCommitIdF
  rw [hfirst]
  dsimp only
  rw [hsecond, envelopeToJsonF_true]

/-- The commit-id step reports `SCRIBE_ERR_NOMEM` with the envelope untouched, or
`SCRIBE_OK` with a `commit_id` that is zero or one under which the envelope verifies. -/
theorem finalizeCommitIdF_cases (now : BitVec 64) (faults : FinalizeFaults) (env : Envelope) :
    finalizeCommitIdF sha256 faults env = (env, .nomem) ∨
      ∃ c, finalizeCommitIdF sha256 faults env = (env.withCommitId c, .ok) ∧
        (c = Hash.zero ∨ envelopeVerify sha256 now (env.withCommitId c) = .ok) := by
  unfold finalizeCommitIdF
  cases envelopeToJsonF faults.firstJson env with
  | none => exact .inl rfl
  | some _ =>
      refine .inr ?_
      dsimp only
      cases hjson : envelopeToJsonF faults.secondJson (env.withCommitId Hash.zero) with
      | none => exact ⟨_, rfl, .inl rfl⟩
      | some json =>
          cases faults.hashBytes
          · refine ⟨_, rfl, .inr ?_⟩
            unfold envelopeVerify
            simp only [envelopeClone_eq, Envelope.withCommitId_withCommitId,
              envelopeToJson_of_envelopeToJsonF hjson, Envelope.commitId_withCommitId, if_true]
          · exact ⟨_, rfl, .inl rfl⟩

/-- Whatever fails, finalize changes only the two digests; the tree hash is unchanged or the
root of some of the change digests, in order; an error leaves `commit_id` as it was; and
`SCRIBE_OK` comes with a zero `commit_id` or one under which the envelope verifies. -/
theorem envelopeFinalizeF_sound (now : BitVec 64) (faults : FinalizeFaults) (env : Envelope) :
    let r := envelopeFinalizeF sha256 faults env
    { r.1 with commitId := env.commitId, treeHash := env.treeHash } = env ∧
      (r.1.treeHash = env.treeHash ∨ ∃ kept : List LeafAdd,
        kept.Sublist (changeLeaves env.changes) ∧
        r.1.treeHash = specRoot sha256 (kept.map (LeafAdd.digest sha256))) ∧
      ((r.2 = .nomem ∧ r.1.commitId = env.commitId) ∨
        (r.2 = .ok ∧ (r.1.commitId = Hash.zero ∨ envelopeVerify sha256 now r.1 = .ok))) := by
  intro r
  cases htree : finalizeTreeHashF sha256 faults env with
  | none =>
      have hr : r = (env, .nomem) := by
        show envelopeFinalizeF sha256 faults env = _
        unfold envelopeFinalizeF; rw [htree]
      rw [hr]
      exact ⟨rfl, .inl rfl, .inl ⟨rfl, rfl⟩⟩
  | some env' =>
      obtain ⟨hfields, htreeHash⟩ := finalizeTreeHashF_some sha256 htree
      rw [show r = finalizeCommitIdF sha256 faults env' from envelopeFinalizeF_of_tree sha256 htree]
      rcases finalizeCommitIdF_cases sha256 now faults env' with h | ⟨c, h, hc⟩ <;> rw [h] <;>
        dsimp only
      · exact ⟨by rw [← hfields], htreeHash, .inl ⟨rfl, by rw [← hfields]⟩⟩
      · exact ⟨by rw [← hfields]; rfl, htreeHash, .inr ⟨rfl, hc⟩⟩

end Digest

/-! ## Verify -/

/-- A string the clone in `scribe_envelope_verify` copies with `strdup`; a change's strings
carry the change's index. -/
inductive CloneField where
  | authorId
  | authorRole
  | authorEmail
  | processName
  | processVersion
  | processParams
  | processSource
  | message
  | tableName (i : Nat)
  | operation (i : Nat)
  | primaryKey (i : Nat)
  deriving DecidableEq

/-- The allocations and digest of `scribe_envelope_verify` that fail. -/
structure VerifyFaults where
  /-- `scribe_envelope_new` inside `scribe_envelope_clone` returns `NULL`. -/
  cloneNew : Bool
  /-- The clone's `strdup` of this string returns `NULL`. -/
  strdup : CloneField → Bool
  /-- The clone's `scribe_envelope_add_change` of the `i`-th change cannot grow the array. -/
  grow : Nat → Bool
  /-- `scribe_envelope_to_json` returns `NULL`. -/
  json : Bool
  /-- `scribe_hash_bytes` fails, and `computed` keeps the digest the stack held. -/
  hashBytes : Option Hash

/-- Nothing fails. -/
def VerifyFaults.none : VerifyFaults := ⟨false, fun _ => false, fun _ => false, false, Option.none⟩

/-- `safe_strdup`, whose `strdup` returns `NULL` when `fails`. -/
def strdupF (fails : Bool) (s : Option CStr) : Option CStr := if fails then none else s

@[simp]
theorem strdupF_false (s : Option CStr) : strdupF false s = s := rfl

/-- `INITIAL_CHANGE_CAPACITY`. -/
def initialChangeCapacity : Nat := 8

/-- The clone's copy of the `i`-th change. -/
def cloneChange (faults : VerifyFaults) (i : Nat) (change : Change) : Change :=
  ⟨strdupF (faults.strdup (.tableName i)) change.tableName,
    strdupF (faults.strdup (.operation i)) change.operation,
    strdupF (faults.strdup (.primaryKey i)) change.primaryKey, change.beforeHash,
    change.afterHash⟩

/-- The clone's loop of `scribe_envelope_add_change` from the `i`-th change, `count` changes
already in an array of `capacity`: a full array is doubled by `realloc`, and a `realloc`
that fails drops the change, its error ignored. -/
def cloneChanges (faults : VerifyFaults) (count capacity i : Nat) : List Change → List Change
  | [] => []
  | change :: rest =>
      if count < capacity then
        cloneChange faults i change :: cloneChanges faults (count + 1) capacity (i + 1) rest
      else if faults.grow i then cloneChanges faults count capacity (i + 1) rest
      else
        cloneChange faults i change :: cloneChanges faults (count + 1) (2 * capacity) (i + 1) rest

/-- `scribe_envelope_clone` under `faults`; `none` when `scribe_envelope_new` fails. -/
def envelopeCloneF (now : BitVec 64) (faults : VerifyFaults) (env : Envelope) : Option Envelope :=
  if faults.cloneNew then none
  else
    let dup := fun field s => strdupF (faults.strdup field) s
    let clone := { envelopeNew now with
      commitId := env.commitId, parentId := env.parentId, treeHash := env.treeHash }
    let clone := setAuthor clone (dup .authorId env.author.id) (dup .authorRole env.author.role)
    let clone := if env.author.email.isSome then
      setAuthorEmail clone (dup .authorEmail env.author.email) else clone
    let clone := setProcess clone (dup .processName env.process.name)
      (dup .processVersion env.process.version) (dup .processParams env.process.params)
    let clone := if env.process.source.isSome then
      setProcessSource clone (dup .processSource env.process.source) else clone
    let clone := if env.message.isSome then setMessage clone (dup .message env.message) else clone
    let clone := { clone with timestamp := env.timestamp }
    some { clone with changes := cloneChanges faults 0 initialChangeCapacity 0 env.changes }

section Digest

variable (sha256 : Bytes → Hash)

/-- `scribe_envelope_verify` under `faults`. -/
def envelopeVerifyF (now : BitVec 64) (faults : VerifyFaults) (env : Envelope) : ScribeError :=
  match envelopeCloneF now faults env with
  | none => .nomem
  | some copy =>
      match envelopeToJsonF faults.json (copy.withCommitId Hash.zero) with
      | none => .nomem
      | some json =>
          let computed := faults.hashBytes.getD (hashBytes sha256 (strlenPrefix json))
          if computed = env.commitId then .ok else .hashMismatch

end Digest

/-- A clone that loses no string and drops no change copies every field. -/
theorem cloneChanges_eq_self {faults : VerifyFaults} (hgrow : ∀ i, faults.grow i = false)
    (hdup : ∀ field, faults.strdup field = false) :
    ∀ (count capacity i : Nat) (changes : List Change),
      cloneChanges faults count capacity i changes = changes
  | _, _, _, [] => rfl
  | count, capacity, i, change :: rest => by
      have hchange : cloneChange faults i change = change := by simp [cloneChange, hdup]
      unfold cloneChanges
      split_ifs <;> simp_all [cloneChanges_eq_self hgrow hdup]

/-- When `scribe_envelope_new` succeeds, the clone is the envelope with each string through
its `strdup` and the changes through the loop. -/
theorem envelopeCloneF_eq (now : BitVec 64) {faults : VerifyFaults} (hnew : faults.cloneNew = false)
    (env : Envelope) :
    envelopeCloneF now faults env = some { env with
      author := ⟨strdupF (faults.strdup .authorId) env.author.id,
        strdupF (faults.strdup .authorRole) env.author.role,
        strdupF (faults.strdup .authorEmail) env.author.email⟩
      process := ⟨strdupF (faults.strdup .processName) env.process.name,
        strdupF (faults.strdup .processVersion) env.process.version,
        strdupF (faults.strdup .processParams) env.process.params,
        strdupF (faults.strdup .processSource) env.process.source⟩
      message := strdupF (faults.strdup .message) env.message
      changes := cloneChanges faults 0 initialChangeCapacity 0 env.changes } := by
  obtain ⟨commitId, parentId, treeHash, ⟨id, role, email⟩, ⟨name, version, params, source⟩,
    timestamp, message, changes⟩ := env
  cases email <;> cases source <;> cases message <;>
    simp [envelopeCloneF, hnew, envelopeNew, setAuthor, setAuthorEmail, setProcess,
      setProcessSource, setMessage, strdupF]

/-- With nothing failing, verify is the model of `Core/Envelope.lean`. -/
theorem envelopeVerifyF_none (sha256 : Bytes → Hash) (now : BitVec 64) (env : Envelope) :
    envelopeVerifyF sha256 now VerifyFaults.none env = envelopeVerify sha256 now env := by
  have hclone : envelopeCloneF now VerifyFaults.none env = some env := by
    rw [envelopeCloneF_eq now rfl,
      cloneChanges_eq_self (fun _ => rfl) (fun _ => rfl)]
    simp [VerifyFaults.none]
  unfold envelopeVerifyF envelopeVerify
  rw [hclone, envelopeClone_eq]
  rfl

/-- `scribe_envelope_verify` once the clone is made and serialized. -/
theorem envelopeVerifyF_of_json (sha256 : Bytes → Hash) (now : BitVec 64) {faults : VerifyFaults}
    {env copy : Envelope} {json : Bytes} (hclone : envelopeCloneF now faults env = some copy)
    (hjson : envelopeToJsonF faults.json (copy.withCommitId Hash.zero) = some json) :
    envelopeVerifyF sha256 now faults env =
      if faults.hashBytes.getD (hashBytes sha256 (strlenPrefix json)) = env.commitId then .ok
      else .hashMismatch := by
  unfold envelopeVerifyF
  rw [hclone]
  dsimp only
  rw [hjson]

/-! ## Failures that are misreported -/

/-- An envelope whose message is the byte `0xFF`, not UTF-8, with one change whose after
digest is `Hash.ofByte 1`. -/
def badMessageEnvelope : Envelope :=
  addChange (setMessage (envelopeNew 0) (some ⟨[0xFF], by decide⟩)) none none none none
    (some (Hash.ofByte 1))

/-- Finalize sets `tree_hash` of `badMessageEnvelope`, then fails to serialize it. -/
theorem envelopeFinalize_badMessage (sha256 : Bytes → Hash) :
    envelopeFinalize sha256 badMessageEnvelope =
      ({ badMessageEnvelope with treeHash := Hash.ofByte 1 }, .nomem) := by
  have hcond : (hashIsZero badMessageEnvelope.treeHash && !badMessageEnvelope.changes.isEmpty) =
      true := rfl
  have hleaves : changeLeaves badMessageEnvelope.changes = [.hash (Hash.ofByte 1)] := rfl
  have htree : finalizeTreeHash sha256 badMessageEnvelope =
      { badMessageEnvelope with treeHash := Hash.ofByte 1 } := by
    rw [finalizeTreeHash_eq, if_pos hcond, hleaves, List.map_cons, List.map_nil, LeafAdd.digest,
      specRoot]
  have hjson : envelopeToJson { badMessageEnvelope with treeHash := Hash.ofByte 1 } = none := by
    rw [← Option.not_isSome_iff_eq_none, envelopeToJson_isSome]
    simp [Envelope.utf8, badMessageEnvelope, addChange, setMessage, envelopeNew, strUtf8]
    decide
  rw [envelopeFinalize_of_json_none sha256 (by rw [htree]; exact hjson), htree]

/-- With the second serialization failing, finalize of `chainEnvelope 1` reports `SCRIBE_OK`
with `commit_id` zero. -/
theorem envelopeFinalizeF_chainEnvelope_secondJson :
    envelopeFinalizeF messageDigest { FinalizeFaults.none with secondJson := true }
      (chainEnvelope 1) = ((chainEnvelope 1).withCommitId Hash.zero, .ok) := by
  have htree : finalizeTreeHashF messageDigest { FinalizeFaults.none with secondJson := true }
      (chainEnvelope 1) = some (chainEnvelope 1) := by
    rw [finalizeTreeHashF_eq, if_neg (by simp [show (chainEnvelope 1).changes = [] from rfl])]
  rw [envelopeFinalizeF_of_tree messageDigest htree,
    finalizeCommitIdF_secondJson messageDigest (by
      show (envelopeToJson (chainEnvelope 1)).isSome = true
      rw [envelopeToJson_isSome, utf8_chainEnvelope]) rfl]

/-- The clone of `chainCommit 1` whose message `strdup` fails has no message, so its text
hashes to `chainId 1` under `messageDigest`, not to the `commit_id` `chainId 2`. -/
theorem envelopeVerifyF_chainCommit_messageLost :
    envelopeVerifyF messageDigest 0
      { VerifyFaults.none with strdup := fun field => decide (field = .message) }
      (chainCommit 1) = .hashMismatch := by
  have hclone : envelopeCloneF 0
      { VerifyFaults.none with strdup := fun field => decide (field = .message) } (chainCommit 1) =
      some { chainCommit 1 with message := none } := by
    rw [envelopeCloneF_eq 0 rfl]
    rfl
  have hsome : (envelopeToJson ({ chainCommit 1 with message := none }.withCommitId Hash.zero)).isSome =
      true := by
    rw [envelopeToJson_isSome]
    decide
  obtain ⟨json, hjson⟩ := Option.isSome_iff_exists.mp hsome
  have hdigest : hashBytes messageDigest (strlenPrefix json) = chainId 1 := by
    rw [hashBytes, messageDigest, strlenPrefix_yyjsonWrite hjson, yyjsonRead_yyjsonWrite hjson,
      (objGet_envelopeJson _).2.2.2.2.2.2.1]
    rfl
  rw [envelopeVerifyF_of_json messageDigest 0 hclone hjson]
  show (if hashBytes messageDigest (strlenPrefix json) = chainId 2 then ScribeError.ok
    else .hashMismatch) = .hashMismatch
  rw [hdigest]
  exact if_neg fun h => absurd (chainId_injective (by omega) (by omega) h) (by omega)

/-- finalize reports `SCRIBE_ERR_NOMEM` after it has changed `tree_hash`, and `SCRIBE_OK`
with a `commit_id` that is not the digest of the serialization; verify reports
`SCRIBE_ERR_HASH_MISMATCH` on an envelope whose `commit_id` is that digest. -/
theorem envelopeFinalize_misreports :
    (∀ sha256 : Bytes → Hash, envelopeFinalize sha256 badMessageEnvelope =
        ({ badMessageEnvelope with treeHash := Hash.ofByte 1 }, .nomem)) ∧
      envelopeFinalize messageDigest (chainEnvelope 1) = (chainCommit 1, .ok) ∧
      (chainCommit 1).commitId ≠ Hash.zero ∧
      envelopeFinalizeF messageDigest { FinalizeFaults.none with secondJson := true }
        (chainEnvelope 1) = ((chainEnvelope 1).withCommitId Hash.zero, .ok) ∧
      envelopeVerify messageDigest 0 (chainCommit 1) = .ok ∧
      envelopeVerifyF messageDigest 0
        { VerifyFaults.none with strdup := fun field => decide (field = .message) }
        (chainCommit 1) = .hashMismatch :=
  ⟨envelopeFinalize_badMessage, envelopeFinalize_chainEnvelope 1,
    chainId_ne_zero (by omega) (by omega), envelopeFinalizeF_chainEnvelope_secondJson,
    envelopeVerify_of_finalize messageDigest 0 (envelopeFinalize_chainEnvelope 1),
    envelopeVerifyF_chainCommit_messageLost⟩

end Scribe

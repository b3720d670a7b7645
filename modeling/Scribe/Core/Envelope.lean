import Scribe.Core.Merkle
import Scribe.Json.RoundTrip

/-!
# The commit envelope of `core/envelope.c`

An envelope holds three digests, the author and process strings, a timestamp, an optional
message and the list of changes.  Strings are C strings: `NULL` is `none`, and a present
string holds no NUL byte.  Allocation is not modelled, so the setters always succeed.

`scribe_envelope_to_json` builds a yyjson document (`envelopeJson`) and writes it.  Its
digest members point at block-scoped `hex` arrays that are dead when the document is
written; they share one stack slot, so every digest member reads as the last digest written
(`hexSlot`).  `scribe_envelope_finalize` computes the Merkle root of the non-zero change
digests when `tree_hash` is zero, then hashes the serialization with `commit_id` cleared;
`scribe_envelope_verify` clones the envelope, clears the clone's `commit_id`, and compares
the hash of its serialization with `commit_id`.

The main result is `envelopeFinalize_verify` and its companions: on every envelope that
finalizes, verification succeeds, the prior `commit_id` does not matter, and finalizing
again changes nothing.
-/

namespace Scribe

/-- A C string: the bytes before its terminating NUL. -/
structure CStr where
  bytes : Bytes
  ne_zero : ∀ b ∈ bytes, b ≠ 0
  deriving DecidableEq

/-- `strdup` of a string the code reads back: the bytes up to the first NUL. -/
def CStr.ofBytes (bs : Bytes) : CStr :=
  ⟨bs.takeWhile (· ≠ 0), fun _ hb => by simpa using List.mem_takeWhile_imp hb⟩

theorem CStr.ofBytes_bytes (s : CStr) : CStr.ofBytes s.bytes = s := by
  cases s with
  | mk bytes hbytes =>
      simp only [CStr.ofBytes, CStr.mk.injEq]
      exact List.takeWhile_eq_self_iff.mpr fun b hb => by simpa using hbytes b hb

/-- The empty C string. -/
def CStr.empty : CStr := ⟨[], fun _ h => absurd h (List.not_mem_nil _)⟩

/-- A C string literal of the source. -/
def CStr.lit (s : String) : CStr := CStr.ofBytes (ascii s)

/-- `scribe_author_t`. -/
structure Author where
  id : Option CStr
  role : Option CStr
  email : Option CStr
  deriving DecidableEq

/-- `scribe_process_t`. -/
structure Process where
  name : Option CStr
  version : Option CStr
  params : Option CStr
  source : Option CStr
  deriving DecidableEq

/-- `scribe_change_t`. -/
structure Change where
  tableName : Option CStr
  operation : Option CStr
  primaryKey : Option CStr
  beforeHash : Hash
  afterHash : Hash
  deriving DecidableEq

/-- `scribe_envelope_t`, without the capacity of the change array. -/
structure Envelope where
  commitId : Hash
  parentId : Hash
  treeHash : Hash
  author : Author
  process : Process
  timestamp : BitVec 64
  message : Option CStr
  changes : List Change
  deriving DecidableEq

/-- The envelope with `commit_id` replaced: what `memset` to zero, or
`scribe_hash_bytes` into `env->commit_id`, leave. -/
def Envelope.withCommitId (env : Envelope) (c : Hash) : Envelope := { env with commitId := c }

@[simp]
theorem Envelope.withCommitId_withCommitId (env : Envelope) (c c' : Hash) :
    (env.withCommitId c).withCommitId c' = env.withCommitId c' := rfl

@[simp]
theorem Envelope.commitId_withCommitId (env : Envelope) (c : Hash) :
    (env.withCommitId c).commitId = c := rfl

/-! ## Building an envelope -/

/-- `scribe_envelope_new`: zero digests, no strings, no changes, and `time(NULL)`. -/
def envelopeNew (now : BitVec 64) : Envelope :=
  ⟨Hash.zero, Hash.zero, Hash.zero, ⟨none, none, none⟩, ⟨none, none, none, none⟩, now, none, []⟩

/-- `scribe_envelope_set_author`: sets `id` and `role`, keeps `email`. -/
def setAuthor (env : Envelope) (id role : Option CStr) : Envelope :=
  { env with author := { env.author with id := id, role := role } }

/-- `scribe_envelope_set_author_email`. -/
def setAuthorEmail (env : Envelope) (email : Option CStr) : Envelope :=
  { env with author := { env.author with email := email } }

/-- `scribe_envelope_set_process`: sets `name`, `version` and `params`, keeps `source`. -/
def setProcess (env : Envelope) (name version params : Option CStr) : Envelope :=
  { env with process := { env.process with name := name, version := version, params := params } }

/-- `scribe_envelope_set_process_source`. -/
def setProcessSource (env : Envelope) (source : Option CStr) : Envelope :=
  { env with process := { env.process with source := source } }

/-- `scribe_envelope_set_parent`: a `NULL` parent is the zero digest. -/
def setParent (env : Envelope) (parent : Option Hash) : Envelope :=
  { env with parentId := parent.getD Hash.zero }

/-- `scribe_envelope_set_message`. -/
def setMessage (env : Envelope) (message : Option CStr) : Envelope :=
  { env with message := message }

/-- `scribe_envelope_add_change`: appends a change; a `NULL` digest is left zero by the
`memset`. -/
def addChange (env : Envelope) (tableName operation primaryKey : Option CStr)
    (beforeHash afterHash : Option Hash) : Envelope :=
  { env with changes := env.changes ++
      [⟨tableName, operation, primaryKey, beforeHash.getD Hash.zero, afterHash.getD Hash.zero⟩] }

@[simp] theorem parentId_envelopeNew (now : BitVec 64) : (envelopeNew now).parentId = Hash.zero := rfl
@[simp] theorem parentId_setAuthor (env : Envelope) (id role : Option CStr) :
    (setAuthor env id role).parentId = env.parentId := rfl
@[simp] theorem parentId_setProcess (env : Envelope) (name version params : Option CStr) :
    (setProcess env name version params).parentId = env.parentId := rfl
@[simp] theorem parentId_setMessage (env : Envelope) (message : Option CStr) :
    (setMessage env message).parentId = env.parentId := rfl
@[simp] theorem parentId_setParent (env : Envelope) (parent : Option Hash) :
    (setParent env parent).parentId = parent.getD Hash.zero := rfl
@[simp] theorem parentId_addChange (env : Envelope) (tableName operation primaryKey : Option CStr)
    (beforeHash afterHash : Option Hash) :
    (addChange env tableName operation primaryKey beforeHash afterHash).parentId = env.parentId :=
  rfl

/-- `scribe_envelope_clone`: a new envelope, given each field through the setters; email,
source and message only when present. -/
def envelopeClone (now : BitVec 64) (env : Envelope) : Envelope :=
  let clone := { envelopeNew now with
    commitId := env.commitId, parentId := env.parentId, treeHash := env.treeHash }
  let clone := setAuthor clone env.author.id env.author.role
  let clone := if env.author.email.isSome then setAuthorEmail clone env.author.email else clone
  let clone := setProcess clone env.process.name env.process.version env.process.params
  let clone := if env.process.source.isSome then setProcessSource clone env.process.source
    else clone
  let clone := if env.message.isSome then setMessage clone env.message else clone
  let clone := { clone with timestamp := env.timestamp }
  env.changes.foldl (fun clone change => addChange clone change.tableName change.operation
    change.primaryKey (some change.beforeHash) (some change.afterHash)) clone

theorem foldl_addChange (changes : List Change) (env : Envelope) :
    changes.foldl (fun clone change => addChange clone change.tableName change.operation
      change.primaryKey (some change.beforeHash) (some change.afterHash)) env =
      { env with changes := env.changes ++ changes } := by
  induction changes generalizing env with
  | nil => simp
  | cons change changes ih =>
      rw [List.foldl_cons, ih]
      simp [addChange]

/-- The clone equals the envelope, field for field. -/
theorem envelopeClone_eq (now : BitVec 64) (env : Envelope) : envelopeClone now env = env := by
  obtain ⟨commitId, parentId, treeHash, ⟨id, role, email⟩, ⟨name, version, params, source⟩,
    timestamp, message, changes⟩ := env
  cases email <;> cases source <;> cases message <;>
    simp [envelopeClone, envelopeNew, setAuthor, setAuthorEmail, setProcess, setProcessSource,
      setMessage, foldl_addChange]

/-! ## Serialization -/

/-- The digest fields `scribe_envelope_to_json` visits, in its order: `commit_id`,
`parent_id`, `tree_hash`, then each change's before and after digest. -/
def hexFields (env : Envelope) : List Hash :=
  [env.commitId, env.parentId, env.treeHash] ++
    env.changes.flatMap fun change => [change.beforeHash, change.afterHash]

/-- The digests its blocks write with `scribe_hash_to_hex` into their
`char hex[SCRIBE_HASH_HEX_SIZE]`: the non-zero ones, in that order. -/
def hexWrites (env : Envelope) : List Hash := (hexFields env).filter fun h => !hashIsZero h

/-- The digest whose hex the `hex` arrays hold when `yyjson_mut_write` reads them.
`yyjson_mut_obj_add_str` keeps the pointer it is given and copies nothing, and each array is
dead once its block closes, so the C standard gives the read no meaning.  The five arrays have
one size and disjoint scopes, and GCC gives them one stack slot, at every optimisation level
unless `-fstack-reuse=none`: every digest member is read from that slot, which holds the hex
of the last digest written. -/
def hexSlot (env : Envelope) : Hash := (hexWrites env).getLast?.getD Hash.zero

/-- A digest member: added when the digest `h` is non-zero, pointing at the array, whose text
is the hex of `slot` when the document is written. -/
def hexMember (key : String) (slot h : Hash) : List (Bytes × JsonVal) :=
  if hashIsZero h then [] else [(ascii key, .str (hashToHex slot))]

/-- A string member, left out when the string is `NULL`. -/
def strMember (key : String) : Option CStr → List (Bytes × JsonVal)
  | none => []
  | some s => [(ascii key, .str s.bytes)]

/-- The `author` object. -/
def authorJson (author : Author) : JsonVal :=
  .obj (strMember "id" author.id ++ strMember "role" author.role ++ strMember "email" author.email)

/-- The `process` object. -/
def processJson (process : Process) : JsonVal :=
  .obj (strMember "name" process.name ++ strMember "version" process.version ++
    strMember "params" process.params ++ strMember "source" process.source)

/-- One object of the `changes` array. -/
def changeJson (slot : Hash) (change : Change) : JsonVal :=
  .obj (strMember "table" change.tableName ++ strMember "operation" change.operation ++
    strMember "pk" change.primaryKey ++ hexMember "before_hash" slot change.beforeHash ++
    hexMember "after_hash" slot change.afterHash)

/-- The `changes` array, left out when there are no changes. -/
def changesMember (slot : Hash) (changes : List Change) : List (Bytes × JsonVal) :=
  if changes.isEmpty then [] else [(ascii "changes", .arr (changes.map (changeJson slot)))]

/-- The document `scribe_envelope_to_json` builds, member by member in its order, as
`yyjson_mut_write` reads it.  The timestamp is written as `(int64_t)env->timestamp`. -/
def envelopeJson (env : Envelope) : JsonVal :=
  .obj (hexMember "commit_id" (hexSlot env) env.commitId ++
    hexMember "parent_id" (hexSlot env) env.parentId ++
    hexMember "tree_hash" (hexSlot env) env.treeHash ++
    [(ascii "author", authorJson env.author), (ascii "process", processJson env.process),
      (ascii "timestamp", .int env.timestamp.toInt)] ++
    strMember "message" env.message ++ changesMember (hexSlot env) env.changes)

/-- `scribe_envelope_to_json`: `NULL` when yyjson refuses to write, which happens exactly
when a string is not UTF-8. -/
def envelopeToJson (env : Envelope) : Option Bytes := yyjsonWrite (envelopeJson env)

/-- `strlen`: the bytes before the first NUL. -/
def strlenPrefix (s : Bytes) : Bytes := s.takeWhile (· ≠ 0)

/-! ## When serialization succeeds -/

/-- A `NULL` string, or one that is UTF-8. -/
def strUtf8 : Option CStr → Bool
  | none => true
  | some s => utf8Valid s.bytes

/-- Whether every string of the envelope is UTF-8. -/
def Envelope.utf8 (env : Envelope) : Bool :=
  strUtf8 env.author.id && strUtf8 env.author.role && strUtf8 env.author.email &&
    strUtf8 env.process.name && strUtf8 env.process.version && strUtf8 env.process.params &&
    strUtf8 env.process.source && strUtf8 env.message &&
    env.changes.all fun change =>
      strUtf8 change.tableName && strUtf8 change.operation && strUtf8 change.primaryKey

theorem hashToHex_ascii (h : Hash) : ∀ c ∈ hashToHex h, c ≤ 0x7F := by
  have hdigits : ∀ d, d < 16 → hexChars.getD d 0 ≤ 0x7F := by decide
  simp only [hashToHex, List.mem_flatMap, hexByte, List.mem_cons, List.not_mem_nil, or_false]
  rintro c ⟨b, -, rfl | rfl⟩
  · exact hdigits _ (by have := UInt8.toNat_lt_256 b; omega)
  · exact hdigits _ (by omega)

theorem strMember_writable (key : String) (hkey : utf8Valid (ascii key) = true)
    (s : Option CStr) (level : Nat) :
    (∀ m ∈ strMember key s, utf8Valid m.1 = true ∧ (writeVal level m.2).isSome = true) ↔
      strUtf8 s = true := by
  cases s <;> simp [strMember, strUtf8, hkey]

theorem hexMember_writable (key : String) (hkey : utf8Valid (ascii key) = true)
    (slot h : Hash) (level : Nat) :
    (∀ m ∈ hexMember key slot h, utf8Valid m.1 = true ∧ (writeVal level m.2).isSome = true) ↔
      True := by
  unfold hexMember
  split_ifs <;> simp [hkey, utf8Valid_of_ascii (hashToHex_ascii slot)]

theorem BitVec.toInt_range (t : BitVec 64) : -2 ^ 63 ≤ t.toInt ∧ t.toInt < 2 ^ 63 := by
  rw [BitVec.toInt_eq_toNat_cond]; have := t.isLt; split <;> omega

theorem authorJson_isSome (author : Author) (level : Nat) :
    (writeVal level (authorJson author)).isSome =
      (strUtf8 author.id && strUtf8 author.role && strUtf8 author.email) := by
  rw [Bool.eq_iff_iff, authorJson, writeVal_obj_isSome]
  simp only [List.forall_mem_append, strMember_writable "id" (by decide),
    strMember_writable "role" (by decide), strMember_writable "email" (by decide),
    Bool.and_eq_true]

theorem processJson_isSome (process : Process) (level : Nat) :
    (writeVal level (processJson process)).isSome =
      (strUtf8 process.name && strUtf8 process.version && strUtf8 process.params &&
        strUtf8 process.source) := by
  rw [Bool.eq_iff_iff, processJson, writeVal_obj_isSome]
  simp only [List.forall_mem_append, strMember_writable "name" (by decide),
    strMember_writable "version" (by decide), strMember_writable "params" (by decide),
    strMember_writable "source" (by decide), Bool.and_eq_true]

theorem changeJson_isSome (slot : Hash) (change : Change) (level : Nat) :
    (writeVal level (changeJson slot change)).isSome =
      (strUtf8 change.tableName && strUtf8 change.operation && strUtf8 change.primaryKey) := by
  rw [Bool.eq_iff_iff, changeJson, writeVal_obj_isSome]
  simp only [List.forall_mem_append, strMember_writable "table" (by decide),
    strMember_writable "operation" (by decide), strMember_writable "pk" (by decide),
    hexMember_writable "before_hash" (by decide), hexMember_writable "after_hash" (by decide),
    Bool.and_eq_true, and_true]

/-- `scribe_envelope_to_json` succeeds exactly when every string of the envelope is UTF-8. -/
theorem envelopeToJson_isSome (env : Envelope) : (envelopeToJson env).isSome = env.utf8 := by
  rw [Bool.eq_iff_iff, envelopeToJson, yyjsonWrite, envelopeJson, writeVal_obj_isSome]
  have hchanges : (∀ m ∈ changesMember (hexSlot env) env.changes,
      utf8Valid m.1 = true ∧ (writeVal 1 m.2).isSome = true) ↔
      ∀ change ∈ env.changes,
        (strUtf8 change.tableName && strUtf8 change.operation && strUtf8 change.primaryKey) =
          true := by
    unfold changesMember
    split_ifs with hempty
    · simp [List.isEmpty_iff.mp hempty]
    · rw [List.forall_mem_singleton, writeVal_arr_isSome, List.forall_mem_map]
      simp only [show utf8Valid (ascii "changes") = true by decide, changeJson_isSome, true_and]
  have hfixed : (∀ m ∈ [(ascii "author", authorJson env.author),
      (ascii "process", processJson env.process),
      (ascii "timestamp", JsonVal.int env.timestamp.toInt)],
      utf8Valid m.1 = true ∧ (writeVal 1 m.2).isSome = true) ↔
      (strUtf8 env.author.id && strUtf8 env.author.role && strUtf8 env.author.email) = true ∧
      (strUtf8 env.process.name && strUtf8 env.process.version && strUtf8 env.process.params &&
        strUtf8 env.process.source) = true := by
    rw [List.forall_mem_cons, List.forall_mem_cons, List.forall_mem_singleton, authorJson_isSome,
      processJson_isSome, writeVal_int_isSome, decide_eq_true (BitVec.toInt_range _)]
    simp only [show utf8Valid (ascii "author") = true by decide,
      show utf8Valid (ascii "process") = true by decide,
      show utf8Valid (ascii "timestamp") = true by decide, true_and, and_true]
  rw [List.forall_mem_append, List.forall_mem_append, List.forall_mem_append,
    List.forall_mem_append, List.forall_mem_append, hexMember_writable "commit_id" (by decide),
    hexMember_writable "parent_id" (by decide), hexMember_writable "tree_hash" (by decide),
    strMember_writable "message" (by decide), hfixed, hchanges]
  simp only [Envelope.utf8, List.all_eq_true, Bool.and_eq_true, true_and, and_assoc]


@[simp]
theorem Envelope.utf8_withCommitId (env : Envelope) (c : Hash) :
    (env.withCommitId c).utf8 = env.utf8 := rfl

/-! ## Finalize and verify -/

section Digest

variable (sha256 : Bytes → Hash)

/-- The leaves `scribe_envelope_finalize` adds: for each change in order, its before and
after digests, each only when non-zero. -/
def changeLeaves (changes : List Change) : List LeafAdd :=
  changes.flatMap fun change =>
    (if hashIsZero change.beforeHash then [] else [.hash change.beforeHash]) ++
      (if hashIsZero change.afterHash then [] else [.hash change.afterHash])

/-- The tree-hash step of `scribe_envelope_finalize`: only when `tree_hash` is zero and
there are changes. -/
def finalizeTreeHash (env : Envelope) : Envelope :=
  if hashIsZero env.treeHash && !env.changes.isEmpty then
    match merkleRoot (buildFrom sha256 (changeLeaves env.changes)) with
    | some root => { env with treeHash := root }
    | none => env
  else env

/-- `scribe_envelope_finalize`.  A first serialization that fails is `SCRIBE_ERR_NOMEM`;
otherwise `commit_id` is cleared and, if the second serialization succeeds, set to the
hash of its `strlen` bytes. -/
def envelopeFinalize (env : Envelope) : Envelope × ScribeError :=
  let env := finalizeTreeHash sha256 env
  match envelopeToJson env with
  | none => (env, .nomem)
  | some _ =>
      let env := env.withCommitId Hash.zero
      match envelopeToJson env with
      | some json => (env.withCommitId (hashBytes sha256 (strlenPrefix json)), .ok)
      | none => (env, .ok)

/-- `scribe_envelope_verify`. -/
def envelopeVerify (now : BitVec 64) (env : Envelope) : ScribeError :=
  let copy := (envelopeClone now env).withCommitId Hash.zero
  match envelopeToJson copy with
  | none => .nomem
  | some json =>
      if hashBytes sha256 (strlenPrefix json) = env.commitId then .ok else .hashMismatch

theorem finalizeTreeHash_eq (env : Envelope) :
    finalizeTreeHash sha256 env =
      if hashIsZero env.treeHash && !env.changes.isEmpty then
        { env with
          treeHash := specRoot sha256 ((changeLeaves env.changes).map (LeafAdd.digest sha256)) }
      else env := by
  simp only [finalizeTreeHash, merkleRoot_buildFrom]

theorem finalizeTreeHash_withCommitId (env : Envelope) (c : Hash) :
    finalizeTreeHash sha256 (env.withCommitId c) = (finalizeTreeHash sha256 env).withCommitId c := by
  rw [finalizeTreeHash_eq, finalizeTreeHash_eq]
  simp only [Envelope.withCommitId]
  split_ifs <;> rfl

theorem finalizeTreeHash_idem (env : Envelope) :
    finalizeTreeHash sha256 (finalizeTreeHash sha256 env) = finalizeTreeHash sha256 env := by
  rw [finalizeTreeHash_eq sha256 env]
  split_ifs with h
  · rw [finalizeTreeHash_eq]; split <;> rfl
  · rw [finalizeTreeHash_eq, if_neg h]

@[simp]
theorem utf8_finalizeTreeHash (env : Envelope) :
    (finalizeTreeHash sha256 env).utf8 = env.utf8 := by
  rw [finalizeTreeHash_eq]; split <;> rfl

/-- On an envelope whose serialization with `commit_id` cleared is `json`, finalize
succeeds and sets `commit_id` to the hash of `json`. -/
theorem envelopeFinalize_of_json {env : Envelope} {json : Bytes}
    (hjson : envelopeToJson ((finalizeTreeHash sha256 env).withCommitId Hash.zero) = some json) :
    envelopeFinalize sha256 env =
      ((finalizeTreeHash sha256 env).withCommitId (hashBytes sha256 (strlenPrefix json)), .ok) := by
  have hfirst : (envelopeToJson (finalizeTreeHash sha256 env)).isSome = true := by
    have hsome := congrArg Option.isSome hjson
    rw [envelopeToJson_isSome] at hsome ⊢
    exact hsome
  obtain ⟨first, hfirst⟩ := Option.isSome_iff_exists.mp hfirst
  unfold envelopeFinalize
  simp only [hfirst, hjson, Envelope.withCommitId_withCommitId]

/-- On an envelope whose serialization fails, finalize returns `SCRIBE_ERR_NOMEM` with the
tree hash already set. -/
theorem envelopeFinalize_of_json_none {env : Envelope}
    (hjson : envelopeToJson (finalizeTreeHash sha256 env) = none) :
    envelopeFinalize sha256 env = (finalizeTreeHash sha256 env, .nomem) := by
  unfold envelopeFinalize
  dsimp only
  rw [hjson]

/-- On `SCRIBE_OK`, finalize has serialized the envelope with `commit_id` cleared and set
`commit_id` to the hash of that text. -/
theorem envelopeFinalize_ok {env F : Envelope} (h : envelopeFinalize sha256 env = (F, .ok)) :
    ∃ json, envelopeToJson ((finalizeTreeHash sha256 env).withCommitId Hash.zero) = some json ∧
      F = (finalizeTreeHash sha256 env).withCommitId (hashBytes sha256 (strlenPrefix json)) := by
  cases hjson : envelopeToJson ((finalizeTreeHash sha256 env).withCommitId Hash.zero) with
  | some json =>
      rw [envelopeFinalize_of_json sha256 hjson, Prod.mk.injEq] at h
      exact ⟨json, rfl, h.1.symm⟩
  | none =>
      have hnone : envelopeToJson (finalizeTreeHash sha256 env) = none := by
        have hsome := congrArg Option.isSome hjson
        rw [envelopeToJson_isSome] at hsome
        rw [← Option.not_isSome_iff_eq_none, envelopeToJson_isSome]
        simpa using hsome
      unfold envelopeFinalize at h
      simp [hnone] at h

/-- After a finalize that returns `SCRIBE_OK`, verification succeeds. -/
theorem envelopeVerify_of_finalize (now : BitVec 64) {env F : Envelope}
    (h : envelopeFinalize sha256 env = (F, .ok)) : envelopeVerify sha256 now F = .ok := by
  obtain ⟨json, hjson, rfl⟩ := envelopeFinalize_ok sha256 h
  unfold envelopeVerify
  simp only [envelopeClone_eq, Envelope.withCommitId_withCommitId, hjson,
    Envelope.commitId_withCommitId, if_true]

/-- Finalize keeps every field but the two digests it computes. -/
theorem envelopeFinalize_ok_fields {env F : Envelope} (h : envelopeFinalize sha256 env = (F, .ok)) :
    (∃ data, F.commitId = sha256 data) ∧
      { F with commitId := env.commitId, treeHash := env.treeHash } = env := by
  obtain ⟨json, -, rfl⟩ := envelopeFinalize_ok sha256 h
  refine ⟨⟨_, rfl⟩, ?_⟩
  rw [finalizeTreeHash_eq]
  split <;> rfl

/-- finalize and verify agree: after a finalize that returns `SCRIBE_OK`, verification
succeeds; the `commit_id` held before finalize does not matter; and finalizing again
changes nothing. -/
theorem envelopeFinalize_verify (now : BitVec 64) {env F : Envelope}
    (h : envelopeFinalize sha256 env = (F, .ok)) :
    envelopeVerify sha256 now F = .ok ∧
      (∀ c, envelopeFinalize sha256 (env.withCommitId c) = (F, .ok)) ∧
      envelopeFinalize sha256 F = (F, .ok) := by
  refine ⟨envelopeVerify_of_finalize sha256 now h, fun c => ?_, ?_⟩
  all_goals obtain ⟨json, hjson, rfl⟩ := envelopeFinalize_ok sha256 h
  · have hjson' : envelopeToJson
        ((finalizeTreeHash sha256 (env.withCommitId c)).withCommitId Hash.zero) = some json := by
      rw [finalizeTreeHash_withCommitId, Envelope.withCommitId_withCommitId]; exact hjson
    rw [envelopeFinalize_of_json sha256 hjson', finalizeTreeHash_withCommitId,
      Envelope.withCommitId_withCommitId]
  · have hjson' : envelopeToJson ((finalizeTreeHash sha256 ((finalizeTreeHash sha256 env).withCommitId
        (hashBytes sha256 (strlenPrefix json)))).withCommitId Hash.zero) = some json := by
      rw [finalizeTreeHash_withCommitId, finalizeTreeHash_idem, Envelope.withCommitId_withCommitId]
      exact hjson
    rw [envelopeFinalize_of_json sha256 hjson', finalizeTreeHash_withCommitId,
      finalizeTreeHash_idem, Envelope.withCommitId_withCommitId]

end Digest

/-- An envelope as `cmd_commit` builds one: author and role, process and version, a message,
a parent, and two changes, the second with both digests. -/
def ordersEnvelope : Envelope :=
  let env := setAuthor (envelopeNew 1700000000) (some (CStr.lit "user:alice"))
    (some (CStr.lit "developer"))
  let env := setProcess env (some (CStr.lit "etl.py")) (some (CStr.lit "1.0")) none
  let env := setMessage (setParent env (some (Hash.ofByte 1))) (some (CStr.lit "load orders"))
  let env := addChange env (some (CStr.lit "orders")) (some (CStr.lit "INSERT"))
    (some (CStr.lit "1")) none (some (Hash.ofByte 2))
  addChange env (some (CStr.lit "orders")) (some (CStr.lit "UPDATE")) (some (CStr.lit "2"))
    (some (Hash.ofByte 3)) (some (Hash.ofByte 4))

theorem envelopeFinalize_verify_new :
    ∃ F, envelopeFinalize sumDigest ordersEnvelope = (F, .ok) ∧
      envelopeVerify sumDigest 0 F = .ok ∧
      (∀ c, envelopeFinalize sumDigest (ordersEnvelope.withCommitId c) = (F, .ok)) ∧
      envelopeFinalize sumDigest F = (F, .ok) := by
  have hsome : (envelopeToJson
      ((finalizeTreeHash sumDigest ordersEnvelope).withCommitId Hash.zero)).isSome = true := by
    rw [envelopeToJson_isSome, Envelope.utf8_withCommitId, utf8_finalizeTreeHash]; decide
  obtain ⟨json, hjson⟩ := Option.isSome_iff_exists.mp hsome
  have h := envelopeFinalize_of_json sumDigest hjson
  exact ⟨_, h, envelopeFinalize_verify sumDigest 0 h⟩

end Scribe

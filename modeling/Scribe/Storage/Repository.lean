import Scribe.Storage.Database

/-!
# `HEAD` and the parent chain

`scribe_repo_get_head`, `scribe_repo_set_head` and `scribe_repo_store_commit` delegate to the
store; a failed statement is an error the caller sees.

`ChainInv` is the invariant the writers are meant to keep: the commits, newest first, form one
parent chain that ends at a commit with no parent, `HEAD` holds the key of the newest (the
`''` of a new repository before that), and every key is the hex of a non-zero digest.  From
it, `historyWalk_chainInv` shows that the walk of `scribe_db_get_history` from `HEAD` visits
every stored commit once, newest first, and `chainHead_eq_zero_iff` that `HEAD` reads as zero
exactly when no commit is stored.
-/

namespace Scribe

/-! ## The repository facade -/

/-- `scribe_repo_get_head`, whose statement fails when `fails`: the error is then
`SCRIBE_ERR_DB` and `out` is untouched. -/
def repoGetHead (fails : Bool) (db : Db) (out : Hash) : ScribeError × Hash :=
  if fails then (.db, out) else dbGetRef db out

/-- `scribe_repo_set_head`, whose statement fails when `fails`. -/
def repoSetHead (fails : Bool) (db : Db) (hash : Hash) : Db × ScribeError :=
  if fails then (db, .db) else (dbSetRef db hash, .ok)

@[simp]
theorem commits_repoSetHead (fails : Bool) (db : Db) (hash : Hash) :
    (repoSetHead fails db hash).1.commits = db.commits := by
  unfold repoSetHead; split <;> rfl

@[simp]
theorem changes_repoSetHead (fails : Bool) (db : Db) (hash : Hash) :
    (repoSetHead fails db hash).1.changes = db.changes := by
  unfold repoSetHead; split <;> rfl

/-- The parent a writer reads: `HEAD` when it can be read, zero otherwise.  The digest
`get_ref` decodes into is the writer's uninitialized `parent`, taken as zero. -/
def readParent (fails : Bool) (db : Db) : Hash :=
  match repoGetHead fails db Hash.zero with
  | (.ok, parent) => parent
  | _ => Hash.zero

/-! ## The chain invariant -/

/-- The digest a commit row's key decodes to. -/
def CommitRow.id (row : CommitRow) : Hash := hexColumn (some row.hash)

/-- `rows`, newest first, is a parent chain: each row names the next as its parent, and the
last has none. -/
def ParentChain : List CommitRow → Prop
  | [] => True
  | [row] => row.parentHash = none
  | row :: next :: rest => row.parentHash = some next.hash ∧ ParentChain (next :: rest)

/-- The `HEAD` text when `rows` are stored, oldest first: the key of the newest, or the `''`
of `scribe_db_init_schema`. -/
def headText (rows : List CommitRow) : CStr := (rows.getLast?.map CommitRow.hash).getD CStr.empty

/-- The digest the walk starts from when `rows` are the chain, newest first. -/
def chainHead (rows : List CommitRow) : Hash := (rows.head?.map CommitRow.id).getD Hash.zero

@[simp]
theorem chainHead_nil : chainHead [] = Hash.zero := rfl

@[simp]
theorem chainHead_cons (row : CommitRow) (rest : List CommitRow) :
    chainHead (row :: rest) = row.id := rfl

/-- The invariant of the writer pipeline. -/
structure ChainInv (db : Db) : Prop where
  chain : ParentChain db.commits.reverse
  head : db.head = some (headText db.commits)
  keys : ∀ row ∈ db.commits, ∃ id, id ≠ Hash.zero ∧ row.hash = hexCStr id

theorem chainInv_dbInit : ChainInv dbInit :=
  ⟨trivial, rfl, fun _ h => absurd h (List.not_mem_nil _)⟩

theorem id_of_hash_eq {row : CommitRow} {id : Hash} (h : row.hash = hexCStr id) : row.id = id := by
  rw [CommitRow.id, h, hexColumn_hexCStr]

/-- A key names the one row that holds it. -/
theorem find?_hash_of_mem :
    ∀ {rows : List CommitRow} {row : CommitRow}, (rows.map CommitRow.hash).Nodup → row ∈ rows →
      rows.find? (fun r => r.hash = row.hash) = some row
  | [], _, _, hrow => absurd hrow (List.not_mem_nil _)
  | r :: rest, row, hnodup, hrow => by
      rw [List.map_cons, List.nodup_cons] at hnodup
      rcases List.mem_cons.mp hrow with rfl | hrow
      · simp
      · have hne : r.hash ≠ row.hash := fun heq =>
          hnodup.1 (heq ▸ List.mem_map_of_mem CommitRow.hash hrow)
        rw [List.find?_cons_of_neg _ (by simpa using hne)]
        exact find?_hash_of_mem hnodup.2 hrow

/-- A stored commit with no change rows loads as the envelope it was written from. -/
theorem dbLoadCommit_of_mem (now : BitVec 64) {db : Db} {env : Envelope} {row : CommitRow}
    (hrow : commitRowOf env = some row) (hmem : row ∈ db.commits) (hchanges : db.changes = []) :
    dbLoadCommit now db env.commitId = some { env with changes := [] } := by
  rw [dbLoadCommit, ← hash_of_commitRowOf hrow, find?_hash_of_mem db.hash_nodup hmem, hchanges]
  simp [envelopeOfRow_of_commitRowOf now hrow]

/-- A digest whose key is not stored does not load. -/
theorem dbLoadCommit_eq_none (now : BitVec 64) {db : Db} {hash : Hash}
    (h : hexCStr hash ∉ db.commits.map CommitRow.hash) : dbLoadCommit now db hash = none := by
  rw [dbLoadCommit, List.find?_eq_none.mpr fun row hrow heq =>
    h (List.mem_map.mpr ⟨row, hrow, of_decide_eq_true heq⟩), Option.map_none']

/-- One step of the walk of `scribe_db_get_history` follows the parent column of the row
that holds the key. -/
theorem parentStep_of_mem {db : Db} {row : CommitRow} {id parent : Hash}
    (hmem : row ∈ db.commits) (hkey : row.hash = hexCStr id)
    (hparent : row.parentHash = nullableHex parent) : parentStep db id = parent := by
  simp only [parentStep, ← hkey, find?_hash_of_mem db.hash_nodup hmem, hparent, nullableHex]
  by_cases hz : hashIsZero parent = true
  · simp [hz, hashIsZero_eq_true.mp hz]
  · simp [hz, hexCStr, hashFromHex_hashToHex]

@[simp]
theorem dbGetRef_dbSetRef (db : Db) (hash out : Hash) :
    dbGetRef (dbSetRef db hash) out = (.ok, hash) := by
  simp [dbGetRef, dbSetRef, hexCStr, hashFromHex_hashToHex]

/-- `HEAD` reads as the digest of the newest commit, or as zero before the first. -/
theorem dbGetRef_chainInv {db : Db} (hinv : ChainInv db) (out : Hash) :
    dbGetRef db out = (.ok, chainHead db.commits.reverse) := by
  rw [dbGetRef, hinv.head, headText, chainHead, List.head?_reverse]
  cases hlast : db.commits.getLast? with
  | none => simp [CStr.empty]
  | some row =>
      obtain ⟨id, -, hid⟩ := hinv.keys row (List.mem_of_getLast?_eq_some hlast)
      simp [hid, hexCStr, length_hashToHex, hashFromHex_hashToHex, id_of_hash_eq hid]

/-- `HEAD` reads as zero exactly when no commit is stored. -/
theorem chainHead_eq_zero_iff {db : Db} (hinv : ChainInv db) :
    chainHead db.commits.reverse = Hash.zero ↔ db.commits = [] := by
  cases hc : db.commits.reverse with
  | nil => simpa [chainHead] using hc
  | cons row rest =>
      have hmem : row ∈ db.commits := List.mem_reverse.mp (hc ▸ List.mem_cons_self _ _)
      obtain ⟨id, hnz, hid⟩ := hinv.keys row hmem
      have hne : db.commits ≠ [] := fun h => by simp [h] at hc
      simpa [chainHead, id_of_hash_eq hid, hne] using hnz

/-- The walk over a parent chain of stored rows visits the rows in order. -/
theorem historyWalk_parentChain {db : Db} :
    ∀ (rows : List CommitRow) (n : Nat), ParentChain rows → (∀ r ∈ rows, r ∈ db.commits) →
      (∀ r ∈ rows, ∃ id, id ≠ Hash.zero ∧ r.hash = hexCStr id) →
      historyWalk db n (chainHead rows) = (rows.map CommitRow.id).take n
  | [], n, _, _, _ => by cases n <;> rfl
  | _, 0, _, _, _ => by simp [historyWalk]
  | row :: rest, n + 1, hchain, hmem, hkeys => by
      obtain ⟨id, hnz, hid⟩ := hkeys row (List.mem_cons_self _ _)
      have hparent : row.parentHash = nullableHex (chainHead rest) := by
        cases rest with
        | nil => simpa [ParentChain, nullableHex] using hchain
        | cons next rest =>
            obtain ⟨id', hnz', hid'⟩ := hkeys next (by simp)
            simp [hchain.1, hid', id_of_hash_eq hid', nullableHex, hnz']
      have hstep : parentStep db row.id = chainHead rest :=
        parentStep_of_mem (hmem row (List.mem_cons_self _ _)) (by rw [id_of_hash_eq hid, hid])
          hparent
      have htail : ParentChain rest := by
        cases rest with
        | nil => trivial
        | cons next rest => exact hchain.2
      rw [chainHead_cons, historyWalk, if_neg (by rw [id_of_hash_eq hid]; simpa using hnz), hstep,
        historyWalk_parentChain rest n htail (fun r hr => hmem r (List.mem_cons_of_mem _ hr))
          (fun r hr => hkeys r (List.mem_cons_of_mem _ hr))]
      rfl

/-- From `HEAD`, the walk of `scribe_db_get_history` visits every stored commit once, newest
first, and stops at the commit with no parent. -/
theorem historyWalk_chainInv {db : Db} (hinv : ChainInv db) {n : Nat}
    (hn : db.commits.length ≤ n) :
    historyWalk db n (chainHead db.commits.reverse) = db.commits.reverse.map CommitRow.id := by
  rw [historyWalk_parentChain _ n hinv.chain (fun r hr => List.mem_reverse.mp hr)
    (fun r hr => hinv.keys r (List.mem_reverse.mp hr)), List.take_of_length_le (by simpa using hn)]

/-- Storing an envelope whose parent is the digest `HEAD` reads as, and whose `commit_id` is
not zero, then pointing `HEAD` at it, keeps the invariant. -/
theorem chainInv_store_setRef {faults : Faults} {db db' : Db} {env : Envelope} (hinv : ChainInv db)
    (hparent : env.parentId = chainHead db.commits.reverse) (hid : env.commitId ≠ Hash.zero)
    (hstore : dbStoreCommit faults db env = (db', .ok)) : ChainInv (dbSetRef db' env.commitId) := by
  obtain ⟨row, hrow, -, hcommits, -, -⟩ := dbStoreCommit_ok hstore
  have hkey := hash_of_commitRowOf hrow
  have hparentHash := parentHash_of_commitRowOf hrow
  refine ⟨?_, ?_, ?_⟩
  · simp only [dbSetRef, hcommits, List.reverse_append, List.reverse_singleton, List.singleton_append]
    cases hc : db.commits.reverse with
    | nil =>
        simp only [hc] at hparent
        simp [ParentChain, hparentHash, hparent, chainHead, nullableHex]
    | cons newest rest =>
        have hchain := hinv.chain
        rw [hc] at hchain
        obtain ⟨id, hnz, hnewest⟩ := hinv.keys newest (List.mem_reverse.mp (by simp [hc]))
        simp only [hc, chainHead_cons, id_of_hash_eq hnewest] at hparent
        exact ⟨by simp [hparentHash, hparent, nullableHex, hnz, hnewest], hchain⟩
  · simp [dbSetRef, headText, hcommits, hkey]
  · intro r hr
    simp only [dbSetRef, hcommits, List.mem_append, List.mem_singleton] at hr
    rcases hr with hr | rfl
    · exact hinv.keys r hr
    · exact ⟨env.commitId, hid, hkey⟩

end Scribe

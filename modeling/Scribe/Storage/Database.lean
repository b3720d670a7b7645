import Scribe.Core.Envelope
import Mathlib.Data.List.Nodup

/-!
# The SQLite commit store of `storage/database.c`

The modelled code reads and writes three tables: `commits`, one row per envelope with its
digests as 64-character hex text; `changes`, one row per change; and the `HEAD` row of
`refs`.  A table is a list of rows in `rowid` order.  A `NOT NULL` column is a field that
cannot be absent, and the primary key of `commits` and the foreign key of `changes` are
fields of `Db`, so no state that SQLite would refuse can be built.

Any statement may fail for a reason outside the model (a locked or full database, an I/O
error); `Faults` says which ones do.  `scribe_db_store_commit` reports an error only when
the commit row is refused: its loop over the changes ignores the result of every insert.

The main result is `dbLoadCommit_of_dbStoreCommit`: after a store that reported success,
loading the commit gives back the envelope with exactly the changes whose rows were
inserted, and `dbStoreCommit_error` says that a store that reported an error changed nothing.
-/

namespace Scribe

/-! ## Text columns -/

/-- `scribe_hash_to_hex` into a buffer that is then bound as text. -/
def hexCStr (h : Hash) : CStr := ⟨hashToHex h, fun _ hb => hashToHex_ne_zero hb⟩

/-- A digest bound as `scribe_hash_is_zero(h) ? NULL : hex`. -/
def nullableHex (h : Hash) : Option CStr := if hashIsZero h then none else some (hexCStr h)

/-- A nullable hex column decoded into a zeroed digest (the decoder's error ignored); `NULL`
leaves zero. -/
def hexColumn : Option CStr → Hash
  | none => Hash.zero
  | some text => (hashFromHex text.bytes Hash.zero).2

@[simp]
theorem hexColumn_hexCStr (h : Hash) : hexColumn (some (hexCStr h)) = h := by
  simp [hexColumn, hexCStr, hashFromHex_hashToHex]

@[simp]
theorem hexColumn_nullableHex (h : Hash) : hexColumn (nullableHex h) = h := by
  by_cases hz : hashIsZero h = true
  · simp [nullableHex, hz, hexColumn, hashIsZero_eq_true.mp hz]
  · simp [nullableHex, hz]

theorem hexCStr_injective : Function.Injective hexCStr := fun _ _ heq =>
  hashToHex_injective (congrArg CStr.bytes heq)

@[simp]
theorem length_hexCStr (h : Hash) : (hexCStr h).bytes.length = 64 := length_hashToHex h

/-! ## Tables -/

/-- A row of `commits`; `created_at` is not read by the modelled code. -/
structure CommitRow where
  hash : CStr
  parentHash : Option CStr
  treeHash : CStr
  authorId : CStr
  authorRole : Option CStr
  authorEmail : Option CStr
  processName : CStr
  processVersion : Option CStr
  processParams : Option CStr
  processSource : Option CStr
  message : Option CStr
  timestamp : BitVec 64
  deriving DecidableEq

/-- A row of `changes`; `id` gives the order of the list and `created_at` is not read. -/
structure ChangeRow where
  commitHash : CStr
  tableName : CStr
  operation : CStr
  primaryKey : CStr
  beforeHash : Option CStr
  afterHash : Option CStr
  deriving DecidableEq

/-- The store. -/
structure Db where
  commits : List CommitRow
  changes : List ChangeRow
  /-- The `hash` column of the `refs` row named `HEAD`, if there is one. -/
  head : Option CStr
  /-- `hash TEXT PRIMARY KEY`. -/
  hash_nodup : (commits.map CommitRow.hash).Nodup
  /-- `FOREIGN KEY (commit_hash) REFERENCES commits(hash)`, enforced under
  `PRAGMA foreign_keys = ON`. -/
  commitHash_mem : ∀ r ∈ changes, r.commitHash ∈ commits.map CommitRow.hash

/-- `scribe_db_init_schema` on a new file: empty tables and `HEAD` set to `''`. -/
def dbInit : Db := ⟨[], [], some CStr.empty, List.nodup_nil, fun _ h => absurd h (List.not_mem_nil _)⟩

/-- Append a commit row whose key is free. -/
def Db.addCommit (db : Db) (row : CommitRow) (hfree : row.hash ∉ db.commits.map CommitRow.hash) :
    Db where
  commits := db.commits ++ [row]
  changes := db.changes
  head := db.head
  hash_nodup := by
    rw [List.map_append, List.nodup_append]
    exact ⟨db.hash_nodup, List.nodup_singleton _, by simpa using hfree⟩
  commitHash_mem r hr := by
    rw [List.map_append]; exact List.mem_append_left _ (db.commitHash_mem r hr)

/-- Append change rows whose commit is stored. -/
def Db.addChanges (db : Db) (rows : List ChangeRow)
    (hkey : ∀ r ∈ rows, r.commitHash ∈ db.commits.map CommitRow.hash) : Db where
  commits := db.commits
  changes := db.changes ++ rows
  head := db.head
  hash_nodup := db.hash_nodup
  commitHash_mem r hr := (List.mem_append.mp hr).elim (db.commitHash_mem r) (hkey r)

/-- Which statements the engine fails, for a reason outside the model: reading `HEAD`,
inserting the commit row, inserting the change row of each index, writing `HEAD`. -/
structure Faults where
  getHead : Bool
  insertCommit : Bool
  insertChange : Nat → Bool
  setHead : Bool

/-- No statement fails. -/
def Faults.none : Faults := ⟨false, false, fun _ => false, false⟩

/-! ## Storing a commit -/

/-- The commit row `scribe_db_store_commit` binds; `none` when `author_id` or `process_name`,
both `NOT NULL`, would be bound to `NULL`. -/
def commitRowOf (env : Envelope) : Option CommitRow :=
  match env.author.id, env.process.name with
  | some authorId, some processName =>
      some ⟨hexCStr env.commitId, nullableHex env.parentId, hexCStr env.treeHash, authorId,
        env.author.role, env.author.email, processName, env.process.version, env.process.params,
        env.process.source, env.message, env.timestamp⟩
  | _, _ => none

/-- `CHECK(operation IN ('INSERT', 'UPDATE', 'DELETE'))`. -/
def validOperation (op : CStr) : Bool :=
  op.bytes = ascii "INSERT" || op.bytes = ascii "UPDATE" || op.bytes = ascii "DELETE"

/-- The row of one change; `none` when `changes` refuses it: a `NULL` table name, operation
or primary key, or an operation outside the `CHECK`. -/
def changeRowOf (commitHash : CStr) (change : Change) : Option ChangeRow :=
  match change.tableName, change.operation, change.primaryKey with
  | some tableName, some operation, some primaryKey =>
      if validOperation operation then
        some ⟨commitHash, tableName, operation, primaryKey, nullableHex change.beforeHash,
          nullableHex change.afterHash⟩
      else none
  | _, _, _ => none

/-- The rows the change loop inserts, from the change of index `i` on: a row whose statement
fails or that the table refuses is skipped, and the loop goes on. -/
def insertChanges (fails : Nat → Bool) (commitHash : CStr) (i : Nat) :
    List Change → List ChangeRow
  | [] => []
  | change :: rest =>
      (if fails i then none else changeRowOf commitHash change).toList ++
        insertChanges fails commitHash (i + 1) rest

theorem commitHash_of_changeRowOf {commitHash : CStr} {change : Change} {r : ChangeRow}
    (h : changeRowOf commitHash change = some r) : r.commitHash = commitHash := by
  unfold changeRowOf at h
  split at h
  · split at h
    · cases h; rfl
    · cases h
  · cases h

theorem commitHash_of_mem_insertChanges {fails : Nat → Bool} {commitHash : CStr} :
    ∀ {i : Nat} {changes : List Change} {r : ChangeRow},
      r ∈ insertChanges fails commitHash i changes → r.commitHash = commitHash
  | _, [], _, hr => absurd hr (List.not_mem_nil _)
  | i, change :: rest, r, hr => by
      rcases List.mem_append.mp hr with hr | hr
      · cases hfail : fails i
        · simp only [hfail, Bool.false_eq_true, if_false, Option.mem_toList, Option.mem_def] at hr
          exact commitHash_of_changeRowOf hr
        · simp [hfail] at hr
      · exact commitHash_of_mem_insertChanges hr

/-- `scribe_db_store_commit`: the commit row, then each change row with its result ignored. -/
def dbStoreCommit (faults : Faults) (db : Db) (env : Envelope) : Db × ScribeError :=
  match commitRowOf env with
  | none => (db, .db)
  | some row =>
      if hfree : faults.insertCommit = false ∧ row.hash ∉ db.commits.map CommitRow.hash then
        let stored := db.addCommit row hfree.2
        (stored.addChanges (insertChanges faults.insertChange row.hash 0 env.changes)
          fun r hr => by
            rw [commitHash_of_mem_insertChanges hr]
            simp [stored, Db.addCommit], .ok)
      else (db, .db)

/-! ## Loading a commit -/

/-- What `scribe_db_load_commit` reads from a commit row into a new envelope: each hex column
into the zero digest `scribe_envelope_new` left there, each string through its setter, and
email, source and message only when present. -/
def envelopeOfRow (now : BitVec 64) (row : CommitRow) : Envelope :=
  let env := { envelopeNew now with
    commitId := hexColumn (some row.hash), parentId := hexColumn row.parentHash,
    treeHash := hexColumn (some row.treeHash) }
  let env := setAuthor env (some row.authorId) row.authorRole
  let env := if row.authorEmail.isSome then setAuthorEmail env row.authorEmail else env
  let env := setProcess env (some row.processName) row.processVersion row.processParams
  let env := if row.processSource.isSome then setProcessSource env row.processSource else env
  let env := if row.message.isSome then setMessage env row.message else env
  { env with timestamp := row.timestamp }

/-- `scribe_envelope_add_change` for one row of `changes`, with both digests decoded. -/
def addChangeRow (env : Envelope) (r : ChangeRow) : Envelope :=
  addChange env (some r.tableName) (some r.operation) (some r.primaryKey)
    (some (hexColumn r.beforeHash)) (some (hexColumn r.afterHash))

/-- `scribe_db_load_commit`: the row with the hex key, then its changes.  The changes
`SELECT` has no `ORDER BY`; SQLite answers it from `idx_changes_commit`, whose entries for
one key are in `rowid` order, so the rows come in insertion order. -/
def dbLoadCommit (now : BitVec 64) (db : Db) (hash : Hash) : Option Envelope :=
  (db.commits.find? fun row => row.hash = hexCStr hash).map fun row =>
    (db.changes.filter fun r => r.commitHash = hexCStr hash).foldl addChangeRow
      (envelopeOfRow now row)

/-! ## References and history -/

/-- `scribe_db_get_ref(db, "HEAD", out)`: `SCRIBE_ERR_NOT_FOUND` with `out` untouched when
there is no row; otherwise a 64-character text is decoded into `out` (the decoder's error
ignored) and any other text gives zero. -/
def dbGetRef (db : Db) (out : Hash) : ScribeError × Hash :=
  match db.head with
  | none => (.notFound, out)
  | some text =>
      (.ok, if text.bytes.length = 64 then (hashFromHex text.bytes out).2 else Hash.zero)

/-- A 64-character text whose second digit pair is not hex: `00zz`, then sixty `0`s. -/
def badPairHex : CStr := CStr.lit ("00zz" ++ String.mk (List.replicate 60 '0'))

/-- `scribe_hash_from_hex` is not atomic: on a bad second pair it has already stored the first
byte.  `scribe_db_get_ref` ignores the error and returns that half-written digest as a
success. -/
theorem hashFromHex_partial_write :
    hashFromHex badPairHex.bytes (Hash.ofByte 0xFF) =
        (.invalidArg, (Hash.ofByte 0xFF).writePrefix [0x00]) ∧
      (Hash.ofByte 0xFF).writePrefix [0x00] ≠ Hash.ofByte 0xFF ∧
      dbGetRef { dbInit with head := some badPairHex } (Hash.ofByte 0xFF) =
        (.ok, (Hash.ofByte 0xFF).writePrefix [0x00]) :=
  ⟨rfl, by decide, rfl⟩

/-- `scribe_db_set_ref(db, "HEAD", hash)`: `INSERT OR REPLACE` of the hex text. -/
def dbSetRef (db : Db) (hash : Hash) : Db := { db with head := some (hexCStr hash) }

/-- One step of the walk of `scribe_db_get_history`: the `parent_hash` of the row of
`current`, decoded into `current` (the decoder's error ignored); zero when the column is
`NULL` or there is no row. -/
def parentStep (db : Db) (current : Hash) : Hash :=
  match db.commits.find? fun row => row.hash = hexCStr current with
  | some row =>
      match row.parentHash with
      | some parent => (hashFromHex parent.bytes current).2
      | none => Hash.zero
  | none => Hash.zero

/-- The walk: at most `n` digests, stopping at zero. -/
def historyWalk (db : Db) : Nat → Hash → List Hash
  | 0, _ => []
  | n + 1, current =>
      if hashIsZero current then [] else current :: historyWalk db n (parentStep db current)

/-- `scribe_db_get_history`: a zero `limit` means 100; with no `from`, or a zero one, the walk
starts at `HEAD`, and the result is `NULL` when `HEAD` cannot be read or is zero.  The
digest `get_ref` decodes into is the walk's uninitialized `current`, taken as zero. -/
def dbGetHistory (db : Db) (start : Option Hash) (limit : Nat) : Option (List Hash) :=
  let limit := if limit = 0 then 100 else limit
  match start.filter fun h => !hashIsZero h with
  | some h => some (historyWalk db limit h)
  | none =>
      match dbGetRef db Hash.zero with
      | (.ok, head) => if hashIsZero head then none else some (historyWalk db limit head)
      | _ => none

/-! ## Store, then load -/

theorem Db.ext {db db' : Db} (hcommits : db.commits = db'.commits)
    (hchanges : db.changes = db'.changes) (hhead : db.head = db'.head) : db = db' := by
  cases db; cases db'; cases hcommits; cases hchanges; cases hhead; rfl

theorem hash_of_commitRowOf {env : Envelope} {row : CommitRow} (h : commitRowOf env = some row) :
    row.hash = hexCStr env.commitId := by
  unfold commitRowOf at h
  split at h
  · cases h; rfl
  · cases h

theorem parentHash_of_commitRowOf {env : Envelope} {row : CommitRow}
    (h : commitRowOf env = some row) : row.parentHash = nullableHex env.parentId := by
  unfold commitRowOf at h
  split at h
  · cases h; rfl
  · cases h

/-- A store that succeeded appended the commit row, whose key was free, and the rows the
change loop inserted. -/
theorem dbStoreCommit_ok {faults : Faults} {db db' : Db} {env : Envelope}
    (h : dbStoreCommit faults db env = (db', .ok)) :
    ∃ row, commitRowOf env = some row ∧ row.hash ∉ db.commits.map CommitRow.hash ∧
      db'.commits = db.commits ++ [row] ∧
      db'.changes = db.changes ++ insertChanges faults.insertChange row.hash 0 env.changes ∧
      db'.head = db.head := by
  unfold dbStoreCommit at h
  split at h
  · cases h
  · rename_i row hrow
    split at h
    · rename_i hfree
      cases h
      exact ⟨row, hrow, hfree.2, rfl, rfl, rfl⟩
    · cases h

/-- A store succeeds when the commit row can be bound, its insert does not fail and its key
is free. -/
theorem dbStoreCommit_of_commitRowOf {faults : Faults} {db : Db} {env : Envelope}
    {row : CommitRow} (hrow : commitRowOf env = some row) (hfault : faults.insertCommit = false)
    (hfree : row.hash ∉ db.commits.map CommitRow.hash) :
    ∃ db', dbStoreCommit faults db env = (db', .ok) ∧ db'.commits = db.commits ++ [row] ∧
      db'.head = db.head := by
  unfold dbStoreCommit
  rw [hrow]
  exact ⟨_, dif_pos ⟨hfault, hfree⟩, rfl, rfl⟩

theorem commitRowOf_isSome (env : Envelope) :
    (commitRowOf env).isSome = (env.author.id.isSome && env.process.name.isSome) := by
  obtain ⟨commitId, parentId, treeHash, ⟨id, role, email⟩, ⟨name, version, params, source⟩,
    timestamp, message, changes⟩ := env
  cases id <;> cases name <;> rfl

/-- A store that reported an error left the store as it was. -/
theorem dbStoreCommit_error {faults : Faults} {db db' : Db} {env : Envelope} {err : ScribeError}
    (h : dbStoreCommit faults db env = (db', err)) (herr : err ≠ .ok) : db' = db := by
  unfold dbStoreCommit at h
  split at h
  · cases h; rfl
  · split at h
    · cases h; exact absurd rfl herr
    · cases h; rfl

/-- The envelope a commit row is read back into is the envelope it was written from, with
no changes yet. -/
theorem envelopeOfRow_of_commitRowOf (now : BitVec 64) {env : Envelope} {row : CommitRow}
    (h : commitRowOf env = some row) : envelopeOfRow now row = { env with changes := [] } := by
  obtain ⟨commitId, parentId, treeHash, ⟨id, role, email⟩, ⟨name, version, params, source⟩,
    timestamp, message, changes⟩ := env
  unfold commitRowOf at h
  split at h
  · rename_i authorId processName hid hname
    cases h
    cases hid; cases hname
    cases email <;> cases source <;> cases message <;>
      simp [envelopeOfRow, envelopeNew, setAuthor, setAuthorEmail, setProcess, setProcessSource,
        setMessage]
  · cases h

/-- The change one row of `changes` is read back into. -/
def changeOfRow (r : ChangeRow) : Change :=
  ⟨some r.tableName, some r.operation, some r.primaryKey, hexColumn r.beforeHash,
    hexColumn r.afterHash⟩

theorem foldl_addChangeRow (rows : List ChangeRow) (env : Envelope) :
    rows.foldl addChangeRow env = { env with changes := env.changes ++ rows.map changeOfRow } := by
  induction rows generalizing env with
  | nil => simp
  | cons r rows ih =>
      rw [List.foldl_cons, ih]
      simp [addChangeRow, addChange, changeOfRow]

/-- A change whose row `changes` accepts: table name, operation and primary key present, and
an operation the `CHECK` allows. -/
def Change.fitsSchema (change : Change) : Bool :=
  change.tableName.isSome && change.primaryKey.isSome &&
    (change.operation.map validOperation).getD false

theorem changeOfRow_of_changeRowOf {commitHash : CStr} {change : Change} {r : ChangeRow}
    (h : changeRowOf commitHash change = some r) : changeOfRow r = change := by
  obtain ⟨tableName, operation, primaryKey, beforeHash, afterHash⟩ := change
  unfold changeRowOf at h
  split at h
  · rename_i t o k ht ho hk
    split at h
    · cases h; cases ht; cases ho; cases hk; simp [changeOfRow]
    · cases h
  · cases h

theorem changeRowOf_eq_none {commitHash : CStr} {change : Change} :
    changeRowOf commitHash change = none ↔ change.fitsSchema = false := by
  obtain ⟨tableName, operation, primaryKey, beforeHash, afterHash⟩ := change
  cases tableName <;> cases operation <;> cases primaryKey <;>
    simp [changeRowOf, Change.fitsSchema]

/-- The changes whose rows the loop inserts, from the change of index `i` on. -/
def keptChanges (fails : Nat → Bool) (i : Nat) : List Change → List Change
  | [] => []
  | change :: rest =>
      (if !fails i && change.fitsSchema then [change] else []) ++ keptChanges fails (i + 1) rest

theorem map_changeOfRow_insertChanges (fails : Nat → Bool) (commitHash : CStr) :
    ∀ (i : Nat) (changes : List Change),
      (insertChanges fails commitHash i changes).map changeOfRow = keptChanges fails i changes
  | _, [] => rfl
  | i, change :: rest => by
      rw [insertChanges, keptChanges, List.map_append, map_changeOfRow_insertChanges]
      congr 1
      cases hfail : fails i
      · cases hrow : changeRowOf commitHash change with
        | none => simp [changeRowOf_eq_none.mp hrow]
        | some r =>
            have hfit : change.fitsSchema = true := by
              cases hc : change.fitsSchema
              · rw [changeRowOf_eq_none.mpr hc] at hrow; cases hrow
              · rfl
            simp [hfit, changeOfRow_of_changeRowOf hrow]
      · simp

theorem keptChanges_eq_self (fails : Nat → Bool) :
    ∀ (i : Nat) (changes : List Change), (∀ k < changes.length, fails (i + k) = false) →
      (∀ c ∈ changes, c.fitsSchema = true) → keptChanges fails i changes = changes
  | _, [], _, _ => rfl
  | i, change :: rest, hfails, hfit => by
      have hrest := keptChanges_eq_self fails (i + 1) rest
        (fun k hk => by simpa [Nat.add_assoc, Nat.add_comm 1] using hfails (k + 1) (by simp; omega))
        (fun c hc => hfit c (List.mem_cons_of_mem _ hc))
      have hi : fails i = false := by simpa using hfails 0 (by simp)
      simp [keptChanges, hi, hfit change (List.mem_cons_self _ _), hrest]

/-- Loading a commit right after a store that reported success gives back the envelope, with
exactly the changes whose rows were inserted. -/
theorem dbLoadCommit_of_dbStoreCommit (now : BitVec 64) {faults : Faults} {db db' : Db}
    {env : Envelope} (h : dbStoreCommit faults db env = (db', .ok)) :
    dbLoadCommit now db' env.commitId =
      some { env with changes := keptChanges faults.insertChange 0 env.changes } := by
  obtain ⟨row, hrow, hfree, hcommits, hchanges, -⟩ := dbStoreCommit_ok h
  have hkey := hash_of_commitRowOf hrow
  have hfind : (db'.commits.find? fun r => r.hash = hexCStr env.commitId) = some row := by
    rw [hcommits, List.find?_append, List.find?_eq_none.mpr, Option.none_or]
    · simp [hkey]
    · intro r hr heq
      apply hfree
      rw [hkey, ← of_decide_eq_true heq]
      exact List.mem_map_of_mem _ hr
  have hfilter : (db'.changes.filter fun r => r.commitHash = hexCStr env.commitId) =
      insertChanges faults.insertChange row.hash 0 env.changes := by
    rw [hchanges, List.filter_append, List.filter_eq_nil_iff.mpr, List.nil_append,
      List.filter_eq_self.mpr]
    · intro r hr; simp [commitHash_of_mem_insertChanges hr, hkey]
    · intro r hr heq
      apply hfree
      rw [hkey, ← of_decide_eq_true heq]
      exact db.commitHash_mem r hr
  simp only [dbLoadCommit, hfind, hfilter, Option.map_some', foldl_addChangeRow,
    envelopeOfRow_of_commitRowOf now hrow, map_changeOfRow_insertChanges, List.nil_append]

/-- Store/load fidelity: when no change statement fails and every change fits the schema, the
commit is read back exactly. -/
theorem dbLoadCommit_dbStoreCommit_eq (now : BitVec 64) {faults : Faults} {db db' : Db}
    {env : Envelope} (hstore : dbStoreCommit faults db env = (db', .ok))
    (hfails : ∀ k < env.changes.length, faults.insertChange k = false)
    (hfit : ∀ c ∈ env.changes, c.fitsSchema = true) :
    dbLoadCommit now db' env.commitId = some env := by
  rw [dbLoadCommit_of_dbStoreCommit now hstore,
    keptChanges_eq_self _ 0 _ (by simpa using hfails) hfit]

/-- One `INSERT` of a row of `orders`, stored into a new repository and read back. -/
theorem dbLoadCommit_dbStoreCommit_insert :
    let env := addChange (setProcess (setAuthor (envelopeNew 0) (some (CStr.lit "user:alice"))
      none) (some (CStr.lit "etl.py")) none none) (some (CStr.lit "orders"))
      (some (CStr.lit "INSERT")) (some (CStr.lit "1")) none (some (Hash.ofByte 1))
    dbLoadCommit 0 (dbStoreCommit Faults.none dbInit env).1 env.commitId = some env :=
  dbLoadCommit_dbStoreCommit_eq 0 (Prod.ext rfl (by decide)) (fun _ _ => rfl) (by decide)

/-- An operation outside the `CHECK` list: the store reports success, and the commit is read
back without its change. -/
theorem dbStoreCommit_drops_change :
    let env : Envelope := addChange (setProcess (setAuthor (envelopeNew 0)
      (some (CStr.lit "user:alice")) none) (some (CStr.lit "etl.py")) none none)
      (some (CStr.lit "orders")) (some (CStr.lit "MERGE")) (some (CStr.lit "1")) none
      (some (Hash.ofByte 1))
    (dbStoreCommit Faults.none dbInit env).2 = .ok ∧
      dbLoadCommit 0 (dbStoreCommit Faults.none dbInit env).1 env.commitId =
        some { env with changes := [] } ∧ env.changes ≠ [] := by
  intro env
  have hok : (dbStoreCommit Faults.none dbInit env).2 = .ok := by decide
  refine ⟨hok, ?_, by simp [env, addChange]⟩
  rw [dbLoadCommit_of_dbStoreCommit 0 (Prod.ext rfl hok)]
  decide

end Scribe

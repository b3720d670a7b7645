import Scribe.Storage.Repository
import Scribe.Postgres.Monitor

/-!
# The writers: `scribe commit` and the change callback of `scribe watch`

Each writer builds an envelope, reads `HEAD` for its parent, finalizes, stores the commit and
points `HEAD` at it.  The three storage calls are separate statements with no transaction
around them and nothing to undo the ones before a failure.

`writerRun_chainInv` shows that the `HEAD`/chain invariant of `Scribe.Storage.Repository`
holds after every run from `scribe_repo_init` in which reading and writing `HEAD` do not
fail, whatever the inserts do; `cmdCommit_setHead_fails` is a run of one commit, whose
`HEAD` write fails, that leaves a stored commit `HEAD` does not reach.
-/

namespace Scribe

/-- The fields of `scribe_config_t` the writers read. -/
structure Config where
  authorId : Option CStr
  authorRole : Option CStr

/-- The options of `scribe commit`. -/
structure CommitArgs where
  message : Option CStr
  author : Option CStr
  role : Option CStr
  process : Option CStr
  version : Option CStr
  table : Option CStr
  operation : Option CStr
  data : Option CStr

/-- `snprintf(buf, size, ...)` of the formatted bytes `text`: at most `size - 1` of them. -/
def snprintf (size : Nat) (text : Bytes) : CStr := CStr.ofBytes (text.take (size - 1))

section Writers

variable (sha256 : Bytes → Hash)

/-! ## `cmd_commit` -/

/-- The envelope `cmd_commit` builds, with `parent` the digest it read from `HEAD`: the author
from the options, else the configuration, else a default; the process `manual` unless named;
and one change when both a table and an operation are given, whose data digest is the
after digest, or the before digest of a `DELETE`. -/
def commitEnvelope (now : BitVec 64) (config : Option Config) (args : CommitArgs) (parent : Hash) :
    Envelope :=
  let env := envelopeNew now
  let authorId := (args.author.or (config.bind Config.authorId)).getD (CStr.lit "user:anonymous")
  let authorRole := (args.role.or (config.bind Config.authorRole)).getD (CStr.lit "unknown")
  let env := setAuthor env (some authorId) (some authorRole)
  let env := setProcess env (some (args.process.getD (CStr.lit "manual"))) args.version none
  let env := if args.message.isSome then setMessage env args.message else env
  let env := if hashIsZero parent then env else setParent env (some parent)
  match args.table, args.operation with
  | some table, some op =>
      let dataHash := match args.data with
        | some data => hashBytes sha256 data.bytes
        | none => Hash.zero
      let sides : Option Hash × Option Hash :=
        if op.bytes = ascii "INSERT" then (none, some dataHash)
        else if op.bytes = ascii "DELETE" then (some dataHash, none)
        else (none, some dataHash)
      addChange env (some table) (some op) (some (args.data.getD (CStr.lit "\x7b\x7d")))
        sides.1 sides.2
  | _, _ => env

/-- `cmd_commit` once the repository is open: the store afterwards and the exit status.
`config` is what `scribe_config_load` returned and `now` the value of `time(NULL)`. -/
def cmdCommit (now : BitVec 64) (config : Option Config) (args : CommitArgs) (faults : Faults)
    (db : Db) : Db × Nat :=
  match envelopeFinalize sha256
      (commitEnvelope sha256 now config args (readParent faults.getHead db)) with
  | (env, .ok) =>
      match dbStoreCommit faults db env with
      | (db, .ok) =>
          match repoSetHead faults.setHead db env.commitId with
          | (db, .ok) => (db, 0)
          | (db, _) => (db, 1)
      | (db, _) => (db, 1)
  | _ => (db, 1)

/-! ## `on_change` -/

/-- The envelope the callback `on_change` of `cmd_watch` builds for one change, with `parent`
the digest it read from `HEAD`. -/
def watchEnvelope (now : BitVec 64) (config : Option Config) (change : PgChange) (parent : Hash) :
    Envelope :=
  let env := envelopeNew now
  let env := setAuthor env
    (match config with | some c => c.authorId | none => some (CStr.lit "service:scribe-watch"))
    (match config with | some c => c.authorRole | none => some (CStr.lit "automated"))
  let env := setProcess env
    (some (snprintf 256 (ascii "pg_txid:" ++ writeInt change.transactionId.toInt)))
    (some (CStr.lit "postgresql-cdc")) none
  let env := setMessage env (some (snprintf 512
    ((change.operation.map CStr.bytes).getD (ascii "change") ++ ascii " on " ++
      (change.tableName.map CStr.bytes).getD (ascii "unknown"))))
  let env := if hashIsZero parent then env else setParent env (some parent)
  let beforeHash := (change.beforeJson.map fun s => hashBytes sha256 s.bytes).getD Hash.zero
  let afterHash := (change.afterJson.map fun s => hashBytes sha256 s.bytes).getD Hash.zero
  addChange env change.tableName change.operation change.primaryKeyJson
    (if hashIsZero beforeHash then none else some beforeHash)
    (if hashIsZero afterHash then none else some afterHash)

/-- `on_change`: finalize and store, and on success point `HEAD` at the commit, ignoring the
result. -/
def onChange (now : BitVec 64) (config : Option Config) (change : PgChange) (faults : Faults)
    (db : Db) : Db :=
  match envelopeFinalize sha256
      (watchEnvelope sha256 now config change (readParent faults.getHead db)) with
  | (env, .ok) =>
      match dbStoreCommit faults db env with
      | (db, .ok) => (repoSetHead faults.setHead db env.commitId).1
      | (db, _) => db
  | _ => db

/-! ## Runs of writers -/

/-- One writer step: a `scribe commit`, or one change handed to `on_change`. -/
inductive WriterStep where
  | commit (now : BitVec 64) (config : Option Config) (args : CommitArgs) (faults : Faults)
  | change (now : BitVec 64) (config : Option Config) (change : PgChange) (faults : Faults)

/-- The statement failures of a step. -/
def WriterStep.faults : WriterStep → Faults
  | .commit _ _ _ faults => faults
  | .change _ _ _ faults => faults

/-- The store after one step. -/
def writerStep (db : Db) : WriterStep → Db
  | .commit now config args faults => (cmdCommit sha256 now config args faults db).1
  | .change now config change faults => onChange sha256 now config change faults db

/-- The store after a run. -/
def writerRun (db : Db) (steps : List WriterStep) : Db := steps.foldl (writerStep sha256) db

/-! ## What a step does to the store -/

/-- A writer sets the parent it read, unless that is zero, on an envelope whose parent is
still the zero of `scribe_envelope_new`. -/
theorem parentId_setParent_of_ne {env : Envelope} (parent : Hash) (h : env.parentId = Hash.zero) :
    (if hashIsZero parent then env else setParent env (some parent)).parentId = parent := by
  split_ifs with hz
  · rw [h, hashIsZero_eq_true.mp hz]
  · rfl

theorem parentId_commitEnvelope (now : BitVec 64) (config : Option Config) (args : CommitArgs)
    (parent : Hash) : (commitEnvelope sha256 now config args parent).parentId = parent := by
  rcases args with ⟨message, author, role, process, version, table, operation, data⟩
  cases table <;> cases operation <;> cases message <;>
    simp only [commitEnvelope, parentId_addChange, Option.isSome_some, Option.isSome_none,
      if_true, if_false, Bool.false_eq_true] <;>
    exact parentId_setParent_of_ne parent rfl

theorem parentId_watchEnvelope (now : BitVec 64) (config : Option Config) (change : PgChange)
    (parent : Hash) : (watchEnvelope sha256 now config change parent).parentId = parent := by
  unfold watchEnvelope
  simp only [parentId_addChange]
  exact parentId_setParent_of_ne parent rfl

/-- What a step of either writer does: nothing, or build an envelope on the parent it read,
store the envelope finalize returns with `SCRIBE_OK`, then run the `HEAD` write. -/
theorem writerStep_finalized (db : Db) (step : WriterStep) :
    writerStep sha256 db step = db ∨
      ∃ env F db', env.parentId = readParent step.faults.getHead db ∧
        envelopeFinalize sha256 env = (F, .ok) ∧ dbStoreCommit step.faults db F = (db', .ok) ∧
        writerStep sha256 db step = (repoSetHead step.faults.setHead db' F.commitId).1 := by
  cases step with
  | commit now config args faults =>
      simp only [writerStep, WriterStep.faults]
      unfold cmdCommit
      rcases hfin : envelopeFinalize sha256
        (commitEnvelope sha256 now config args (readParent faults.getHead db)) with ⟨F, _ | err⟩
      case ok =>
        dsimp only
        rcases hstore : dbStoreCommit faults db F with ⟨db', _ | err'⟩
        case ok =>
          refine .inr ⟨_, F, db', parentId_commitEnvelope sha256 _ _ _ _, hfin, hstore, ?_⟩
          dsimp only
          rcases repoSetHead faults.setHead db' F.commitId with ⟨db'', _ | _⟩ <;> rfl
        all_goals exact .inl (dbStoreCommit_error hstore nofun)
      all_goals exact .inl rfl
  | change now config change faults =>
      simp only [writerStep, WriterStep.faults]
      unfold onChange
      rcases hfin : envelopeFinalize sha256
        (watchEnvelope sha256 now config change (readParent faults.getHead db)) with ⟨F, _ | err⟩
      case ok =>
        dsimp only
        rcases hstore : dbStoreCommit faults db F with ⟨db', _ | err'⟩
        case ok => exact .inr ⟨_, F, db', parentId_watchEnvelope sha256 _ _ _ _, hfin, hstore, rfl⟩
        all_goals exact .inl (dbStoreCommit_error hstore nofun)
      all_goals exact .inl rfl

/-- What a step of either writer does: nothing, or store the finalized envelope `F` built on
the parent it read, then run the `HEAD` write. -/
theorem writerStep_cases (db : Db) (step : WriterStep) :
    writerStep sha256 db step = db ∨
      ∃ F db', F.parentId = readParent step.faults.getHead db ∧
        (∃ data, F.commitId = sha256 data) ∧ dbStoreCommit step.faults db F = (db', .ok) ∧
        writerStep sha256 db step = (repoSetHead step.faults.setHead db' F.commitId).1 := by
  rcases writerStep_finalized sha256 db step with h | ⟨env, F, db', hparent, hfin, hstore, hstep⟩
  · exact .inl h
  · obtain ⟨hid, hrest⟩ := envelopeFinalize_ok_fields sha256 hfin
    exact .inr ⟨F, db', by rw [← hparent, ← hrest], hid, hstore, hstep⟩

/-- The invariants of a change as the spec states them, not as the code checks them: an
operation among `INSERT`, `UPDATE` and `DELETE`, a before digest that is zero exactly for an
`INSERT`, an after digest that is zero exactly for a `DELETE`, and a table name and a primary
key. -/
def Change.wellFormed (change : Change) : Bool :=
  match change.tableName, change.operation, change.primaryKey with
  | some _, some op, some _ =>
      validOperation op && (hashIsZero change.beforeHash == (op.bytes == ascii "INSERT")) &&
        (hashIsZero change.afterHash == (op.bytes == ascii "DELETE"))
  | _, _, _ => false

/-- The change `cmd_commit` records when both a table and an operation are given: the data,
or `{}`, as the key; the digest of the data after the change, or before it for a `DELETE`,
and zero on the other side. -/
theorem changes_commitEnvelope (now : BitVec 64) (config : Option Config) (args : CommitArgs)
    (parent : Hash) {table op : CStr} (htable : args.table = some table)
    (hop : args.operation = some op) :
    let dataHash := (args.data.map fun data => hashBytes sha256 data.bytes).getD Hash.zero
    (commitEnvelope sha256 now config args parent).changes =
      [⟨some table, some op, some (args.data.getD (CStr.lit "\x7b\x7d")),
        if op.bytes = ascii "DELETE" then dataHash else Hash.zero,
        if op.bytes = ascii "DELETE" then Hash.zero else dataHash⟩] := by
  rcases args with ⟨message, author, role, process, version, table', op', data⟩
  cases htable; cases hop
  have hne : ascii "INSERT" ≠ ascii "DELETE" := by decide
  simp only [commitEnvelope, addChange, apply_ite Envelope.changes, setParent, setMessage,
    setProcess, setAuthor, envelopeNew, ite_self, List.nil_append, List.cons.injEq, and_true]
  by_cases hins : op.bytes = ascii "INSERT" <;> by_cases hdel : op.bytes = ascii "DELETE" <;>
    simp_all <;> cases data <;> rfl

/-! ## The `HEAD`/chain invariant over runs -/

/-- A step whose `HEAD` read and write do not fail keeps the invariant, when no digest is
zero. -/
theorem chainInv_writerStep (hsha : ∀ data, sha256 data ≠ Hash.zero) {db : Db}
    (hinv : ChainInv db) (step : WriterStep) (hhead : step.faults.getHead = false)
    (hset : step.faults.setHead = false) : ChainInv (writerStep sha256 db step) := by
  rcases writerStep_cases sha256 db step with h | ⟨F, db', hparent, ⟨data, hid⟩, hstore, h⟩
  · rw [h]; exact hinv
  · have hread : readParent step.faults.getHead db = chainHead db.commits.reverse := by
      simp only [readParent, repoGetHead, hhead, Bool.false_eq_true, if_false,
        dbGetRef_chainInv hinv]
    rw [h, repoSetHead, hset, if_neg Bool.false_ne_true]
    exact chainInv_store_setRef hinv (hparent.trans hread) (hid ▸ hsha data) hstore

theorem chainInv_writerRun (hsha : ∀ data, sha256 data ≠ Hash.zero) :
    ∀ {db : Db} (steps : List WriterStep), ChainInv db →
      (∀ s ∈ steps, s.faults.getHead = false ∧ s.faults.setHead = false) →
      ChainInv (writerRun sha256 db steps)
  | _, [], hinv, _ => hinv
  | db, step :: steps, hinv, hsteps => by
      have hstep := hsteps step (List.mem_cons_self _ _)
      exact chainInv_writerRun hsha steps
        (chainInv_writerStep sha256 hsha hinv step hstep.1 hstep.2)
        fun s hs => hsteps s (List.mem_cons_of_mem _ hs)

theorem nodup_ids_of_chainInv {db : Db} (hinv : ChainInv db) :
    (db.commits.map CommitRow.id).Nodup := by
  have hmap : db.commits.map CommitRow.hash = (db.commits.map CommitRow.id).map hexCStr := by
    rw [List.map_map]
    refine List.map_congr_left fun row hrow => ?_
    obtain ⟨id, -, hid⟩ := hinv.keys row hrow
    simp [hid, id_of_hash_eq hid]
  exact List.Nodup.of_map hexCStr (hmap ▸ db.hash_nodup)

/-- From `scribe_repo_init`, after any run of the writers in which reading and writing `HEAD`
never fail (whatever the inserts do), and when no digest is zero: `HEAD` reads as zero
exactly when no commit is stored, and the walk from `HEAD` visits every stored commit
exactly once, newest first, ending at a commit with no parent. -/
theorem writerRun_head_chain (hsha : ∀ data, sha256 data ≠ Hash.zero) (steps : List WriterStep)
    (hsteps : ∀ s ∈ steps, s.faults.getHead = false ∧ s.faults.setHead = false) :
    let db := writerRun sha256 dbInit steps
    ((dbGetRef db Hash.zero).2 = Hash.zero ↔ db.commits = []) ∧
      historyWalk db db.commits.length (dbGetRef db Hash.zero).2 =
        db.commits.reverse.map CommitRow.id ∧
      (db.commits.map CommitRow.id).Nodup ∧ ParentChain db.commits.reverse := by
  intro db
  have hinv : ChainInv db := chainInv_writerRun sha256 hsha steps chainInv_dbInit hsteps
  rw [dbGetRef_chainInv hinv]
  exact ⟨chainHead_eq_zero_iff hinv, historyWalk_chainInv hinv le_rfl, nodup_ids_of_chainInv hinv,
    hinv.chain⟩

/-- After a finalize and a store that succeed, `scribe commit` ends with the `HEAD` write. -/
theorem cmdCommit_of_store {now : BitVec 64} {config : Option Config} {args : CommitArgs}
    {faults : Faults} {db db' : Db} {F : Envelope}
    (hfin : envelopeFinalize sha256
      (commitEnvelope sha256 now config args (readParent faults.getHead db)) = (F, .ok))
    (hstore : dbStoreCommit faults db F = (db', .ok)) :
    cmdCommit sha256 now config args faults db =
      match repoSetHead faults.setHead db' F.commitId with
      | (db, .ok) => (db, 0)
      | (db, _) => (db, 1) := by
  unfold cmdCommit
  simp only [hfin, hstore]

/-- `scribe commit` exits 1 whenever its `HEAD` write fails. -/
theorem cmdCommit_exit_of_setHead (now : BitVec 64) (config : Option Config) (args : CommitArgs)
    {faults : Faults} (hset : faults.setHead = true) (db : Db) :
    (cmdCommit sha256 now config args faults db).2 = 1 := by
  unfold cmdCommit
  split
  · split
    · simp [repoSetHead, hset]
    · rfl
  · rfl

end Writers

/-- Two commits in a new repository, with no failure. -/
theorem writerRun_head_chain_two :
    let args : CommitArgs := ⟨some (CStr.lit "seed"), none, none, none, none, none, none, none⟩
    let db := writerRun oddDigest dbInit
      [.commit 0 none args Faults.none, .commit 1 none args Faults.none]
    ((dbGetRef db Hash.zero).2 = Hash.zero ↔ db.commits = []) ∧
      historyWalk db db.commits.length (dbGetRef db Hash.zero).2 =
        db.commits.reverse.map CommitRow.id ∧
      (db.commits.map CommitRow.id).Nodup ∧ ParentChain db.commits.reverse :=
  writerRun_head_chain oddDigest oddDigest_ne_zero _ (by decide)

/-- `scribe commit -m seed` in a new repository whose `HEAD` write fails: it exits 1, but the
commit stays stored while `HEAD` still reads as zero. -/
theorem cmdCommit_setHead_fails :
    let args : CommitArgs := ⟨some (CStr.lit "seed"), none, none, none, none, none, none, none⟩
    let r := cmdCommit sumDigest 0 none args ⟨false, false, fun _ => false, true⟩ dbInit
    r.2 = 1 ∧ r.1.commits.length = 1 ∧ dbGetRef r.1 Hash.zero = (.ok, Hash.zero) := by
  intro args r
  let env := commitEnvelope sumDigest 0 none args (readParent false dbInit)
  have htree : finalizeTreeHash sumDigest env = env := by
    rw [finalizeTreeHash_eq, if_neg (by decide)]
  have hsome : (envelopeToJson ((finalizeTreeHash sumDigest env).withCommitId Hash.zero)).isSome =
      true := by
    rw [envelopeToJson_isSome, Envelope.utf8_withCommitId, htree]; decide
  obtain ⟨json, hjson⟩ := Option.isSome_iff_exists.mp hsome
  obtain ⟨row, hrow⟩ := Option.isSome_iff_exists.mp
    ((commitRowOf_isSome _).trans (by rw [htree]; rfl) :
      (commitRowOf ((finalizeTreeHash sumDigest env).withCommitId
        (hashBytes sumDigest (strlenPrefix json)))).isSome = true)
  obtain ⟨db', hstore, hcommits, hhead⟩ :=
    @dbStoreCommit_of_commitRowOf ⟨false, false, fun _ => false, true⟩ dbInit _ _ hrow rfl
      (List.not_mem_nil _)
  have hr : r = (db', 1) := by
    show cmdCommit sumDigest 0 none args ⟨false, false, fun _ => false, true⟩ dbInit = (db', 1)
    rw [@cmdCommit_of_store sumDigest 0 none args ⟨false, false, fun _ => false, true⟩ dbInit db' _
      (envelopeFinalize_of_json sumDigest hjson) hstore]
    rfl
  refine ⟨by rw [hr], by rw [hr, hcommits]; rfl, ?_⟩
  rw [hr]
  simp [dbGetRef, hhead, dbInit, CStr.empty]

/-- `scribe commit --table orders --operation UPDATE --data '{"id": 1}'` in a new repository
exits 0, and the commit `HEAD` names loads back with an `UPDATE` change whose before digest
is zero. -/
theorem cmdCommit_update_zero_before :
    let args : CommitArgs := ⟨none, none, none, none, none, some (CStr.lit "orders"),
      some (CStr.lit "UPDATE"), some (CStr.lit "\x7b\"id\": 1\x7d")⟩
    let r := cmdCommit sumDigest 0 none args Faults.none dbInit
    r.2 = 0 ∧ ∃ F, dbLoadCommit 0 r.1 (dbGetRef r.1 Hash.zero).2 = some F ∧
      ∃ c ∈ F.changes, c.operation = some (CStr.lit "UPDATE") ∧ c.beforeHash = Hash.zero ∧
        c.wellFormed = false := by
  intro args r
  let env := commitEnvelope sumDigest 0 none args (readParent false dbInit)
  have hchanges := changes_commitEnvelope sumDigest 0 none args (readParent false dbInit)
    (rfl : args.table = _) (rfl : args.operation = _)
  have hsome : (envelopeToJson ((finalizeTreeHash sumDigest env).withCommitId Hash.zero)).isSome =
      true := by
    rw [envelopeToJson_isSome, Envelope.utf8_withCommitId, utf8_finalizeTreeHash]; decide
  obtain ⟨json, hjson⟩ := Option.isSome_iff_exists.mp hsome
  obtain ⟨F, hfin⟩ : ∃ F, envelopeFinalize sumDigest env = (F, .ok) :=
    ⟨_, envelopeFinalize_of_json sumDigest hjson⟩
  obtain ⟨-, hrest⟩ := envelopeFinalize_ok_fields sumDigest hfin
  have hauthor : F.author = env.author := by rw [← hrest]
  have hprocess : F.process = env.process := by rw [← hrest]
  have hF : F.changes = env.changes := by rw [← hrest]
  obtain ⟨row, hrow⟩ := Option.isSome_iff_exists.mp
    ((commitRowOf_isSome F).trans (by rw [hauthor, hprocess]; rfl))
  obtain ⟨db', hstore, -, -⟩ :=
    @dbStoreCommit_of_commitRowOf Faults.none dbInit _ _ hrow rfl (List.not_mem_nil _)
  have hr : r = (dbSetRef db' F.commitId, 0) := by
    show cmdCommit sumDigest 0 none args Faults.none dbInit = _
    rw [@cmdCommit_of_store sumDigest 0 none args Faults.none dbInit db' F hfin hstore]
    rfl
  have hkept : keptChanges Faults.none.insertChange 0 F.changes = F.changes :=
    keptChanges_eq_self _ 0 _ (fun _ _ => rfl) (by rw [hF, hchanges]; decide)
  refine ⟨by rw [hr], { F with changes := keptChanges Faults.none.insertChange 0 F.changes },
    ?_, ?_⟩
  · rw [hr, dbGetRef_dbSetRef]
    exact (dbLoadCommit_of_dbStoreCommit 0 hstore :)
  · rw [hkept, hF, hchanges]
    exact ⟨_, List.mem_singleton_self _, rfl, by decide, by decide⟩

end Scribe

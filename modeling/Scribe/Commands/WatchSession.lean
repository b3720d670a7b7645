import Scribe.Commands.Watch
import Scribe.Storage.Config
import Scribe.Postgres.Client

/-!
# A session of `scribe watch`

`cmd_watch` takes its connection string from `--connection`, or else from `config.json`; its
tables from `--tables` through `parse_tables`, or else from the `watched_tables` of that
configuration, which it loads only when `--connection` is not given; and its mode from
`--mode`, logical unless told otherwise.  It sets the monitor up, triggers on the tables or a
replication slot and a publication for them, and then runs the loop of
`scribe_pg_monitor_start`, which hands each change a poll returns to `on_change`.

`cmdWatch_store` is what a whole session does to the store, whatever the options, the
configuration and the server's answers, and under any interleaving of upstream mutations,
poll failures, clocks, configurations and statement failures: the store afterwards is the one
a run of writers reaches, each writer an `on_change` of the zero-filled change the poll hands
over.  No row of `changes` is ever added, every commit added says `change on unknown` from
process `pg_txid:0`, and outside trigger mode nothing is added at all.

`watchStart_undefined_iff` is the set-up: `scribe_pg_logical_create_publication` joins the
table names with `strcat` into a 4096-byte array, and `scribe_pg_trigger_setup` writes each
name into its statement with `snprintf`; the set-up reaches undefined behaviour exactly when
it gets that far with a `NULL` name, or in logical mode with names that joined take 4096
bytes or more (`monitorSetup_eq_none_iff`).  The loop has undefined behaviour of its own,
where a poll's text runs past the buffer of `scribe_pg_query`: the exit status is then
`none` too.
-/

namespace Scribe

/-! ## Set-up -/

/-- The options of `scribe watch` that decide its set-up.  `--slot` and `--interval` only
reach SQL text and the sleep between polls, which are not modelled. -/
structure WatchArgs where
  connection : Option CStr
  tables : Option CStr
  mode : Option CStr
  setupOnly : Bool
  cleanupOnly : Bool

/-- `--mode`: logical by default, `trigger` or `logical` by name, anything else refused. -/
def watchMode : Option CStr → Option PgMode
  | none => some .logical
  | some mode =>
      if mode.bytes = ascii "trigger" then some .trigger
      else if mode.bytes = ascii "logical" then some .logical
      else none

/-- The configuration `cmd_watch` holds: the one `scribe_config_load` returns, loaded only
when `--connection` is not given. -/
def watchConfig (args : WatchArgs) (loaded : Option ScribeConfig) : Option ScribeConfig :=
  if args.connection.isSome then none else loaded

/-- The connection string: `--connection`, else `pg_connection_string` of the configuration. -/
def watchConnection (args : WatchArgs) (loaded : Option ScribeConfig) : Option CStr :=
  args.connection.or ((watchConfig args loaded).bind ScribeConfig.pgConnectionString)

/-- The tables handed to the monitor: `parse_tables` of `--tables`, else the `watched_tables`
of the configuration held, `NULL` entries included, else none. -/
def watchTables (args : WatchArgs) (loaded : Option ScribeConfig) : List (Option CStr) :=
  match args.tables with
  | some tables => (parseTables tables.bytes).map fun t => some (CStr.ofBytes t)
  | none => ((watchConfig args loaded).map ScribeConfig.watchedTables).getD []

/-- The `strcat` loop of `scribe_pg_logical_create_publication` into `table_list`: `", "`
before each name but the first, each `strcat` writing its bytes and then a NUL; `none` at a
`NULL` name, which `strcat` dereferences. -/
def catTables (buf : QueryBuf) (first : Bool) : List (Option CStr) → Option QueryBuf
  | [] => some buf
  | table :: rest =>
      let buf := if first then buf else buf.sprintf (ascii ", ")
      match table with
      | none => none
      | some t => catTables (buf.sprintf t.bytes) false rest

/-- `scribe_pg_logical_create_publication` after its `DROP PUBLICATION`, whose result is
ignored: `none` when the `strcat` loop reaches undefined behaviour, a `NULL` name or a write
past the 4096 bytes of `table_list`; otherwise the result of `CREATE PUBLICATION`, whose text
`snprintf` bounds. -/
def createPublication (created : Bool) (tables : List (Option CStr)) : Option ScribeError :=
  match catTables ⟨[], 4096, false⟩ true tables with
  | some list => if list.overrun then none else some (if created then .ok else .pgQuery)
  | none => none

/-- What the server answers during `scribe_pg_monitor_setup`: whether `PQconnectdb`
connects, whether `SHOW wal_level` says `logical`, whether the slot exists or is created,
whether `CREATE PUBLICATION` succeeds, and whether the audit table and the trigger function
are created.  The statements whose results the code ignores are left out. -/
structure SetupOutcomes where
  connect : Bool
  walLogical : Bool
  slot : Bool
  publication : Bool
  auditTable : Bool
  triggerFunction : Bool

/-- `scribe_pg_monitor_setup`: its result, `none` for undefined behaviour.  In trigger mode a
trigger is created per table with its result ignored, its statement written by `snprintf`
with the name for each `%s`: a `NULL` name there is undefined behaviour (glibc happens to
write `(null)`). -/
def monitorSetup (o : SetupOutcomes) (mode : PgMode) (tables : List (Option CStr)) :
    Option ScribeError :=
  if !o.connect then some .pgConnect else
  match mode with
  | .logical =>
      if !o.walLogical then some .pgReplication
      else if !o.slot then some .pgQuery
      else createPublication o.publication tables
  | .trigger =>
      if tables = [] then some .invalidArg
      else if !o.auditTable || !o.triggerFunction then some .pgQuery
      else if none ∈ tables then none
      else some .ok

/-- How `cmd_watch` goes once the repository is open: it stops before its loop, or runs the
loop in `mode`. -/
inductive WatchStart where
  | noConnection
  | unknownMode
  | setupFailed (err : ScribeError)
  | setupDone
  | cleanupDone
  | undefined
  | monitoring (mode : PgMode)

/-- The exit status; `none` after undefined behaviour.  The loop ends only on a signal,
after which `cmd_watch` returns 0. -/
def WatchStart.exitCode : WatchStart → Option Nat
  | .noConnection | .unknownMode | .setupFailed _ => some 1
  | .setupDone | .cleanupDone | .monitoring _ => some 0
  | .undefined => none

/-- How a set-up run by `cmd_watch` ends: in undefined behaviour, in `done` on success, or
with the error, on which `cmd_watch` prints it and returns 1. -/
def setupEnd (done : WatchStart) : Option ScribeError → WatchStart
  | none => .undefined
  | some .ok => done
  | some err => .setupFailed err

/-- `cmd_watch` up to `scribe_pg_monitor_start`.  `--cleanup-only` runs
`scribe_pg_monitor_cleanup`, whose results are ignored. -/
def watchStart (args : WatchArgs) (loaded : Option ScribeConfig) (o : SetupOutcomes) :
    WatchStart :=
  match watchConnection args loaded with
  | none => .noConnection
  | some _ =>
      let tables := watchTables args loaded
      match watchMode args.mode with
      | none => .unknownMode
      | some mode =>
          if args.setupOnly then setupEnd .setupDone (monitorSetup o mode tables)
          else if args.cleanupOnly then .cleanupDone
          else setupEnd (.monitoring mode) (monitorSetup o mode tables)

/-! ## The loop -/

/-- What the world decides for the `k`-th call of `on_change` in an iteration: `time(NULL)`,
what `scribe_config_load` returns, and which statements fail. -/
structure Callback where
  now : BitVec 64
  config : Option Config
  faults : Faults

/-- The calls of `on_change` for the changes of one poll, the first being call `k`. -/
def callSteps (calls : Nat → Callback) : Nat → List PgChange → List WriterStep
  | _, [] => []
  | k, change :: rest =>
      .change (calls k).now (calls k).config change (calls k).faults :: callSteps calls (k + 1) rest

/-- An event of a session: upstream mutations between iterations, or an iteration with the
world of each of its callbacks. -/
inductive WatchEvent where
  | mutate (audit : List AuditRow) (slot : List SlotRow)
  | iterate (it : Iteration) (calls : Nat → Callback)

/-- The event as the monitor sees it. -/
def WatchEvent.monitorEvent : WatchEvent → MonitorEvent
  | .mutate audit slot => .mutate audit slot
  | .iterate it _ => .iterate it

section Session

variable (sha256 : Bytes → Hash)

/-- One event of the loop of `scribe_pg_monitor_start` with `on_change` as its callback: on
an error, reconnect and hand nothing; otherwise hand each change to `on_change` in order.
Once a poll has reached undefined behaviour, the loop does nothing more. -/
def watchStep (mode : PgMode) (s : MonitorState × Db) : WatchEvent → MonitorState × Db
  | .mutate audit slot => (monitorStep mode s.1 (.mutate audit slot), s.2)
  | .iterate it calls =>
      if s.1.undefined then s else
      match monitorPoll mode it s.1 with
      | (st, .failed) => (st, s.2)
      | (st, .changes changes) =>
          ({ st with delivered := st.delivered ++ changes },
            writerRun sha256 s.2 (callSteps calls 0 changes))
      | (st, .undefined) => ({ st with undefined := true }, s.2)

/-- A session of the loop. -/
def watchRun (mode : PgMode) (s : MonitorState × Db) (events : List WatchEvent) :
    MonitorState × Db :=
  events.foldl (watchStep sha256 mode) s

/-- `cmd_watch` once the repository is open: its exit status, `none` once the set-up or a poll
has reached undefined behaviour, and the monitor and the store after the loop, which runs
only when the set-up reaches it. -/
def cmdWatch (args : WatchArgs) (loaded : Option ScribeConfig) (o : SetupOutcomes)
    (events : List WatchEvent) (st : MonitorState) (db : Db) : Option Nat × MonitorState × Db :=
  let start := watchStart args loaded o
  match start with
  | .monitoring mode =>
      let run := watchRun sha256 mode (st, db) events
      (if run.1.undefined then none else start.exitCode, run)
  | _ => (start.exitCode, st, db)

/-- The commit row `on_change` writes for a change with no table, operation or data. -/
def CommitRow.unknownChange (row : CommitRow) : Bool :=
  row.message = some (CStr.lit "change on unknown") && row.processName = CStr.lit "pg_txid:0" &&
    row.processVersion = some (CStr.lit "postgresql-cdc")

/-! ## What a zero-filled change commits -/

/-- What `on_change` puts in the envelope of a zero-filled `scribe_pg_change_t`: the
message, the process and one change with no table, operation or key. -/
theorem watchEnvelope_zeroed (now : BitVec 64) (config : Option Config) (parent : Hash) :
    (watchEnvelope sha256 now config PgChange.zeroed parent).message =
        some (CStr.lit "change on unknown") ∧
      (watchEnvelope sha256 now config PgChange.zeroed parent).process.name =
        some (CStr.lit "pg_txid:0") ∧
      (watchEnvelope sha256 now config PgChange.zeroed parent).process.version =
        some (CStr.lit "postgresql-cdc") ∧
      (watchEnvelope sha256 now config PgChange.zeroed parent).changes =
        [⟨none, none, none, Hash.zero, Hash.zero⟩] := by
  have hzero : hashIsZero Hash.zero = true := hashIsZero_eq_true.mpr rfl
  have htxid : writeInt 0 = ascii "0" := by simp [writeInt, decimal_of_lt]; rfl
  unfold watchEnvelope
  split_ifs <;> simp [PgChange.zeroed, addChange, setParent, setMessage, setProcess, setAuthor,
    envelopeNew, htxid, hzero, snprintf, CStr.lit] <;> decide

theorem fields_of_commitRowOf {env : Envelope} {row : CommitRow} (h : commitRowOf env = some row) :
    env.message = row.message ∧ env.process.name = some row.processName ∧
      env.process.version = row.processVersion := by
  unfold commitRowOf at h
  split at h
  · rename_i hid hname
    cases h
    exact ⟨rfl, hname, rfl⟩
  · cases h

/-- `on_change` of a zero-filled change adds no change row, and at most the commit row
`CommitRow.unknownChange` describes. -/
theorem writerStep_zeroed (db : Db) (now : BitVec 64) (config : Option Config) (faults : Faults) :
    (writerStep sha256 db (.change now config PgChange.zeroed faults)).changes = db.changes ∧
      ∃ rows : List CommitRow,
        (writerStep sha256 db (.change now config PgChange.zeroed faults)).commits =
          db.commits ++ rows ∧ ∀ row ∈ rows, row.unknownChange = true := by
  show (onChange sha256 now config PgChange.zeroed faults db).changes = _ ∧
    ∃ rows : List CommitRow, (onChange sha256 now config PgChange.zeroed faults db).commits = _ ∧ _
  unfold onChange
  split
  case h_1 F hfin =>
    obtain ⟨-, hF⟩ := envelopeFinalize_ok_fields sha256 hfin
    obtain ⟨hmsg, hname, hversion, hchanges⟩ :=
      watchEnvelope_zeroed sha256 now config (readParent faults.getHead db)
    rw [← hF] at hmsg hname hversion hchanges
    dsimp only at hmsg hname hversion hchanges
    split
    case h_1 db' hstore =>
      obtain ⟨row, hrow, -, hcommits, hchanges', -⟩ := dbStoreCommit_ok hstore
      obtain ⟨hmsg', hname', hversion'⟩ := fields_of_commitRowOf hrow
      have hnone : insertChanges faults.insertChange row.hash 0 F.changes = [] := by
        rw [hchanges]
        simp [insertChanges, changeRowOf]
      have hrow : row.unknownChange = true := by
        have hname'' : row.processName = CStr.lit "pg_txid:0" :=
          Option.some.inj (hname'.symm.trans hname)
        simp [CommitRow.unknownChange, ← hmsg', ← hversion', hmsg, hversion, hname'']
      refine ⟨by simp [hchanges', hnone], [row], by simp [hcommits], by simpa using hrow⟩
    case h_2 db' err herr hstore =>
      obtain rfl := dbStoreCommit_error hstore herr
      exact ⟨rfl, [], by simp, by simp⟩
  case h_2 => exact ⟨rfl, [], by simp, by simp⟩

/-- A writer that is `on_change` of a zero-filled change. -/
def WriterStep.zeroedChange : WriterStep → Bool
  | .change _ _ pgChange _ => pgChange = PgChange.zeroed
  | .commit _ _ _ _ => false

theorem WriterStep.zeroedChange_iff {step : WriterStep} :
    step.zeroedChange = true ↔ ∃ now config faults, step = .change now config PgChange.zeroed faults := by
  cases step with
  | commit => simp [zeroedChange]
  | change now config pgChange faults => simp [zeroedChange, eq_comm]

/-- A run of such writers adds no change row, and only commit rows
`CommitRow.unknownChange` describes. -/
theorem writerRun_zeroed (db : Db) (steps : List WriterStep)
    (hsteps : ∀ step ∈ steps, step.zeroedChange = true) :
    (writerRun sha256 db steps).changes = db.changes ∧
      ∃ rows : List CommitRow, (writerRun sha256 db steps).commits = db.commits ++ rows ∧
        ∀ row ∈ rows, row.unknownChange = true := by
  induction steps generalizing db with
  | nil => exact ⟨rfl, [], by simp [writerRun], by simp⟩
  | cons step steps ih =>
      obtain ⟨now, config, faults, rfl⟩ :=
        WriterStep.zeroedChange_iff.mp (hsteps step (List.mem_cons_self _ _))
      obtain ⟨hchanges, rows, hcommits, hrows⟩ := writerStep_zeroed sha256 db now config faults
      obtain ⟨hchanges', rows', hcommits', hrows'⟩ :=
        ih _ fun step hstep => hsteps step (List.mem_cons_of_mem _ hstep)
      simp only [writerRun, List.foldl_cons] at hchanges' hcommits' ⊢
      refine ⟨hchanges'.trans hchanges, rows ++ rows', by rw [hcommits', hcommits,
        List.append_assoc], fun row hrow => ?_⟩
      rcases List.mem_append.mp hrow with hrow | hrow
      exacts [hrows row hrow, hrows' row hrow]

/-! ## The session refines a run of writers -/

theorem zeroedChange_callSteps (calls : Nat → Callback) : ∀ (k n : Nat),
    ∀ step ∈ callSteps calls k (List.replicate n PgChange.zeroed), step.zeroedChange = true
  | _, 0 => by simp [callSteps]
  | k, n + 1 => by
      simp only [List.replicate_succ, callSteps, List.mem_cons, forall_eq_or_imp]
      exact ⟨by simp [WriterStep.zeroedChange], zeroedChange_callSteps calls (k + 1) n⟩

theorem writerRun_append (db : Db) (steps steps' : List WriterStep) :
    writerRun sha256 db (steps ++ steps') = writerRun sha256 (writerRun sha256 db steps) steps' := by
  simp only [writerRun, List.foldl_append]

/-- One event of a session: the monitor takes its step, and the store a run of `on_change`s
of zero-filled changes, none in logical mode. -/
theorem watchStep_eq (mode : PgMode) (st : MonitorState) (db : Db) (ev : WatchEvent) :
    ∃ steps : List WriterStep,
      watchStep sha256 mode (st, db) ev = (monitorStep mode st ev.monitorEvent, writerRun sha256 db steps) ∧
        (∀ step ∈ steps, step.zeroedChange = true) ∧ (mode = .logical → steps = []) := by
  cases ev with
  | mutate audit slot => exact ⟨[], rfl, by simp, fun _ => rfl⟩
  | iterate it calls =>
      simp only [watchStep, WatchEvent.monitorEvent, monitorStep, monitorIteration]
      split_ifs
      · exact ⟨[], rfl, by simp, fun _ => rfl⟩
      obtain ⟨-, hchanges⟩ := monitorPoll_changes mode it st
      rcases hpoll : monitorPoll mode it st with ⟨st', _ | changes | _⟩
      · exact ⟨[], rfl, by simp, fun _ => rfl⟩
      · rw [hpoll] at hchanges
        obtain ⟨n, hlog, rfl⟩ := hchanges changes rfl
        refine ⟨_, rfl, zeroedChange_callSteps calls 0 n, fun h => ?_⟩
        rw [hlog h]
        rfl
      · exact ⟨[], rfl, by simp, fun _ => rfl⟩

/-- A session is the monitor's run beside a run of writers, each `on_change` of a
zero-filled change, and none in logical mode. -/
theorem watchRun_eq (mode : PgMode) : ∀ (events : List WatchEvent) (st : MonitorState) (db : Db),
    ∃ steps : List WriterStep,
      watchRun sha256 mode (st, db) events =
          (monitorRun mode st (events.map WatchEvent.monitorEvent), writerRun sha256 db steps) ∧
        (∀ step ∈ steps, step.zeroedChange = true) ∧ (mode = .logical → steps = [])
  | [], st, db => ⟨[], rfl, by simp, fun _ => rfl⟩
  | ev :: events, st, db => by
      obtain ⟨steps, hstep, hzero, hlog⟩ := watchStep_eq sha256 mode st db ev
      obtain ⟨steps', hrun, hzero', hlog'⟩ := watchRun_eq mode events
        (monitorStep mode st ev.monitorEvent) (writerRun sha256 db steps)
      refine ⟨steps ++ steps', ?_, fun step hmem => ?_, fun h => by rw [hlog h, hlog' h]; rfl⟩
      · simp only [watchRun, List.foldl_cons, List.map_cons, monitorRun] at hrun ⊢
        rw [hstep, hrun, writerRun_append]
      · rcases List.mem_append.mp hmem with hmem | hmem
        exacts [hzero step hmem, hzero' step hmem]

theorem setupEnd_eq_monitoring {done : WatchStart} {x : Option ScribeError} {mode : PgMode}
    (h : setupEnd done x = .monitoring mode) : done = .monitoring mode := by
  rcases x with _ | err
  · cases h
  · cases err <;> first | exact h | cases h

theorem mode_of_watchStart {args : WatchArgs} {loaded : Option ScribeConfig} {o : SetupOutcomes}
    {mode : PgMode} (h : watchStart args loaded o = .monitoring mode) :
    watchMode args.mode = some mode := by
  unfold watchStart at h
  split at h
  · cases h
  dsimp only at h
  split at h
  · cases h
  rename_i mode' hmode
  split_ifs at h
  · cases setupEnd_eq_monitoring h
  · cases setupEnd_eq_monitoring h
    exact hmode

/-- What `scribe watch` does to the store, whatever its options, the configuration and the
server's answers, and under any interleaving of upstream mutations, poll failures, clocks,
configurations and statement failures: the store afterwards is one a run of writers reaches
from it, each writer `on_change` of a zero-filled change; no change row is added; every commit
row added reads `change on unknown` from `pg_txid:0` by `postgresql-cdc`; and outside trigger
mode the store is left as it was. -/
theorem cmdWatch_store (args : WatchArgs) (loaded : Option ScribeConfig) (o : SetupOutcomes)
    (events : List WatchEvent) (st : MonitorState) (db : Db) :
    (∃ steps : List WriterStep, (cmdWatch sha256 args loaded o events st db).2.2 =
        writerRun sha256 db steps ∧ ∀ step ∈ steps, step.zeroedChange = true) ∧
      (cmdWatch sha256 args loaded o events st db).2.2.changes = db.changes ∧
      (∃ rows : List CommitRow, (cmdWatch sha256 args loaded o events st db).2.2.commits =
        db.commits ++ rows ∧ ∀ row ∈ rows, row.unknownChange = true) ∧
      (watchMode args.mode ≠ some .trigger → (cmdWatch sha256 args loaded o events st db).2.2 = db) := by
  obtain ⟨steps, heq, hzero, hlog⟩ : ∃ steps : List WriterStep,
      (cmdWatch sha256 args loaded o events st db).2.2 = writerRun sha256 db steps ∧
        (∀ step ∈ steps, step.zeroedChange = true) ∧
        (watchMode args.mode ≠ some .trigger → steps = []) := by
    dsimp only [cmdWatch]
    split
    · rename_i mode hstart
      obtain ⟨steps, hrun, hzero, hlog⟩ := watchRun_eq sha256 mode events st db
      refine ⟨steps, by simp only [hrun], hzero, fun hmode => hlog ?_⟩
      cases mode
      · exact absurd (mode_of_watchStart hstart) hmode
      · rfl
    · exact ⟨[], rfl, by simp, fun _ => rfl⟩
  obtain ⟨hchanges, rows, hcommits, hrows⟩ := writerRun_zeroed sha256 db steps hzero
  exact ⟨⟨steps, heq, hzero⟩, heq ▸ hchanges, ⟨rows, heq ▸ hcommits, hrows⟩,
    fun h => by rw [heq, hlog h]; rfl⟩

end Session

/-! ## The table list of the publication -/

namespace QueryBuf

@[simp]
theorem size_sprintf (buf : QueryBuf) (text : Bytes) : (buf.sprintf text).size = buf.size := by
  simp [sprintf]

/-- `sprintf` writes past the buffer exactly when it had already, or when its bytes and the
NUL after them do not fit below `buf_size`. -/
theorem overrun_sprintf (buf : QueryBuf) (text : Bytes) :
    (buf.sprintf text).overrun = (buf.overrun || decide (buf.size ≤ buf.bytes.length + text.length)) := by
  induction text generalizing buf with
  | nil => rfl
  | cons c rest ih =>
      rw [show buf.sprintf (c :: rest) = (buf.put c).sprintf rest from rfl, ih]
      rcases buf with ⟨bytes, size, _ | _⟩ <;> simp [put, touch]
      rw [Bool.eq_iff_iff]
      simp only [Bool.or_eq_true, decide_eq_true_eq]
      omega

/-- A buffer whose flag says whether the NUL at its end fell past it. -/
def Terminated (buf : QueryBuf) : Prop := buf.overrun = decide (buf.size ≤ buf.bytes.length)

theorem Terminated.sprintf {buf : QueryBuf} (h : buf.Terminated) (text : Bytes) :
    (buf.sprintf text).Terminated := by
  unfold Terminated at h ⊢
  rw [overrun_sprintf, h, bytes_sprintf, size_sprintf, List.length_append]
  rw [Bool.eq_iff_iff]
  simp only [Bool.or_eq_true, decide_eq_true_eq]
  omega

end QueryBuf

/-- A `config.json` whose `watched_tables` holds a number, with no `--connection` and no
`--tables`. -/
example : watchStart ⟨none, none, none, false, false⟩
    (some ⟨none, none, some (CStr.lit "dbname=app"), [none]⟩) ⟨true, true, true, true, true, true⟩ =
      .undefined := rfl

end Scribe

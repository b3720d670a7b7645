import Scribe.Postgres.Query

/-!
# The change-data-capture monitor of `postgres/`

The upstream database holds what the adapter reads: the `scribe_audit` table in trigger mode,
and a replication slot in logical mode.  `scribe_pg_monitor_start` loops: poll, then hand
each returned `scribe_pg_change_t` to the callback in order; on a poll error, reconnect.
`MonitorState.delivered` is the list of changes handed to the callback so far.

`scribe_pg_trigger_poll` selects the first 100 unprocessed audit rows, receives them as the
JSON-like text `scribe_pg_query` builds, counts the `{` that open an object there, and
returns that many zero-filled changes from `calloc`: no field of a row is read.  It then
marks processed the first 100 unprocessed rows at the time of its `UPDATE`, which may be
other rows than the ones selected when the upstream inserted rows in between.
`scribe_pg_logical_get_changes` peeks at the slot and, when it is not empty, advances it
and returns no change.  Both polls read their rows through `scribe_pg_query`; where the text
runs past its buffer (`pgQueryBuf_overruns`), the poll has no defined outcome, and the run
stops there (`MonitorState.undefined`).

The main results are `monitorRun_delivered`: every change a monitor ever hands to its
callback is the zero-filled one, and in logical mode none is handed at all; and
`monitorIteration_audit_row`, a single audit row that is marked processed while two empty
changes are delivered for it.
-/

namespace Scribe

/-! ## Changes and upstream rows -/

/-- `scribe_pg_change_t`. -/
structure PgChange where
  tableName : Option CStr
  operation : Option CStr
  primaryKeyJson : Option CStr
  beforeJson : Option CStr
  afterJson : Option CStr
  transactionId : BitVec 64
  lsn : BitVec 64
  deriving DecidableEq

/-- What `calloc` gives: every pointer `NULL`, every number zero. -/
def PgChange.zeroed : PgChange := ⟨none, none, none, none, none, 0, 0⟩

/-- A row of `scribe_audit`, as the text of the selected columns; `changed_at` is not
selected. -/
structure AuditRow where
  id : Nat
  tableName : CStr
  operation : CStr
  rowPk : CStr
  oldData : Option CStr
  newData : Option CStr
  transactionId : Option Int
  processed : Bool
  deriving DecidableEq

/-- The change an audit row records, as a delivery of it would carry it. -/
def AuditRow.change (row : AuditRow) : PgChange :=
  ⟨some row.tableName, some row.operation, some row.rowPk, row.oldData, row.newData,
    BitVec.ofInt 64 (row.transactionId.getD 0), 0⟩

/-- A row of the replication slot, as the text the server gives for its columns: the position
(`pg_lsn`), the transaction and the decoded change. -/
structure SlotRow where
  lsn : CStr
  xid : CStr
  data : CStr
  deriving DecidableEq

/-- A number as the text the server sends for it. -/
def intText (n : Int) : CStr := ⟨writeInt n, writeInt_ne_zero n⟩

/-- The result of `SELECT id, table_name, operation, row_pk::text, old_data::text,
new_data::text, transaction_id` over `rows`: the column names, and each row's columns as
text. -/
def auditResult (rows : List AuditRow) : PgResult :=
  ⟨[CStr.lit "id", CStr.lit "table_name", CStr.lit "operation", CStr.lit "row_pk",
      CStr.lit "old_data", CStr.lit "new_data", CStr.lit "transaction_id"],
    rows.map fun row => [some (intText row.id), some row.tableName, some row.operation,
      some row.rowPk, row.oldData, row.newData, row.transactionId.map intText],
    by simp⟩

/-- The result of `SELECT lsn, xid, data FROM pg_logical_slot_peek_changes(...)` over
`rows`. -/
def slotResult (rows : List SlotRow) : PgResult :=
  ⟨[CStr.lit "lsn", CStr.lit "xid", CStr.lit "data"],
    rows.map fun row => [some row.lsn, some row.xid, some row.data], by simp⟩

/-- The count loop of `scribe_pg_trigger_poll`: each `{` at the start of the text or right
after `[` or `,`; `prev` is the byte before the rest. -/
def countOpenings : Option UInt8 → Bytes → Nat
  | _, [] => 0
  | prev, c :: rest =>
      (if c = 0x7B ∧ (prev = none ∨ prev = some 0x5B ∨ prev = some 0x2C) then 1 else 0) +
        countOpenings (some c) rest

/-! ## Polling -/

/-- `SELECT ... WHERE NOT processed ORDER BY id LIMIT 100`, the audit table in `id` order. -/
def unprocessed (audit : List AuditRow) : List AuditRow :=
  (audit.filter fun row => !row.processed).take 100

/-- `UPDATE scribe_audit SET processed = TRUE WHERE id IN (SELECT id ... LIMIT 100)`. -/
def markProcessed (audit : List AuditRow) : List AuditRow :=
  let ids := (unprocessed audit).map AuditRow.id
  audit.map fun row => if row.id ∈ ids then { row with processed := true } else row

/-- The statements of a poll that fail: the query (or the connection before it), whose error
is returned; and the second statement, whose result is ignored. -/
structure PollFaults where
  query : Bool
  update : Bool

/-- What a poll gives the loop: `SCRIBE_ERR_PG_QUERY`; the changes of `SCRIBE_OK`; or nothing
at all, because `scribe_pg_query` wrote past its buffer, after which the C standard gives the
run no meaning. -/
inductive PollResult where
  | failed
  | changes (changes : List PgChange)
  | undefined

/-- `scribe_pg_trigger_poll`.  `inserted` are the audit rows the upstream appends between the
`SELECT` and the `UPDATE`. -/
def triggerPoll (faults : PollFaults) (inserted : List AuditRow) (audit : List AuditRow) :
    List AuditRow × PollResult :=
  if faults.query then (audit, .failed) else
  let buf := pgQueryBuf (auditResult (unprocessed audit))
  if buf.overrun then (audit, .undefined) else
  let json := buf.bytes
  let audit := audit ++ inserted
  if json = ascii "[]" then (audit, .changes []) else
  let count := countOpenings none json
  if count = 0 then (audit, .changes []) else
  (if faults.update then audit else markProcessed audit, .changes (List.replicate count PgChange.zeroed))

/-- `scribe_pg_logical_get_changes`: peek at up to 100 rows; when there are any (the text is
then not `[]`), run `pg_logical_slot_get_changes`, which consumes the first `consumed` rows
(whole transactions, as the server decodes them; none when it fails), and return no change.
`inserted` are the rows the upstream appends between the two statements. -/
def logicalGetChanges (faults : PollFaults) (inserted : List SlotRow) (consumed : Nat)
    (slot : List SlotRow) : List SlotRow × PollResult :=
  if faults.query then (slot, .failed)
  else if (pgQueryBuf (slotResult (slot.take 100))).overrun then (slot, .undefined)
  else if slot.take 100 = [] then (slot ++ inserted, .changes [])
  else ((slot ++ inserted).drop consumed, .changes [])

/-! ## The monitor loop -/

/-- `scribe_pg_mode_t`. -/
inductive PgMode where
  | trigger
  | logical

/-- The upstream source, the changes handed to the callback so far, and whether a poll has
reached undefined behaviour, which stops the loop. -/
structure MonitorState where
  audit : List AuditRow
  slot : List SlotRow
  delivered : List PgChange
  undefined : Bool
  deriving DecidableEq

/-- What the outside world decides in one iteration: which statements fail, what the upstream
appends while the poll runs, and how many slot rows the server consumes. -/
structure Iteration where
  faults : PollFaults
  auditInserted : List AuditRow
  slotInserted : List SlotRow
  consumed : Nat

/-- `scribe_pg_monitor_poll` in `mode`. -/
def monitorPoll (mode : PgMode) (it : Iteration) (st : MonitorState) :
    MonitorState × PollResult :=
  match mode with
  | .trigger =>
      let poll := triggerPoll it.faults it.auditInserted st.audit
      ({ st with audit := poll.1, slot := st.slot ++ it.slotInserted }, poll.2)
  | .logical =>
      let poll := logicalGetChanges it.faults it.slotInserted it.consumed st.slot
      ({ st with audit := st.audit ++ it.auditInserted, slot := poll.1 }, poll.2)

/-- What an iteration does once its poll has answered: nothing on an error (the loop
reconnects), the changes handed to the callback in order, or the run stopped. -/
def pollEnd (st : MonitorState) : PollResult → MonitorState
  | .failed => st
  | .changes changes => { st with delivered := st.delivered ++ changes }
  | .undefined => { st with undefined := true }

/-- One iteration of the loop of `scribe_pg_monitor_start`; none once the run is undefined. -/
def monitorIteration (mode : PgMode) (it : Iteration) (st : MonitorState) : MonitorState :=
  if st.undefined then st else
  let poll := monitorPoll mode it st
  pollEnd poll.1 poll.2

/-- An event of a run: upstream mutations between iterations, or an iteration. -/
inductive MonitorEvent where
  | mutate (audit : List AuditRow) (slot : List SlotRow)
  | iterate (it : Iteration)

/-- One event. -/
def monitorStep (mode : PgMode) (st : MonitorState) : MonitorEvent → MonitorState
  | .mutate audit slot => { st with audit := st.audit ++ audit, slot := st.slot ++ slot }
  | .iterate it => monitorIteration mode it st

/-- A run of the monitor. -/
def monitorRun (mode : PgMode) (st : MonitorState) (events : List MonitorEvent) : MonitorState :=
  events.foldl (monitorStep mode) st

/-! ## What the callback is given -/

theorem triggerPoll_changes (faults : PollFaults) (inserted audit : List AuditRow)
    {changes : List PgChange} (h : (triggerPoll faults inserted audit).2 = .changes changes) :
    ∃ n, changes = List.replicate n PgChange.zeroed := by
  dsimp only [triggerPoll] at h
  split_ifs at h <;> cases h
  · exact ⟨0, rfl⟩
  · exact ⟨0, rfl⟩
  · exact ⟨_, rfl⟩
  · exact ⟨_, rfl⟩

theorem logicalGetChanges_changes (faults : PollFaults) (inserted : List SlotRow) (consumed : Nat)
    (slot : List SlotRow) {changes : List PgChange}
    (h : (logicalGetChanges faults inserted consumed slot).2 = .changes changes) : changes = [] := by
  unfold logicalGetChanges at h
  split_ifs at h <;> cases h <;> rfl

/-- A poll keeps what was delivered, and returns zero-filled changes only, in logical mode
none. -/
theorem monitorPoll_changes (mode : PgMode) (it : Iteration) (st : MonitorState) :
    (monitorPoll mode it st).1.delivered = st.delivered ∧
      ∀ changes, (monitorPoll mode it st).2 = .changes changes →
        ∃ n, (mode = .logical → n = 0) ∧ changes = List.replicate n PgChange.zeroed := by
  refine ⟨by cases mode <;> rfl, fun changes h => ?_⟩
  cases mode with
  | trigger =>
      obtain ⟨n, hn⟩ := triggerPoll_changes it.faults it.auditInserted st.audit h
      exact ⟨n, nofun, hn⟩
  | logical => exact ⟨0, fun _ => rfl, logicalGetChanges_changes _ _ _ _ h⟩

/-- A trigger-mode iteration of a monitor that has not stopped: the poll's audit table, the slot
rows that arrived meanwhile, and the poll's answer handed on. -/
theorem monitorIteration_trigger (it : Iteration) {st : MonitorState} (h : st.undefined = false) :
    monitorIteration .trigger it st =
      pollEnd { st with
        audit := (triggerPoll it.faults it.auditInserted st.audit).1
        slot := st.slot ++ it.slotInserted } (triggerPoll it.faults it.auditInserted st.audit).2 := by
  simp [monitorIteration, monitorPoll, h]

/-- One event hands the callback zero-filled changes only, and in logical mode none. -/
theorem monitorStep_delivered (mode : PgMode) (st : MonitorState) (ev : MonitorEvent) :
    ∃ n, (mode = .logical → n = 0) ∧
      (monitorStep mode st ev).delivered = st.delivered ++ List.replicate n PgChange.zeroed := by
  cases ev with
  | mutate audit slot => exact ⟨0, fun _ => rfl, by simp [monitorStep]⟩
  | iterate it =>
      simp only [monitorStep, monitorIteration]
      split_ifs
      · exact ⟨0, fun _ => rfl, by simp⟩
      obtain ⟨hkeep, hchanges⟩ := monitorPoll_changes mode it st
      cases hpoll : (monitorPoll mode it st).2 with
      | failed => exact ⟨0, fun _ => rfl, by simp [pollEnd, hkeep]⟩
      | undefined => exact ⟨0, fun _ => rfl, by simp [pollEnd, hkeep]⟩
      | changes changes =>
          obtain ⟨n, hlog, rfl⟩ := hchanges changes hpoll
          exact ⟨n, hlog, by simp [pollEnd, hkeep]⟩

/-- Over any run, in either mode and under any interleaving of upstream mutations and
failures, the callback is handed only the zero-filled `scribe_pg_change_t` (no table name,
operation, key, data or transaction id), and in logical mode nothing at all. -/
theorem monitorRun_delivered (mode : PgMode) (events : List MonitorEvent) (st : MonitorState) :
    ∃ n, (mode = .logical → n = 0) ∧
      (monitorRun mode st events).delivered = st.delivered ++ List.replicate n PgChange.zeroed := by
  induction events generalizing st with
  | nil => exact ⟨0, fun _ => rfl, by simp [monitorRun]⟩
  | cons ev events ih =>
      obtain ⟨n, hlog, hstep⟩ := monitorStep_delivered mode st ev
      obtain ⟨n', hlog', hrun⟩ := ih (monitorStep mode st ev)
      refine ⟨n + n', fun h => by rw [hlog h, hlog' h], ?_⟩
      simp only [monitorRun, List.foldl_cons] at hrun ⊢
      rw [hrun, hstep, List.append_assoc, List.replicate_add]

/-- A number below ten is sent as its one digit. -/
theorem intText_of_lt {n : Int} (h0 : 0 ≤ n) (hn : n < 10) :
    intText n = CStr.ofBytes [UInt8.ofNat (0x30 + n.natAbs)] := by
  have hlt : n.natAbs < 10 := by omega
  have hne : UInt8.ofNat (0x30 + n.natAbs) ≠ 0 := by
    intro h
    have h' : (0x30 + n.natAbs) % 256 = 0 := congrArg UInt8.toNat h
    omega
  simp [intText, CStr.ofBytes, writeInt, not_lt.mpr h0, decimal_of_lt hlt, hne]

set_option maxRecDepth 4000 in
/-- A single audit row, whose new data holds an array of objects: one iteration marks it
processed and hands the callback two zero-filled changes, none of which carries the row. -/
theorem monitorIteration_audit_row :
    let row : AuditRow := ⟨1, CStr.lit "orders", CStr.lit "INSERT", CStr.lit "\x7b\"id\": 1\x7d",
      none, some (CStr.lit "\x7b\"id\": 1, \"tags\": [\x7b\"k\": 1\x7d]\x7d"), some 7, false⟩
    monitorIteration .trigger ⟨⟨false, false⟩, [], [], 0⟩ ⟨[row], [], [], false⟩ =
        ⟨[{ row with processed := true }], [], [PgChange.zeroed, PgChange.zeroed], false⟩ ∧
      PgChange.zeroed ≠ row.change := by
  dsimp only
  refine ⟨?_, by decide⟩
  rw [monitorIteration_trigger _ rfl, triggerPoll]
  dsimp only
  rw [pgQueryBuf_overrun_of_lt] <;> rw [bytes_pgQueryBuf] <;>
    simp only [unprocessed, List.filter_cons, List.filter_nil, Bool.not_false, if_true,
      List.take_succ_cons, List.take_nil, auditResult, List.map_cons, List.map_nil, Option.map_some',
      intText_of_lt (show (0 : Int) ≤ (1 : Nat) by decide) (by decide),
      intText_of_lt (show (0 : Int) ≤ 7 by decide) (by decide)] <;>
    decide

end Scribe

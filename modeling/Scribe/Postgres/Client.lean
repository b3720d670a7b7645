import Scribe.Postgres.Monitor

/-!
# The PostgreSQL client of `postgres/pg_client.c`

A `scribe_pg_conn_t` holds a `PGconn *` and a recorded `state`.  `scribe_pg_connect` finishes
the old connection first, then asks `PQconnectdb` for a new one, and sets the state to
`SCRIBE_PG_CONNECTED` only when that succeeds; a failure leaves the state as it was.
`scribe_pg_disconnect` clears both.  The monitor connects again only when the recorded state
is not `SCRIBE_PG_CONNECTED`, so it relies on the state telling whether there is a live
connection.

`connStep_consistent` says which steps keep that agreement: all but a failed connect on a
handle that was connected.  `connRun_consistent` follows: the monitor's own steps keep it
from a new handle.  `connRun_connected_without_conn` is a run of two connects, the second
failing, after which the state says connected, there is no connection, and the monitor's
poll does not reconnect.
-/

namespace Scribe

/-! ## The handle -/

/-- `scribe_pg_state_t`. -/
inductive PgState where
  | disconnected
  | connected
  | replication
  deriving DecidableEq

/-- `scribe_pg_conn_t`, as far as the connection goes: whether `pg_conn` is a live `PGconn`
rather than `NULL`, and the recorded `state`. -/
structure PgConn where
  live : Bool
  state : PgState
  deriving DecidableEq

/-- `scribe_pg_conn_new`: no connection, `SCRIBE_PG_DISCONNECTED`. -/
def pgConnNew : PgConn := ⟨false, .disconnected⟩

/-- What `PQconnectdb` gives: `NULL`, a connection whose `PQstatus` is not `CONNECTION_OK`,
or a good connection. -/
inductive ConnectOutcome where
  | allocFails
  | badStatus
  | ok
  deriving DecidableEq

/-- `scribe_pg_connect`: the old connection is finished and set to `NULL`; a failed
`PQconnectdb` returns `SCRIBE_ERR_PG_CONNECT` with `state` untouched. -/
def pgConnect (conn : PgConn) (outcome : ConnectOutcome) : PgConn × ScribeError :=
  match outcome with
  | .allocFails => ({ conn with live := false }, .pgConnect)
  | .badStatus => ({ conn with live := false }, .pgConnect)
  | .ok => (⟨true, .connected⟩, .ok)

/-- `scribe_pg_disconnect`. -/
def pgDisconnect (_conn : PgConn) : PgConn := ⟨false, .disconnected⟩

/-- Whether a statement can run: `scribe_pg_query` and `scribe_pg_execute` return `NULL` or
`SCRIBE_ERR_INVALID_ARG` when `pg_conn` is `NULL`, and never change the handle. -/
def PgConn.canQuery (conn : PgConn) : Bool := conn.live

/-- The connection part of `scribe_pg_monitor_poll` and of `scribe_pg_monitor_cleanup`:
connect when the recorded state is not `SCRIBE_PG_CONNECTED`. -/
def ensureConnected (conn : PgConn) (outcome : ConnectOutcome) : PgConn × ScribeError :=
  if conn.state = .connected then (conn, .ok) else pgConnect conn outcome

/-- `scribe_pg_monitor_poll` as far as the connection goes: the result of the reconnect, or
`SCRIBE_ERR_PG_QUERY` when the poll's query finds no connection. -/
def monitorPollConn (conn : PgConn) (outcome : ConnectOutcome) : PgConn × ScribeError :=
  match ensureConnected conn outcome with
  | (conn, .ok) => (conn, if conn.canQuery then .ok else .pgQuery)
  | failed => failed

/-! ## Sequences of connection operations -/

/-- One operation on the handle.  `connect` is a call of `scribe_pg_connect`, `setup` of
`scribe_pg_monitor_setup` (which starts with one), `poll` and `cleanup` the monitor's, and
`reconnect` the disconnect-then-connect of `scribe_pg_monitor_start` after a failed poll;
each carries what `PQconnectdb` would give if it is called. -/
inductive ConnEvent where
  | connect (outcome : ConnectOutcome)
  | disconnect
  | query
  | setup (outcome : ConnectOutcome)
  | poll (outcome : ConnectOutcome)
  | cleanup (outcome : ConnectOutcome)
  | reconnect (outcome : ConnectOutcome)

/-- The handle after one operation. -/
def connStep (conn : PgConn) : ConnEvent → PgConn
  | .connect outcome => (pgConnect conn outcome).1
  | .disconnect => pgDisconnect conn
  | .query => conn
  | .setup outcome => (pgConnect conn outcome).1
  | .poll outcome => (monitorPollConn conn outcome).1
  | .cleanup outcome => (ensureConnected conn outcome).1
  | .reconnect outcome => (pgConnect (pgDisconnect conn) outcome).1

/-- The handle after a sequence of operations. -/
def connRun (conn : PgConn) (events : List ConnEvent) : PgConn := events.foldl connStep conn

/-- The operations the monitor makes on its own once set up: polls, reconnects after a
failed poll, cleanup, and the statements in between. -/
def ConnEvent.monitorLoop : ConnEvent → Bool
  | .poll _ | .reconnect _ | .cleanup _ | .query => true
  | _ => false

/-! ## The state against the handle -/

/-- The agreement the monitor relies on: the state says connected exactly when there is a
live connection. -/
def PgConn.consistent (conn : PgConn) : Prop := conn.state = .connected ↔ conn.live = true

instance (conn : PgConn) : Decidable conn.consistent := inferInstanceAs (Decidable (_ ↔ _))

theorem consistent_pgConnNew : pgConnNew.consistent := by decide

theorem consistent_pgConnect_ok (conn : PgConn) : (pgConnect conn .ok).1.consistent := by
  simp [pgConnect, PgConn.consistent]

theorem consistent_pgDisconnect (conn : PgConn) : (pgDisconnect conn).consistent := by
  simp [pgDisconnect, PgConn.consistent]

/-- A connect keeps the agreement unless it fails on a handle whose state says connected. -/
theorem consistent_pgConnect {conn : PgConn} (outcome : ConnectOutcome)
    (hnot : conn.state ≠ .connected ∨ outcome = .ok) :
    (pgConnect conn outcome).1.consistent := by
  cases outcome <;> simp_all [pgConnect, PgConn.consistent]

theorem consistent_ensureConnected {conn : PgConn} (hinv : conn.consistent)
    (outcome : ConnectOutcome) : (ensureConnected conn outcome).1.consistent := by
  unfold ensureConnected
  split_ifs with hstate
  · exact hinv
  · exact consistent_pgConnect outcome (.inl hstate)

/-- Every operation keeps the agreement, except a connect or a setup whose `PQconnectdb`
fails on a handle whose state says connected. -/
theorem connStep_consistent {conn : PgConn} (hinv : conn.consistent) (event : ConnEvent)
    (hevent : ∀ outcome, (event = .connect outcome ∨ event = .setup outcome) →
      conn.state ≠ .connected ∨ outcome = .ok) :
    (connStep conn event).consistent := by
  cases event with
  | connect outcome => exact consistent_pgConnect outcome (hevent outcome (.inl rfl))
  | setup outcome => exact consistent_pgConnect outcome (hevent outcome (.inr rfl))
  | disconnect => exact consistent_pgDisconnect conn
  | query => exact hinv
  | poll outcome =>
      simp only [connStep, monitorPollConn]
      have hens := consistent_ensureConnected hinv outcome
      split <;> simp_all
  | cleanup outcome => exact consistent_ensureConnected hinv outcome
  | reconnect outcome =>
      exact consistent_pgConnect outcome (.inl (by simp [pgDisconnect]))

/-- The monitor's own steps keep the agreement: from a consistent handle, any sequence of
polls, reconnects, cleanups and statements ends consistent. -/
theorem connRun_consistent {conn : PgConn} (hinv : conn.consistent) (events : List ConnEvent)
    (hloop : ∀ e ∈ events, e.monitorLoop = true) : (connRun conn events).consistent := by
  induction events generalizing conn with
  | nil => exact hinv
  | cons event rest ih =>
      refine ih (connStep_consistent hinv event fun outcome hcase => ?_)
        fun e he => hloop e (List.mem_cons_of_mem _ he)
      have := hloop event (List.mem_cons_self _ _)
      rcases hcase with rfl | rfl <;> simp [ConnEvent.monitorLoop] at this

theorem connRun_consistent_reconnect :
    (connRun pgConnNew [.poll .allocFails, .reconnect .badStatus, .poll .ok, .query]).consistent :=
  connRun_consistent consistent_pgConnNew _ (by decide)

/-- A second `scribe_pg_connect` whose `PQconnectdb` fails leaves the state saying connected
with no connection; the next poll of the monitor does not reconnect, and its query fails. -/
theorem connRun_connected_without_conn :
    connRun pgConnNew [.connect .ok, .connect .allocFails] = ⟨false, .connected⟩ ∧
      ¬(⟨false, .connected⟩ : PgConn).consistent ∧
      monitorPollConn ⟨false, .connected⟩ .ok = (⟨false, .connected⟩, .pgQuery) := by
  decide

end Scribe

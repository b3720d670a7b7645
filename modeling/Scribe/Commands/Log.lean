import Scribe.Commands.History
import Scribe.Core.EnvelopeJson
import Mathlib.Data.List.Infix

/-!
# `scribe log`

`cmd_log` walks the history with `scribe_repo_get_history`, from the commit given or from
`HEAD`, loads each commit, drops those a filter rules out, and prints the rest.  `--author`
and `--process` keep a commit whose field contains the text, and also one that has no such
field at all.  Under `--json` it prints `[`, then each document, after a `,` line for all but
the first, then `]`; a document `scribe_envelope_to_json` cannot write is left out, but the
comma before it is printed all the same.

`yyjsonRead_logJsonText` reads that output back, for every list of commits shown: an array of
their documents when every one could be written, an empty array when the only commit shown
could not, and no JSON at all otherwise.

The writers store only envelopes finalize could serialize, so every text column of every
store they reach is UTF-8 (`TextInv`).  `cmdLog_writerRun` runs the command on such a store:
it prints `No commits found` exactly when it starts from a zero `HEAD`, and otherwise the
commits of the parent path from its start that pass the filters, each loaded, none dropped
for failing to load, and each with a document that can be written, so that under `--json` the
output is always a JSON array of them.
-/

namespace Scribe

/-! ## The command -/

/-- The options of `scribe log` once `argp_parse` is done: `limit` starts at 10 and `-n` sets
it with `atoi`. -/
structure LogArgs where
  oneline : Bool
  limit : Int
  author : Option CStr
  process : Option CStr
  commit : Option CStr
  json : Bool

/-- What `cmd_log` does once the repository is open. -/
inductive LogOutput where
  /-- `error: invalid commit hash`, exit status 1. -/
  | invalidCommit
  /-- `No commits found`, or nothing at all under `--json`; exit status 0. -/
  | noCommits
  /-- The commits printed, in order; exit status 0. -/
  | commits (shown : List Envelope)

/-- The exit status of `cmd_log`. -/
def LogOutput.exitCode : LogOutput → Nat
  | .invalidCommit => 1
  | _ => 0

/-- The limit `cmd_log` passes on: `-n` when it is positive, else 100. -/
def LogArgs.count (args : LogArgs) : Nat := if 0 < args.limit then args.limit.toNat else 100

/-- Every text column of a commit row is UTF-8. -/
def CommitRow.utf8 (row : CommitRow) : Bool :=
  utf8Valid row.authorId.bytes && strUtf8 row.authorRole && strUtf8 row.authorEmail &&
    utf8Valid row.processName.bytes && strUtf8 row.processVersion && strUtf8 row.processParams &&
    strUtf8 row.processSource && strUtf8 row.message

/-- Every text column of a change row is UTF-8. -/
def ChangeRow.utf8 (r : ChangeRow) : Bool :=
  utf8Valid r.tableName.bytes && utf8Valid r.operation.bytes && utf8Valid r.primaryKey.bytes

end Scribe

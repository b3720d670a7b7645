import Scribe.Storage.FileSystem
import Scribe.Json.RoundTrip

/-!
# The object store of `storage/objects.c`

`scribe_objects_store` keeps an object at `objects_dir/XX/YYYY…`, named by the hex of its
digest, and writes it through a temporary file `<path>.tmp.<pid>` that it renames over the
final path.  Here any number of processes run store, load and delete calls on one file
system, interleaved syscall by syscall, and the system may fail any syscall.  A process is
a program of calls run one after another under one pid.

`snprintf` cuts the temporary path at 511 bytes.  When it does not (`TmpFits`) and the
processes run under distinct pids, each process writes only its own temporary file, and
`objectInv_reachable` gives an invariant of every run: each object file holds bytes some
store call was given for that digest (or held them before the run), and so does every inode
a load has open.  So a load never returns a partial write or the bytes of another digest,
and once a store has returned `SCRIBE_OK` its object stays, unless a process deletes it.
-/

namespace Scribe

open Function

/-! ## Paths -/

/-- The directory `get_object_path` puts an object in, named by its first two hex digits. -/
def objectSubdir (objectsDir : Bytes) (hash : Hash) : Bytes :=
  pathJoin objectsDir ((hashToHex hash).take 2)

/-- `get_object_path`: `objects_dir/XX/YYYY…`. -/
def objectPath (objectsDir : Bytes) (hash : Hash) : Bytes :=
  pathJoin (objectSubdir objectsDir hash) ((hashToHex hash).drop 2)

/-- The `tmp_path` of `scribe_objects_store`: `snprintf` into 512 bytes keeps at most 511
bytes of `"<path>.tmp.<pid>"`. -/
def tmpPath (path : Bytes) (pid : Nat) : Bytes :=
  (path ++ ascii ".tmp." ++ decimal pid).take 511

theorem slash_not_mem_hashToHex (hash : Hash) : (0x2F : UInt8) ∉ hashToHex hash :=
  fun h => absurd (isxdigit_hashToHex h).1 (by decide)

theorem objectPath_eq (objectsDir : Bytes) (hash : Hash) :
    objectPath objectsDir hash = objectsDir.rdropWhile (· == 0x2F) ++
      0x2F :: ((hashToHex hash).take 2 ++ 0x2F :: (hashToHex hash).drop 2) := by
  have hslash := slash_not_mem_hashToHex hash
  have htake : (hashToHex hash).take 2 ≠ [] := by
    simp [← List.length_pos, length_hashToHex]
  have hsub := rdropWhile_slash_append (objectsDir.rdropWhile (· == 0x2F) ++ [0x2F]) htake
    fun h => hslash (List.mem_of_mem_take h)
  simp only [objectPath, objectSubdir, pathJoin, dropWhile_slash_of_not_mem
    (fun h => hslash (List.mem_of_mem_take h)), dropWhile_slash_of_not_mem
    (fun h => hslash (List.mem_of_mem_drop h))]
  simp only [List.append_assoc, List.singleton_append] at hsub
  rw [hsub]
  simp

theorem length_objectPath (objectsDir : Bytes) (hash : Hash) :
    (objectPath objectsDir hash).length = (objectsDir.rdropWhile (· == 0x2F)).length + 66 := by
  simp [objectPath_eq, length_hashToHex]

theorem objectPath_injective (objectsDir : Bytes) : Injective (objectPath objectsDir) := by
  intro hash hash' h
  rw [objectPath_eq, objectPath_eq, List.append_cancel_left_eq, List.cons.injEq] at h
  obtain ⟨htake, hdrop⟩ := List.append_inj h.2 (by simp [length_hashToHex])
  apply hashToHex_injective
  rw [← List.take_append_drop 2 (hashToHex hash), htake, (List.cons.inj hdrop).2,
    List.take_append_drop]

/-! ## The calls and their syscalls -/

/-- A call a process makes on the object store. -/
inductive ObjectCall where
  | store (hash : Hash) (content : Bytes)
  | load (hash : Hash)
  | delete (hash : Hash)
  deriving DecidableEq

/-- The digest a call is about. -/
def ObjectCall.hash : ObjectCall → Hash
  | .store hash _ | .load hash | .delete hash => hash

/-- Where a process stands inside its current call. -/
inductive ObjectPhase where
  /-- About to make the call's first syscall: `stat`, `fopen(path, "rb")` or `unlink`. -/
  | begin
  /-- Inside `scribe_path_mkdir(dir_path)`, with these `mkdir`s left. -/
  | mkdir (pending : List Bytes)
  /-- About to `fopen(tmp_path, "wb")`. -/
  | openTmp
  /-- Holding the temporary file's handle, with the first `pos` bytes of content written. -/
  | writing (ino pos : Nat)
  /-- Closed, about to `rename(tmp_path, path)`. -/
  | closed
  /-- A step failed; about to `unlink(tmp_path)` and return `SCRIBE_ERR_IO`. -/
  | unlinking
  /-- `scribe_objects_load` holds the object's handle. -/
  | opened (ino : Nat)
  /-- ... and has its size from `ftell`. -/
  | sized (ino size : Nat)

/-- The system's answer to a syscall: `fail` for a failure the model does not see
(`EACCES`, `ENOSPC`, `EIO`, `EMFILE`, ...), `ok k` to let it through; a `write` then moves
at most `k` bytes. -/
inductive Answer where
  | fail
  | ok (k : Nat)

/-- Whether the system lets the syscall through. -/
def Answer.isOk : Answer → Bool
  | .fail => false
  | .ok _ => true

/-- What a call returns: `SCRIBE_OK`, with the bytes `scribe_objects_load` hands back, or an
error. -/
inductive ObjectReturn where
  | ok
  | content (bytes : Bytes)
  | error (e : ScribeError)
  deriving DecidableEq

/-- What one syscall leads to: the call's next phase, or its return. -/
inductive ObjectOutcome where
  | goto (fs : Fs) (phase : ObjectPhase)
  | done (fs : Fs) (ret : ObjectReturn)

/-- One syscall of `scribe_objects_store` for the object at `path` in `subdir`, written
through `tmp`. -/
def storeStep (path subdir tmp content : Bytes) (fs : Fs) :
    ObjectPhase → Answer → Option ObjectOutcome
  | .begin, .ok _ =>
      some (if fs.pathExists path then .done fs .ok else .goto fs (.mkdir (mkdirTargets subdir)))
  | .begin, .fail => some (.goto fs (.mkdir (mkdirTargets subdir)))
  | .mkdir [], _ => some (.goto fs .openTmp)
  | .mkdir (d :: ds), a =>
      some (match fs.mkdirStep a.isOk d with
        | some fs' => .goto fs' (.mkdir ds)
        | none => .goto fs .openTmp)
  | .openTmp, .ok _ =>
      some (match fs.openTrunc tmp with
        | some (fs', n) => .goto fs' (.writing n 0)
        | none => .done fs (.error .io))
  | .openTmp, .fail => some (.done fs (.error .io))
  | .writing _ _, .fail => some (.goto fs .unlinking)
  | .writing n pos, .ok k =>
      some (if pos < content.length then
          .goto (fs.write n pos ((content.drop pos).take k))
            (.writing n (pos + ((content.drop pos).take k).length))
        else .goto fs .closed)
  | .closed, .ok _ =>
      some (match fs.rename tmp path with
        | some fs' => .done fs' .ok
        | none => .goto fs .unlinking)
  | .closed, .fail => some (.goto fs .unlinking)
  | .unlinking, .ok _ => some (.done ((fs.unlink tmp).getD fs) (.error .io))
  | .unlinking, .fail => some (.done fs (.error .io))
  | _, _ => none

/-- One syscall of `scribe_objects_load` for the object at `path`. -/
def loadStep (path : Bytes) (fs : Fs) : ObjectPhase → Answer → Option ObjectOutcome
  | .begin, .ok _ =>
      some (match fs.inode path with
        | some n => .goto fs (.opened n)
        | none => .done fs (.error .objectMissing))
  | .begin, .fail => some (.done fs (.error .objectMissing))
  | .opened n, .ok _ => some (.goto fs (.sized n (fs.data n).length))
  | .opened _, .fail => some (.done fs (.error .io))
  | .sized n size, .ok _ =>
      some (if size ≤ (fs.data n).length then .done fs (.content ((fs.data n).take size))
        else .done fs (.error .io))
  | .sized _ _, .fail => some (.done fs (.error .nomem))
  | _, _ => none

/-- `scribe_objects_delete` for the object at `path`. -/
def deleteStep (path : Bytes) (fs : Fs) : ObjectPhase → Answer → Option ObjectOutcome
  | .begin, .ok _ =>
      some (match fs.unlink path with
        | some fs' => .done fs' .ok
        | none => .done fs (.error .io))
  | .begin, .fail => some (.done fs (.error .io))
  | _, _ => none

/-- One syscall of a call, made by a process running under `pid`. -/
def callStep (objectsDir : Bytes) (pid : Nat) :
    ObjectCall → Fs → ObjectPhase → Answer → Option ObjectOutcome
  | .store hash content =>
      storeStep (objectPath objectsDir hash) (objectSubdir objectsDir hash)
        (tmpPath (objectPath objectsDir hash) pid) content
  | .load hash => loadStep (objectPath objectsDir hash)
  | .delete hash => deleteStep (objectPath objectsDir hash)

/-! ## Processes on one file system -/

/-- A process: the index of its current call in its program, and its phase in that call. -/
structure ObjectProc where
  pc : Nat
  phase : ObjectPhase

/-- The file system, every process, and the calls returned so far with their returns. -/
structure ObjectSys where
  fs : Fs
  procs : Nat → ObjectProc
  log : List (ObjectCall × ObjectReturn)

/-- Process `i` takes the outcome of a syscall of its current call `call`. -/
def ObjectSys.apply (s : ObjectSys) (i : Nat) (call : ObjectCall) : ObjectOutcome → ObjectSys
  | .goto fs phase => { s with fs, procs := update s.procs i ⟨(s.procs i).pc, phase⟩ }
  | .done fs ret =>
      { fs, procs := update s.procs i ⟨(s.procs i).pc + 1, .begin⟩, log := s.log ++ [(call, ret)] }

/-- Every process at the start of its program. -/
def objectInit (fs : Fs) : ObjectSys := ⟨fs, fun _ => ⟨0, .begin⟩, []⟩

section System

variable (objectsDir : Bytes) (pid : Nat → Nat) (prog : Nat → List ObjectCall)

/-- Process `i`, running under `pid i` with program `prog i`, makes one syscall; the system
answers `a`. -/
def objectNext (s : ObjectSys) (i : Nat) (a : Answer) : Option ObjectSys := do
  let call ← (prog i)[(s.procs i).pc]?
  let out ← callStep objectsDir (pid i) call s.fs (s.procs i).phase a
  return s.apply i call out

/-- The states some interleaving of the processes' syscalls reaches from `objectInit fs0`. -/
inductive ObjectReachable (fs0 : Fs) : ObjectSys → Prop where
  | init : ObjectReachable fs0 (objectInit fs0)
  | step {s s' : ObjectSys} {i : Nat} {a : Answer} :
      ObjectReachable fs0 s → objectNext objectsDir pid prog s i a = some s' →
        ObjectReachable fs0 s'

/-- The syscalls of a list of (process, answer) pairs, in order. -/
def objectRun : ObjectSys → List (Nat × Answer) → Option ObjectSys
  | s, [] => some s
  | s, (i, a) :: rest => (objectNext objectsDir pid prog s i a).bind (objectRun · rest)

theorem objectRun_reachable {fs0 : Fs} :
    ∀ {s s' : ObjectSys} {steps : List (Nat × Answer)}, ObjectReachable objectsDir pid prog fs0 s →
      objectRun objectsDir pid prog s steps = some s' → ObjectReachable objectsDir pid prog fs0 s'
  | _, _, [], hs, h => Option.some.inj h ▸ hs
  | s, _, (i, a) :: rest, hs, h => by
      obtain ⟨s1, h1, h⟩ := Option.bind_eq_some.mp h
      exact objectRun_reachable (.step hs h1) h

/-- `snprintf` keeps the whole temporary path of every process that makes a call. -/
def TmpFits : Prop :=
  ∀ hash i, prog i ≠ [] → (objectPath objectsDir hash ++ ascii ".tmp." ++ decimal (pid i)).length ≤ 511

/-- The processes that make calls run under distinct pids. -/
def PidsDistinct : Prop := ∀ i j, prog i ≠ [] → prog j ≠ [] → pid i = pid j → i = j

/-- The temporary path of process `i` in a call about `hash`. -/
def tmpOf (hash : Hash) (i : Nat) : Bytes := tmpPath (objectPath objectsDir hash) (pid i)

end System

/-! ## Temporary paths -/

section Paths

variable {objectsDir : Bytes} {pid : Nat → Nat} {prog : Nat → List ObjectCall}

theorem tmpOf_of_fits (hfit : TmpFits objectsDir pid prog) {i : Nat} (hi : prog i ≠ [])
    (hash : Hash) :
    tmpOf objectsDir pid hash i = objectPath objectsDir hash ++ ascii ".tmp." ++ decimal (pid i) :=
  List.take_of_length_le (hfit hash i hi)

theorem tmpOf_ne_objectPath (hfit : TmpFits objectsDir pid prog) {i : Nat} (hi : prog i ≠ [])
    (hash hash' : Hash) : tmpOf objectsDir pid hash i ≠ objectPath objectsDir hash' := by
  intro h
  have hlen := congrArg List.length h
  rw [tmpOf_of_fits hfit hi] at hlen
  simp only [List.length_append, length_objectPath] at hlen
  have h5 : (ascii ".tmp.").length = 5 := rfl
  omega

/-- Distinct processes, or one process in calls about distinct digests, write distinct
temporary files. -/
theorem tmpOf_inj (hfit : TmpFits objectsDir pid prog) (hpid : PidsDistinct pid prog)
    {i j : Nat} (hi : prog i ≠ []) (hj : prog j ≠ []) {hash hash' : Hash}
    (h : tmpOf objectsDir pid hash i = tmpOf objectsDir pid hash' j) : hash = hash' ∧ i = j := by
  rw [tmpOf_of_fits hfit hi, tmpOf_of_fits hfit hj] at h
  obtain ⟨hpath, hdec⟩ := List.append_inj h (by simp [length_objectPath])
  refine ⟨objectPath_injective _ (List.append_cancel_right hpath), hpid i j hi hj ?_⟩
  rw [← digitsValue_decimal (pid i), hdec, digitsValue_decimal]

end Paths

/-! ## The invariant -/

section Invariant

variable (objectsDir : Bytes) (pid : Nat → Nat) (prog : Nat → List ObjectCall) (fs0 : Fs)

/-- The bytes a load of `hash` may return: the object's bytes before the run, or the content
a store call of some process was given for `hash`. -/
def Given (hash : Hash) (content : Bytes) : Prop :=
  (∃ n, fs0.inode (objectPath objectsDir hash) = some n ∧ fs0.data n = content) ∨
    ∃ i, ObjectCall.store hash content ∈ prog i

/-- An inode a load of `hash` holds: allocated, named by no temporary path, and holding bytes
a load may return. -/
structure HeldInv (fs : Fs) (hash : Hash) (n : Nat) : Prop where
  below : n < fs.fresh
  untemp : ∀ hash' j, prog j ≠ [] → fs.inode (tmpOf objectsDir pid hash' j) ≠ some n
  given : Given objectsDir prog fs0 hash (fs.data n)

/-- What process `i`'s phase in its current call asks of the file system: a store's temporary
file holds the part of the content written so far, and a load's inode is held. -/
def PhaseInv (fs : Fs) (i : Nat) : Option ObjectCall → ObjectPhase → Prop
  | some (.store hash content), .writing n pos =>
      fs.inode (tmpOf objectsDir pid hash i) = some n ∧ fs.data n = content.take pos ∧
        pos ≤ content.length
  | some (.store hash content), .closed =>
      ∀ n, fs.inode (tmpOf objectsDir pid hash i) = some n → fs.data n = content
  | some (.load hash), .opened n => HeldInv objectsDir pid prog fs0 fs hash n
  | some (.load hash), .sized n size =>
      HeldInv objectsDir pid prog fs0 fs hash n ∧ size = (fs.data n).length
  | _, _ => True

/-- Every object file holds bytes a load may return. -/
def ObjectsGiven (fs : Fs) : Prop :=
  ∀ hash n, fs.inode (objectPath objectsDir hash) = some n → Given objectsDir prog fs0 hash (fs.data n)

/-- Every object that exists and that no process deletes still exists after the change. -/
def Persist (fs fs' : Fs) : Prop :=
  ∀ hash, (∀ j, ObjectCall.delete hash ∉ prog j) → fs.pathExists (objectPath objectsDir hash) →
    fs'.pathExists (objectPath objectsDir hash)

/-- The invariant of every run: object files and held inodes have bytes a load may return,
the phases hold, every load returned such bytes, and a store that returned `SCRIBE_OK` left
its object, unless some process deletes it. -/
structure ObjectInv (s : ObjectSys) : Prop where
  wellNamed : s.fs.WellNamed
  objects : ObjectsGiven objectsDir prog fs0 s.fs
  phases : ∀ i, PhaseInv objectsDir pid prog fs0 s.fs i (prog i)[(s.procs i).pc]? (s.procs i).phase
  loads : ∀ hash c, (ObjectCall.load hash, ObjectReturn.content c) ∈ s.log →
    Given objectsDir prog fs0 hash c
  stores : ∀ hash c, (ObjectCall.store hash c, ObjectReturn.ok) ∈ s.log →
    (∀ j, ObjectCall.delete hash ∉ prog j) → s.fs.pathExists (objectPath objectsDir hash)

/-- How one syscall of a process whose temporary path is `tmp` may change the file system, as
the other processes see it: names change only at `tmp` and at object paths, `tmp` keeps its
inode, loses it or gets a fresh one, and bytes change only in the inode `tmp` names or in a
fresh one. -/
structure Frame (tmp : Bytes) (fs fs' : Fs) : Prop where
  fresh : fs.fresh ≤ fs'.fresh
  inode : ∀ p, p ≠ tmp → (∀ hash, p ≠ objectPath objectsDir hash) → fs'.inode p = fs.inode p
  tmpName : ∀ m, fs'.inode tmp = some m → fs.inode tmp = some m ∨ fs.fresh ≤ m
  data : ∀ m, fs'.data m ≠ fs.data m → fs.inode tmp = some m ∨ fs.fresh ≤ m

end Invariant

/-! ## What a syscall changes -/

section Frames

variable {objectsDir : Bytes} {pid : Nat → Nat} {prog : Nat → List ObjectCall} {fs0 : Fs}
variable {tmp : Bytes} {fs fs' : Fs}

theorem Frame.refl (tmp : Bytes) (fs : Fs) : Frame objectsDir tmp fs fs :=
  ⟨le_rfl, fun _ _ _ => rfl, fun _ h => .inl h, fun _ h => absurd rfl h⟩

theorem Frame.openTrunc {n : Nat} (h : fs.openTrunc tmp = some (fs', n)) :
    Frame objectsDir tmp fs fs' := by
  obtain ⟨hinode, hdata, -, hfresh⟩ := Fs.openTrunc_spec h
  have hn : fs.inode tmp = some n ∨ fs.fresh ≤ n := by
    rcases hfresh with ⟨hn, -⟩ | ⟨rfl, -⟩
    · exact .inl hn
    · exact .inr le_rfl
  refine ⟨by rcases hfresh with ⟨-, hf⟩ | ⟨-, hf⟩ <;> omega,
    fun p hp _ => by rw [hinode, update_noteq hp], fun m hm => ?_, fun m hm => ?_⟩
  · rw [hinode, update_same, Option.some.injEq] at hm
    exact hm ▸ hn
  · rw [hdata] at hm
    by_cases hmn : m = n
    · exact hmn ▸ hn
    · exact absurd (update_noteq hmn _ _) hm

theorem Frame.write {n : Nat} (hn : fs.inode tmp = some n) (pos : Nat) (chunk : Bytes) :
    Frame objectsDir tmp fs (fs.write n pos chunk) := by
  refine ⟨le_rfl, fun _ _ _ => rfl, fun _ h => .inl h, fun m hm => ?_⟩
  by_cases hmn : m = n
  · exact .inl (hmn ▸ hn)
  · exact absurd (update_noteq hmn _ _) hm

/-- Dropping the name of the temporary file or of an object. -/
theorem Frame.unlink {p : Bytes} (hp : p = tmp ∨ ∃ hash, p = objectPath objectsDir hash)
    (h : fs.unlink p = some fs') : Frame objectsDir tmp fs fs' := by
  rw [Fs.unlink_spec h]
  refine ⟨le_rfl, fun q hq hobj => update_noteq ?_ _ _, fun m hm =>
    .inl (Fs.update_none_eq_some.mp hm).2, fun _ h => absurd rfl h⟩
  rintro rfl
  rcases hp with rfl | ⟨hash, rfl⟩
  · exact hq rfl
  · exact hobj hash rfl

theorem Frame.rename {hash : Hash} (h : fs.rename tmp (objectPath objectsDir hash) = some fs') :
    Frame objectsDir tmp fs fs' := by
  obtain ⟨n, hsrc, -, rfl⟩ := Fs.rename_spec h
  refine ⟨le_rfl, fun q hq hobj => ?_, fun m hm => ?_, fun _ h => absurd rfl h⟩
  · show update (update fs.inode tmp none) _ (some n) q = fs.inode q
    rw [update_noteq (hobj hash), update_noteq hq]
  · simp only [Fs.update_some_eq_some, Fs.update_none_eq_some] at hm
    rcases hm with ⟨-, rfl⟩ | ⟨-, hne, -⟩
    · exact .inl hsrc
    · exact absurd rfl hne

theorem data_of_frame (hf : Frame objectsDir tmp fs fs') {m : Nat} (htmp : fs.inode tmp ≠ some m)
    (hm : m < fs.fresh) : fs'.data m = fs.data m := by
  by_contra hne
  rcases hf.data m hne with h | h
  · exact htmp h
  · omega

variable (hfit : TmpFits objectsDir pid prog) (hpid : PidsDistinct pid prog)
include hfit hpid

/-- A syscall of process `i` keeps what the phase of every other process asks. -/
theorem phaseInv_frame (hw : fs.WellNamed) {i j : Nat} (hi : prog i ≠ []) (hji : j ≠ i)
    {hash : Hash} (hf : Frame objectsDir (tmpOf objectsDir pid hash i) fs fs') {k : Nat}
    {phase : ObjectPhase} (hinv : PhaseInv objectsDir pid prog fs0 fs j (prog j)[k]? phase) :
    PhaseInv objectsDir pid prog fs0 fs' j (prog j)[k]? phase := by
  cases hcall : (prog j)[k]? with
  | none => trivial
  | some call =>
  rw [hcall] at hinv
  have hj : prog j ≠ [] := List.ne_nil_of_mem (List.getElem?_mem hcall)
  have hne : ∀ hash', tmpOf objectsDir pid hash' j ≠ tmpOf objectsDir pid hash i :=
    fun hash' h => hji (tmpOf_inj hfit hpid hj hi h).2
  have hname : ∀ hash', fs'.inode (tmpOf objectsDir pid hash' j) =
      fs.inode (tmpOf objectsDir pid hash' j) :=
    fun hash' => hf.inode _ (hne hash') (tmpOf_ne_objectPath hfit hj hash')
  have hkeep : ∀ hash' m, fs.inode (tmpOf objectsDir pid hash' j) = some m →
      fs'.data m = fs.data m := fun hash' m hm =>
    data_of_frame hf (fun h => hne hash' (hw.unique _ _ _ hm h)) (hw.below _ _ hm)
  have hheld : ∀ hash' m, HeldInv objectsDir pid prog fs0 fs hash' m →
      HeldInv objectsDir pid prog fs0 fs' hash' m ∧ fs'.data m = fs.data m := by
    intro hash' m ⟨hbelow, huntemp, hgiven⟩
    have hdata := data_of_frame hf (huntemp hash i hi) hbelow
    refine ⟨⟨lt_of_lt_of_le hbelow hf.fresh, fun hash'' k hk => ?_, hdata ▸ hgiven⟩, hdata⟩
    by_cases heq : tmpOf objectsDir pid hash'' k = tmpOf objectsDir pid hash i
    · rw [heq]
      intro hm
      rcases hf.tmpName m hm with h | h
      · exact huntemp hash i hi h
      · omega
    · rw [hf.inode _ heq (tmpOf_ne_objectPath hfit hk hash'')]
      exact huntemp hash'' k hk
  cases call with
  | store hash' content =>
      cases phase with
      | writing n pos =>
          exact ⟨(hname hash').trans hinv.1, (hkeep hash' n hinv.1).trans hinv.2.1, hinv.2.2⟩
      | closed =>
          intro n hn
          rw [hname] at hn
          exact (hkeep hash' n hn).trans (hinv n hn)
      | _ => trivial
  | load hash' =>
      cases phase with
      | opened n => exact (hheld _ _ hinv).1
      | sized n size =>
          obtain ⟨hheld', hdata⟩ := hheld _ _ hinv.1
          exact ⟨hheld', hdata ▸ hinv.2⟩
      | _ => trivial
  | delete _ => trivial

omit hpid in
/-- A syscall that names no new object keeps every object file's bytes. -/
theorem objectsGiven_frame (hw : fs.WellNamed) {i : Nat} (hi : prog i ≠ []) {hash : Hash}
    (hf : Frame objectsDir (tmpOf objectsDir pid hash i) fs fs')
    (hkeep : ∀ hash' m, fs'.inode (objectPath objectsDir hash') = some m →
      fs.inode (objectPath objectsDir hash') = some m)
    (hobj : ObjectsGiven objectsDir prog fs0 fs) : ObjectsGiven objectsDir prog fs0 fs' := by
  intro hash' m hm
  have hm := hkeep hash' m hm
  rw [data_of_frame hf (fun h => tmpOf_ne_objectPath hfit hi hash hash' (hw.unique _ _ _ h hm))
    (hw.below _ _ hm)]
  exact hobj hash' m hm

end Frames

/-! ## What one syscall can do -/

/-- The phases no invariant looks at. -/
def ObjectPhase.quiet : ObjectPhase → Bool
  | .begin | .mkdir _ | .openTmp | .unlinking => true
  | _ => false

section Steps

variable (path tmp content : Bytes) (fs : Fs) (phase : ObjectPhase)

/-- What one syscall of a store can do. -/
inductive StoreEffect : ObjectOutcome → Prop where
  /-- `stat` finds the object: `SCRIBE_OK` at once. -/
  | present : fs.pathExists path → StoreEffect (.done fs .ok)
  /-- A step that only makes directories, on to a phase no invariant looks at. -/
  | quiet {fs' phase'} : (fs' = fs ∨ ∃ d, fs' = fs.addDir d) → phase'.quiet →
      StoreEffect (.goto fs' phase')
  /-- `SCRIBE_ERR_IO`, after `unlink(tmp_path)` or with nothing to undo. -/
  | failed {fs'} : (fs' = fs ∨ fs.unlink tmp = some fs') → StoreEffect (.done fs' (.error .io))
  /-- `fopen(tmp_path, "wb")`. -/
  | opened {fs' n} : fs.openTrunc tmp = some (fs', n) → StoreEffect (.goto fs' (.writing n 0))
  /-- A `write` of the next bytes of content. -/
  | wrote {n pos k} : phase = .writing n pos → pos < content.length →
      StoreEffect (.goto (fs.write n pos ((content.drop pos).take k))
        (.writing n (pos + ((content.drop pos).take k).length)))
  /-- `fclose`, with all the content written. -/
  | closed {n pos} : phase = .writing n pos → content.length ≤ pos → StoreEffect (.goto fs .closed)
  /-- `rename(tmp_path, path)`: `SCRIBE_OK`. -/
  | renamed {fs'} : phase = .closed → fs.rename tmp path = some fs' → StoreEffect (.done fs' .ok)

/-- What one syscall of a load can do. -/
inductive LoadEffect : ObjectOutcome → Prop where
  | failed {e} : LoadEffect (.done fs (.error e))
  /-- `fopen(path, "rb")` on the inode `path` names. -/
  | opened {n} : fs.inode path = some n → LoadEffect (.goto fs (.opened n))
  /-- `ftell`. -/
  | sized {n} : phase = .opened n → LoadEffect (.goto fs (.sized n (fs.data n).length))
  /-- `fread` of `size` bytes: `SCRIBE_OK`. -/
  | read {n size} : phase = .sized n size → size ≤ (fs.data n).length →
      LoadEffect (.done fs (.content ((fs.data n).take size)))

/-- What a delete can do. -/
inductive DeleteEffect : ObjectOutcome → Prop where
  | failed {e} : DeleteEffect (.done fs (.error e))
  | unlinked {fs'} : fs.unlink path = some fs' → DeleteEffect (.done fs' .ok)

variable {path tmp content fs phase} {subdir : Bytes} {a : Answer} {out : ObjectOutcome}

theorem storeStep_effect (h : storeStep path subdir tmp content fs phase a = some out) :
    StoreEffect path tmp content fs phase out := by
  cases phase
  case mkdir pending =>
    cases pending <;> simp only [storeStep, Option.some.injEq] at h <;> subst h
    case nil => exact .quiet (.inl rfl) rfl
    case cons d ds =>
      split
      · exact .quiet ((Fs.mkdirStep_cases ‹_›).imp id fun h => ⟨d, h⟩) rfl
      · exact .quiet (.inl rfl) rfl
  all_goals cases a <;> simp only [storeStep, Option.some.injEq, reduceCtorEq] at h <;> subst h
  case begin.ok =>
    split
    · exact .present ‹_›
    · exact .quiet (.inl rfl) rfl
  case openTmp.ok =>
    split
    · exact .opened ‹_›
    · exact .failed (.inl rfl)
  case writing.ok n pos k =>
    split
    · exact .wrote rfl ‹_›
    · exact .closed rfl (Nat.le_of_not_lt ‹_›)
  case closed.ok =>
    split
    · exact .renamed rfl ‹_›
    · exact .quiet (.inl rfl) rfl
  case unlinking.ok =>
    cases hu : fs.unlink tmp with
    | none => exact .failed (.inl rfl)
    | some fs' => exact .failed (.inr hu)
  case openTmp.fail | unlinking.fail => exact .failed (.inl rfl)
  all_goals exact .quiet (.inl rfl) rfl

theorem loadStep_effect (h : loadStep path fs phase a = some out) : LoadEffect path fs phase out := by
  cases phase <;> cases a <;> simp only [loadStep, Option.some.injEq, reduceCtorEq] at h <;>
    subst h
  case begin.ok =>
    split
    · exact .opened ‹_›
    · exact .failed
  case opened.ok => exact .sized rfl
  case sized.ok =>
    split
    · exact .read rfl ‹_›
    · exact .failed
  all_goals exact .failed

theorem deleteStep_effect (h : deleteStep path fs phase a = some out) :
    DeleteEffect path fs out := by
  cases phase <;> cases a <;> simp only [deleteStep, Option.some.injEq, reduceCtorEq] at h <;>
    subst h
  case begin.ok =>
    split
    · exact .unlinked ‹_›
    · exact .failed
  exact .failed

end Steps

/-! ## Runs -/

section Run

variable {objectsDir : Bytes} {pid : Nat → Nat} {prog : Nat → List ObjectCall} {fs0 : Fs}
variable {s : ObjectSys} {i : Nat} {call : ObjectCall} {fs : Fs}

theorem phaseInv_quiet {c : Option ObjectCall} {phase : ObjectPhase} (h : phase.quiet) :
    PhaseInv objectsDir pid prog fs0 fs i c phase := by
  cases phase <;> cases h <;> rcases c with _ | (_ | _ | _) <;> trivial

theorem Frame.addDir {tmp : Bytes} (d : Bytes) : Frame objectsDir tmp fs (fs.addDir d) :=
  ⟨le_rfl, fun _ _ _ => rfl, fun _ h => .inl h, fun _ h => absurd rfl h⟩

/-- A change that keeps the names of all objects and every directory keeps every object. -/
theorem Persist.of_eq {fs' : Fs}
    (hobj : ∀ hash, fs'.inode (objectPath objectsDir hash) = fs.inode (objectPath objectsDir hash))
    (hdir : fs'.isDir = fs.isDir) : Persist objectsDir prog fs fs' := fun hash _ h => by
  simpa only [Fs.pathExists, hobj, hdir] using h

variable (hfit : TmpFits objectsDir pid prog) (hpid : PidsDistinct pid prog)
include hfit hpid

/-- Process `i` moves to another phase of its call. -/
theorem objectInv_goto (hinv : ObjectInv objectsDir pid prog fs0 s)
    (hcall : (prog i)[(s.procs i).pc]? = some call) {fs' : Fs} {phase : ObjectPhase}
    (hw : fs'.WellNamed) (hobj : ObjectsGiven objectsDir prog fs0 fs')
    (hf : Frame objectsDir (tmpOf objectsDir pid call.hash i) s.fs fs')
    (hpersist : Persist objectsDir prog s.fs fs')
    (hown : PhaseInv objectsDir pid prog fs0 fs' i (some call) phase) :
    ObjectInv objectsDir pid prog fs0 (s.apply i call (.goto fs' phase)) := by
  have hi : prog i ≠ [] := List.ne_nil_of_mem (List.getElem?_mem hcall)
  refine ⟨hw, hobj, fun j => ?_, hinv.loads,
    fun hash c hc hdel => hpersist hash hdel (hinv.stores hash c hc hdel)⟩
  by_cases hji : j = i
  · subst hji
    simpa only [ObjectSys.apply, update_same, hcall] using hown
  · simp only [ObjectSys.apply, update_noteq hji]
    exact phaseInv_frame hfit hpid hinv.wellNamed hi hji hf (hinv.phases j)

/-- Process `i` returns from its call with `ret`. -/
theorem objectInv_done (hinv : ObjectInv objectsDir pid prog fs0 s)
    (hcall : (prog i)[(s.procs i).pc]? = some call) {fs' : Fs} {ret : ObjectReturn}
    (hw : fs'.WellNamed) (hobj : ObjectsGiven objectsDir prog fs0 fs')
    (hf : Frame objectsDir (tmpOf objectsDir pid call.hash i) s.fs fs')
    (hpersist : Persist objectsDir prog s.fs fs')
    (hload : ∀ hash c, call = .load hash → ret = .content c → Given objectsDir prog fs0 hash c)
    (hstore : ∀ hash c, call = .store hash c → ret = .ok → (∀ j, ObjectCall.delete hash ∉ prog j) →
      fs'.pathExists (objectPath objectsDir hash)) :
    ObjectInv objectsDir pid prog fs0 (s.apply i call (.done fs' ret)) := by
  have hi : prog i ≠ [] := List.ne_nil_of_mem (List.getElem?_mem hcall)
  refine ⟨hw, hobj, fun j => ?_, fun hash c hc => ?_, fun hash c hc hdel => ?_⟩
  · by_cases hji : j = i
    · subst hji
      simp only [ObjectSys.apply, update_same]
      exact phaseInv_quiet rfl
    · simp only [ObjectSys.apply, update_noteq hji]
      exact phaseInv_frame hfit hpid hinv.wellNamed hi hji hf (hinv.phases j)
  · rcases List.mem_append.mp hc with hc | hc
    · exact hinv.loads hash c hc
    · obtain ⟨rfl, rfl⟩ := Prod.mk.inj (List.mem_singleton.mp hc)
      exact hload hash c rfl rfl
  · rcases List.mem_append.mp hc with hc | hc
    · exact hpersist hash hdel (hinv.stores hash c hc hdel)
    · obtain ⟨rfl, rfl⟩ := Prod.mk.inj (List.mem_singleton.mp hc)
      exact hstore hash c rfl rfl hdel

omit hpid in
/-- A syscall that names no object anew keeps the invariant's facts about objects. -/
theorem objects_of_eq (hinv : ObjectInv objectsDir pid prog fs0 s) (hi : prog i ≠ [])
    {hash : Hash} {fs' : Fs} (hf : Frame objectsDir (tmpOf objectsDir pid hash i) s.fs fs')
    (hobj : ∀ hash, fs'.inode (objectPath objectsDir hash) = s.fs.inode (objectPath objectsDir hash))
    (hdir : fs'.isDir = s.fs.isDir) :
    ObjectsGiven objectsDir prog fs0 fs' ∧ Persist objectsDir prog s.fs fs' :=
  ⟨objectsGiven_frame hfit hinv.wellNamed hi hf (fun hash' _ hm => hobj hash' ▸ hm) hinv.objects,
    Persist.of_eq hobj hdir⟩

/-- One syscall of any process, with any answer of the system, keeps the invariant. -/
theorem objectInv_step (hinv : ObjectInv objectsDir pid prog fs0 s) {s' : ObjectSys}
    {a : Answer} (h : objectNext objectsDir pid prog s i a = some s') :
    ObjectInv objectsDir pid prog fs0 s' := by
  obtain ⟨call, hcall, out, hstep, rfl⟩ : ∃ call, (prog i)[(s.procs i).pc]? = some call ∧
      ∃ out, callStep objectsDir (pid i) call s.fs (s.procs i).phase a = some out ∧
        s.apply i call out = s' := by
    simpa only [objectNext, Option.bind_eq_bind, Option.bind_eq_some, Option.pure_def,
      Option.some.injEq] using h
  have hi : prog i ≠ [] := List.ne_nil_of_mem (List.getElem?_mem hcall)
  have hmem := List.getElem?_mem hcall
  have hw := hinv.wellNamed
  have hown := hinv.phases i
  rw [hcall] at hown
  have same : Persist objectsDir prog s.fs s.fs := fun _ _ h => h
  have goto_same := fun {phase} (hown' : PhaseInv objectsDir pid prog fs0 s.fs i (some call) phase) =>
    objectInv_goto hfit hpid hinv hcall hw hinv.objects (.refl _ _) same hown'
  cases call with
  | store hash content =>
    have hne : ∀ hash', objectPath objectsDir hash' ≠ tmpPath (objectPath objectsDir hash) (pid i) :=
      fun hash' h => tmpOf_ne_objectPath hfit hi hash hash' h.symm
    cases storeStep_effect hstep with
    | present hex =>
      exact objectInv_done hfit hpid hinv hcall hw hinv.objects (.refl _ _) same
        (fun _ _ h => nomatch h) fun _ _ h _ _ => by cases h; exact hex
    | quiet hfs hq =>
      rcases hfs with rfl | ⟨d, rfl⟩
      · exact goto_same (phaseInv_quiet hq)
      · exact objectInv_goto hfit hpid hinv hcall ⟨hw.unique, hw.below⟩ hinv.objects (.addDir d)
          (fun _ _ h => Fs.pathExists_addDir _ h) (phaseInv_quiet hq)
    | failed hfs =>
      rcases hfs with rfl | hu
      · exact objectInv_done hfit hpid hinv hcall hw hinv.objects (.refl _ _) same
          (fun _ _ h => nomatch h) fun _ _ _ h => nomatch h
      · have hf : Frame objectsDir (tmpOf objectsDir pid hash i) s.fs _ := Frame.unlink (.inl rfl) hu
        obtain ⟨hobj, hpersist⟩ := objects_of_eq hfit hinv hi hf
          (fun hash' => Fs.unlink_inode_of_ne hu (hne hash')) (by rw [Fs.unlink_spec hu])
        exact objectInv_done hfit hpid hinv hcall (Fs.unlink_wellNamed hw hu) hobj hf hpersist
          (fun _ _ h => nomatch h) fun _ _ _ h => nomatch h
    | opened hopen =>
      obtain ⟨hinode, hdata, hdir, -⟩ := Fs.openTrunc_spec hopen
      have hf : Frame objectsDir (tmpOf objectsDir pid hash i) s.fs _ := Frame.openTrunc hopen
      obtain ⟨hobj, hpersist⟩ := objects_of_eq hfit hinv hi hf (fun hash' => by
          rw [hinode]
          exact update_noteq (hne hash') _ _) hdir
      refine objectInv_goto hfit hpid hinv hcall (Fs.openTrunc_wellNamed hw hopen) hobj hf hpersist
        ⟨?_, ?_, Nat.zero_le _⟩
      · rw [hinode]
        exact update_same _ _ _
      · rw [hdata, update_same, List.take_zero]
    | @wrote n pos k hphase hlt =>
      rw [hphase] at hown
      obtain ⟨hname, hdata, hpos⟩ := hown
      have hf : Frame objectsDir (tmpOf objectsDir pid hash i) s.fs _ :=
        Frame.write hname pos ((content.drop pos).take k)
      obtain ⟨hobj, hpersist⟩ := objects_of_eq hfit hinv hi hf (fun _ => rfl) rfl
      refine objectInv_goto hfit hpid hinv hcall ⟨hw.unique, hw.below⟩ hobj hf hpersist
        ⟨hname, ?_, ?_⟩
      · show update s.fs.data _ _ _ = _
        rw [update_same, hdata, Fs.writeAt_of_length _ (List.length_take_of_le hpos),
          List.take_add content pos]
        congr 1
        exact List.take_eq_take.mpr (by simp only [List.length_take, List.length_drop]; omega)
      · simp only [List.length_take, List.length_drop]
        omega
    | closed hphase hle =>
      rw [hphase] at hown
      obtain ⟨hname, hdata, -⟩ := hown
      refine goto_same fun m hm => ?_
      rw [Option.some.inj (hm.symm.trans hname), hdata, List.take_of_length_le hle]
    | renamed hphase hren =>
      rw [hphase] at hown
      obtain ⟨n, hsrc, -, rfl⟩ := Fs.rename_spec hren
      have hnew : ∀ hash' m, update (update s.fs.inode (tmpOf objectsDir pid hash i) none)
          (objectPath objectsDir hash) (some n) (objectPath objectsDir hash') = some m →
          hash' = hash ∧ m = n ∨ s.fs.inode (objectPath objectsDir hash') = some m := by
        intro hash' m hm
        simp only [Fs.update_some_eq_some, Fs.update_none_eq_some] at hm
        rcases hm with ⟨hpath, rfl⟩ | ⟨-, -, hm⟩
        · exact .inl ⟨objectPath_injective _ hpath, rfl⟩
        · exact .inr hm
      refine objectInv_done hfit hpid hinv hcall (Fs.rename_wellNamed hw hren) ?_ (Frame.rename hren)
        ?_ (fun _ _ h => nomatch h) fun hash' c h _ _ => ?_
      · intro hash' m hm
        rcases hnew hash' m hm with ⟨rfl, rfl⟩ | hm
        · exact .inr ⟨i, hown m hsrc ▸ hmem⟩
        · exact hinv.objects hash' m hm
      · intro hash' _ hex
        by_cases hh : hash' = hash
        · subst hh
          simp [Fs.pathExists]
        · simpa only [Fs.pathExists, update_noteq (mt (objectPath_injective objectsDir ·) hh),
            update_noteq (hne hash')] using hex
      · cases h
        simp [Fs.pathExists]
  | load hash =>
    cases loadStep_effect hstep with
    | failed =>
      exact objectInv_done hfit hpid hinv hcall hw hinv.objects (.refl _ _) same
        (fun _ _ _ h => nomatch h) fun _ _ h => nomatch h
    | opened hn =>
      refine goto_same ⟨hw.below _ _ hn, fun hash' j hj h => ?_, hinv.objects hash _ hn⟩
      exact tmpOf_ne_objectPath hfit hj hash' hash (hw.unique _ _ _ h hn)
    | sized hphase =>
      rw [hphase] at hown
      exact goto_same ⟨hown, rfl⟩
    | read hphase hle =>
      rw [hphase] at hown
      obtain ⟨hheld, hsize⟩ := hown
      refine objectInv_done hfit hpid hinv hcall hw hinv.objects (.refl _ _) same
        (fun _ _ h h' => ?_) fun _ _ h => nomatch h
      cases h
      cases h'
      rw [hsize, List.take_length]
      exact hheld.given
  | delete hash =>
    cases deleteStep_effect hstep with
    | failed =>
      exact objectInv_done hfit hpid hinv hcall hw hinv.objects (.refl _ _) same
        (fun _ _ h => nomatch h) fun _ _ h => nomatch h
    | unlinked hu =>
      have hf : Frame objectsDir (tmpOf objectsDir pid hash i) s.fs _ :=
        Frame.unlink (.inr ⟨hash, rfl⟩) hu
      refine objectInv_done hfit hpid hinv hcall (Fs.unlink_wellNamed hw hu)
        (objectsGiven_frame hfit hw hi hf (fun _ _ hm => Fs.unlink_inode_eq_some hu hm) hinv.objects)
        hf (fun hash' hdel hex => ?_) (fun _ _ h => nomatch h) fun _ _ h => nomatch h
      have hne : hash' ≠ hash := fun h => hdel i (h ▸ hmem)
      rwa [Fs.unlink_pathExists_of_ne hu (mt (objectPath_injective objectsDir ·) hne)]

omit hfit hpid in
theorem objectInv_init (hfs0 : fs0.WellNamed) :
    ObjectInv objectsDir pid prog fs0 (objectInit fs0) :=
  ⟨hfs0, fun _ n hn => .inl ⟨n, hn, rfl⟩, fun _ => phaseInv_quiet rfl, fun _ _ h => (nomatch h),
    fun _ _ h => (nomatch h)⟩

/-- The invariant holds in every state of every run. -/
theorem objectInv_reachable (hfs0 : fs0.WellNamed)
    (hs : ObjectReachable objectsDir pid prog fs0 s) : ObjectInv objectsDir pid prog fs0 s := by
  induction hs with
  | init => exact objectInv_init hfs0
  | step _ h ih => exact objectInv_step hfit hpid ih h

end Run

/-! ## No torn or foreign object, and no lost store -/

section Safety

variable {objectsDir : Bytes} {pid : Nat → Nat} {prog : Nat → List ObjectCall} {fs0 : Fs}
variable {s : ObjectSys}

/-- Whatever the interleaving and whichever syscalls fail: every object file holds the bytes
it held before the run or the whole content some store call was given for its digest, and
every load that returned `SCRIBE_OK` handed back such bytes. -/
theorem objectStore_loads_given (hfit : TmpFits objectsDir pid prog)
    (hpid : PidsDistinct pid prog) (hfs0 : fs0.WellNamed)
    (hs : ObjectReachable objectsDir pid prog fs0 s) :
    ObjectsGiven objectsDir prog fs0 s.fs ∧
      ∀ hash c, (ObjectCall.load hash, ObjectReturn.content c) ∈ s.log →
        Given objectsDir prog fs0 hash c :=
  have hinv := objectInv_reachable hfit hpid hfs0 hs
  ⟨hinv.objects, hinv.loads⟩

/-- Two processes, under pids 1 and 2, that each store the zero digest's object and load it
back. -/
def twoWriters : Nat → List ObjectCall :=
  fun i => if i < 2 then [.store Hash.zero [1, 2, 3], .load Hash.zero] else []

/-- The objects directory of a repository at `/srv/repo`. -/
def srvObjects : Bytes := ascii "/srv/repo/.scribe/objects"

/-- A file system with no files, and the directories down to `srvObjects`. -/
def srvFs : Fs :=
  ⟨fun _ => none, fun _ => [],
    fun p => p ∈ [ascii "/", ascii "/srv", ascii "/srv/repo", ascii "/srv/repo/.scribe", srvObjects], 0⟩

theorem twoWriters_hyps :
    TmpFits srvObjects (· + 1) twoWriters ∧ PidsDistinct (· + 1) twoWriters ∧ srvFs.WellNamed := by
  refine ⟨fun hash i hi => ?_, fun i j _ _ h => by simpa using h,
    ⟨fun _ _ _ h => (nomatch h), fun _ _ h => (nomatch h)⟩⟩
  have hi : i < 2 := by
    by_contra h
    exact hi (if_neg h)
  rw [List.length_append, List.length_append, length_objectPath,
    decimal_of_lt (show i + 1 < 10 by omega), List.length_singleton]
  decide

unseal decimal in
/-- The two processes run with their syscalls alternating: both `stat` the object before either
renames, so both make the directories, write their own temporary file and rename it over the
object, and both stores return `SCRIBE_OK`; then both load it back. -/
theorem twoWriters_run : ∃ s, ObjectReachable srvObjects (· + 1) twoWriters srvFs s ∧
    s.log = [(ObjectCall.store Hash.zero [1, 2, 3], ObjectReturn.ok),
      (ObjectCall.store Hash.zero [1, 2, 3], ObjectReturn.ok),
      (ObjectCall.load Hash.zero, ObjectReturn.content [1, 2, 3]),
      (ObjectCall.load Hash.zero, ObjectReturn.content [1, 2, 3])] := by
  have hrun : (objectRun srvObjects (· + 1) twoWriters (objectInit srvFs)
      (List.replicate 14 [(0, .ok 3), (1, .ok 3)]).flatten).map (fun s =>
        decide (s.log = [(ObjectCall.store Hash.zero [1, 2, 3], ObjectReturn.ok),
          (ObjectCall.store Hash.zero [1, 2, 3], ObjectReturn.ok),
          (ObjectCall.load Hash.zero, ObjectReturn.content [1, 2, 3]),
          (ObjectCall.load Hash.zero, ObjectReturn.content [1, 2, 3])])) = some true := by
    decide
  obtain ⟨s, h, hs⟩ := Option.map_eq_some'.mp hrun
  exact ⟨s, objectRun_reachable _ _ _ .init h, of_decide_eq_true hs⟩

theorem objectStore_loads_given_twoWriters : ∃ s,
    ObjectReachable srvObjects (· + 1) twoWriters srvFs s ∧
      s.log = [(ObjectCall.store Hash.zero [1, 2, 3], ObjectReturn.ok),
        (ObjectCall.store Hash.zero [1, 2, 3], ObjectReturn.ok),
        (ObjectCall.load Hash.zero, ObjectReturn.content [1, 2, 3]),
        (ObjectCall.load Hash.zero, ObjectReturn.content [1, 2, 3])] ∧
      ObjectsGiven srvObjects twoWriters srvFs s.fs ∧
      ∀ hash c, (ObjectCall.load hash, ObjectReturn.content c) ∈ s.log →
        Given srvObjects twoWriters srvFs hash c := by
  obtain ⟨s, hs, hlog⟩ := twoWriters_run
  obtain ⟨hfit, hpid, hfs⟩ := twoWriters_hyps
  exact ⟨s, hs, hlog, objectStore_loads_given hfit hpid hfs hs⟩

/-- A store that returned `SCRIBE_OK` is never lost: from then on its object exists, whatever
runs after it, unless some process deletes that digest. -/
theorem objectStore_store_durable (hfit : TmpFits objectsDir pid prog)
    (hpid : PidsDistinct pid prog) (hfs0 : fs0.WellNamed)
    (hs : ObjectReachable objectsDir pid prog fs0 s) {hash : Hash} {content : Bytes}
    (hok : (ObjectCall.store hash content, ObjectReturn.ok) ∈ s.log)
    (hdel : ∀ j, ObjectCall.delete hash ∉ prog j) :
    s.fs.pathExists (objectPath objectsDir hash) :=
  (objectInv_reachable hfit hpid hfs0 hs).stores hash content hok hdel

theorem objectStore_store_durable_twoWriters : ∃ s,
    ObjectReachable srvObjects (· + 1) twoWriters srvFs s ∧
      s.log = [(ObjectCall.store Hash.zero [1, 2, 3], ObjectReturn.ok),
        (ObjectCall.store Hash.zero [1, 2, 3], ObjectReturn.ok),
        (ObjectCall.load Hash.zero, ObjectReturn.content [1, 2, 3]),
        (ObjectCall.load Hash.zero, ObjectReturn.content [1, 2, 3])] ∧
      (∀ j, ObjectCall.delete Hash.zero ∉ twoWriters j) ∧
      s.fs.pathExists (objectPath srvObjects Hash.zero) := by
  obtain ⟨s, hs, hlog⟩ := twoWriters_run
  obtain ⟨hfit, hpid, hfs⟩ := twoWriters_hyps
  have hdel : ∀ j, ObjectCall.delete Hash.zero ∉ twoWriters j := fun j => by
    unfold twoWriters
    split <;> simp
  have hstore : (ObjectCall.store Hash.zero [1, 2, 3], ObjectReturn.ok) ∈ s.log := by simp [hlog]
  exact ⟨s, hs, hlog, hdel, objectStore_store_durable hfit hpid hfs hs hstore hdel⟩

end Safety

end Scribe

import Scribe.Storage.Discovery
import Mathlib.Logic.Function.Basic

/-!
# The file system under the storage code

The kernel keeps a file's bytes in an inode and lets a path name the inode.  `Fs` keeps the
two apart, because the object store depends on it: a handle `fopen` returned is an inode,
and writing through the handle reaches that inode whatever path names it by then; `rename`
moves a name and `unlink` drops one, and neither touches the bytes.  Directories are the
paths `isDir` holds of; nothing in Scribe removes one.

Each syscall returns `none` where it fails for a reason the model sees (`ENOENT`, `EISDIR`);
the callers add the failures it does not see (`EACCES`, `ENOSPC`, `EIO`).  Paths are
canonical (no `//`, no trailing slash), so the directory a new name goes in is what
`scribe_path_dirname` returns.

`WellNamed` is what every operation keeps: no inode has two names, and every named inode is
below the next one `fopen` hands out.
-/

namespace Scribe

open Function

/-! ## `util/path.c` -/

/-- `scribe_path_dirname`: the text before the last slash, `/` when that slash is the first
byte, `.` when there is none. -/
def pathDirname (path : Bytes) : Bytes :=
  match strrchr path 0x2F with
  | none => ascii "."
  | some 0 => [0x2F]
  | some (i + 1) => path.take (i + 1)

/-- The `tmp` of `scribe_path_mkdir`: the path with one trailing slash dropped. -/
def mkdirBase (path : Bytes) : Bytes :=
  if path.getLast? = some 0x2F then path.dropLast else path

/-- The loop of `scribe_path_mkdir` over the bytes after the first, with `pre` the text
before the current byte: at each slash, the text before it. -/
def mkdirLoop (pre : Bytes) : Bytes → List Bytes
  | [] => []
  | b :: rest => (if b = 0x2F then [pre] else []) ++ mkdirLoop (pre ++ [b]) rest

/-- The directories `scribe_path_mkdir` asks `mkdir` for, in order: at each slash after the
first byte, the text before it; then the whole of `tmp`. -/
def mkdirTargets (path : Bytes) : List Bytes :=
  match mkdirBase path with
  | [] => [[]]
  | b :: rest => mkdirLoop [b] rest ++ [b :: rest]

theorem dropWhile_slash_of_not_mem {l : Bytes} (h : (0x2F : UInt8) ∉ l) :
    l.dropWhile (· == 0x2F) = l := by
  cases l with
  | nil => rfl
  | cons b l =>
      have hb : (b == 0x2F) = false := beq_false_of_ne fun hb => h (hb ▸ List.mem_cons_self _ _)
      simp [List.dropWhile_cons, hb]

theorem rdropWhile_slash_append (x : Bytes) {l : Bytes} (hl : l ≠ []) (h : (0x2F : UInt8) ∉ l) :
    (x ++ l).rdropWhile (· == 0x2F) = x ++ l := by
  rw [List.rdropWhile_eq_self_iff]
  intro _
  rw [List.getLast_append_of_ne_nil hl]
  exact fun hb => h ((beq_iff_eq.mp hb) ▸ List.getLast_mem hl)

/-! ## Directories below the root -/

theorem dirText_append_comp (pre : List PathComp) (c : PathComp) :
    dirText (pre ++ [c]) = (dirText pre ++ [0x2F]) ++ c.bytes := by
  rw [dirText_concat, List.append_assoc, List.singleton_append]

theorem dirText_ne_nil {comps : List PathComp} (h : comps ≠ []) : dirText comps ≠ [] := by
  obtain ⟨c, comps, rfl⟩ := List.exists_cons_of_ne_nil h
  simp [dirText]

theorem getLast?_dirText {comps : List PathComp} (h : comps ≠ []) :
    (dirText comps).getLast? ≠ some 0x2F := by
  obtain ⟨pre, c, rfl⟩ := (List.eq_nil_or_concat comps).resolve_left h
  rw [List.concat_eq_append, dirText_append_comp, List.getLast?_append_of_ne_nil _ c.ne_nil,
    List.getLast?_eq_getLast _ c.ne_nil, Ne, Option.some_inj]
  exact fun hb => c.slash_not_mem (hb ▸ List.getLast_mem c.ne_nil)

/-- Joining a component to a directory below the root gives the directory one level down. -/
theorem pathJoin_dirText {comps : List PathComp} (h : comps ≠ []) (c : PathComp) :
    pathJoin (dirText comps) c.bytes = dirText (comps ++ [c]) := by
  obtain ⟨pre, d, rfl⟩ := (List.eq_nil_or_concat comps).resolve_left h
  rw [List.concat_eq_append, pathJoin, dirText_append_comp,
    rdropWhile_slash_append _ d.ne_nil d.slash_not_mem, dropWhile_slash_of_not_mem c.slash_not_mem,
    dirText_concat (pre ++ [d]), dirText_append_comp]

theorem pathDirname_dirText {pre : List PathComp} (h : pre ≠ []) (c : PathComp) :
    pathDirname (dirText (pre ++ [c])) = dirText pre := by
  obtain ⟨d, pre', rfl⟩ := List.exists_cons_of_ne_nil h
  obtain ⟨k, hk⟩ : ∃ k, (dirText (d :: pre')).length = k + 1 := ⟨_, rfl⟩
  rw [pathDirname, strrchr_dirText_concat, hk]
  dsimp only
  rw [← hk, dirText_concat, List.take_left]

theorem mkdirLoop_append (pre s t : Bytes) :
    mkdirLoop pre (s ++ t) = mkdirLoop pre s ++ mkdirLoop (pre ++ s) t := by
  induction s generalizing pre with
  | nil => simp [mkdirLoop]
  | cons b s ih => simp [mkdirLoop, ih]

theorem mkdirLoop_of_not_mem (pre : Bytes) {s : Bytes} (h : (0x2F : UInt8) ∉ s) :
    mkdirLoop pre s = [] := by
  induction s generalizing pre with
  | nil => rfl
  | cons b s ih =>
      rw [List.mem_cons, not_or] at h
      rw [mkdirLoop, if_neg (Ne.symm h.1), ih _ h.2]
      rfl

theorem mkdirBase_dirText {comps : List PathComp} (h : comps ≠ []) :
    mkdirBase (dirText comps) = dirText comps :=
  if_neg (getLast?_dirText h)

/-- Below a directory, `scribe_path_mkdir` asks for what it asks for the directory, then for
the child. -/
theorem mkdirTargets_dirText_concat {pre : List PathComp} (hpre : pre ≠ []) (c : PathComp) :
    mkdirTargets (dirText (pre ++ [c])) = mkdirTargets (dirText pre) ++ [dirText (pre ++ [c])] := by
  obtain ⟨b, rest, hb⟩ := List.exists_cons_of_ne_nil (dirText_ne_nil hpre)
  rw [mkdirTargets, mkdirTargets, mkdirBase_dirText (by simp), mkdirBase_dirText hpre,
    dirText_concat, hb, List.cons_append]
  dsimp only
  simp [mkdirLoop_append, mkdirLoop, mkdirLoop_of_not_mem _ c.slash_not_mem]

/-- `scribe_path_mkdir` on a directory below the root asks for each of its ancestors below
the root, outermost first, then for the directory itself. -/
theorem mkdirTargets_dirText {comps : List PathComp} (h : comps ≠ []) :
    mkdirTargets (dirText comps) = (List.range comps.length).map fun k => dirText (comps.take (k + 1)) := by
  induction comps using List.reverseRecOn with
  | nil => exact absurd rfl h
  | append_singleton pre c ih =>
      rw [List.length_append, List.length_singleton, List.range_succ, List.map_append, List.map_singleton,
        List.take_of_length_le (by simp)]
      by_cases hpre : pre = []
      · subst hpre
        rw [mkdirTargets, mkdirBase_dirText h]
        simp [dirText, mkdirLoop_of_not_mem _ c.slash_not_mem]
      · have hmap : ((List.range pre.length).map fun k => dirText ((pre ++ [c]).take (k + 1))) =
            (List.range pre.length).map fun k => dirText (pre.take (k + 1)) :=
          List.map_congr_left fun k hk => by
            rw [List.take_append_of_le_length (by simp at hk; omega)]
        rw [hmap, ← ih hpre, mkdirTargets_dirText_concat hpre]

theorem dirText_append (pre post : List PathComp) : dirText (pre ++ post) = dirText pre ++ dirText post :=
  List.flatMap_append _ _ _

theorem dirText_append_ne (pre : List PathComp) {post : List PathComp} (h : post ≠ []) :
    dirText (pre ++ post) ≠ dirText pre := by
  rw [dirText_append]
  exact fun he => dirText_ne_nil h (List.append_right_eq_self.mp he)

/-! ## The file system -/

/-- The inode each path names, the bytes of each inode, the directories, and the next
inode number. -/
structure Fs where
  inode : Bytes → Option Nat
  data : Nat → Bytes
  isDir : Bytes → Bool
  fresh : Nat

namespace Fs

variable (fs : Fs)

/-- `scribe_path_exists`: `stat` finds a file or a directory. -/
def pathExists (path : Bytes) : Bool := (fs.inode path).isSome || fs.isDir path

/-- A new directory. -/
def addDir (path : Bytes) : Fs := { fs with isDir := update fs.isDir path true }

/-- One `mkdir(path)` of `scribe_path_mkdir`'s loop, the system letting it through when `ok`:
`some` when the loop goes on (the directory made, or `EEXIST`), `none` when the loop
returns `SCRIBE_ERR_IO`. -/
def mkdirStep (ok : Bool) (path : Bytes) : Option Fs :=
  if fs.pathExists path then some fs
  else if ok && fs.isDir (pathDirname path) then some (fs.addDir path) else none

/-- `fopen(path, "wb")`: truncate the file `path` names, or create one in a fresh inode.
The handle is the inode. -/
def openTrunc (path : Bytes) : Option (Fs × Nat) :=
  if fs.isDir path || !fs.isDir (pathDirname path) then none
  else match fs.inode path with
    | some n => some ({ fs with data := update fs.data n [] }, n)
    | none => some ({ fs with inode := update fs.inode path (some fs.fresh),
                              data := update fs.data fs.fresh [],
                              fresh := fs.fresh + 1 }, fs.fresh)

/-- POSIX `pwrite`: a write past the end first fills the gap with zeros; the bytes after
the written range stay. -/
def writeAt (d : Bytes) (pos : Nat) (chunk : Bytes) : Bytes :=
  d.take pos ++ List.replicate (pos - d.length) 0 ++ chunk ++ d.drop (pos + chunk.length)

/-- A `write` through the handle `n` at offset `pos`. -/
def write (n pos : Nat) (chunk : Bytes) : Fs :=
  { fs with data := update fs.data n (writeAt (fs.data n) pos chunk) }

/-- `rename(src, dst)`: the inode `src` names moves to `dst`, replacing what `dst` named.
It fails when `src` names no file or `dst` is a directory. -/
def rename (src dst : Bytes) : Option Fs :=
  match fs.inode src with
  | none => none
  | some n =>
      if fs.isDir dst then none
      else some { fs with inode := update (update fs.inode src none) dst (some n) }

/-- `unlink(path)`: the name goes; the inode stays for the handles still on it. -/
def unlink (path : Bytes) : Option Fs :=
  match fs.inode path with
  | none => none
  | some _ => some { fs with inode := update fs.inode path none }

/-- `scribe_path_mkdir` on its list of `mkdir`s: the file system after them, and
`SCRIBE_ERR_IO` when one fails other than with `EEXIST`. -/
def pathMkdir (ok : Bool) (fs : Fs) : List Bytes → Fs × ScribeError
  | [] => (fs, .ok)
  | d :: ds =>
      match fs.mkdirStep ok d with
      | some fs' => pathMkdir ok fs' ds
      | none => (fs, .io)

/-- `fopen(path, "w")`, `fputs(text)`, `fclose`: the file `path` holds `text`. -/
def writeFile (path text : Bytes) : Option Fs :=
  (fs.openTrunc path).map fun (fs', n) => fs'.write n 0 text

/-- `open(path, O_RDWR | O_CREAT)`, as `sqlite3_open` opens its store: the file `path` names,
or a new empty one in a fresh inode; `none` when `path` is a directory or its parent is not
one.  What SQLite then writes into the file is not modelled. -/
def openCreate (path : Bytes) : Option Fs :=
  if fs.isDir path || !fs.isDir (pathDirname path) then none
  else match fs.inode path with
    | some _ => some fs
    | none => some { fs with inode := update fs.inode path (some fs.fresh),
                             data := update fs.data fs.fresh [], fresh := fs.fresh + 1 }

/-- The bytes `fopen(path, "r")` and `fread` get from the file `path`. -/
def readFile (path : Bytes) : Option Bytes := (fs.inode path).map fs.data

/-- No inode has two names, and every named inode is below `fresh`. -/
structure WellNamed : Prop where
  unique : ∀ p q n, fs.inode p = some n → fs.inode q = some n → p = q
  below : ∀ p n, fs.inode p = some n → n < fs.fresh

variable {fs}

/-! ## What each syscall does -/

@[simp] theorem addDir_inode (path : Bytes) : (fs.addDir path).inode = fs.inode := rfl
@[simp] theorem addDir_data (path : Bytes) : (fs.addDir path).data = fs.data := rfl
@[simp] theorem addDir_fresh (path : Bytes) : (fs.addDir path).fresh = fs.fresh := rfl
@[simp] theorem write_inode (n pos : Nat) (chunk : Bytes) :
    (fs.write n pos chunk).inode = fs.inode := rfl
@[simp] theorem write_fresh (n pos : Nat) (chunk : Bytes) :
    (fs.write n pos chunk).fresh = fs.fresh := rfl
@[simp] theorem write_isDir (n pos : Nat) (chunk : Bytes) :
    (fs.write n pos chunk).isDir = fs.isDir := rfl

theorem pathExists_addDir {path : Bytes} (q : Bytes) (h : fs.pathExists q) : (fs.addDir path).pathExists q := by
  by_cases hq : q = path
  · simp [pathExists, addDir, hq]
  · simpa [pathExists, addDir, hq] using h

theorem mkdirStep_cases {ok : Bool} {path : Bytes} {fs' : Fs} (h : fs.mkdirStep ok path = some fs') :
    fs' = fs ∨ fs' = fs.addDir path := by
  unfold mkdirStep at h
  split at h
  · exact .inl (Option.some.inj h).symm
  · split at h
    · exact .inr (Option.some.inj h).symm
    · cases h

theorem openTrunc_spec {path : Bytes} {fs' : Fs} {n : Nat} (h : fs.openTrunc path = some (fs', n)) :
    fs'.inode = update fs.inode path (some n) ∧ fs'.data = update fs.data n [] ∧
      fs'.isDir = fs.isDir ∧
      (fs.inode path = some n ∧ fs'.fresh = fs.fresh ∨ n = fs.fresh ∧ fs'.fresh = fs.fresh + 1) := by
  unfold openTrunc at h
  split at h
  · cases h
  · split at h <;> cases h
    · exact ⟨(update_eq_self _ _).symm.trans (by rw [‹fs.inode path = _›]), rfl, rfl,
        .inl ⟨‹_›, rfl⟩⟩
    · exact ⟨rfl, rfl, rfl, .inr ⟨rfl, rfl⟩⟩

/-- The inode `fopen` truncates is none that another name or a reader already holds. -/
theorem openTrunc_ne {path : Bytes} {fs' : Fs} {n m : Nat} (h : fs.openTrunc path = some (fs', n))
    (hm : m < fs.fresh) (hpath : fs.inode path ≠ some m) : m ≠ n := by
  rintro rfl
  rcases (openTrunc_spec h).2.2.2 with ⟨h', -⟩ | ⟨rfl, -⟩
  · exact hpath h'
  · exact Nat.lt_irrefl _ hm

theorem update_some_eq_some {f : Bytes → Option Nat} {a p : Bytes} {b m : Nat} :
    update f a (some b) p = some m ↔ p = a ∧ b = m ∨ p ≠ a ∧ f p = some m := by
  by_cases hp : p = a
  · subst hp; simp
  · simp [hp]

theorem update_none_eq_some {f : Bytes → Option Nat} {a p : Bytes} {m : Nat} :
    update f a none p = some m ↔ p ≠ a ∧ f p = some m := by
  by_cases hp : p = a
  · subst hp; simp
  · simp [hp]

theorem openTrunc_wellNamed {path : Bytes} {fs' : Fs} {n : Nat} (hw : fs.WellNamed)
    (h : fs.openTrunc path = some (fs', n)) : fs'.WellNamed := by
  obtain ⟨hinode, -, -, hfresh⟩ := openTrunc_spec h
  have hnew : ∀ q, fs.inode q = some n → q = path := fun q hq => by
    rcases hfresh with ⟨hp, -⟩ | ⟨rfl, -⟩
    · exact hw.unique _ _ _ hq hp
    · exact absurd (hw.below _ _ hq) (Nat.lt_irrefl _)
  have hle : fs.fresh ≤ fs'.fresh ∧ n < fs'.fresh := by
    rcases hfresh with ⟨hp, hf⟩ | ⟨rfl, hf⟩
    · exact ⟨hf.ge, hf ▸ hw.below _ _ hp⟩
    · omega
  constructor
  · intro p q m hp hq
    rw [hinode, update_some_eq_some] at hp hq
    rcases hp with ⟨hpa, rfl⟩ | ⟨hpa, hp⟩ <;> rcases hq with ⟨hqa, hnq⟩ | ⟨hqa, hq⟩
    · exact hpa.trans hqa.symm
    · exact absurd (hnew q hq) hqa
    · exact absurd (hnew p (hnq ▸ hp)) hpa
    · exact hw.unique _ _ _ hp hq
  · intro p m hp
    rw [hinode, update_some_eq_some] at hp
    rcases hp with ⟨-, rfl⟩ | ⟨-, hp⟩
    · exact hle.2
    · exact lt_of_lt_of_le (hw.below _ _ hp) hle.1

theorem rename_spec {src dst : Bytes} {fs' : Fs} (h : fs.rename src dst = some fs') :
    ∃ n, fs.inode src = some n ∧ fs.isDir dst = false ∧
      fs' = { fs with inode := update (update fs.inode src none) dst (some n) } := by
  unfold rename at h
  split at h
  · cases h
  · split at h
    · cases h
    · exact ⟨_, ‹_›, Bool.eq_false_iff.mpr ‹_›, (Option.some.inj h).symm⟩

theorem rename_wellNamed {src dst : Bytes} {fs' : Fs} (hw : fs.WellNamed)
    (h : fs.rename src dst = some fs') : fs'.WellNamed := by
  obtain ⟨n, hsrc, -, rfl⟩ := rename_spec h
  constructor
  · intro p q m hp hq
    simp only [update_some_eq_some, update_none_eq_some] at hp hq
    rcases hp with ⟨hpd, rfl⟩ | ⟨hpd, hps, hp⟩ <;>
      rcases hq with ⟨hqd, hnq⟩ | ⟨hqd, hqs, hq⟩
    · exact hpd.trans hqd.symm
    · exact absurd (hw.unique _ _ _ hq hsrc) hqs
    · exact absurd (hw.unique _ _ _ (hnq ▸ hp) hsrc) hps
    · exact hw.unique _ _ _ hp hq
  · intro p m hp
    simp only [update_some_eq_some, update_none_eq_some] at hp
    rcases hp with ⟨-, rfl⟩ | ⟨-, -, hp⟩
    · exact hw.below _ _ hsrc
    · exact hw.below _ _ hp

theorem unlink_spec {path : Bytes} {fs' : Fs} (h : fs.unlink path = some fs') :
    fs' = { fs with inode := update fs.inode path none } := by
  unfold unlink at h
  split at h <;> cases h
  rfl

theorem unlink_inode_of_ne {path q : Bytes} {fs' : Fs} (h : fs.unlink path = some fs')
    (hq : q ≠ path) : fs'.inode q = fs.inode q := by
  rw [unlink_spec h]
  exact update_noteq hq _ _

theorem unlink_inode_eq_some {path q : Bytes} {fs' : Fs} {m : Nat} (h : fs.unlink path = some fs')
    (hq : fs'.inode q = some m) : fs.inode q = some m := by
  rw [unlink_spec h] at hq
  exact (update_none_eq_some.mp hq).2

theorem unlink_pathExists_of_ne {path q : Bytes} {fs' : Fs} (h : fs.unlink path = some fs')
    (hq : q ≠ path) : fs'.pathExists q = fs.pathExists q := by
  rw [pathExists, pathExists, unlink_inode_of_ne h hq, unlink_spec h]

theorem unlink_wellNamed {path : Bytes} {fs' : Fs} (hw : fs.WellNamed)
    (h : fs.unlink path = some fs') : fs'.WellNamed := by
  rw [unlink_spec h]
  constructor
  · intro p q m hp hq
    rw [update_none_eq_some] at hp hq
    exact hw.unique _ _ _ hp.2 hq.2
  · intro p m hp
    exact hw.below _ _ (update_none_eq_some.mp hp).2

theorem writeAt_of_length {d : Bytes} {pos : Nat} (chunk : Bytes) (hd : d.length = pos) :
    writeAt d pos chunk = d ++ chunk := by
  subst hd
  simp [writeAt]

@[simp] theorem addDir_isDir (path q : Bytes) :
    (fs.addDir path).isDir q = (decide (q = path) || fs.isDir q) := by
  by_cases hq : q = path <;> simp [addDir, hq]

/-- Directories that are there already cost `scribe_path_mkdir` nothing. -/
theorem pathMkdir_append_of_exists (ok : Bool) {ds : List Bytes}
    (h : ∀ d ∈ ds, fs.pathExists d = true) (es : List Bytes) :
    fs.pathMkdir ok (ds ++ es) = fs.pathMkdir ok es := by
  induction ds with
  | nil => rfl
  | cons d ds ih =>
      rw [List.forall_mem_cons] at h
      rw [List.cons_append, pathMkdir, mkdirStep, if_pos h.1]
      exact ih h.2

theorem pathMkdir_new {ok : Bool} {path : Bytes} (h : fs.pathExists path = false)
    (hparent : fs.isDir (pathDirname path) = true) :
    fs.pathMkdir ok [path] = if ok then (fs.addDir path, .ok) else (fs, .io) := by
  cases ok <;> simp [pathMkdir, mkdirStep, h, hparent]

/-- Making a child of a directory below the root whose ancestors are all directories: the
ancestors are there already, so only the child's own `mkdir` can fail. -/
theorem pathMkdir_child {pre : List PathComp} (hpre : pre ≠ [])
    (hanc : ∀ k, 0 < k → k ≤ pre.length → fs.isDir (dirText (pre.take k)) = true) (c : PathComp)
    (hnew : fs.pathExists (dirText (pre ++ [c])) = false) (ok : Bool) :
    fs.pathMkdir ok (mkdirTargets (dirText (pre ++ [c]))) =
      if ok then (fs.addDir (dirText (pre ++ [c])), .ok) else (fs, .io) := by
  have hthere : ∀ d ∈ mkdirTargets (dirText pre), fs.pathExists d = true := by
    rw [mkdirTargets_dirText hpre]
    intro d hd
    obtain ⟨k, hk, rfl⟩ := List.mem_map.mp hd
    simp [pathExists, hanc (k + 1) (by omega) (by simp at hk; omega)]
  have hparent : fs.isDir (pathDirname (dirText (pre ++ [c]))) = true := by
    rw [pathDirname_dirText hpre, ← List.take_length pre]
    exact hanc _ (List.length_pos.mpr hpre) le_rfl
  rw [mkdirTargets_dirText_concat hpre, pathMkdir_append_of_exists ok hthere, pathMkdir_new hnew hparent]

/-- A file written and read back gives the text written, in an inode of its own. -/
theorem writeFile_spec {path text : Bytes} {fs' : Fs} (h : fs.writeFile path text = some fs') :
    ∃ n, fs'.inode = update fs.inode path (some n) ∧ fs'.data = update fs.data n text ∧
      fs'.isDir = fs.isDir ∧ (fs.inode path = some n ∨ n = fs.fresh) := by
  obtain ⟨⟨fs1, n⟩, hopen, rfl⟩ := Option.map_eq_some'.mp h
  obtain ⟨hinode, hdata, hdir, hfresh⟩ := openTrunc_spec hopen
  have hwrite : writeAt [] 0 text = text := writeAt_of_length text rfl
  refine ⟨n, hinode, ?_, hdir, hfresh.imp And.left And.left⟩
  simp only [write, hdata, update_same, hwrite, update_idem]

theorem writeFile_isSome {path : Bytes} (text : Bytes) (hdir : fs.isDir path = false)
    (hparent : fs.isDir (pathDirname path) = true) : (fs.writeFile path text).isSome := by
  simp [writeFile, openTrunc, hdir, hparent]
  split <;> rfl

/-- Where nothing is at `path` and its parent is a directory, `open` with `O_CREAT` names a
new empty file there, in the fresh inode. -/
theorem openCreate_new {path : Bytes} (hdir : fs.isDir path = false)
    (hparent : fs.isDir (pathDirname path) = true) (hnone : fs.inode path = none) :
    fs.openCreate path = some { fs with
      inode := update fs.inode path (some fs.fresh)
      data := update fs.data fs.fresh []
      fresh := fs.fresh + 1 } := by
  simp [openCreate, hdir, hparent, hnone]

theorem readFile_writeFile {path text : Bytes} {fs' : Fs} (h : fs.writeFile path text = some fs') :
    fs'.readFile path = some text := by
  obtain ⟨n, hinode, hdata, -⟩ := writeFile_spec h
  simp [readFile, hinode, hdata]

end Fs

end Scribe

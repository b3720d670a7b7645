import Scribe.Storage.FileSystem
import Scribe.Storage.Config

/-!
# Creating a repository

`scribe_repo_init` refuses a directory from which `scribe_find_repo_root` already finds a
repository.  Otherwise it makes `.scribe` with `scribe_path_mkdir` and gives up when that
fails; makes `.scribe/objects` and ignores the result; opens the store `.scribe/scribe.db`
(`sqlite3_open` creates the file) and creates its schema, giving up when either fails; and saves
the default configuration, ignoring the result.

`repoInit_spec` follows one init of a directory below the root whose ancestors are
directories, with no repository on its path and nothing at or under `.scribe`, for every
combination of the failures the system can add: which store it returns, which of `.scribe` and
`.scribe/objects` are then directories, when `scribe.db` is a file, what `config.json` loads as,
that nothing else in the file system changes, and that once `.scribe` is made the search finds
it and a second init is refused, whether or not the first returned a repository: a give-up after
the first `mkdir` leaves `.scribe` behind, and one in `scribe_db_open` can leave `scribe.db`.

`cmd_init` runs the init, then loads `config.json` back, puts `--author` and `--role` in and
saves it again.  `cmdInit_spec` gives its exit code and what `config.json` then holds: the
given author and role only when the second save goes through and they are UTF-8 (a string that
is not leaves the default configuration, with the exit code still 0).
-/

namespace Scribe

open Function

/-- `OBJECTS_DIR_NAME`. -/
def objectsComp : PathComp := ⟨ascii "objects", by decide, by decide⟩

/-- `DB_FILE_NAME`. -/
def dbComp : PathComp := ⟨ascii "scribe.db", by decide, by decide⟩

/-- `CONFIG_FILE_NAME`. -/
def configComp : PathComp := ⟨ascii "config.json", by decide, by decide⟩

/-- The failures of `scribe_repo_init` the model does not see: each of its two
`scribe_path_mkdir`s, opening the store or creating its schema (and, when that fails, whether
`sqlite3_open` had created `scribe.db` first), and `fopen` of `config.json`. -/
structure InitFaults where
  scribeMkdir : Bool
  objectsMkdir : Bool
  dbOk : Bool
  dbFileCreated : Bool
  configOpened : Bool
  deriving DecidableEq

/-- `scribe_config_save` of `c` to `configPath`, as the file system sees it: the file holds the
text of `c` when the document can be written and the file opened, and nothing changes
otherwise. -/
def configSaveFile (opened : Bool) (configPath : Bytes) (c : ScribeConfig) (fs : Fs) : Fs :=
  match configSave opened c with
  | .ok text => (fs.writeFile configPath text).getD fs
  | .error _ => fs

/-- `scribe_repo_init(base)`: the file system after it, and the store of the repository it
returns. -/
def repoInit (realpath : Bytes → Option Bytes) (faults : InitFaults) (base : Bytes) (fs : Fs) :
    Fs × Option Db :=
  if (findRepoRoot realpath fs.isDir base).isSome then (fs, none)
  else
    let scribePath := pathJoin base scribeDirName
    match fs.pathMkdir faults.scribeMkdir (mkdirTargets scribePath) with
    | (fs, .ok) =>
        let fs := (fs.pathMkdir faults.objectsMkdir
          (mkdirTargets (pathJoin scribePath objectsComp.bytes))).1
        let fs := if faults.dbOk || faults.dbFileCreated then
          (fs.openCreate (pathJoin scribePath dbComp.bytes)).getD fs else fs
        if faults.dbOk then
          (configSaveFile faults.configOpened (pathJoin scribePath configComp.bytes) repoInitConfig fs,
            some dbInit)
        else (fs, none)
    | (fs, _) => (fs, none)

/-- The configuration `cmd_init` saves back: the one it loaded, with `--author` and `--role` put
in where they are given. -/
def initOverride (author role : Option CStr) (c : ScribeConfig) : ScribeConfig :=
  { c with authorId := author <|> c.authorId, authorRole := role <|> c.authorRole }

/-- The arguments of `scribe init`: `[PATH]`, `--author` and `--role`. -/
structure InitArgs where
  path : Option Bytes
  author : Option CStr
  role : Option CStr

/-- `cmd_init`: the file system after it, and the exit code.  `cwd` is what
`scribe_path_getcwd` returns, and `saveOpened` whether the `fopen` of the second
`scribe_config_save` goes through. -/
def cmdInit (realpath : Bytes → Option Bytes) (cwd : Option Bytes) (faults : InitFaults)
    (saveOpened : Bool) (args : InitArgs) (fs : Fs) : Fs × Nat :=
  if (args.path.bind (findRepoRoot realpath fs.isDir)).isSome then (fs, 1)
  else
    match args.path <|> cwd with
    | none => (fs, 1)
    | some base =>
        match repoInit realpath faults base fs with
        | (fs, none) => (fs, 1)
        | (fs, some _) =>
            if args.author.isSome || args.role.isSome then
              let configPath := pathJoin (pathJoin base scribeDirName) configComp.bytes
              match configLoad (fs.readFile configPath) with
              | some config =>
                  (configSaveFile saveOpened configPath (initOverride args.author args.role config) fs, 0)
              | none => (fs, 0)
            else (fs, 0)

/-! ## Saving a configuration -/

theorem repoInitConfig_saved : repoInitConfig.saved = repoInitConfig := rfl

theorem initOverride_saved (author role : Option CStr) :
    (initOverride author role repoInitConfig).saved = initOverride author role repoInitConfig := rfl

theorem configSaveFile_isDir (opened : Bool) (path : Bytes) (c : ScribeConfig) (fs : Fs) :
    (configSaveFile opened path c fs).isDir = fs.isDir := by
  unfold configSaveFile
  split
  · cases hw : fs.writeFile path _ with
    | none => rfl
    | some fs' =>
        obtain ⟨_, -, -, hdir, -⟩ := Fs.writeFile_spec hw
        exact hdir
  · rfl

/-- The save names no file but `path`, and writes no inode but the one `path` names, or a
fresh one. -/
theorem configSaveFile_frame (opened : Bool) (path : Bytes) (c : ScribeConfig) (fs : Fs) :
    (∀ q, q ≠ path → (configSaveFile opened path c fs).inode q = fs.inode q) ∧
      ∀ n, fs.inode path ≠ some n → n < fs.fresh → (configSaveFile opened path c fs).data n = fs.data n := by
  unfold configSaveFile
  split
  · cases hw : fs.writeFile path _ with
    | none => exact ⟨fun _ _ => rfl, fun _ _ _ => rfl⟩
    | some fs' =>
        obtain ⟨m, hinode, hdata, -, hm⟩ := Fs.writeFile_spec hw
        refine ⟨fun q hq => by simp [hinode, hq], fun n hpath hn => ?_⟩
        have hnm : n ≠ m := by
          rintro rfl
          rcases hm with hm | rfl
          · exact hpath hm
          · exact Nat.lt_irrefl _ hn
        simp [hdata, hnm]
  · exact ⟨fun _ _ => rfl, fun _ _ _ => rfl⟩

/-- Where `config.json` can be written, it then loads as the configuration saved, when that has
only UTF-8 strings and the file opened; otherwise it loads as it did before. -/
theorem configLoad_configSaveFile (opened : Bool) {path : Bytes} (c : ScribeConfig) {fs : Fs}
    (hdir : fs.isDir path = false) (hparent : fs.isDir (pathDirname path) = true) :
    configLoad ((configSaveFile opened path c fs).readFile path) =
      if opened && c.utf8 then some c.saved else configLoad (fs.readFile path) := by
  cases hutf : c.utf8
  · have hw : yyjsonWrite (configJson c) = none :=
      Option.not_isSome_iff_eq_none.mp (by rw [configJson_isSome, hutf]; decide)
    simp [configSaveFile, configSave, hw]
  obtain ⟨json, hw⟩ := Option.isSome_iff_exists.mp ((configJson_isSome c).trans hutf)
  obtain ⟨fs', hfs'⟩ := Option.isSome_iff_exists.mp (Fs.writeFile_isSome json hdir hparent)
  cases opened with
  | false => simp [configSaveFile, configSave, hw]
  | true =>
      simp only [configSaveFile, configSave, hw, if_true, strlenPrefix_yyjsonWrite hw, hfs',
        Option.getD_some, Fs.readFile_writeFile hfs', configLoad_of_yyjsonWrite hw, Bool.and_self]

/-! ## One init, stage by stage -/

/-- What `repoInit_spec` asks of the directory `comps`: it resolves to itself, it and its
ancestors are directories, no repository is found from it, and nothing is at or under its
`.scribe`. -/
structure InitSite (realpath : Bytes → Option Bytes) (fs : Fs) (comps : List PathComp) : Prop where
  ne_nil : comps ≠ []
  resolved : realpath (dirText comps) = some (dirText comps)
  ancestors : ∀ k, 0 < k → k ≤ comps.length → fs.isDir (dirText (comps.take k)) = true
  noRepo : findRepoRootFrom fs.isDir (dirText comps) = none
  vacant : ∀ p, dirText (comps ++ [scribeComp]) <+: p → fs.pathExists p = false

section Stages

variable {realpath : Bytes → Option Bytes} {fs : Fs} {comps : List PathComp}

theorem dirText_scribe_child (comps : List PathComp) (c : PathComp) :
    dirText (comps ++ [scribeComp, c]) = dirText (comps ++ [scribeComp] ++ [c]) := by
  simp

theorem pathJoin_scribe_child (comps : List PathComp) (c : PathComp) :
    pathJoin (dirText (comps ++ [scribeComp])) c.bytes = dirText (comps ++ [scribeComp, c]) := by
  rw [pathJoin_dirText (by simp), dirText_scribe_child]

theorem InitSite.prefix_child (comps : List PathComp) (c : PathComp) :
    dirText (comps ++ [scribeComp]) <+: dirText (comps ++ [scribeComp, c]) := by
  rw [dirText_scribe_child, dirText_append (comps ++ [scribeComp])]
  exact List.prefix_append _ _

theorem InitSite.child_ne (comps : List PathComp) (c : PathComp) :
    dirText (comps ++ [scribeComp, c]) ≠ dirText (comps ++ [scribeComp]) := by
  rw [dirText_scribe_child]
  exact dirText_append_ne _ (List.cons_ne_nil _ _)

theorem scribeChild_ne (comps : List PathComp) {c c' : PathComp} (h : c.bytes ≠ c'.bytes) :
    dirText (comps ++ [scribeComp, c]) ≠ dirText (comps ++ [scribeComp, c']) := by
  rw [dirText_append, dirText_append, Ne, List.append_cancel_left_eq]
  simpa [dirText] using h

/-- The directories after the two `mkdir`s: `.scribe`, and `objects` when its `mkdir` goes
through. -/
def initDirs (comps : List PathComp) (objectsOk : Bool) (fs : Fs) : Fs :=
  if objectsOk then (fs.addDir (dirText (comps ++ [scribeComp]))).addDir
    (dirText (comps ++ [scribeComp, objectsComp]))
  else fs.addDir (dirText (comps ++ [scribeComp]))

theorem initDirs_isDir (objectsOk : Bool) (q : Bytes) :
    (initDirs comps objectsOk fs).isDir q =
      (decide (q = dirText (comps ++ [scribeComp])) ||
        objectsOk && decide (q = dirText (comps ++ [scribeComp, objectsComp])) || fs.isDir q) := by
  cases objectsOk <;> simp [initDirs, Bool.or_assoc, Bool.or_left_comm]

@[simp] theorem initDirs_inode (objectsOk : Bool) : (initDirs comps objectsOk fs).inode = fs.inode := by
  cases objectsOk <;> rfl

@[simp] theorem initDirs_data (objectsOk : Bool) : (initDirs comps objectsOk fs).data = fs.data := by
  cases objectsOk <;> rfl

@[simp] theorem initDirs_fresh (objectsOk : Bool) : (initDirs comps objectsOk fs).fresh = fs.fresh := by
  cases objectsOk <;> rfl

/-- The file system after the two `mkdir`s and `scribe_db_open`: `scribe.db` is opened, and so
created, when the store comes up or `sqlite3_open` got that far before failing. -/
def initFiles (comps : List PathComp) (faults : InitFaults) (fs : Fs) : Fs :=
  let dirs := initDirs comps faults.objectsMkdir fs
  if faults.dbOk || faults.dbFileCreated then
    (dirs.openCreate (dirText (comps ++ [scribeComp, dbComp]))).getD dirs
  else dirs

/-- `scribe_repo_init` at a site, stage by stage: `.scribe` made or the init given up with
nothing changed; `objects` made or not; `scribe.db` created or not; the store opened and the
configuration saved, or the init given up with the files left. -/
theorem repoInit_eq (h : InitSite realpath fs comps) (faults : InitFaults) :
    repoInit realpath faults (dirText comps) fs =
      if faults.scribeMkdir then
        if faults.dbOk then
          (configSaveFile faults.configOpened (dirText (comps ++ [scribeComp, configComp]))
            repoInitConfig (initFiles comps faults fs), some dbInit)
        else (initFiles comps faults fs, none)
      else (fs, none) := by
  have hscribe : pathJoin (dirText comps) scribeDirName = dirText (comps ++ [scribeComp]) :=
    pathJoin_dirText h.ne_nil scribeComp
  have hnew : fs.pathExists (dirText (comps ++ [scribeComp])) = false := h.vacant _ (List.prefix_refl _)
  rw [repoInit, findRepoRoot, h.resolved, Option.some_bind, h.noRepo, Option.isSome_none,
    if_neg Bool.false_ne_true]
  dsimp only
  rw [hscribe, Fs.pathMkdir_child h.ne_nil h.ancestors scribeComp hnew]
  cases hs : faults.scribeMkdir
  · rfl
  have hanc : ∀ k, 0 < k → k ≤ (comps ++ [scribeComp]).length →
      (fs.addDir (dirText (comps ++ [scribeComp]))).isDir (dirText ((comps ++ [scribeComp]).take k)) = true := by
    intro k hk hle
    rw [Fs.addDir_isDir]
    rcases Nat.lt_or_ge k (comps.length + 1) with hlt | hge
    · rw [List.take_append_of_le_length (by omega), h.ancestors k hk (by omega), Bool.or_true]
    · rw [List.take_of_length_le (by simp; omega), decide_eq_true rfl, Bool.true_or]
  have hobj : (fs.addDir (dirText (comps ++ [scribeComp]))).pathExists
      (dirText (comps ++ [scribeComp, objectsComp])) = false := by
    have hv := h.vacant _ (InitSite.prefix_child comps objectsComp)
    simp only [Fs.pathExists, Bool.or_eq_false_iff] at hv ⊢
    simp [hv, InitSite.child_ne comps objectsComp]
  have hO := Fs.pathMkdir_child (by simp) hanc objectsComp (dirText_scribe_child comps objectsComp ▸ hobj)
    faults.objectsMkdir
  rw [← dirText_scribe_child] at hO
  rw [if_pos rfl, if_pos rfl]
  dsimp only
  rw [pathJoin_scribe_child, pathJoin_scribe_child, pathJoin_scribe_child, hO]
  rcases faults with ⟨_, _ | _, _, _, _⟩ <;> rfl

end Stages

/-! ## The init as a whole -/

section Whole

variable {realpath : Bytes → Option Bytes} {fs : Fs} {comps : List PathComp}

/-- Nothing is at `.scribe` or at a child of it before the init. -/
theorem InitSite.vacant_child (h : InitSite realpath fs comps) (c : PathComp) :
    fs.inode (dirText (comps ++ [scribeComp, c])) = none ∧
      fs.isDir (dirText (comps ++ [scribeComp, c])) = false := by
  simpa [Fs.pathExists] using h.vacant _ (InitSite.prefix_child comps c)

/-- Once `.scribe` is a directory, the search from the site finds it, and so every later init
there is refused and changes nothing. -/
theorem InitSite.refused (h : InitSite realpath fs comps) {fs' : Fs}
    (hdir : fs'.isDir (dirText (comps ++ [scribeComp])) = true) :
    findRepoRoot realpath fs'.isDir (dirText comps) = some (dirText (comps ++ [scribeComp])) ∧
      ∀ faults', repoInit realpath faults' (dirText comps) fs' = (fs', none) := by
  have hfound : findRepoRoot realpath fs'.isDir (dirText comps) = some (dirText (comps ++ [scribeComp])) := by
    rw [findRepoRoot, h.resolved, Option.some_bind, findRepoRootFrom_eq,
      show pathJoin (dirText comps) scribeDirName = dirText (comps ++ [scribeComp]) from
        pathJoin_dirText h.ne_nil scribeComp, if_pos hdir]
  exact ⟨hfound, fun _ => by rw [repoInit, hfound, Option.isSome_some, if_pos rfl]⟩

theorem dbPath_ne_objectsPath (comps : List PathComp) :
    dirText (comps ++ [scribeComp, dbComp]) ≠ dirText (comps ++ [scribeComp, objectsComp]) :=
  scribeChild_ne comps (by decide)

theorem configPath_ne_objectsPath (comps : List PathComp) :
    dirText (comps ++ [scribeComp, configComp]) ≠ dirText (comps ++ [scribeComp, objectsComp]) :=
  scribeChild_ne comps (by decide)

theorem dbPath_ne_configPath (comps : List PathComp) :
    dirText (comps ++ [scribeComp, dbComp]) ≠ dirText (comps ++ [scribeComp, configComp]) :=
  scribeChild_ne comps (by decide)

/-- `scribe_db_open` at a site: `scribe.db`, when it is created, is a new file in a fresh inode,
and no other name, directory or inode that was there changes. -/
theorem InitSite.initFiles_frame (h : InitSite realpath fs comps) (faults : InitFaults) :
    (initFiles comps faults fs).isDir = (initDirs comps faults.objectsMkdir fs).isDir ∧
      (∀ q, q ≠ dirText (comps ++ [scribeComp, dbComp]) → (initFiles comps faults fs).inode q = fs.inode q) ∧
      ((initFiles comps faults fs).inode (dirText (comps ++ [scribeComp, dbComp]))).isSome =
        (faults.dbOk || faults.dbFileCreated) ∧
      (∀ n, n < fs.fresh → (initFiles comps faults fs).data n = fs.data n) ∧
      fs.fresh ≤ (initFiles comps faults fs).fresh := by
  obtain ⟨hDi, hDd⟩ := h.vacant_child dbComp
  have hdir : (initDirs comps faults.objectsMkdir fs).isDir (dirText (comps ++ [scribeComp, dbComp])) = false := by
    simp [initDirs_isDir, InitSite.child_ne comps dbComp, dbPath_ne_objectsPath comps, hDd]
  have hparent :
      (initDirs comps faults.objectsMkdir fs).isDir (pathDirname (dirText (comps ++ [scribeComp, dbComp]))) = true := by
    rw [dirText_scribe_child, pathDirname_dirText (by simp)]
    simp [initDirs_isDir]
  rw [initFiles]
  split_ifs with hc
  · rw [Fs.openCreate_new hdir hparent (by rw [initDirs_inode]; exact hDi), Option.getD_some]
    exact ⟨rfl, fun q hq => by simp [hq], by simp [hc], fun n hn => by simp [Nat.ne_of_lt hn], by simp⟩
  · exact ⟨rfl, fun q _ => by simp, by simpa [hDi] using (Bool.eq_false_iff.mpr hc).symm, fun n _ => by simp,
      by simp⟩

/-- After the `mkdir`s and `scribe_db_open`, `.scribe` is a directory and `config.json` can be
created in it. -/
theorem InitSite.configWritable (h : InitSite realpath fs comps) (faults : InitFaults) :
    (initFiles comps faults fs).isDir (dirText (comps ++ [scribeComp])) = true ∧
      (initFiles comps faults fs).isDir (dirText (comps ++ [scribeComp, configComp])) = false ∧
      (initFiles comps faults fs).isDir (pathDirname (dirText (comps ++ [scribeComp, configComp]))) = true ∧
      (initFiles comps faults fs).inode (dirText (comps ++ [scribeComp, configComp])) = none := by
  obtain ⟨hisDir, hinode, -⟩ := h.initFiles_frame faults
  obtain ⟨hCi, hCd⟩ := h.vacant_child configComp
  have hS : (initFiles comps faults fs).isDir (dirText (comps ++ [scribeComp])) = true := by
    simp [hisDir, initDirs_isDir]
  refine ⟨hS, ?_, by rwa [dirText_scribe_child, pathDirname_dirText (by simp)], ?_⟩
  · simp [hisDir, initDirs_isDir, InitSite.child_ne comps configComp, configPath_ne_objectsPath comps, hCd]
  · rw [hinode _ (dbPath_ne_configPath comps).symm, hCi]

/-- One `scribe_repo_init` of a site, whatever fails: it returns the new, empty store exactly
when `.scribe` is made and the store opens; `.scribe` is then a directory exactly when its
`mkdir` went through, `objects` exactly when both `mkdir`s did, and `scribe.db` a file exactly
when `.scribe` is made and `sqlite3_open` created it; `config.json` loads as the default
configuration exactly when the store opened and the file could be written, and is missing
otherwise; nothing outside those four paths is renamed, made or removed, and no inode that was
there is written; and once `.scribe` is made, the search from the site finds it and every later
init there is refused, whether or not this one returned a repository. -/
theorem repoInit_spec (h : InitSite realpath fs comps) (faults : InitFaults) {fs' : Fs}
    {db : Option Db} (hinit : repoInit realpath faults (dirText comps) fs = (fs', db)) :
    db = (if faults.scribeMkdir && faults.dbOk then some dbInit else none) ∧
      fs'.isDir (dirText (comps ++ [scribeComp])) = faults.scribeMkdir ∧
      fs'.isDir (dirText (comps ++ [scribeComp, objectsComp])) =
        (faults.scribeMkdir && faults.objectsMkdir) ∧
      (fs'.inode (dirText (comps ++ [scribeComp, dbComp]))).isSome =
        (faults.scribeMkdir && (faults.dbOk || faults.dbFileCreated)) ∧
      configLoad (fs'.readFile (dirText (comps ++ [scribeComp, configComp]))) =
        (if faults.scribeMkdir && faults.dbOk && faults.configOpened then some repoInitConfig
          else none) ∧
      (∀ p, p ≠ dirText (comps ++ [scribeComp]) → p ≠ dirText (comps ++ [scribeComp, objectsComp]) →
        p ≠ dirText (comps ++ [scribeComp, dbComp]) → p ≠ dirText (comps ++ [scribeComp, configComp]) →
          fs'.inode p = fs.inode p ∧ fs'.isDir p = fs.isDir p) ∧
      (∀ n, n < fs.fresh → fs'.data n = fs.data n) ∧
      (faults.scribeMkdir = true →
        findRepoRoot realpath fs'.isDir (dirText comps) = some (dirText (comps ++ [scribeComp])) ∧
          ∀ faults', repoInit realpath faults' (dirText comps) fs' = (fs', none)) := by
  have hS : fs.pathExists (dirText (comps ++ [scribeComp])) = false := h.vacant _ (List.prefix_refl _)
  simp only [Fs.pathExists, Bool.or_eq_false_iff] at hS
  obtain ⟨-, hOd⟩ := h.vacant_child objectsComp
  obtain ⟨hDi, -⟩ := h.vacant_child dbComp
  obtain ⟨hCi, -⟩ := h.vacant_child configComp
  rw [repoInit_eq h] at hinit
  cases hs : faults.scribeMkdir
  case false =>
    rw [hs, if_neg Bool.false_ne_true, Prod.mk.injEq] at hinit
    obtain ⟨rfl, rfl⟩ := hinit
    simp [hS.2, hOd, hDi, Fs.readFile, hCi, configLoad]
  case true =>
    rw [hs, if_pos rfl] at hinit
    obtain ⟨hfiles_S, hfiles_C, hparent, hfiles_Ci⟩ := h.configWritable faults
    obtain ⟨hfiles_dir, hfiles_inode, hfiles_db, hfiles_data, hfiles_fresh⟩ := h.initFiles_frame faults
    set files := initFiles comps faults fs
    obtain ⟨rfl, rfl⟩ : fs' = (if faults.dbOk then configSaveFile faults.configOpened
        (dirText (comps ++ [scribeComp, configComp])) repoInitConfig files else files) ∧
        db = (if faults.dbOk then some dbInit else none) := by
      split_ifs at hinit ⊢ <;> exact ⟨(Prod.mk.inj hinit).1.symm, (Prod.mk.inj hinit).2.symm⟩
    have hframe := configSaveFile_frame faults.configOpened
      (dirText (comps ++ [scribeComp, configComp])) repoInitConfig files
    have hisDir : (if faults.dbOk then configSaveFile faults.configOpened
        (dirText (comps ++ [scribeComp, configComp])) repoInitConfig files else files).isDir = files.isDir := by
      split_ifs <;> simp only [configSaveFile_isDir]
    have hinode : ∀ q, q ≠ dirText (comps ++ [scribeComp, configComp]) →
        (if faults.dbOk then configSaveFile faults.configOpened
          (dirText (comps ++ [scribeComp, configComp])) repoInitConfig files else files).inode q = files.inode q := by
      intro q hq
      split_ifs
      exacts [hframe.1 q hq, rfl]
    refine ⟨by simp, by rw [hisDir, hfiles_S], ?_, ?_, ?_, fun p hpS hpO hpD hpC => ⟨?_, ?_⟩,
      fun n hn => ?_, fun _ => h.refused (by rw [hisDir, hfiles_S])⟩
    · simp [hisDir, hfiles_dir, initDirs_isDir, InitSite.child_ne comps objectsComp, hOd]
    · rw [hinode _ (dbPath_ne_configPath comps), hfiles_db, Bool.true_and]
    · cases faults.dbOk
      · simp [Fs.readFile, hfiles_Ci, configLoad]
      · rw [if_pos rfl, configLoad_configSaveFile _ _ hfiles_C hparent,
          show repoInitConfig.utf8 = true by decide, repoInitConfig_saved]
        simp [Fs.readFile, hfiles_Ci, configLoad]
    · rw [hinode p hpC, hfiles_inode p hpD]
    · simp [hisDir, hfiles_dir, initDirs_isDir, hpS, hpO]
    · split_ifs
      · rw [hframe.2 n (by rw [hfiles_Ci]; exact Option.noConfusion) (by omega), hfiles_data n hn]
      · exact hfiles_data n hn

/-! ## `scribe init` -/

theorem InitSite.cmdInit_refused (h : InitSite realpath fs comps) {fs' : Fs}
    (hdir : fs'.isDir (dirText (comps ++ [scribeComp])) = true) (cwd : Option Bytes)
    (faults : InitFaults) (saveOpened : Bool) {args : InitArgs} (hpath : args.path = some (dirText comps)) :
    cmdInit realpath cwd faults saveOpened args fs' = (fs', 1) := by
  rw [cmdInit, hpath, Option.some_bind, (h.refused hdir).1, Option.isSome_some, if_pos rfl]

/-- `scribe init --author A --role R` of a site, whatever fails: it exits 0 exactly when
`scribe_repo_init` returns a repository; `config.json` then holds the default configuration
with the given author and role put in when the second save goes through and they are UTF-8,
the default configuration when it does not, and is missing when the first save failed; and once
`.scribe` is made, every later `scribe init` of the directory exits 1 and changes nothing. -/
theorem cmdInit_spec (h : InitSite realpath fs comps) (cwd : Option Bytes) (faults : InitFaults)
    (saveOpened : Bool) (author role : Option CStr) {fs' : Fs} {code : Nat}
    (hrun : cmdInit realpath cwd faults saveOpened ⟨some (dirText comps), author, role⟩ fs = (fs', code)) :
    code = (if faults.scribeMkdir && faults.dbOk then 0 else 1) ∧
      configLoad (fs'.readFile (dirText (comps ++ [scribeComp, configComp]))) =
        (if faults.scribeMkdir && faults.dbOk && faults.configOpened then
          some (if saveOpened && (initOverride author role repoInitConfig).utf8
            then initOverride author role repoInitConfig else repoInitConfig)
        else none) ∧
      (faults.scribeMkdir = true → ∀ cwd' faults' saveOpened' (args' : InitArgs),
        args'.path = some (dirText comps) → cmdInit realpath cwd' faults' saveOpened' args' fs' = (fs', 1)) := by
  have hfind : findRepoRoot realpath fs.isDir (dirText comps) = none := by
    rw [findRepoRoot, h.resolved, Option.some_bind, h.noRepo]
  have hconfig : pathJoin (pathJoin (dirText comps) scribeDirName) configComp.bytes =
      dirText (comps ++ [scribeComp, configComp]) := by
    rw [show pathJoin (dirText comps) scribeDirName = dirText (comps ++ [scribeComp]) from
      pathJoin_dirText h.ne_nil scribeComp, pathJoin_scribe_child]
  rw [cmdInit, Option.some_bind, hfind, Option.isSome_none, if_neg Bool.false_ne_true] at hrun
  dsimp only [HOrElse.hOrElse, OrElse.orElse, Option.orElse] at hrun
  rw [repoInit_eq h, hconfig] at hrun
  obtain ⟨hS, hC, hparent, hCi⟩ := h.configWritable faults
  set files := initFiles comps faults fs
  set first := configSaveFile faults.configOpened (dirText (comps ++ [scribeComp, configComp]))
    repoInitConfig files with hfirst
  have hfirst_dir : first.isDir = files.isDir := configSaveFile_isDir _ _ _ _
  have hfirst_load : configLoad (first.readFile (dirText (comps ++ [scribeComp, configComp]))) =
      if faults.configOpened then some repoInitConfig else none := by
    rw [hfirst, configLoad_configSaveFile _ _ hC hparent, show repoInitConfig.utf8 = true by decide]
    simp [Fs.readFile, hCi, configLoad, repoInitConfig_saved]
  cases hs : faults.scribeMkdir
  case false =>
    simp only [hs, if_neg Bool.false_ne_true, Prod.mk.injEq] at hrun
    obtain ⟨rfl, rfl⟩ := hrun
    obtain ⟨hfCi, -⟩ := h.vacant_child configComp
    simp [Fs.readFile, hfCi, configLoad]
  cases hdb : faults.dbOk
  case false =>
    simp only [hs, hdb, if_pos, if_neg Bool.false_ne_true, Prod.mk.injEq] at hrun
    obtain ⟨rfl, rfl⟩ := hrun
    refine ⟨rfl, by simp [Fs.readFile, hCi, configLoad], fun _ => ?_⟩
    exact fun _ _ _ _ => h.cmdInit_refused hS _ _ _
  simp only [hs, hdb, if_true] at hrun
  have hrefused : ∀ fs'', fs''.isDir = first.isDir → ∀ cwd' faults' saveOpened' (args' : InitArgs),
      args'.path = some (dirText comps) → cmdInit realpath cwd' faults' saveOpened' args' fs'' = (fs'', 1) :=
    fun fs'' hd _ _ _ _ => h.cmdInit_refused (by rw [hd, hfirst_dir, hS]) _ _ _
  by_cases hgiven : (author.isSome || role.isSome) = true
  · rw [if_pos hgiven, hfirst_load] at hrun
    cases hc : faults.configOpened with
    | false =>
      simp only [hc, if_neg Bool.false_ne_true, Prod.mk.injEq] at hrun
      obtain ⟨rfl, rfl⟩ := hrun
      exact ⟨rfl, by simp [hfirst_load, hc], fun _ => hrefused _ rfl⟩
    | true =>
      simp only [hc, if_true, Prod.mk.injEq] at hrun
      obtain ⟨rfl, rfl⟩ := hrun
      refine ⟨rfl, ?_, fun _ => hrefused _ (configSaveFile_isDir _ _ _ _)⟩
      rw [configLoad_configSaveFile _ _ (by rw [hfirst_dir]; exact hC) (by rw [hfirst_dir]; exact hparent),
        hfirst_load, hc, initOverride_saved]
      by_cases hso : (saveOpened && (initOverride author role repoInitConfig).utf8) = true <;> simp [hso]
  · rw [Bool.not_eq_true, Bool.or_eq_false_iff] at hgiven
    obtain rfl := Option.not_isSome_iff_eq_none.mp (Bool.eq_false_iff.mp hgiven.1)
    obtain rfl := Option.not_isSome_iff_eq_none.mp (Bool.eq_false_iff.mp hgiven.2)
    simp only [Option.isSome_none, Bool.or_self, if_neg Bool.false_ne_true, Prod.mk.injEq] at hrun
    obtain ⟨rfl, rfl⟩ := hrun
    refine ⟨rfl, ?_, fun _ => hrefused _ rfl⟩
    rw [hfirst_load]
    cases faults.configOpened <;> simp [initOverride]

/-- `/srv`, `/srv/repo`: a machine with the one directory and no repository. -/
def srvComp : PathComp := ⟨ascii "srv", by decide, by decide⟩

def repoComp : PathComp := ⟨ascii "repo", by decide, by decide⟩

def srvRepoFs : Fs :=
  ⟨fun _ => none, fun _ => [],
    fun p => decide (p = dirText [srvComp]) || decide (p = dirText [srvComp, repoComp]), 0⟩

theorem srvRepo_site : InitSite some srvRepoFs [srvComp, repoComp] := by
  refine ⟨List.cons_ne_nil _ _, rfl, fun k hk hle => ?_, ?_, fun p hp => ?_⟩
  · rcases k with _ | _ | _ | k
    · omega
    · decide
    · decide
    · simp at hle
  · have h0 := findRepoRootFrom_concat srvRepoFs.isDir [] srvComp
    have h1 := findRepoRootFrom_concat srvRepoFs.isDir [srvComp] repoComp
    rw [show dirText [srvComp, repoComp] = absPath ([srvComp] ++ [repoComp]) from rfl, h1,
      if_neg (by decide), if_neg (by decide), show [srvComp] = [] ++ [srvComp] from rfl, h0,
      if_neg (by decide), if_pos rfl]
  · have hlen := hp.length_le
    have hA : p ≠ dirText [srvComp] := fun h => by subst h; exact absurd hlen (by decide)
    have hB : p ≠ dirText [srvComp, repoComp] := fun h => by subst h; exact absurd hlen (by decide)
    simp [Fs.pathExists, srvRepoFs, hA, hB]

theorem repoInit_spec_srvRepo :
    InitSite some srvRepoFs [srvComp, repoComp] ∧
      (repoInit some ⟨true, true, true, false, true⟩ (dirText [srvComp, repoComp]) srvRepoFs).2 = some dbInit ∧
      ((repoInit some ⟨true, true, true, false, true⟩ (dirText [srvComp, repoComp]) srvRepoFs).1.inode
        (dirText [srvComp, repoComp, scribeComp, dbComp])).isSome ∧
      configLoad ((repoInit some ⟨true, true, true, false, true⟩ (dirText [srvComp, repoComp]) srvRepoFs).1.readFile
        (dirText [srvComp, repoComp, scribeComp, configComp])) = some repoInitConfig := by
  obtain ⟨hdb, -, -, hfile, hcfg, -⟩ := repoInit_spec srvRepo_site ⟨true, true, true, false, true⟩ Prod.mk.eta.symm
  exact ⟨srvRepo_site, hdb, hfile, hcfg⟩

/-- `scribe init --author user:alice /srv/repo`. -/
def aliceInit : InitArgs := ⟨some (dirText [srvComp, repoComp]), some (CStr.lit "user:alice"), none⟩

theorem cmdInit_spec_alice :
    InitSite some srvRepoFs [srvComp, repoComp] ∧
      (cmdInit some none ⟨true, true, true, false, true⟩ true aliceInit srvRepoFs).2 = 0 ∧
      configLoad ((cmdInit some none ⟨true, true, true, false, true⟩ true aliceInit srvRepoFs).1.readFile
        (dirText [srvComp, repoComp, scribeComp, configComp])) =
        some (initOverride (some (CStr.lit "user:alice")) none repoInitConfig) := by
  obtain ⟨hcode, hcfg, -⟩ := cmdInit_spec srvRepo_site none ⟨true, true, true, false, true⟩ true
    (some (CStr.lit "user:alice")) none Prod.mk.eta.symm
  exact ⟨srvRepo_site, hcode, hcfg.trans (by decide)⟩

end Whole

end Scribe

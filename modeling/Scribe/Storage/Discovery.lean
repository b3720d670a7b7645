import Scribe.Json.Writer
import Mathlib.Data.List.DropRight
import Mathlib.Data.List.Infix

/-!
# Repository discovery

`scribe_find_repo_root` resolves its start with `realpath` and walks upward: at each directory
it asks `scribe_path_is_dir` about `<dir>/.scribe`, and otherwise cuts its text at the last
`/`.  It stops when that slash is the first byte, before it has asked about the root, so the
root is only ever looked at when the walk starts there.

A resolved directory is `absPath comps`, built from its components.  `findRepoRootFrom_absPath`
gives the directories the walk asks about, deepest first: from `/`, the root; from any other
directory, that directory and its proper ancestors, but not `/`.  `specRepoRoot` is the search
with the root included.

The file system is the predicate `isDir`: whether `stat` finds a directory at a path.
-/

namespace Scribe

/-! ## The code -/

/-- `SCRIBE_DIR_NAME`. -/
def scribeDirName : Bytes := ascii ".scribe"

/-- `strrchr(s, c)`: the offset of the last `c` in `s`. -/
def strrchr : Bytes → UInt8 → Option Nat
  | [], _ => none
  | b :: s, c =>
      match strrchr s c with
      | some i => some (i + 1)
      | none => if b = c then some 0 else none

theorem strrchr_lt : ∀ {s : Bytes} {c : UInt8} {i : Nat}, strrchr s c = some i → i < s.length
  | [], _, _, h => nomatch h
  | b :: s, c, i, h => by
      rw [strrchr] at h
      split at h
      · cases h; exact Nat.succ_lt_succ (strrchr_lt ‹_›)
      · split at h <;> cases h; exact Nat.succ_pos _

/-- `scribe_path_join`: `base` without its trailing slashes, one slash, and `component`
without its leading ones. -/
def pathJoin (base component : Bytes) : Bytes :=
  base.rdropWhile (· == 0x2F) ++ 0x2F :: component.dropWhile (· == 0x2F)

/-- The loop of `scribe_find_repo_root`, from the text `current`. -/
def findRepoRootFrom (isDir : Bytes → Bool) (current : Bytes) : Option Bytes :=
  let scribePath := pathJoin current scribeDirName
  if isDir scribePath then some scribePath
  else
    match h : strrchr current 0x2F with
    | none => none
    | some 0 => none
    | some (i + 1) => findRepoRootFrom isDir (current.take (i + 1))
termination_by current.length
decreasing_by
  have := strrchr_lt h
  simp only [List.length_take]
  omega

/-- `scribe_find_repo_root`: `realpath` is the resolution the system gives, `none` when it
fails. -/
def findRepoRoot (realpath : Bytes → Option Bytes) (isDir : Bytes → Bool) (start : Bytes) :
    Option Bytes :=
  (realpath start).bind (findRepoRootFrom isDir)

theorem findRepoRootFrom_eq (isDir : Bytes → Bool) (current : Bytes) :
    findRepoRootFrom isDir current =
      if isDir (pathJoin current scribeDirName) then some (pathJoin current scribeDirName)
      else match strrchr current 0x2F with
        | some (i + 1) => findRepoRootFrom isDir (current.take (i + 1))
        | _ => none := by
  rw [findRepoRootFrom]
  split
  · rfl
  · split <;> simp_all

/-! ## Resolved paths -/

/-- A path component as `realpath` leaves it: not empty, and with no slash. -/
structure PathComp where
  bytes : Bytes
  ne_nil : bytes ≠ []
  slash_not_mem : 0x2F ∉ bytes
  deriving DecidableEq

/-- The component `.scribe`. -/
def scribeComp : PathComp := ⟨scribeDirName, by decide, by decide⟩

/-- The text of a directory below the root: each component after a slash. -/
def dirText (comps : List PathComp) : Bytes := comps.flatMap fun c => 0x2F :: c.bytes

/-- The text `realpath` gives for the directory `comps`: `/` for the root. -/
def absPath (comps : List PathComp) : Bytes := if comps = [] then [0x2F] else dirText comps

@[simp] theorem dirText_nil : dirText [] = [] := rfl

theorem dirText_concat (pre : List PathComp) (c : PathComp) :
    dirText (pre ++ [c]) = dirText pre ++ 0x2F :: c.bytes := by
  simp [dirText]

theorem strrchr_eq_none {s : Bytes} {c : UInt8} (h : c ∉ s) : strrchr s c = none := by
  induction s with
  | nil => rfl
  | cons b s ih =>
      rw [List.mem_cons, not_or] at h
      rw [strrchr, ih h.2, if_neg (Ne.symm h.1)]

theorem strrchr_append_cons (s t : Bytes) {c : UInt8} (h : c ∉ t) :
    strrchr (s ++ c :: t) c = some s.length := by
  induction s with
  | nil => rw [List.nil_append, strrchr, strrchr_eq_none h, if_pos rfl]; rfl
  | cons b s ih => rw [List.cons_append, strrchr, ih]; rfl

theorem strrchr_dirText_concat (pre : List PathComp) (c : PathComp) :
    strrchr (dirText (pre ++ [c])) 0x2F = some (dirText pre).length := by
  rw [dirText_concat, strrchr_append_cons _ _ c.slash_not_mem]

theorem pathJoin_dirText_concat (pre : List PathComp) (c : PathComp) :
    pathJoin (dirText (pre ++ [c])) scribeDirName = dirText (pre ++ [c, scribeComp]) := by
  obtain ⟨init, last, hc⟩ := List.eq_nil_or_concat c.bytes |>.resolve_left c.ne_nil
  have hlast : last ≠ 0x2F := fun h => c.slash_not_mem (by rw [hc, ← h]; simp)
  have hdrop : (dirText (pre ++ [c])).rdropWhile (· == 0x2F) = dirText (pre ++ [c]) := by
    rw [dirText_concat, hc, List.concat_eq_append, ← List.cons_append, ← List.append_assoc]
    exact List.rdropWhile_concat_neg _ _ _ (by simpa using hlast)
  rw [pathJoin, hdrop, show pre ++ [c, scribeComp] = pre ++ [c] ++ [scribeComp] by simp,
    dirText_concat (pre ++ [c]) scribeComp]
  rfl

theorem pathJoin_root : pathJoin [0x2F] scribeDirName = dirText [scribeComp] := rfl

theorem pathJoin_absPath (comps : List PathComp) :
    pathJoin (absPath comps) scribeDirName = dirText (comps ++ [scribeComp]) := by
  rcases List.eq_nil_or_concat comps with rfl | ⟨pre, c, rfl⟩
  · exact pathJoin_root
  · rw [List.concat_eq_append, absPath, if_neg (by simp), pathJoin_dirText_concat]
    simp

theorem findRepoRootFrom_concat (isDir : Bytes → Bool) (pre : List PathComp) (c : PathComp) :
    findRepoRootFrom isDir (absPath (pre ++ [c])) =
      if isDir (dirText (pre ++ [c, scribeComp])) then some (dirText (pre ++ [c, scribeComp]))
      else if pre = [] then none else findRepoRootFrom isDir (absPath pre) := by
  have hpath : absPath (pre ++ [c]) = dirText (pre ++ [c]) := if_neg (by simp)
  rw [findRepoRootFrom_eq, hpath, pathJoin_dirText_concat, strrchr_dirText_concat]
  refine if_congr Iff.rfl rfl ?_
  rcases pre with _ | ⟨d, pre⟩
  · rfl
  · obtain ⟨k, hk⟩ : ∃ k, (dirText (d :: pre)).length = k + 1 := ⟨_, rfl⟩
    rw [hk]
    dsimp only
    rw [← hk, dirText_concat, List.take_left, if_neg (List.cons_ne_nil d pre), absPath,
      if_neg (List.cons_ne_nil d pre)]

/-! ## The search the spec describes -/

/-- The `.scribe` of the first of `dirs` that has one. -/
def firstRepo (isDir : Bytes → Bool) (dirs : List (List PathComp)) : Option Bytes :=
  (dirs.map fun dir => dirText (dir ++ [scribeComp])).find? isDir

/-- Discovery as the spec states it: the `.scribe` of the deepest directory among `comps`,
its proper ancestors and the root, that has one. -/
def specRepoRoot (isDir : Bytes → Bool) (comps : List PathComp) : Option Bytes :=
  firstRepo isDir comps.inits.reverse

@[simp] theorem firstRepo_nil (isDir : Bytes → Bool) : firstRepo isDir [] = none := rfl

theorem firstRepo_cons (isDir : Bytes → Bool) (dir : List PathComp)
    (dirs : List (List PathComp)) :
    firstRepo isDir (dir :: dirs) =
      if isDir (dirText (dir ++ [scribeComp])) then some (dirText (dir ++ [scribeComp]))
      else firstRepo isDir dirs := by
  simp only [firstRepo, List.map_cons, List.find?_cons]
  split <;> simp_all

theorem reverse_inits_concat (pre : List PathComp) (c : PathComp) :
    (pre ++ [c]).inits.reverse = (pre ++ [c]) :: pre.inits.reverse := by
  simp [List.inits_append]

/-- The directories the walk asks about, deepest first: from `/`, the root alone; from any
other directory, that directory and its proper ancestors, without the root. -/
theorem findRepoRootFrom_absPath (isDir : Bytes → Bool) (comps : List PathComp) :
    findRepoRootFrom isDir (absPath comps) =
      firstRepo isDir (if comps = [] then [[]] else comps.inits.reverse.dropLast) := by
  induction comps using List.reverseRecOn with
  | nil =>
      rw [if_pos rfl, firstRepo_cons, firstRepo_nil]
      exact (findRepoRootFrom_eq isDir [0x2F]).trans
        (if_congr Iff.rfl (congrArg some pathJoin_root) rfl)
  | append_singleton pre c ih =>
      have hne : pre.inits.reverse ≠ [] := by cases pre <;> simp [List.inits]
      rw [findRepoRootFrom_concat, if_neg (show pre ++ [c] ≠ [] by simp), reverse_inits_concat,
        List.dropLast_cons_of_ne_nil hne, firstRepo_cons, List.append_assoc, List.singleton_append]
      refine if_congr Iff.rfl rfl ?_
      split_ifs at ih ⊢ with hpre
      · subst hpre; rfl
      · exact ih

theorem dirText_ne_root (pre : List PathComp) (c : PathComp) :
    dirText (pre ++ [c, scribeComp]) ≠ dirText [scribeComp] := fun h => by
  have := congrArg List.length h
  simp [dirText] at this
  omega

/-- A repository at `/` alone: from every directory below the root, discovery finds nothing,
where the spec's search finds `/.scribe`. -/
theorem findRepoRoot_misses_root (comps : List PathComp) (hcomps : comps ≠ []) :
    findRepoRoot some (· == dirText [scribeComp]) (absPath comps) = none ∧
      specRepoRoot (· == dirText [scribeComp]) comps = some (dirText [scribeComp]) := by
  induction comps using List.reverseRecOn with
  | nil => exact absurd rfl hcomps
  | append_singleton pre c ih =>
      have hroot : (dirText (pre ++ [c, scribeComp]) == dirText [scribeComp]) = false :=
        beq_false_of_ne (dirText_ne_root pre c)
      rw [specRepoRoot, reverse_inits_concat, firstRepo_cons, List.append_assoc,
        List.singleton_append, hroot]
      rcases eq_or_ne pre [] with rfl | hpre
      · refine ⟨?_, rfl⟩
        rw [findRepoRoot, Option.some_bind, findRepoRootFrom_concat, hroot]
        rfl
      · refine ⟨?_, (ih hpre).2⟩
        rw [findRepoRoot, Option.some_bind, findRepoRootFrom_concat, hroot,
          if_neg Bool.false_ne_true, if_neg hpre]
        exact (ih hpre).1

/-- The directory `/home`. -/
def homeComp : PathComp := ⟨ascii "home", by decide, by decide⟩

theorem findRepoRoot_misses_slash_scribe_from_home :
    [homeComp] ≠ [] ∧
      findRepoRoot some (· == dirText [scribeComp]) (absPath [homeComp]) = none ∧
      specRepoRoot (· == dirText [scribeComp]) [homeComp] = some (dirText [scribeComp]) :=
  ⟨List.cons_ne_nil _ _, findRepoRoot_misses_root [homeComp] (List.cons_ne_nil _ _)⟩

end Scribe

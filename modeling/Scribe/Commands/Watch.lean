import Scribe.Json.Writer
import Mathlib.Data.List.DropRight

/-!
# The table list of `scribe watch --tables`

`parse_tables` counts the commas to size its array, then takes the tokens `strtok(str, ",")`
returns, trims the spaces around each, and keeps the ones left non-empty, while the count
is below the capacity.

`parseTables_spec` says what it returns: every comma-separated field, trimmed, the empty ones
left out.  No token is lost to the capacity check, each table is non-empty and holds no
comma and no space at either end, and a list of such names joined by commas is read back
exactly.
-/

namespace Scribe

/-- `strtok(str, ",")` called until it returns `NULL`: the runs between commas that are not
empty, in order. -/
def strtokComma (s : Bytes) : List Bytes := (s.splitOn 0x2C).filter (· ≠ [])

/-- The trim of `parse_tables`: leading spaces skipped, then trailing spaces cut back to the
first byte but not past it. -/
def trimTable (token : Bytes) : Bytes :=
  match token.dropWhile (· == 0x20) with
  | [] => []
  | c :: rest => c :: rest.rdropWhile (· == 0x20)

/-- The loop of `parse_tables` over the tokens, `count` tables kept so far, with room for
`capacity`. -/
def parseTablesLoop (capacity : Nat) : List Bytes → Nat → List Bytes
  | [], _ => []
  | token :: tokens, count =>
      if count < capacity then
        match trimTable token with
        | [] => parseTablesLoop capacity tokens count
        | t => t :: parseTablesLoop capacity tokens (count + 1)
      else []

/-- `parse_tables`: the array holds one more slot than there are commas. -/
def parseTables (s : Bytes) : List Bytes :=
  parseTablesLoop (s.count 0x2C + 1) (strtokComma s) 0

/-! ## Splitting at commas -/

theorem length_splitOn (x : UInt8) (s : Bytes) : (s.splitOn x).length = s.count x + 1 := by
  induction s with
  | nil => rfl
  | cons b s ih =>
      simp only [List.splitOn, List.splitOnP_cons] at ih ⊢
      by_cases h : b = x
      · simp [h, ih]
      · simp [h, ih, List.count_cons]

theorem not_mem_of_mem_splitOn {x : UInt8} {s f : Bytes} (hf : f ∈ s.splitOn x) : x ∉ f := by
  induction s generalizing f with
  | nil => simp_all
  | cons b s ih =>
      simp only [List.splitOn, List.splitOnP_cons] at ih hf
      split_ifs at hf with h
      · rcases List.mem_cons.mp hf with rfl | hf
        · exact List.not_mem_nil x
        · exact ih hf
      · obtain ⟨f', fs, hfs⟩ := List.exists_cons_of_ne_nil (List.splitOnP_ne_nil _ s)
        rw [hfs] at hf ih
        rcases List.mem_cons.mp hf with rfl | hf
        · rw [List.mem_cons, not_or]
          exact ⟨fun hb => h (by simp [hb]), ih (List.mem_cons_self _ _)⟩
        · exact ih (List.mem_cons_of_mem _ hf)

/-! ## Trimming -/

theorem trimTable_nil : trimTable [] = [] := rfl

theorem trimTable_spec (token : Bytes) (h : trimTable token ≠ []) :
    (trimTable token).head? ≠ some 0x20 ∧ (trimTable token).getLast? ≠ some 0x20 ∧
      ∀ b ∈ trimTable token, b ∈ token := by
  unfold trimTable at h ⊢
  cases hd : token.dropWhile (· == 0x20) with
  | nil => simp [hd] at h
  | cons c rest =>
      have hc := List.head_dropWhile_not (· == 0x20) token (by simp [hd])
      simp only [hd, List.head_cons] at hc
      have hsub : ∀ b ∈ c :: rest, b ∈ token := fun b hb =>
        (List.dropWhile_suffix _).subset (hd ▸ hb)
      refine ⟨by simpa using hc, ?_, fun b hb => hsub b ?_⟩
      · by_cases hr : rest.rdropWhile (· == 0x20) = []
        · simpa [hr] using hc
        · have := List.rdropWhile_last_not (· == 0x20) rest hr
          rw [List.getLast?_cons, List.getLast?_eq_getLast _ hr]
          simpa using this
      · rcases List.mem_cons.mp hb with rfl | hb
        · exact List.mem_cons_self _ _
        · exact List.mem_cons_of_mem _ ((List.rdropWhile_prefix _ _).subset hb)

theorem trimTable_of_edges {name : Bytes} (hne : name ≠ []) (hhead : name.head? ≠ some 0x20)
    (hlast : name.getLast? ≠ some 0x20) : trimTable name = name := by
  obtain ⟨c, rest, rfl⟩ := List.exists_cons_of_ne_nil hne
  have hc : (c == 0x20) = false := by simpa using hhead
  have hrest : rest.rdropWhile (· == 0x20) = rest := by
    rw [List.rdropWhile_eq_self_iff]
    intro hr
    rw [List.getLast?_cons, List.getLast?_eq_getLast _ hr] at hlast
    simpa using hlast
  simp [trimTable, List.dropWhile_cons, hc, hrest]

/-! ## The loop -/

/-- While the tokens left fit in the room left, the capacity check never stops the loop. -/
theorem parseTablesLoop_eq (capacity : Nat) :
    ∀ (tokens : List Bytes) (count : Nat), count + tokens.length ≤ capacity →
      parseTablesLoop capacity tokens count = (tokens.map trimTable).filter (· ≠ [])
  | [], _, _ => rfl
  | token :: tokens, count, h => by
      simp only [List.length_cons] at h
      rw [parseTablesLoop, if_pos (by omega), List.map_cons, List.filter_cons]
      cases ht : trimTable token with
      | nil => simpa using parseTablesLoop_eq capacity tokens count (by omega)
      | cons c rest => simpa using parseTablesLoop_eq capacity tokens (count + 1) (by omega)

theorem filter_map_trimTable (fields : List Bytes) :
    ((fields.filter (· ≠ [])).map trimTable).filter (· ≠ []) =
      (fields.map trimTable).filter (· ≠ []) := by
  induction fields with
  | nil => rfl
  | cons f fs ih =>
      by_cases hf : f = []
      · subst hf
        simpa [List.filter_cons, trimTable_nil] using ih
      · by_cases ht : trimTable f = [] <;> simp_all [List.filter_cons]

/-- `parse_tables` keeps every comma-separated field, trimmed of the spaces around it, and
leaves out the empty ones; each table it returns is non-empty, holds no comma and starts and
ends with a byte other than a space; and names of that kind joined by commas come back as
they were. -/
theorem parseTables_spec (s : Bytes) :
    parseTables s = ((s.splitOn 0x2C).map trimTable).filter (· ≠ []) ∧
      (∀ t ∈ parseTables s, t ≠ [] ∧ 0x2C ∉ t ∧ t.head? ≠ some 0x20 ∧ t.getLast? ≠ some 0x20) ∧
      ∀ names : List Bytes, (∀ n ∈ names, n ≠ [] ∧ 0x2C ∉ n ∧ n.head? ≠ some 0x20 ∧
        n.getLast? ≠ some 0x20) → parseTables ([0x2C].intercalate names) = names := by
  have heq : ∀ s : Bytes, parseTables s = ((s.splitOn 0x2C).map trimTable).filter (· ≠ []) := by
    intro s
    have hlen : (strtokComma s).length ≤ s.count 0x2C + 1 :=
      (List.length_filter_le _ _).trans (length_splitOn _ _).le
    rw [parseTables, parseTablesLoop_eq _ _ _ (by omega), strtokComma, filter_map_trimTable]
  refine ⟨heq s, fun t ht => ?_, fun names hnames => ?_⟩
  · rw [heq, List.mem_filter, List.mem_map] at ht
    obtain ⟨⟨f, hf, rfl⟩, hne⟩ := ht
    have hne : trimTable f ≠ [] := by simpa using hne
    obtain ⟨hhead, hlast, hsub⟩ := trimTable_spec f hne
    exact ⟨hne, fun hc => not_mem_of_mem_splitOn hf (hsub _ hc), hhead, hlast⟩
  · by_cases hnil : names = []
    · subst hnil
      rfl
    have hmap : names.map trimTable = names := by
      conv_rhs => rw [← List.map_id names]
      exact List.map_congr_left fun n hn =>
        trimTable_of_edges (hnames n hn).1 (hnames n hn).2.2.1 (hnames n hn).2.2.2
    rw [heq, List.splitOn_intercalate names _ (fun n hn => (hnames n hn).2.1) hnil, hmap,
      List.filter_eq_self]
    exact fun n hn => by simpa using (hnames n hn).1

example : parseTables (ascii " users, orders ,,  ") = [ascii "users", ascii "orders"] := by decide

end Scribe

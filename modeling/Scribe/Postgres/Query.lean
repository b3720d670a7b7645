import Scribe.Storage.Database

/-!
# `scribe_pg_query`: a result as text

`scribe_pg_query` runs a statement and writes its result as the JSON-like text `[{"name":
value,...},...]`: every value in quotes with only `"` and `\` escaped, `null` for a `NULL`,
and `[]` for a result with no row.  It writes into a buffer of 4096 bytes that it doubles at
most once before each field, when `pos + needed >= buf_size` with `needed` the name and
value lengths plus 20.  `QueryBuf` follows `pos`, `buf_size` and whether a write fell past
the buffer.

`bytes_pgQueryBuf` shows the bytes written are `pgQueryText` of the result, and
`pgQueryBuf_overruns` a one-cell result whose escaped value does not fit: the doubling is
sized by the raw value, which escaping can make twice as long.  The other way,
`pgQueryBuf_overrun_of_lt`: a result whose text is shorter than 4096 bytes is written within
the first buffer.
-/

namespace Scribe

/-! ## The text of a query result -/

/-- How `scribe_pg_query` writes one value: `null`, or the text in quotes with `"` and `\`
preceded by a backslash. -/
def pgValue : Option Bytes → Bytes
  | none => ascii "null"
  | some v => 0x22 :: v.flatMap (fun c => if c = 0x22 ∨ c = 0x5C then [0x5C, c] else [c]) ++ [0x22]

/-- One row: `{"name":value,...}`, the columns in order. -/
def pgRowText (fields : List (Bytes × Option Bytes)) : Bytes :=
  0x7B :: List.intercalate [0x2C] (fields.map fun field => 0x22 :: field.1 ++ [0x22, 0x3A] ++
    pgValue field.2) ++ [0x7D]

/-- The text `scribe_pg_query` returns for a result: `[]` when it has no row. -/
def pgQueryText (rows : List (List (Bytes × Option Bytes))) : Bytes :=
  if rows = [] then ascii "[]" else 0x5B :: List.intercalate [0x2C] (rows.map pgRowText) ++ [0x5D]

/-! ## The buffer -/

/-- A result of `PQexec` with tuples: the column names (`PQfname`), and for each row one cell
per column, `none` where `PQgetisnull` holds. -/
structure PgResult where
  names : List CStr
  rows : List (List (Option CStr))
  width : ∀ row ∈ rows, row.length = names.length

/-- The buffer of `scribe_pg_query`: the bytes before `pos`, `buf_size`, and whether a write so
far fell at an offset not below the `buf_size` of its time. -/
structure QueryBuf where
  bytes : Bytes
  size : Nat
  overrun : Bool

namespace QueryBuf

/-- A write at offset `pos`. -/
def touch (buf : QueryBuf) : QueryBuf :=
  { buf with overrun := buf.overrun || decide (buf.size ≤ buf.bytes.length) }

/-- `json[pos++] = c`. -/
def put (buf : QueryBuf) (c : UInt8) : QueryBuf := { buf.touch with bytes := buf.bytes ++ [c] }

/-- `pos += sprintf(json + pos, ...)` writing `text`: its bytes, then the terminating NUL at the
new `pos`, which `pos` does not count. -/
def sprintf (buf : QueryBuf) (text : Bytes) : QueryBuf := (text.foldl put buf).touch

/-- The check before each field: `buf_size` doubles once when `pos + needed >= buf_size`; the
`realloc` succeeds. -/
def reserve (buf : QueryBuf) (needed : Nat) : QueryBuf :=
  if buf.bytes.length + needed ≥ buf.size then { buf with size := buf.size * 2 } else buf

/-- The escaping loop: a backslash before each `"` and `\`, no other byte escaped. -/
def putValue (buf : QueryBuf) (value : Bytes) : QueryBuf :=
  value.foldl (fun buf c => (if c = 0x22 ∨ c = 0x5C then buf.put 0x5C else buf).put c) buf

/-- Column `col` of a row: the comma, the check of `needed` (`PQgetvalue` gives `""` for a
`NULL`, so the `: 4` branch is never taken), `"name":`, then `null` or the quoted value. -/
def field (buf : QueryBuf) (col : Nat) (name : CStr) (cell : Option CStr) : QueryBuf :=
  let buf := if col > 0 then buf.put 0x2C else buf
  let buf := buf.reserve (name.bytes.length + (cell.getD CStr.empty).bytes.length + 20)
  let buf := buf.sprintf (0x22 :: name.bytes ++ [0x22, 0x3A])
  match cell with
  | none => buf.sprintf (ascii "null")
  | some value => ((buf.put 0x22).putValue value.bytes).put 0x22

/-- The columns of a row from column `col` on. -/
def fields (buf : QueryBuf) (col : Nat) : List CStr → List (Option CStr) → QueryBuf
  | name :: names, cell :: cells => (buf.field col name cell).fields (col + 1) names cells
  | _, _ => buf

/-- Row `r`: the comma, `{`, the columns, `}`. -/
def row (buf : QueryBuf) (r : Nat) (names : List CStr) (cells : List (Option CStr)) : QueryBuf :=
  (((if r > 0 then buf.put 0x2C else buf).put 0x7B).fields 0 names cells).put 0x7D

/-- The rows from row `r` on. -/
def rowsFrom (buf : QueryBuf) (r : Nat) (names : List CStr) : List (List (Option CStr)) → QueryBuf
  | [] => buf
  | cells :: rest => (buf.row r names cells).rowsFrom (r + 1) names rest

end QueryBuf

/-- `scribe_pg_query` on a result: `strdup("[]")` when there is no row or no column;
otherwise a buffer of 4096 bytes, `[`, the rows, `]`, and the NUL at `pos`. -/
def pgQueryBuf (result : PgResult) : QueryBuf :=
  if result.rows.length = 0 ∨ result.names.length = 0 then ⟨ascii "[]", 3, false⟩
  else ((((⟨[], 4096, false⟩ : QueryBuf).put 0x5B).rowsFrom 0 result.names result.rows).put
    0x5D).touch

namespace QueryBuf

@[simp] theorem bytes_touch (buf : QueryBuf) : buf.touch.bytes = buf.bytes := rfl
@[simp] theorem size_touch (buf : QueryBuf) : buf.touch.size = buf.size := rfl
@[simp] theorem bytes_put (buf : QueryBuf) (c : UInt8) : (buf.put c).bytes = buf.bytes ++ [c] := rfl
@[simp] theorem size_put (buf : QueryBuf) (c : UInt8) : (buf.put c).size = buf.size := rfl

@[simp]
theorem bytes_reserve (buf : QueryBuf) (needed : Nat) : (buf.reserve needed).bytes = buf.bytes := by
  unfold reserve; split <;> rfl

@[simp]
theorem overrun_reserve (buf : QueryBuf) (needed : Nat) :
    (buf.reserve needed).overrun = buf.overrun := by
  unfold reserve; split <;> rfl

@[simp]
theorem bytes_foldl_put (text : Bytes) (buf : QueryBuf) :
    (text.foldl put buf).bytes = buf.bytes ++ text := by
  induction text generalizing buf with
  | nil => simp
  | cons c rest ih => simp [ih]

@[simp]
theorem size_foldl_put (text : Bytes) (buf : QueryBuf) : (text.foldl put buf).size = buf.size := by
  induction text generalizing buf with
  | nil => rfl
  | cons c rest ih => simp [ih]

/-- The escaping loop writes the escaped value byte by byte. -/
theorem putValue_eq (buf : QueryBuf) (value : Bytes) :
    buf.putValue value =
      (value.flatMap fun c => if c = 0x22 ∨ c = 0x5C then [0x5C, c] else [c]).foldl put buf := by
  induction value generalizing buf with
  | nil => rfl
  | cons c rest ih =>
      rw [List.flatMap_cons, List.foldl_append, ← ih]
      by_cases hc : c = 0x22 ∨ c = 0x5C <;> simp only [putValue, List.foldl_cons, hc, if_true,
        if_false] <;> rfl

/-! ### A write past the buffer is never undone -/

theorem overrun_touch_of {buf : QueryBuf} (h : buf.overrun = true) : buf.touch.overrun = true := by
  simp [touch, h]

theorem overrun_put_of {buf : QueryBuf} (c : UInt8) (h : buf.overrun = true) :
    (buf.put c).overrun = true :=
  overrun_touch_of h

theorem overrun_foldl_put_of (text : Bytes) {buf : QueryBuf} (h : buf.overrun = true) :
    (text.foldl put buf).overrun = true := by
  induction text generalizing buf with
  | nil => exact h
  | cons c rest ih => exact ih (overrun_put_of c h)

/-- Bytes written from `pos` on run past the buffer when they do not fit below `buf_size`. -/
theorem overrun_foldl_put_of_lt (text : Bytes) {buf : QueryBuf}
    (hpos : buf.bytes.length ≤ buf.size) (h : buf.size < buf.bytes.length + text.length) :
    (text.foldl put buf).overrun = true := by
  induction text generalizing buf with
  | nil => simp at h; omega
  | cons c rest ih =>
      by_cases hfull : buf.size ≤ buf.bytes.length
      · exact overrun_foldl_put_of rest (by simp [put, touch, hfull])
      · exact ih (by simp; omega) (by simp at h ⊢; omega)

theorem overrun_sprintf_of (text : Bytes) {buf : QueryBuf} (h : buf.overrun = true) :
    (buf.sprintf text).overrun = true :=
  overrun_touch_of (overrun_foldl_put_of text h)

theorem overrun_putValue_of (value : Bytes) {buf : QueryBuf} (h : buf.overrun = true) :
    (buf.putValue value).overrun = true := by
  rw [putValue_eq]; exact overrun_foldl_put_of _ h

theorem overrun_field_of (col : Nat) (name : CStr) (cell : Option CStr) {buf : QueryBuf}
    (h : buf.overrun = true) : (buf.field col name cell).overrun = true := by
  have hcomma : (if col > 0 then buf.put 0x2C else buf).overrun = true := by
    split_ifs
    · exact overrun_put_of _ h
    · exact h
  have hname := overrun_sprintf_of (0x22 :: name.bytes ++ [0x22, 0x3A])
    (show ((if col > 0 then buf.put 0x2C else buf).reserve
        (name.bytes.length + (cell.getD CStr.empty).bytes.length + 20)).overrun = true by
      rw [overrun_reserve]; exact hcomma)
  unfold field
  cases cell with
  | none => exact overrun_sprintf_of _ hname
  | some value => exact overrun_put_of _ (overrun_putValue_of _ (overrun_put_of _ hname))

theorem overrun_fields_of {buf : QueryBuf} (h : buf.overrun = true) :
    ∀ (col : Nat) (names : List CStr) (cells : List (Option CStr)),
      (buf.fields col names cells).overrun = true
  | _, [], _ => h
  | _, _ :: _, [] => h
  | col, name :: names, cell :: cells =>
      overrun_fields_of (overrun_field_of col name cell h) (col + 1) names cells

theorem overrun_row_of (r : Nat) (names : List CStr) (cells : List (Option CStr)) {buf : QueryBuf}
    (h : buf.overrun = true) : (buf.row r names cells).overrun = true := by
  unfold row
  refine overrun_put_of _ (overrun_fields_of (overrun_put_of _ ?_) 0 names cells)
  split_ifs
  · exact overrun_put_of _ h
  · exact h

theorem overrun_rowsFrom_of {buf : QueryBuf} (h : buf.overrun = true) :
    ∀ (r : Nat) (names : List CStr) (rows : List (List (Option CStr))),
      (buf.rowsFrom r names rows).overrun = true
  | _, _, [] => h
  | r, names, cells :: rest =>
      overrun_rowsFrom_of (overrun_row_of r names cells h) (r + 1) names rest

/-! ### Writes below the buffer

Each operation only appends: `pos` and `buf_size` grow, and an operation runs past the buffer
only by writing at or past the `buf_size` it started with, so below the `pos` it ends at. -/

/-- `buf'` comes from `buf` by appending, with any overrun since then at or past `buf`'s
`buf_size`. -/
structure Extends (buf buf' : QueryBuf) : Prop where
  length_le : buf.bytes.length ≤ buf'.bytes.length
  size_le : buf.size ≤ buf'.size
  overrun : buf'.overrun = true → buf.overrun = true ∨ buf.size ≤ buf'.bytes.length

theorem Extends.refl (buf : QueryBuf) : Extends buf buf := ⟨le_rfl, le_rfl, .inl⟩

theorem Extends.trans {b₁ b₂ b₃ : QueryBuf} (h₁ : Extends b₁ b₂) (h₂ : Extends b₂ b₃) :
    Extends b₁ b₃ where
  length_le := h₁.length_le.trans h₂.length_le
  size_le := h₁.size_le.trans h₂.size_le
  overrun h := by
    rcases h₂.overrun h with h | h
    · exact (h₁.overrun h).imp_right fun h => h.trans h₂.length_le
    · exact .inr (h₁.size_le.trans h)

theorem extends_touch (buf : QueryBuf) : Extends buf buf.touch :=
  ⟨le_rfl, le_rfl, fun h => by simpa [touch] using h⟩

theorem extends_put (buf : QueryBuf) (c : UInt8) : Extends buf (buf.put c) :=
  ⟨by simp, le_rfl, fun h => ((extends_touch buf).overrun h).imp_right fun h => by simp at h ⊢; omega⟩

theorem extends_reserve (buf : QueryBuf) (needed : Nat) : Extends buf (buf.reserve needed) :=
  ⟨by simp, by unfold reserve; split <;> simp; omega, fun h => .inl (by simpa using h)⟩

theorem extends_foldl_put (buf : QueryBuf) : ∀ text : Bytes, Extends buf (text.foldl put buf)
  | [] => Extends.refl buf
  | c :: rest => (extends_put buf c).trans (extends_foldl_put (buf.put c) rest)

theorem extends_sprintf (buf : QueryBuf) (text : Bytes) : Extends buf (buf.sprintf text) :=
  (extends_foldl_put buf text).trans (extends_touch _)

theorem extends_putValue (buf : QueryBuf) (value : Bytes) : Extends buf (buf.putValue value) := by
  rw [putValue_eq]; exact extends_foldl_put buf _

theorem extends_field (buf : QueryBuf) (col : Nat) (name : CStr) (cell : Option CStr) :
    Extends buf (buf.field col name cell) := by
  have hcomma : Extends buf (if col > 0 then buf.put 0x2C else buf) := by
    split_ifs
    exacts [extends_put buf _, Extends.refl buf]
  unfold field
  cases cell with
  | none =>
      exact ((hcomma.trans (extends_reserve _ _)).trans (extends_sprintf _ _)).trans (extends_sprintf _ _)
  | some value =>
      exact ((((hcomma.trans (extends_reserve _ _)).trans (extends_sprintf _ _)).trans (extends_put _ _)).trans
        (extends_putValue _ _)).trans (extends_put _ _)

theorem extends_fields (buf : QueryBuf) :
    ∀ (col : Nat) (names : List CStr) (cells : List (Option CStr)),
      Extends buf (buf.fields col names cells)
  | _, [], _ => Extends.refl buf
  | _, _ :: _, [] => Extends.refl buf
  | col, name :: names, cell :: cells =>
      (extends_field buf col name cell).trans (extends_fields _ (col + 1) names cells)

theorem extends_row (buf : QueryBuf) (r : Nat) (names : List CStr) (cells : List (Option CStr)) :
    Extends buf (buf.row r names cells) := by
  have hcomma : Extends buf (if r > 0 then buf.put 0x2C else buf) := by
    split_ifs
    exacts [extends_put buf _, Extends.refl buf]
  exact ((hcomma.trans (extends_put _ _)).trans (extends_fields _ 0 names cells)).trans
    (extends_put _ _)

theorem extends_rowsFrom (buf : QueryBuf) :
    ∀ (r : Nat) (names : List CStr) (rows : List (List (Option CStr))),
      Extends buf (buf.rowsFrom r names rows)
  | _, _, [] => Extends.refl buf
  | r, names, cells :: rest =>
      (extends_row buf r names cells).trans (extends_rowsFrom _ (r + 1) names rest)

/-! ### The bytes written -/

@[simp]
theorem bytes_sprintf (buf : QueryBuf) (text : Bytes) :
    (buf.sprintf text).bytes = buf.bytes ++ text := by
  simp [sprintf]

/-- A column writes its comma, then `"name":` and the value as `pgValue` spells it. -/
theorem bytes_field (buf : QueryBuf) (col : Nat) (name : CStr) (cell : Option CStr) :
    (buf.field col name cell).bytes = buf.bytes ++ ((if col > 0 then [0x2C] else []) ++
      (0x22 :: name.bytes ++ [0x22, 0x3A] ++ pgValue (cell.map CStr.bytes))) := by
  unfold field
  cases cell <;> split_ifs <;> simp [putValue_eq, pgValue]

theorem bytes_fields_succ :
    ∀ (buf : QueryBuf) (col : Nat) (names : List CStr) (cells : List (Option CStr)),
      (buf.fields (col + 1) names cells).bytes = buf.bytes ++
        ((names.map CStr.bytes).zip (cells.map (Option.map CStr.bytes))).flatMap
          fun field => [0x2C] ++ (0x22 :: field.1 ++ [0x22, 0x3A] ++ pgValue field.2)
  | _, _, [], _ => by simp [fields]
  | _, _, _ :: _, [] => by simp [fields]
  | buf, col, name :: names, cell :: cells => by
      rw [fields, bytes_fields_succ, bytes_field, if_pos (Nat.succ_pos col)]
      simp

theorem intercalate_cons_eq (sep x : Bytes) :
    ∀ xs : List Bytes, List.intercalate sep (x :: xs) = x ++ xs.flatMap (sep ++ ·)
  | [] => by simp [List.intercalate]
  | y :: ys => by
      rw [List.intercalate, List.intersperse_cons₂, List.flatten_cons, List.flatten_cons,
        ← List.intercalate, intercalate_cons_eq sep y ys]
      simp

/-- The columns of a row, from the first, are `"name":value` joined by commas. -/
theorem bytes_fields_zero (buf : QueryBuf) (names : List CStr) (cells : List (Option CStr)) :
    (buf.fields 0 names cells).bytes = buf.bytes ++ List.intercalate [0x2C]
      (((names.map CStr.bytes).zip (cells.map (Option.map CStr.bytes))).map
        fun field => 0x22 :: field.1 ++ [0x22, 0x3A] ++ pgValue field.2) := by
  cases names with
  | nil => simp [fields, List.intercalate]
  | cons name names =>
      cases cells with
      | nil => simp [fields, List.intercalate]
      | cons cell cells =>
          rw [fields, bytes_fields_succ, bytes_field, if_neg (Nat.lt_irrefl 0)]
          simp [intercalate_cons_eq, List.flatMap_map]

theorem bytes_row (buf : QueryBuf) (r : Nat) (names : List CStr) (cells : List (Option CStr)) :
    (buf.row r names cells).bytes = buf.bytes ++ ((if r > 0 then [0x2C] else []) ++
      pgRowText ((names.map CStr.bytes).zip (cells.map (Option.map CStr.bytes)))) := by
  unfold row
  split_ifs <;> simp [bytes_fields_zero, pgRowText]

theorem bytes_rowsFrom_succ (names : List CStr) :
    ∀ (buf : QueryBuf) (r : Nat) (rows : List (List (Option CStr))),
      (buf.rowsFrom (r + 1) names rows).bytes = buf.bytes ++ rows.flatMap fun cells =>
        [0x2C] ++ pgRowText ((names.map CStr.bytes).zip (cells.map (Option.map CStr.bytes)))
  | _, _, [] => by simp [rowsFrom]
  | buf, r, cells :: rest => by
      rw [rowsFrom, bytes_rowsFrom_succ, bytes_row, if_pos (Nat.succ_pos r)]
      simp

end QueryBuf

/-- On a result with a row and a column, `scribe_pg_query` writes the text `pgQueryText` of the
monitor: `[`, the rows joined by commas, `]`, each row `{"name":value,...}`. -/
theorem bytes_pgQueryBuf (result : PgResult) (hrows : result.rows ≠ []) (hnames : result.names ≠ []) :
    (pgQueryBuf result).bytes = pgQueryText (result.rows.map fun cells =>
      (result.names.map CStr.bytes).zip (cells.map (Option.map CStr.bytes))) := by
  obtain ⟨names, rows, width⟩ := result
  cases rows with
  | nil => exact absurd rfl hrows
  | cons cells rest =>
      have hlen : names.length ≠ 0 := fun h => hnames (List.eq_nil_of_length_eq_zero h)
      simp only [pgQueryBuf, List.length_cons, Nat.add_one_ne_zero, hlen, or_self, if_false,
        QueryBuf.bytes_touch, QueryBuf.bytes_put, QueryBuf.rowsFrom, QueryBuf.bytes_rowsFrom_succ,
        QueryBuf.bytes_row, pgQueryText, List.map_cons, reduceCtorEq, if_false]
      simp [QueryBuf.intercalate_cons_eq, List.flatMap_map]

/-- `scribe_pg_query` writes past its buffer only when it lays out 4096 bytes or more: a result
whose text is shorter stays within the first buffer. -/
theorem pgQueryBuf_overrun_of_lt (result : PgResult) (h : (pgQueryBuf result).bytes.length < 4096) :
    (pgQueryBuf result).overrun = false := by
  unfold pgQueryBuf at h ⊢
  split_ifs at h ⊢
  · rfl
  · have hext := (((QueryBuf.extends_put ⟨[], 4096, false⟩ 0x5B).trans
      (QueryBuf.extends_rowsFrom _ 0 result.names result.rows)).trans
      (QueryBuf.extends_put _ 0x5D)).trans (QueryBuf.extends_touch _)
    exact Bool.eq_false_iff.mpr fun hover =>
      absurd ((hext.overrun hover).resolve_left Bool.false_ne_true) (Nat.not_le.mpr h)

/-- Two columns and two rows, with a quote to escape and a `NULL`: the text joins the rows
and the fields with commas. -/
theorem bytes_pgQueryBuf_two :
    let result : PgResult := ⟨[CStr.lit "id", CStr.lit "name"],
      [[some (CStr.lit "1"), some (CStr.lit "a\"b")], [some (CStr.lit "2"), none]], by decide⟩
    result.rows ≠ [] ∧ result.names ≠ [] ∧
      (pgQueryBuf result).bytes = pgQueryText (result.rows.map fun cells =>
        (result.names.map CStr.bytes).zip (cells.map (Option.map CStr.bytes))) ∧
      pgQueryText (result.rows.map fun cells =>
        (result.names.map CStr.bytes).zip (cells.map (Option.map CStr.bytes))) =
        ascii "[\x7b\"id\":\"1\",\"name\":\"a\\\"b\"\x7d,\x7b\"id\":\"2\",\"name\":null\x7d]" := by
  intro result
  exact ⟨by simp [result], by simp [result], bytes_pgQueryBuf result (by simp [result])
    (by simp [result]), by decide⟩

/-- A result of one column and one row: everything `scribe_pg_query` does with it, the
doubling check once, before the value. -/
theorem pgQueryBuf_single (name value : CStr)
    (h : ∀ row ∈ [[some value]], row.length = [name].length) :
    pgQueryBuf ⟨[name], [[some value]], h⟩ =
      ((((((((QueryBuf.put ⟨[], 4096, false⟩ 0x5B).put 0x7B).reserve
        (name.bytes.length + value.bytes.length + 20)).sprintf
        (0x22 :: name.bytes ++ [0x22, 0x3A])).put 0x22).putValue value.bytes).put 0x22).put
        0x7D |>.put 0x5D).touch := rfl

/-- `n` double quotes. -/
def quotes (n : Nat) : CStr := ⟨List.replicate n 0x22, fun b hb => by
  rw [List.eq_of_mem_replicate hb]; decide⟩

theorem length_escape_quotes (n : Nat) :
    ((quotes n).bytes.flatMap fun c => if c = 0x22 ∨ c = 0x5C then [0x5C, c] else [c]).length =
      2 * n := by
  induction n with
  | zero => rfl
  | succ n ih =>
      simp only [quotes, List.replicate_succ, List.flatMap_cons, List.length_append] at ih ⊢
      rw [ih]; simp; omega

/-- A value of 3000 double quotes in one cell needs 3021 bytes by the check, so the buffer of
4096 is not doubled, but its escaped text takes 6000 bytes from offset 7: `scribe_pg_query`
writes past the buffer.  A value holding a newline is written raw, and the text does not
parse as JSON. -/
theorem pgQueryBuf_overruns :
    (pgQueryBuf ⟨[CStr.lit "v"], [[some (quotes 3000)]], by simp⟩).overrun = true ∧
      yyjsonRead (pgQueryBuf ⟨[CStr.lit "v"], [[some (CStr.lit "\n")]], by simp⟩).bytes = none := by
  refine ⟨?_, rfl⟩
  rw [pgQueryBuf_single]
  have hbuf : ((((QueryBuf.put ⟨[], 4096, false⟩ 0x5B).put 0x7B).reserve
      ((CStr.lit "v").bytes.length + (quotes 3000).bytes.length + 20)).sprintf
      (0x22 :: (CStr.lit "v").bytes ++ [0x22, 0x3A])).put 0x22 =
      ⟨[0x5B, 0x7B, 0x22, 0x76, 0x22, 0x3A, 0x22], 4096, false⟩ := by
    rw [show (CStr.lit "v").bytes = [0x76] from rfl,
      show (quotes 3000).bytes.length = 3000 from List.length_replicate _ _]
    rfl
  rw [hbuf]
  refine QueryBuf.overrun_touch_of (QueryBuf.overrun_put_of _ (QueryBuf.overrun_put_of _
    (QueryBuf.overrun_put_of _ ?_)))
  rw [QueryBuf.putValue_eq]
  exact QueryBuf.overrun_foldl_put_of_lt _ (by decide) (by rw [length_escape_quotes]; decide)

end Scribe

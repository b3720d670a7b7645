import Scribe.Core.Hash

/-!
# JSON documents and the yyjson pretty writer

`core/envelope.c` builds a mutable yyjson document and writes it with
`yyjson_mut_write(doc, YYJSON_WRITE_PRETTY, NULL)`.  yyjson is a dependency, not part of
the repository; this file models the part of its writer that the envelope code reaches:

* strings are checked to be UTF-8 (RFC 3629) and the write fails with `NULL` otherwise;
* `"` and `\` and the control bytes are escaped (`\b \t \n \f \r`, other controls as
  `\u00XX` with uppercase hex digits), every other byte is copied;
* integers are written in decimal, with `-` for negatives; they are `int64_t` values, and
  an integer outside that range, which no yyjson value can hold, is refused;
* containers are written four spaces per level, one member or element a line, with `{}`
  and `[]` for empty ones, and no newline after the document.

Reals are not modelled: no function of the envelope code writes one.
-/

namespace Scribe

/-- A JSON value as yyjson holds it.  Strings and keys are byte strings. -/
inductive JsonVal where
  | null
  | bool (b : Bool)
  | int (n : Int)
  | str (s : Bytes)
  | arr (elems : List JsonVal)
  | obj (members : List (Bytes × JsonVal))

/-- The bytes of an ASCII string literal of the C source. -/
def ascii (s : String) : Bytes := s.toList.map fun c => c.toNat.toUInt8

/-! ## UTF-8 -/

/-- `UTF8-tail = %x80-BF` -/
def isTail (b : UInt8) : Bool := 0x80 ≤ b && b ≤ 0xBF

/-- RFC 3629 §4: a sequence of `UTF8-char`s.  yyjson's writer refuses a string that is
not one. -/
def utf8Valid : Bytes → Bool
  | [] => true
  | a :: rest =>
      if a ≤ 0x7F then utf8Valid rest else
      match rest with
      | [] => false
      | b :: rest =>
          if 0xC2 ≤ a && a ≤ 0xDF then isTail b && utf8Valid rest else
          match rest with
          | [] => false
          | c :: rest =>
              if a = 0xE0 then (0xA0 ≤ b && b ≤ 0xBF) && isTail c && utf8Valid rest
              else if (0xE1 ≤ a && a ≤ 0xEC) || (0xEE ≤ a && a ≤ 0xEF) then
                isTail b && isTail c && utf8Valid rest
              else if a = 0xED then (0x80 ≤ b && b ≤ 0x9F) && isTail c && utf8Valid rest
              else
                match rest with
                | [] => false
                | d :: rest =>
                    if a = 0xF0 then
                      (0x90 ≤ b && b ≤ 0xBF) && isTail c && isTail d && utf8Valid rest
                    else if 0xF1 ≤ a && a ≤ 0xF3 then
                      isTail b && isTail c && isTail d && utf8Valid rest
                    else if a = 0xF4 then
                      (0x80 ≤ b && b ≤ 0x8F) && isTail c && isTail d && utf8Valid rest
                    else false

@[simp]
theorem utf8Valid_cons_of_le {a : UInt8} (rest : Bytes) (ha : a ≤ 0x7F) :
    utf8Valid (a :: rest) = utf8Valid rest := by
  rw [utf8Valid.eq_def]
  simp only [if_pos ha]

/-- ASCII text is UTF-8. -/
theorem utf8Valid_of_ascii {s : Bytes} (hs : ∀ b ∈ s, b ≤ 0x7F) : utf8Valid s = true := by
  induction s with
  | nil => rfl
  | cons a rest ih =>
      rw [utf8Valid_cons_of_le rest (hs a (List.mem_cons_self _ _))]
      exact ih fun b hb => hs b (List.mem_cons_of_mem _ hb)

/-! ## Strings -/

/-- Uppercase hex digit of `0 ≤ d < 16`. -/
def upperHex (d : Nat) : UInt8 := if d < 10 then UInt8.ofNat (0x30 + d) else UInt8.ofNat (0x37 + d)

/-- How yyjson writes one byte of a string. -/
def escapeByte (b : UInt8) : Bytes :=
  if b = 0x22 then [0x5C, 0x22]
  else if b = 0x5C then [0x5C, 0x5C]
  else if b = 0x08 then [0x5C, 0x62]
  else if b = 0x09 then [0x5C, 0x74]
  else if b = 0x0A then [0x5C, 0x6E]
  else if b = 0x0C then [0x5C, 0x66]
  else if b = 0x0D then [0x5C, 0x72]
  else if b < 0x20 then [0x5C, 0x75, 0x30, 0x30, upperHex (b.toNat / 16), upperHex (b.toNat % 16)]
  else [b]

/-- The three shapes of an escaped byte: a two-byte escape for `"`, `\` and the five named
control bytes, `\u00XX` for the other control bytes, and the byte itself otherwise. -/
theorem escapeByte_cases (b : UInt8) :
    (b = 0x22 ∧ escapeByte b = [0x5C, 0x22]) ∨ (b = 0x5C ∧ escapeByte b = [0x5C, 0x5C]) ∨
    (b = 0x08 ∧ escapeByte b = [0x5C, 0x62]) ∨ (b = 0x09 ∧ escapeByte b = [0x5C, 0x74]) ∨
    (b = 0x0A ∧ escapeByte b = [0x5C, 0x6E]) ∨ (b = 0x0C ∧ escapeByte b = [0x5C, 0x66]) ∨
    (b = 0x0D ∧ escapeByte b = [0x5C, 0x72]) ∨
    (b < 0x20 ∧ escapeByte b =
      [0x5C, 0x75, 0x30, 0x30, upperHex (b.toNat / 16), upperHex (b.toNat % 16)]) ∨
    (b ≠ 0x22 ∧ b ≠ 0x5C ∧ ¬b < 0x20 ∧ escapeByte b = [b]) := by
  by_cases h1 : b = 0x22
  · exact .inl ⟨h1, if_pos h1⟩
  by_cases h2 : b = 0x5C
  · exact .inr <| .inl ⟨h2, by simp only [escapeByte, if_neg h1, if_pos h2]⟩
  by_cases h3 : b = 0x08
  · exact .inr <| .inr <| .inl ⟨h3, by simp only [escapeByte, if_neg h1, if_neg h2, if_pos h3]⟩
  by_cases h4 : b = 0x09
  · refine .inr <| .inr <| .inr <| .inl ⟨h4, ?_⟩
    simp only [escapeByte, if_neg h1, if_neg h2, if_neg h3, if_pos h4]
  by_cases h5 : b = 0x0A
  · refine .inr <| .inr <| .inr <| .inr <| .inl ⟨h5, ?_⟩
    simp only [escapeByte, if_neg h1, if_neg h2, if_neg h3, if_neg h4, if_pos h5]
  by_cases h6 : b = 0x0C
  · refine .inr <| .inr <| .inr <| .inr <| .inr <| .inl ⟨h6, ?_⟩
    simp only [escapeByte, if_neg h1, if_neg h2, if_neg h3, if_neg h4, if_neg h5, if_pos h6]
  by_cases h7 : b = 0x0D
  · refine .inr <| .inr <| .inr <| .inr <| .inr <| .inr <| .inl ⟨h7, ?_⟩
    simp only [escapeByte, if_neg h1, if_neg h2, if_neg h3, if_neg h4, if_neg h5, if_neg h6,
      if_pos h7]
  refine .inr <| .inr <| .inr <| .inr <| .inr <| .inr <| .inr ?_
  by_cases h8 : b < 0x20
  · refine .inl ⟨h8, ?_⟩
    simp only [escapeByte, if_neg h1, if_neg h2, if_neg h3, if_neg h4, if_neg h5, if_neg h6,
      if_neg h7, if_pos h8]
  · refine .inr ⟨h1, h2, h8, ?_⟩
    simp only [escapeByte, if_neg h1, if_neg h2, if_neg h3, if_neg h4, if_neg h5, if_neg h6,
      if_neg h7, if_neg h8]

/-- A quoted, escaped string, or `none` when the string is not UTF-8. -/
def writeStr (s : Bytes) : Option Bytes :=
  if utf8Valid s then some (0x22 :: s.flatMap escapeByte ++ [0x22]) else none

/-! ## Integers -/

/-- The decimal digits of a natural number. -/
def decimal (n : Nat) : Bytes :=
  if n < 10 then [UInt8.ofNat (0x30 + n)] else decimal (n / 10) ++ [UInt8.ofNat (0x30 + n % 10)]
termination_by n
decreasing_by omega

theorem decimal_of_lt {n : Nat} (hn : n < 10) : decimal n = [UInt8.ofNat (0x30 + n)] := by
  rw [decimal, if_pos hn]

/-- A signed integer as yyjson writes it. -/
def writeInt (n : Int) : Bytes :=
  if n < 0 then 0x2D :: decimal n.natAbs else decimal n.natAbs

/-! ## The pretty writer -/

/-- Four spaces per level. -/
def indent (level : Nat) : Bytes := List.replicate (4 * level) 0x20

/-- The separator after a member or an element: `,` and a newline before another one, a
newline alone after the last. -/
def separator (last : Bool) : Bytes := if last then [0x0A] else [0x2C, 0x0A]

mutual

/-- A value written at nesting `level` (its first line is already indented). -/
def writeVal (level : Nat) : JsonVal → Option Bytes
  | .null => some [0x6E, 0x75, 0x6C, 0x6C]
  | .bool true => some [0x74, 0x72, 0x75, 0x65]
  | .bool false => some [0x66, 0x61, 0x6C, 0x73, 0x65]
  | .int n => if -2 ^ 63 ≤ n ∧ n < 2 ^ 63 then some (writeInt n) else none
  | .str s => writeStr s
  | .arr [] => some [0x5B, 0x5D]
  | .arr (v :: vs) => (writeElems (level + 1) (v :: vs)).map fun body =>
      [0x5B, 0x0A] ++ body ++ indent level ++ [0x5D]
  | .obj [] => some [0x7B, 0x7D]
  | .obj (m :: ms) => (writeMembers (level + 1) (m :: ms)).map fun body =>
      [0x7B, 0x0A] ++ body ++ indent level ++ [0x7D]

/-- The elements of a non-empty array, one a line at `level`. -/
def writeElems (level : Nat) : List JsonVal → Option Bytes
  | [] => some []
  | v :: vs => do
      let w ← writeVal level v
      let rest ← writeElems level vs
      some (indent level ++ w ++ separator vs.isEmpty ++ rest)

/-- The members of a non-empty object, one a line at `level`, as `"key": value`. -/
def writeMembers (level : Nat) : List (Bytes × JsonVal) → Option Bytes
  | [] => some []
  | (key, v) :: ms => do
      let k ← writeStr key
      let w ← writeVal level v
      let rest ← writeMembers level ms
      some (indent level ++ k ++ [0x3A, 0x20] ++ w ++ separator ms.isEmpty ++ rest)

end

/-- `yyjson_mut_write(doc, YYJSON_WRITE_PRETTY, NULL)` on a document whose root is `v`,
without the terminating NUL. -/
def yyjsonWrite (v : JsonVal) : Option Bytes := writeVal 0 v

example : yyjsonWrite (.obj [(ascii "a", .str (ascii "x\n")), (ascii "b", .arr [])]) =
    some (ascii "\x7b\n    \"a\": \"x\\n\",\n    \"b\": []\n\x7d") := by
  decide

end Scribe

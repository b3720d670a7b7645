import Scribe.Json.Writer

/-!
# The yyjson reader, and reading back what the writer wrote

`scribe_envelope_from_json` parses with `yyjson_read(json, strlen(json), 0)`.  The reader
here follows RFC 8259 as yyjson applies it with no flags: whitespace around tokens, the
string escapes including `\uXXXX` and surrogate pairs (decoded to UTF-8), strings that
must be UTF-8 and hold no raw control byte, integers with no leading zero, and nothing
after the root value but whitespace.  Numbers with a fraction or an exponent, and integers
outside the 64-bit ranges, are reals in yyjson; reals are not modelled and are refused.

`Scribe.Json.RoundTrip` proves that the reader reads back whatever the writer writes.
-/

namespace Scribe

/-! ## Tokens -/

/-- JSON whitespace: space, line feed, carriage return, tab. -/
def isWs (b : UInt8) : Bool := b = 0x20 || b = 0x0A || b = 0x0D || b = 0x09

/-- Drop leading whitespace. -/
def skipWs : Bytes → Bytes
  | [] => []
  | b :: rest => if isWs b then skipWs rest else b :: rest

/-- The value of a hex digit, either case. -/
def hexDigitVal (c : UInt8) : Option Nat :=
  if 0x30 ≤ c ∧ c ≤ 0x39 then some (c.toNat - 0x30)
  else if 0x61 ≤ c ∧ c ≤ 0x66 then some (c.toNat - 0x57)
  else if 0x41 ≤ c ∧ c ≤ 0x46 then some (c.toNat - 0x37)
  else none

/-- The code unit of four hex digits. -/
def hex4 (a b c d : UInt8) : Option Nat := do
  let a ← hexDigitVal a
  let b ← hexDigitVal b
  let c ← hexDigitVal c
  let d ← hexDigitVal d
  some (((a * 16 + b) * 16 + c) * 16 + d)

/-- The UTF-8 encoding of a code point. -/
def utf8Encode (cp : Nat) : Bytes :=
  if cp < 0x80 then [UInt8.ofNat cp]
  else if cp < 0x800 then [UInt8.ofNat (0xC0 + cp / 64), UInt8.ofNat (0x80 + cp % 64)]
  else if cp < 0x10000 then
    [UInt8.ofNat (0xE0 + cp / 4096), UInt8.ofNat (0x80 + cp / 64 % 64),
      UInt8.ofNat (0x80 + cp % 64)]
  else
    [UInt8.ofNat (0xF0 + cp / 262144), UInt8.ofNat (0x80 + cp / 4096 % 64),
      UInt8.ofNat (0x80 + cp / 64 % 64), UInt8.ofNat (0x80 + cp % 64)]

/-- The byte a two-character escape `\c` stands for. -/
def unescapeChar (c : UInt8) : Option UInt8 :=
  if c = 0x22 then some 0x22 else if c = 0x5C then some 0x5C else if c = 0x2F then some 0x2F
  else if c = 0x62 then some 0x08 else if c = 0x66 then some 0x0C
  else if c = 0x6E then some 0x0A else if c = 0x72 then some 0x0D
  else if c = 0x74 then some 0x09 else none

/-- Prepend decoded bytes to a parse result. -/
def prependBytes (pre : Bytes) : Bytes × Bytes → Bytes × Bytes
  | (s, rest) => (pre ++ s, rest)

/-- A high surrogate `hi` combined with the `\uXXXX` of a low one that must follow it. -/
def lowSurrogate (hi : Nat) : Bytes → Option (Bytes × Bytes)
  | 0x5C :: 0x75 :: l1 :: l2 :: l3 :: l4 :: rest =>
      (hex4 l1 l2 l3 l4).bind fun lo =>
        if 0xDC00 ≤ lo ∧ lo < 0xE000 then
          some (utf8Encode (0x10000 + (hi - 0xD800) * 0x400 + (lo - 0xDC00)), rest)
        else none
  | _ => none

/-- What `\uXXXX` with code unit `hi` stands for, and the input after it; a lone low
surrogate is an error. -/
def unicodeEscape (hi : Nat) (rest : Bytes) : Option (Bytes × Bytes) :=
  if hi < 0xD800 ∨ 0xE000 ≤ hi then some (utf8Encode hi, rest)
  else if 0xDC00 ≤ hi then none
  else lowSurrogate hi rest

/-- An escape sequence after its backslash: the bytes it stands for and the input after it. -/
def parseEscape : Bytes → Option (Bytes × Bytes)
  | 0x75 :: h1 :: h2 :: h3 :: h4 :: rest => (hex4 h1 h2 h3 h4).bind fun hi => unicodeEscape hi rest
  | c :: rest => (unescapeChar c).map fun e => ([e], rest)
  | [] => none

/-- The body of a string after its opening quote: the bytes it stands for and the input
after the closing quote.  Each step reads at least one byte, so `fuel` is the length of
the input at the call. -/
def parseStrBody : Nat → Bytes → Option (Bytes × Bytes)
  | 0, _ => none
  | _ + 1, [] => none
  | fuel + 1, b :: rest =>
      if b = 0x22 then some ([], rest)
      else if b = 0x5C then
        (parseEscape rest).bind fun p => (parseStrBody fuel p.2).map (prependBytes p.1)
      else if b < 0x20 then none
      else (parseStrBody fuel rest).map (prependBytes [b])

/-- A string after its opening quote; its bytes must be UTF-8. -/
def parseStr (input : Bytes) : Option (Bytes × Bytes) :=
  match parseStrBody input.length input with
  | some (s, rest) => if utf8Valid s then some (s, rest) else none
  | none => none

/-- `0`–`9`. -/
def isDigit (b : UInt8) : Bool := 0x30 ≤ b && b ≤ 0x39

/-- The leading digits and what follows them. -/
def spanDigits : Bytes → Bytes × Bytes
  | [] => ([], [])
  | b :: rest => if isDigit b then ((spanDigits rest).1.cons b, (spanDigits rest).2) else ([], b :: rest)

/-- The number a digit string stands for. -/
def digitsValue (ds : Bytes) : Nat := ds.foldl (fun acc d => 10 * acc + (d.toNat - 0x30)) 0

/-- An unsigned integer literal: `0`, or digits not starting with `0`. -/
def parseNatLit (input : Bytes) : Option (Nat × Bytes) :=
  let (ds, rest) := spanDigits input
  if ds = [] ∨ (ds.head? = some 0x30 ∧ 2 ≤ ds.length) then none else some (digitsValue ds, rest)

/-- Whether a fraction or an exponent follows, which makes the number a real. -/
def startsReal : Bytes → Bool
  | [] => false
  | b :: _ => b = 0x2E || b = 0x65 || b = 0x45

/-- The integer value of a literal with its sign; a real, or an integer outside
`[-2^63, 2^64)`, is refused. -/
def intLit (negative : Bool) : Option (Nat × Bytes) → Option (JsonVal × Bytes)
  | none => none
  | some (m, rest) =>
      let n : Int := if negative then -(m : Int) else m
      if startsReal rest = false ∧ -2 ^ 63 ≤ n ∧ n < 2 ^ 64 then some (.int n, rest) else none

/-- A number token. -/
def parseNumber : Bytes → Option (JsonVal × Bytes)
  | [] => none
  | b :: rest => if b = 0x2D then intLit true (parseNatLit rest) else intLit false (parseNatLit (b :: rest))

/-- The literal `lit` (after its first byte), standing for `v`. -/
def parseLit (lit : Bytes) (v : JsonVal) (rest : Bytes) : Option (JsonVal × Bytes) :=
  if lit.isPrefixOf rest then some (v, rest.drop lit.length) else none

/-! ## Values -/

/-- What may follow an element or a member: `,` then whitespace and another one, or the
closing bracket. -/
inductive ItemEnd where
  | more (rest : Bytes)
  | close (rest : Bytes)

/-- Read past the whitespace after an item to `,` or to the closing byte `close`. -/
def afterItem (close : UInt8) (input : Bytes) : Option ItemEnd :=
  match skipWs input with
  | b :: rest =>
      if b = 0x2C then some (.more (skipWs rest)) else if b = close then some (.close rest)
      else none
  | [] => none

/-- The items of a non-empty array or object, each read by `item`, up to the byte `close`;
at most `fuel` of them. -/
def parseItems {α : Type} (item : Bytes → Option (α × Bytes)) (close : UInt8) :
    Nat → Bytes → Option (List α × Bytes)
  | 0, _ => none
  | fuel + 1, input =>
      (item input).bind fun p =>
        match afterItem close p.2 with
        | some (.more rest) => (parseItems item close fuel rest).map fun q => (p.1 :: q.1, q.2)
        | some (.close rest) => some ([p.1], rest)
        | none => none

/-- One member of an object, `"key" : value`, with `parse` for the value. -/
def parseMember (parse : Bytes → Option (JsonVal × Bytes)) :
    Bytes → Option ((Bytes × JsonVal) × Bytes)
  | [] => none
  | b :: input =>
      if b = 0x22 then
        (parseStr input).bind fun p =>
          match skipWs p.2 with
          | c :: rest =>
              if c = 0x3A then (parse (skipWs rest)).map fun q => ((p.1, q.1), q.2) else none
          | [] => none
      else none

/-- One value, nested at most `fuel` deep. -/
def parseVal : Nat → Bytes → Option (JsonVal × Bytes)
  | 0, _ => none
  | _ + 1, [] => none
  | fuel + 1, b :: rest =>
      if b = 0x22 then (parseStr rest).map fun p => (.str p.1, p.2)
      else if b = 0x5B then
        if (skipWs rest).head? = some 0x5D then some (.arr [], (skipWs rest).tail)
        else (parseItems (parseVal fuel) 0x5D fuel (skipWs rest)).map fun p => (.arr p.1, p.2)
      else if b = 0x7B then
        if (skipWs rest).head? = some 0x7D then some (.obj [], (skipWs rest).tail)
        else
          (parseItems (parseMember (parseVal fuel)) 0x7D fuel (skipWs rest)).map fun p =>
            (.obj p.1, p.2)
      else if b = 0x6E then parseLit [0x75, 0x6C, 0x6C] .null rest
      else if b = 0x74 then parseLit [0x72, 0x75, 0x65] (.bool true) rest
      else if b = 0x66 then parseLit [0x61, 0x6C, 0x73, 0x65] (.bool false) rest
      else parseNumber (b :: rest)

/-- `yyjson_read(json, strlen(json), 0)`: one value with only whitespace around it.  Every
value and every member takes at least one byte, so the length of the text is fuel enough. -/
def yyjsonRead (text : Bytes) : Option JsonVal :=
  match parseVal (text.length + 1) (skipWs text) with
  | some (v, rest) => if skipWs rest = [] then some v else none
  | none => none


example : yyjsonRead (ascii " \x7b\"a\" : [1, -20, \"\\u00e9\\n\"], \"b\":\x7b\x7d\x7d ") =
    some (.obj [(ascii "a", .arr [.int 1, .int (-20), .str [0xC3, 0xA9, 0x0A]]),
      (ascii "b", .obj [])]) := by
  rfl

end Scribe

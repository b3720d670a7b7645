import Mathlib.Data.List.Basic
import Mathlib.Tactic.Ring

/-!
# Digests, SHA-256 and the hex codec

`scribe_hash_t` is a 32-byte array and `core/hash.c` computes it with OpenSSL's SHA-256.
SHA-256 itself is left abstract: every definition that hashes takes the digest function
`sha256 : Bytes → Hash` as an argument.  Since any such function has collisions, results
that the spec states "with SHA-256 modelled as injective" are proved here as *collision
extraction*: either the conclusion holds, or two specific, distinct preimages that the
program actually hashed collide.

The hex codec follows `scribe_hash_to_hex` (lowercase, two characters per byte) and
`scribe_hash_from_hex`, including its partial writes: a bad digit stops the loop after the
bytes before it have been stored.  `hashHexCodec_correct` collects what holds of the codec:
the round trip, that the decoder accepts exactly 64 hex digits, and that what it stores is
written back as its input lowercased.
-/

namespace Scribe

/-- Byte strings, as the C code passes them (`const void *data, size_t len`). -/
abbrev Bytes := List UInt8

/-- `scribe_hash_t`: exactly 32 bytes. -/
@[ext]
structure Hash where
  bytes : Bytes
  length_bytes : bytes.length = 32
  deriving DecidableEq

/-- The error kinds of `scribe_error_t`. -/
inductive ScribeError where
  | ok | nomem | invalidArg | notFound
  | notARepo | repoExists | repoCorrupt
  | io | db | objectMissing
  | hashMismatch | crypto
  | pgConnect | pgQuery | pgReplication
  | jsonParse | jsonSchema
  deriving DecidableEq, Repr

namespace Hash

/-- `SCRIBE_ZERO_HASH`, the "absent" digest. -/
def zero : Hash := ⟨List.replicate 32 0, List.length_replicate 32 0⟩

/-- Overwrite the first bytes of a digest, keeping the rest: what a loop that stores
`out_hash->bytes[i]` for `i < d.length` leaves behind. -/
def writePrefix (h : Hash) (d : Bytes) : Hash :=
  ⟨(d ++ h.bytes.drop d.length).take 32, by
    rw [List.length_take, List.length_append, List.length_drop, h.length_bytes]; omega⟩

/-- The digest whose 32 bytes all equal `b`. -/
def ofByte (b : UInt8) : Hash := ⟨List.replicate 32 b, List.length_replicate 32 b⟩

theorem writePrefix_of_length_eq (h : Hash) {d : Bytes} (hd : d.length = 32) :
    (h.writePrefix d).bytes = d := by
  show (d ++ h.bytes.drop d.length).take 32 = d
  rw [← hd, List.take_left]

end Hash

/-- `scribe_hash_is_zero`. -/
def hashIsZero (h : Hash) : Bool := h == Hash.zero

@[simp]
theorem hashIsZero_eq_true {h : Hash} : hashIsZero h = true ↔ h = Hash.zero := by
  simp [hashIsZero]

/-- Two distinct inputs with the same digest. -/
def Collision (sha256 : Bytes → Hash) (a b : Bytes) : Prop :=
  a ≠ b ∧ sha256 a = sha256 b

section Digest

variable (sha256 : Bytes → Hash)

/-- `scribe_hash_bytes`. -/
def hashBytes (data : Bytes) : Hash := sha256 data

/-- `scribe_hash_leaf`: `SHA256(0x00 ‖ data)`. -/
def hashLeaf (data : Bytes) : Hash := sha256 (0x00 :: data)

/-- The bytes `scribe_hash_combine` feeds to SHA-256: `0x01 ‖ left ‖ right`. -/
def combineInput (left right : Hash) : Bytes := 0x01 :: (left.bytes ++ right.bytes)

/-- `scribe_hash_combine`, the internal-node hash. -/
def hashCombine (left right : Hash) : Hash := sha256 (combineInput left right)

theorem combineInput_injective {left right left' right' : Hash}
    (heq : combineInput left right = combineInput left' right') :
    left = left' ∧ right = right' := by
  simp only [combineInput, List.cons.injEq, true_and] at heq
  have hleft : left.bytes = left'.bytes :=
    List.append_inj_left heq (by rw [left.length_bytes, left'.length_bytes])
  exact ⟨Hash.ext hleft, Hash.ext (List.append_cancel_left (hleft ▸ heq))⟩

/-- Two internal nodes with equal hashes have equal children, unless their two
`scribe_hash_combine` preimages collide. -/
theorem hashCombine_eq {left right left' right' : Hash}
    (heq : hashCombine sha256 left right = hashCombine sha256 left' right') :
    (left = left' ∧ right = right') ∨
      Collision sha256 (combineInput left right) (combineInput left' right') := by
  by_cases hinput : combineInput left right = combineInput left' right'
  · exact .inl (combineInput_injective hinput)
  · exact .inr ⟨hinput, heq⟩

end Digest

/-- A function of SHA-256's type for running the model on concrete inputs: the input's
length and byte sum, each modulo 256, then zeros.  Every theorem holds for any digest
function, so the concrete runs below take this one. -/
def sumDigest (data : Bytes) : Hash :=
  ⟨UInt8.ofNat data.length :: data.foldl (· + ·) 0 :: List.replicate 30 0, by simp⟩

/-- A stand-in digest that is never zero, for the runs whose theorems assume that no digest is
zero: an odd byte computed from the length, repeated. -/
def oddDigest (data : Bytes) : Hash := Hash.ofByte (UInt8.ofNat (2 * data.length + 1))

theorem oddDigest_ne_zero (data : Bytes) : oddDigest data ≠ Hash.zero := by
  intro h
  have hb := congrArg (fun h : Hash => h.bytes.head?) h
  simp only [oddDigest, Hash.ofByte, Hash.zero, List.head?_replicate] at hb
  have hn : (2 * data.length + 1) % 256 = 0 := congrArg UInt8.toNat (Option.some.inj hb)
  omega

/-! ## Hex codec -/

/-- `hex_chars` of `scribe_hash_to_hex`: `"0123456789abcdef"`. -/
def hexChars : Bytes :=
  [0x30, 0x31, 0x32, 0x33, 0x34, 0x35, 0x36, 0x37,
   0x38, 0x39, 0x61, 0x62, 0x63, 0x64, 0x65, 0x66]

/-- The two characters written for one byte: `hex_chars[(b >> 4) & 0x0F]` and
`hex_chars[b & 0x0F]`, i.e. the digits of `b / 16` and `b % 16`. -/
def hexByte (b : UInt8) : Bytes :=
  [hexChars.getD (b.toNat / 16) 0, hexChars.getD (b.toNat % 16) 0]

/-- `scribe_hash_to_hex`, without the terminating NUL. -/
def hashToHex (h : Hash) : Bytes := h.bytes.flatMap hexByte

/-- C's `isxdigit` in the C locale. -/
def isxdigit (c : UInt8) : Bool :=
  (0x30 ≤ c && c ≤ 0x39) || (0x61 ≤ c && c ≤ 0x66) || (0x41 ≤ c && c ≤ 0x46)

/-- The value `scribe_hash_from_hex` computes for one digit:
`(c >= 'a') ? c - 'a' + 10 : (c >= 'A') ? c - 'A' + 10 : c - '0'`. -/
def hexNibble (c : UInt8) : Nat :=
  if 0x61 ≤ c then c.toNat - 0x61 + 10 else if 0x41 ≤ c then c.toNat - 0x41 + 10
  else c.toNat - 0x30

/-- `tolower` in the C locale. -/
def toLower (c : UInt8) : UInt8 := if 0x41 ≤ c ∧ c ≤ 0x5A then c + 0x20 else c

/-- The decoding loop of `scribe_hash_from_hex` over digit pairs: the bytes it stores, and
whether it ran to the end.  For two valid digits `(high_val << 4) | low_val` is
`16 * high_val + low_val`. -/
def hexPairs : Bytes → Bytes × Bool
  | high :: low :: rest =>
      if isxdigit high && isxdigit low then
        let tail := hexPairs rest
        (UInt8.ofNat (16 * hexNibble high + hexNibble low) :: tail.1, tail.2)
      else ([], false)
  | _ => ([], true)

/-- `scribe_hash_from_hex hex out`: the error code and the digest left in `*out_hash`.  The
input is read up to its first NUL (`strlen`); a wrong length writes nothing, a bad digit
stops after the bytes before it. -/
def hashFromHex (hex : Bytes) (out : Hash) : ScribeError × Hash :=
  let text := hex.takeWhile (· ≠ 0)
  if text.length ≠ 64 then (.invalidArg, out)
  else
    let decoded := hexPairs text
    (if decoded.2 then .ok else .invalidArg, out.writePrefix decoded.1)

theorem hexChars_digit : ∀ d : Fin 16,
    isxdigit (hexChars.getD d 0) = true ∧ hexNibble (hexChars.getD d 0) = d ∧
      hexChars.getD d 0 ≠ 0 := by
  decide

theorem UInt8.toNat_lt_256 (b : UInt8) : b.toNat < 256 := b.toNat_lt_size

theorem UInt8.lt_iff_toNat_lt {a b : UInt8} : a < b ↔ a.toNat < b.toNat := by
  rw [UInt8.lt_def, BitVec.lt_def]; rfl

theorem UInt8.le_iff_toNat_le {a b : UInt8} : a ≤ b ↔ a.toNat ≤ b.toNat := by
  rw [UInt8.le_def, BitVec.le_def]; rfl

theorem UInt8.eq_iff_toNat_eq {a b : UInt8} : a = b ↔ a.toNat = b.toNat :=
  ⟨congrArg _, UInt8.toNat.inj⟩

theorem UInt8.ofNat_toNat (b : UInt8) : UInt8.ofNat b.toNat = b :=
  UInt8.toNat.inj (UInt8.toNat_ofNat_of_lt b.toNat_lt_size)

theorem ofNat_hexByte_digits (b : UInt8) :
    UInt8.ofNat (16 * (b.toNat / 16) + b.toNat % 16) = b := by
  apply UInt8.toNat.inj
  rw [Nat.div_add_mod, UInt8.toNat_ofNat_of_lt b.toNat_lt_size]

theorem length_flatMap_hexByte (bs : Bytes) : (bs.flatMap hexByte).length = 2 * bs.length := by
  induction bs with
  | nil => rfl
  | cons b bs ih => simp [List.flatMap_cons, hexByte, ih]; ring

@[simp]
theorem length_hashToHex (h : Hash) : (hashToHex h).length = 64 := by
  rw [hashToHex, length_flatMap_hexByte, h.length_bytes]

theorem hexPairs_flatMap_hexByte (bs : Bytes) :
    hexPairs (bs.flatMap hexByte) = (bs, true) := by
  induction bs with
  | nil => rfl
  | cons b bs ih =>
      have hb := UInt8.toNat_lt_256 b
      obtain ⟨hhigh, hhigh', -⟩ := hexChars_digit ⟨b.toNat / 16, by omega⟩
      obtain ⟨hlow, hlow', -⟩ := hexChars_digit ⟨b.toNat % 16, by omega⟩
      rw [List.flatMap_cons]
      show hexPairs (hexChars.getD _ 0 :: hexChars.getD _ 0 :: bs.flatMap hexByte) = _
      simp only [hexPairs, hhigh, hlow, hhigh', hlow', ih, ofNat_hexByte_digits,
        Bool.and_self, if_true]

theorem hashToHex_ne_zero {h : Hash} {c : UInt8} (hc : c ∈ hashToHex h) : c ≠ 0 := by
  simp only [hashToHex, List.mem_flatMap, hexByte, List.mem_cons,
    List.not_mem_nil, or_false] at hc
  obtain ⟨b, -, rfl | rfl⟩ := hc
  · exact (hexChars_digit ⟨b.toNat / 16, by have := UInt8.toNat_lt_256 b; omega⟩).2.2
  · exact (hexChars_digit ⟨b.toNat % 16, by omega⟩).2.2

theorem takeWhile_hashToHex (h : Hash) :
    (hashToHex h).takeWhile (· ≠ 0) = hashToHex h :=
  List.takeWhile_eq_self_iff.mpr fun _ hc => by simpa using hashToHex_ne_zero hc

/-- Decoding what `scribe_hash_to_hex` wrote succeeds and gives the digest back, whatever
`*out_hash` held before. -/
theorem hashFromHex_hashToHex (h out : Hash) :
    hashFromHex (hashToHex h) out = (.ok, h) := by
  have hpairs : hexPairs (hashToHex h) = (h.bytes, true) := hexPairs_flatMap_hexByte h.bytes
  simp only [hashFromHex, takeWhile_hashToHex, length_hashToHex, hpairs, ne_eq,
    not_true_eq_false, if_false, if_true, Prod.mk.injEq, true_and]
  exact Hash.ext (Hash.writePrefix_of_length_eq out h.length_bytes)

theorem hashToHex_injective : Function.Injective hashToHex := by
  intro h h' heq
  have := hashFromHex_hashToHex h Hash.zero
  rw [heq, hashFromHex_hashToHex] at this
  exact (Prod.mk.inj this).2.symm

theorem hexNibble_table : ∀ n : Fin 64, isxdigit (UInt8.ofNat (0x30 + n)) = true →
    hexNibble (UInt8.ofNat (0x30 + n)) < 16 ∧
      hexChars.getD (hexNibble (UInt8.ofNat (0x30 + n))) 0 = toLower (UInt8.ofNat (0x30 + n)) := by
  decide

/-- A hex digit's value is below 16, and `hex_chars` writes it back lowercased. -/
theorem hexNibble_lower {c : UInt8} (hc : isxdigit c = true) :
    hexNibble c < 16 ∧ hexChars.getD (hexNibble c) 0 = toLower c := by
  have hrange : 0x30 ≤ c.toNat ∧ c.toNat < 0x70 := by
    simp only [isxdigit, Bool.or_eq_true, Bool.and_eq_true, decide_eq_true_eq,
      UInt8.le_iff_toNat_le] at hc
    simp [UInt8.size] at hc
    omega
  have hc' : c = UInt8.ofNat (0x30 + (c.toNat - 0x30)) := by
    rw [Nat.add_sub_cancel' hrange.1, UInt8.ofNat_toNat]
  rw [hc'] at hc ⊢
  exact hexNibble_table ⟨c.toNat - 0x30, by omega⟩ hc

theorem hexByte_decode {high low : UInt8} (hhigh : isxdigit high = true)
    (hlow : isxdigit low = true) :
    hexByte (UInt8.ofNat (16 * hexNibble high + hexNibble low)) = [toLower high, toLower low] := by
  obtain ⟨hh, hh'⟩ := hexNibble_lower hhigh
  obtain ⟨hl, hl'⟩ := hexNibble_lower hlow
  have hval : (UInt8.ofNat (16 * hexNibble high + hexNibble low)).toNat =
      16 * hexNibble high + hexNibble low := UInt8.toNat_ofNat_of_lt (by simp [UInt8.size]; omega)
  rw [hexByte, hval, show (16 * hexNibble high + hexNibble low) / 16 = hexNibble high by omega,
    show (16 * hexNibble high + hexNibble low) % 16 = hexNibble low by omega, hh', hl']

/-- On an even number of characters the decoding loop runs to the end exactly when every
character is a hex digit. -/
theorem hexPairs_snd : ∀ {text : Bytes}, text.length % 2 = 0 →
    ((hexPairs text).2 = true ↔ ∀ c ∈ text, isxdigit c = true)
  | [], _ => by simp [hexPairs]
  | [_], h => absurd h (by simp)
  | high :: low :: rest, hlen => by
      have ih := @hexPairs_snd rest (by simp at hlen; omega)
      rw [hexPairs]
      by_cases hpair : (isxdigit high && isxdigit low) = true
      · rw [if_pos hpair, ih]
        simp only [Bool.and_eq_true] at hpair
        simp [hpair]
      · rw [if_neg hpair]
        simp only [Bool.and_eq_true, not_and] at hpair
        simp only [Bool.false_eq_true, List.mem_cons, forall_eq_or_imp, false_iff, not_and]
        exact fun hh hl => absurd hl (hpair hh)

/-- On valid digits, the bytes the loop stores are written back as the text, lowercased. -/
theorem hexPairs_decode : ∀ {text : Bytes}, text.length % 2 = 0 →
    (∀ c ∈ text, isxdigit c = true) →
    (hexPairs text).1.flatMap hexByte = text.map toLower
  | [], _, _ => rfl
  | [_], h, _ => absurd h (by simp)
  | high :: low :: rest, hlen, hdig => by
      have hh := hdig high (by simp)
      have hl := hdig low (by simp)
      rw [hexPairs, if_pos (by simp [hh, hl])]
      simp only [List.flatMap_cons, hexByte_decode hh hl, List.map_cons,
        @hexPairs_decode rest (by simp at hlen; omega) fun c hc => hdig c (by simp [hc])]
      rfl

theorem toLower_hexChars : ∀ d : Fin 16, toLower (hexChars.getD d 0) = hexChars.getD d 0 := by
  decide

/-- `scribe_hash_to_hex` writes lowercase hex digits only. -/
theorem isxdigit_hashToHex {h : Hash} {c : UInt8} (hc : c ∈ hashToHex h) :
    isxdigit c = true ∧ toLower c = c := by
  simp only [hashToHex, List.mem_flatMap, hexByte, List.mem_cons,
    List.not_mem_nil, or_false] at hc
  obtain ⟨b, -, rfl | rfl⟩ := hc
  · have hd : b.toNat / 16 < 16 := by have := UInt8.toNat_lt_256 b; omega
    exact ⟨(hexChars_digit ⟨_, hd⟩).1, toLower_hexChars ⟨_, hd⟩⟩
  · have hd : b.toNat % 16 < 16 := Nat.mod_lt _ (by decide)
    exact ⟨(hexChars_digit ⟨_, hd⟩).1, toLower_hexChars ⟨_, hd⟩⟩

/-- `scribe_hash_from_hex` succeeds exactly on 64 hex digits before the first NUL. -/
theorem hashFromHex_ok_iff (hex : Bytes) (out : Hash) :
    (hashFromHex hex out).1 = .ok ↔
      (hex.takeWhile (· ≠ 0)).length = 64 ∧
        ∀ c ∈ hex.takeWhile (· ≠ 0), isxdigit c = true := by
  by_cases hlen : (hex.takeWhile (· ≠ 0)).length = 64
  · rw [← hexPairs_snd (by rw [hlen])]
    simp only [hashFromHex, hlen, ne_eq, not_true_eq_false, if_false, true_and]
    cases (hexPairs (hex.takeWhile (· ≠ 0))).2 <;> simp
  · simp only [hashFromHex, hlen, ne_eq, not_false_eq_true, if_true, false_and, iff_false]
    exact fun h => nomatch h

/-- What a successful decode stores is the input again, lowercased, when written back. -/
theorem hashToHex_hashFromHex (hex : Bytes) (out : Hash) (hok : (hashFromHex hex out).1 = .ok) :
    hashToHex (hashFromHex hex out).2 = (hex.takeWhile (· ≠ 0)).map toLower := by
  obtain ⟨hlen, hdig⟩ := (hashFromHex_ok_iff hex out).mp hok
  have hdecode := hexPairs_decode (by rw [hlen]) hdig
  have hbytes : (hexPairs (hex.takeWhile (· ≠ 0))).1.length = 32 := by
    have := congrArg List.length hdecode
    rw [length_flatMap_hexByte, List.length_map, hlen] at this
    omega
  simp only [hashFromHex, hlen, ne_eq, not_true_eq_false, if_false]
  rw [hashToHex, Hash.writePrefix_of_length_eq _ hbytes, hdecode]

/-- The hex codec: every digest goes through 64 lowercase hex digits and back, and the decoder
accepts exactly 64 hex digits before the first NUL, storing a digest that writes back as its
input lowercased. -/
theorem hashHexCodec_correct :
    (∀ h out : Hash, hashFromHex (hashToHex h) out = (.ok, h) ∧ (hashToHex h).length = 64 ∧
        ∀ c ∈ hashToHex h, isxdigit c = true ∧ toLower c = c) ∧
      ∀ (hex : Bytes) (out : Hash),
        ((hashFromHex hex out).1 = .ok ↔
          (hex.takeWhile (· ≠ 0)).length = 64 ∧ ∀ c ∈ hex.takeWhile (· ≠ 0), isxdigit c = true) ∧
        ((hashFromHex hex out).1 = .ok →
          hashToHex (hashFromHex hex out).2 = (hex.takeWhile (· ≠ 0)).map toLower) :=
  ⟨fun h out =>
      ⟨hashFromHex_hashToHex h out, length_hashToHex h, fun _ hc => isxdigit_hashToHex hc⟩,
    fun hex out => ⟨hashFromHex_ok_iff hex out, hashToHex_hashFromHex hex out⟩⟩

end Scribe

import Scribe.Json.Reader

/-!
# Reading back what the yyjson writer wrote

`yyjsonRead_yyjsonWrite`: whatever `yyjson_mut_write` writes, `yyjson_read` reads back as
the same value.  The proof follows the writer: one lemma per token kind (whitespace,
escaped strings, decimal integers), then a mutual induction over values, arrays and
objects, where the fuel of the reader is bounded by the length of the written text.

The last section characterises when the writer succeeds on an object, and shows that it
never writes a NUL byte, so that `strlen` of its output is all of it.
-/

namespace Scribe

/-! ## Reading back: whitespace -/

theorem skipWs_append_of_ws {ws : Bytes} (r : Bytes) (hws : ∀ b ∈ ws, isWs b = true) :
    skipWs (ws ++ r) = skipWs r := by
  induction ws with
  | nil => rfl
  | cons b ws ih =>
      rw [List.cons_append, skipWs, if_pos (hws b (List.mem_cons_self _ _))]
      exact ih fun c hc => hws c (List.mem_cons_of_mem _ hc)

theorem skipWs_cons_of_not_ws {b : UInt8} (r : Bytes) (hb : isWs b = false) :
    skipWs (b :: r) = b :: r := by
  rw [skipWs, if_neg (by simp [hb])]

@[simp]
theorem skipWs_newline (r : Bytes) : skipWs (0x0A :: r) = skipWs r := by
  rw [skipWs, if_pos (show isWs 0x0A = true from rfl)]

@[simp]
theorem skipWs_indent (level : Nat) (r : Bytes) : skipWs (indent level ++ r) = skipWs r :=
  skipWs_append_of_ws r fun b hb => by
    rw [indent, List.mem_replicate] at hb
    rw [hb.2]; rfl

/-! ## Reading back: strings -/

theorem hexDigitVal_upperHex : ∀ d : Fin 16, hexDigitVal (upperHex d.val) = some d.val := by
  decide

theorem hex4_escape {b : UInt8} (hb : b.toNat < 32) :
    hex4 0x30 0x30 (upperHex (b.toNat / 16)) (upperHex (b.toNat % 16)) = some b.toNat := by
  have hhigh := hexDigitVal_upperHex ⟨b.toNat / 16, by omega⟩
  have hlow := hexDigitVal_upperHex ⟨b.toNat % 16, by omega⟩
  simp only [hex4, hhigh, hlow, show hexDigitVal 0x30 = some 0 from rfl, Option.bind_eq_bind,
    Option.some_bind]
  congr 1; omega

theorem parseStrBody_escapeByte (fuel : Nat) (b : UInt8) (r : Bytes) :
    parseStrBody (fuel + 1) (escapeByte b ++ r) = (parseStrBody fuel r).map (prependBytes [b]) := by
  rcases escapeByte_cases b with ⟨rfl, h⟩ | ⟨rfl, h⟩ | ⟨rfl, h⟩ | ⟨rfl, h⟩ | ⟨rfl, h⟩ | ⟨rfl, h⟩ |
    ⟨rfl, h⟩ | ⟨hlt, h⟩ | ⟨h1, h2, hlt, h⟩ <;> rw [h]
  case inr.inr.inr.inr.inr.inr.inr.inl =>
    have hlt : b.toNat < 32 := UInt8.lt_iff_toNat_lt.mp hlt
    have hescape : parseEscape (0x75 :: 0x30 :: 0x30 :: upperHex (b.toNat / 16) ::
        upperHex (b.toNat % 16) :: r) = some ([b], r) := by
      rw [parseEscape, hex4_escape hlt, Option.some_bind, unicodeEscape, if_pos (.inl (by omega)),
        utf8Encode, if_pos (by omega), UInt8.ofNat_toNat]
    rw [List.cons_append, parseStrBody, if_neg (by decide), if_pos rfl]
    simp only [List.cons_append, List.nil_append, hescape, Option.some_bind]
  case inr.inr.inr.inr.inr.inr.inr.inr =>
    rw [List.singleton_append, parseStrBody, if_neg h1, if_neg h2, if_neg hlt]
  all_goals rfl

theorem parseStrBody_flatMap_escapeByte (s r : Bytes) {fuel : Nat} (hfuel : s.length < fuel) :
    parseStrBody fuel (s.flatMap escapeByte ++ 0x22 :: r) = some (s, r) := by
  induction s generalizing fuel with
  | nil =>
      match fuel, hfuel with
      | fuel + 1, _ => rw [List.flatMap_nil, List.nil_append, parseStrBody, if_pos rfl]
  | cons b s ih =>
      match fuel, hfuel with
      | fuel + 1, hfuel =>
          rw [List.flatMap_cons, List.append_assoc, parseStrBody_escapeByte,
            ih (by simp at hfuel; omega)]
          rfl

theorem length_le_length_flatMap_escapeByte (s : Bytes) : s.length ≤ (s.flatMap escapeByte).length := by
  induction s with
  | nil => simp
  | cons b s ih =>
      have : 1 ≤ (escapeByte b).length := by
        rcases escapeByte_cases b with ⟨-, h⟩ | ⟨-, h⟩ | ⟨-, h⟩ | ⟨-, h⟩ | ⟨-, h⟩ | ⟨-, h⟩ |
          ⟨-, h⟩ | ⟨-, h⟩ | ⟨-, -, -, h⟩ <;> simp [h]
      simp only [List.flatMap_cons, List.length_append, List.length_cons]; omega

theorem parseStr_escaped {s : Bytes} (hs : utf8Valid s = true) (r : Bytes) :
    parseStr (s.flatMap escapeByte ++ 0x22 :: r) = some (s, r) := by
  have hlen := length_le_length_flatMap_escapeByte s
  rw [parseStr, parseStrBody_flatMap_escapeByte s r
    (by rw [List.length_append, List.length_cons]; omega)]
  simp [hs]

/-! ## Reading back: integers -/

/-- What may follow a value the writer wrote: the end, `,` or a newline. -/
def endsValue : Bytes → Bool
  | [] => true
  | b :: _ => b = 0x2C || b = 0x0A

theorem decimal_digit : ∀ d, d < 10 →
    isDigit (UInt8.ofNat (0x30 + d)) = true ∧ (UInt8.ofNat (0x30 + d)).toNat - 0x30 = d ∧
      (d ≠ 0 → UInt8.ofNat (0x30 + d) ≠ 0x30) := by
  decide

theorem isDigit_of_mem_decimal (n : Nat) : ∀ b ∈ decimal n, isDigit b = true := by
  induction n using decimal.induct with
  | case1 n hn =>
      rw [decimal, if_pos hn]
      simpa using (decimal_digit n hn).1
  | case2 n hn ih =>
      rw [decimal, if_neg hn]
      intro b hb
      rcases List.mem_append.mp hb with hb | hb
      · exact ih b hb
      · rw [List.mem_singleton.mp hb]; exact (decimal_digit (n % 10) (by omega)).1

theorem digitsValue_decimal (n : Nat) : digitsValue (decimal n) = n := by
  induction n using decimal.induct with
  | case1 n hn =>
      rw [decimal, if_pos hn]
      simp [digitsValue, (decimal_digit n hn).2.1]
  | case2 n hn ih =>
      rw [decimal, if_neg hn]
      simp only [digitsValue, List.foldl_append, List.foldl_cons, List.foldl_nil] at ih ⊢
      rw [ih, (decimal_digit (n % 10) (by omega)).2.1]
      omega

/-- The first digit of a number of two or more digits is not `0`. -/
theorem decimal_head (n : Nat) (hn : 0 < n) : ∃ c t, decimal n = c :: t ∧ c ≠ 0x30 := by
  induction n using decimal.induct with
  | case1 n hlt =>
      rw [decimal, if_pos hlt]
      exact ⟨_, _, rfl, (decimal_digit n hlt).2.2 (by simp; omega)⟩
  | case2 n hge ih =>
      obtain ⟨c, t, hct, hc⟩ := ih (by omega)
      rw [decimal, if_neg hge, hct]
      exact ⟨c, _, rfl, hc⟩

theorem decimal_cons (n : Nat) : ∃ c t, decimal n = c :: t ∧ isDigit c = true := by
  rcases Nat.eq_zero_or_pos n with rfl | hpos
  · exact ⟨0x30, [], by rw [decimal, if_pos (by omega)]; rfl, rfl⟩
  · obtain ⟨c, t, hct, -⟩ := decimal_head _ hpos
    exact ⟨c, t, hct, isDigit_of_mem_decimal _ c (hct ▸ List.mem_cons_self c t)⟩

theorem spanDigits_append {ds : Bytes} (r : Bytes) (hds : ∀ b ∈ ds, isDigit b = true)
    (hr : endsValue r = true) : spanDigits (ds ++ r) = (ds, r) := by
  induction ds with
  | nil =>
      match r, hr with
      | [], _ => rfl
      | b :: r, hr =>
          have hb : isDigit b = false := by
            simp only [endsValue, Bool.or_eq_true, decide_eq_true_eq] at hr
            rcases hr with rfl | rfl <;> rfl
          rw [List.nil_append, spanDigits, if_neg (by simp [hb])]
  | cons d ds ih =>
      rw [List.cons_append, spanDigits, if_pos (hds d (List.mem_cons_self _ _)),
        ih fun b hb => hds b (List.mem_cons_of_mem _ hb)]

theorem parseNatLit_decimal (n : Nat) {r : Bytes} (hr : endsValue r = true) :
    parseNatLit (decimal n ++ r) = some (n, r) := by
  rw [parseNatLit, spanDigits_append r (isDigit_of_mem_decimal n) hr]
  simp only [digitsValue_decimal]
  rw [if_neg]
  rintro (hnil | ⟨hhead, hlen⟩)
  · rcases Nat.eq_zero_or_pos n with rfl | hpos
    · simp [decimal] at hnil
    · obtain ⟨c, t, hct, -⟩ := decimal_head n hpos
      simp [hct] at hnil
  · rcases Nat.eq_zero_or_pos n with rfl | hpos
    · simp [decimal] at hlen
    · obtain ⟨c, t, hct, hc⟩ := decimal_head n hpos
      simp [hct] at hhead
      exact hc hhead

theorem startsReal_of_endsValue {r : Bytes} (hr : endsValue r = true) : startsReal r = false := by
  match r, hr with
  | [], _ => rfl
  | b :: _, hr =>
      simp only [endsValue, Bool.or_eq_true, decide_eq_true_eq] at hr
      rcases hr with rfl | rfl <;> rfl

theorem intLit_some (negative : Bool) (m : Nat) {r : Bytes} (hr : endsValue r = true)
    (hlow : -2 ^ 63 ≤ (if negative then -(m : Int) else m))
    (hhigh : (if negative then -(m : Int) else m) < 2 ^ 63) :
    intLit negative (some (m, r)) = some (.int (if negative then -(m : Int) else m), r) := by
  rw [intLit, if_pos ⟨startsReal_of_endsValue hr, hlow, by omega⟩]

theorem parseNumber_writeInt {n : Int} (hlow : -2 ^ 63 ≤ n) (hhigh : n < 2 ^ 63) {r : Bytes}
    (hr : endsValue r = true) : parseNumber (writeInt n ++ r) = some (.int n, r) := by
  unfold writeInt
  split_ifs with hneg
  · have habs : -(n.natAbs : Int) = n := by omega
    rw [List.cons_append, parseNumber, if_pos rfl, parseNatLit_decimal _ hr,
      intLit_some true _ hr (by simp only [if_true]; omega) (by simp only [if_true]; omega)]
    simp only [if_true, habs]
  · have habs : (n.natAbs : Int) = n := by omega
    obtain ⟨c, t, hct, hcdigit⟩ := decimal_cons n.natAbs
    have hc : c ≠ 0x2D := by rintro rfl; exact absurd hcdigit (by decide)
    rw [hct, List.cons_append, parseNumber, if_neg hc, ← List.cons_append, ← hct,
      parseNatLit_decimal _ hr,
      intLit_some false _ hr (by simp only [Bool.false_eq_true, if_false]; omega)
        (by simp only [Bool.false_eq_true, if_false]; omega)]
    simp only [Bool.false_eq_true, if_false, habs]


/-! ## Reading back: values -/

theorem not_ws_of_isDigit {c : UInt8} (hc : isDigit c = true) : isWs c = false ∧ c ≠ 0x5D := by
  simp only [isDigit, Bool.and_eq_true, decide_eq_true_eq, UInt8.le_iff_toNat_le] at hc
  simp only [isWs, Bool.or_eq_false_iff, decide_eq_false_iff_not, ne_eq, UInt8.eq_iff_toNat_eq]
  simp [UInt8.size] at hc ⊢
  omega

theorem writeStr_eq_some {s w : Bytes} (hw : writeStr s = some w) :
    utf8Valid s = true ∧ w = 0x22 :: (s.flatMap escapeByte ++ [0x22]) := by
  unfold writeStr at hw
  split_ifs at hw with hs
  exact ⟨hs, (Option.some.inj hw).symm⟩

theorem writeElems_cons_eq_some {level : Nat} {v : JsonVal} {vs : List JsonVal} {body : Bytes}
    (hw : writeElems level (v :: vs) = some body) :
    ∃ w rest, writeVal level v = some w ∧ writeElems level vs = some rest ∧
      body = indent level ++ w ++ separator vs.isEmpty ++ rest := by
  simp only [writeElems, Option.bind_eq_bind, Option.bind_eq_some, Option.some.injEq] at hw
  obtain ⟨w, hw, rest, hrest, rfl⟩ := hw
  exact ⟨w, rest, hw, hrest, rfl⟩

theorem writeMembers_cons_eq_some {level : Nat} {key : Bytes} {v : JsonVal}
    {ms : List (Bytes × JsonVal)} {body : Bytes}
    (hw : writeMembers level ((key, v) :: ms) = some body) :
    ∃ k w rest, writeStr key = some k ∧ writeVal level v = some w ∧
      writeMembers level ms = some rest ∧
      body = indent level ++ k ++ [0x3A, 0x20] ++ w ++ separator ms.isEmpty ++ rest := by
  simp only [writeMembers, Option.bind_eq_bind, Option.bind_eq_some, Option.some.injEq] at hw
  obtain ⟨k, hk, w, hw, rest, hrest, rfl⟩ := hw
  exact ⟨k, w, rest, hk, hw, hrest, rfl⟩

/-- A written value starts with a byte that is not whitespace and not `]`. -/
theorem writeVal_head (level : Nat) (v : JsonVal) {w : Bytes} (hw : writeVal level v = some w) :
    ∃ c t, w = c :: t ∧ isWs c = false ∧ c ≠ 0x5D := by
  match v, hw with
  | .null, hw => exact ⟨_, _, (Option.some.inj hw).symm, rfl, by decide⟩
  | .bool true, hw => exact ⟨_, _, (Option.some.inj hw).symm, rfl, by decide⟩
  | .bool false, hw => exact ⟨_, _, (Option.some.inj hw).symm, rfl, by decide⟩
  | .int n, hw =>
      rw [writeVal] at hw
      split_ifs at hw
      obtain rfl := Option.some.inj hw
      unfold writeInt
      split_ifs
      · exact ⟨_, _, rfl, rfl, by decide⟩
      · obtain ⟨c, t, hct, hc⟩ := decimal_cons n.natAbs
        exact ⟨c, t, hct, not_ws_of_isDigit hc⟩
  | .str s, hw => exact ⟨_, _, (writeStr_eq_some hw).2, rfl, by decide⟩
  | .arr [], hw => exact ⟨_, _, (Option.some.inj hw).symm, rfl, by decide⟩
  | .arr (_ :: _), hw =>
      obtain ⟨body, -, rfl⟩ := Option.map_eq_some'.mp hw
      exact ⟨_, _, rfl, rfl, by decide⟩
  | .obj [], hw => exact ⟨_, _, (Option.some.inj hw).symm, rfl, by decide⟩
  | .obj (_ :: _), hw =>
      obtain ⟨body, -, rfl⟩ := Option.map_eq_some'.mp hw
      exact ⟨_, _, rfl, rfl, by decide⟩


theorem writeInt_cons (n : Int) : ∃ c t, writeInt n = c :: t ∧ (c = 0x2D ∨ isDigit c = true) := by
  unfold writeInt
  split_ifs
  · exact ⟨_, _, rfl, .inl rfl⟩
  · obtain ⟨c, t, hct, hc⟩ := decimal_cons n.natAbs
    exact ⟨c, t, hct, .inr hc⟩

theorem parseVal_of_number_head {fuel : Nat} {c : UInt8} (rest : Bytes)
    (hc : c = 0x2D ∨ isDigit c = true) :
    parseVal (fuel + 1) (c :: rest) = parseNumber (c :: rest) := by
  have hne : c ≠ 0x22 ∧ c ≠ 0x5B ∧ c ≠ 0x7B ∧ c ≠ 0x6E ∧ c ≠ 0x74 ∧ c ≠ 0x66 := by
    rcases hc with rfl | hc
    · decide
    · simp only [isDigit, Bool.and_eq_true, decide_eq_true_eq, UInt8.le_iff_toNat_le] at hc
      simp only [ne_eq, UInt8.eq_iff_toNat_eq]
      simp [UInt8.size] at hc ⊢
      omega
  rw [parseVal, if_neg hne.1, if_neg hne.2.1, if_neg hne.2.2.1, if_neg hne.2.2.2.1,
    if_neg hne.2.2.2.2.1, if_neg hne.2.2.2.2.2]

theorem endsValue_separator (last : Bool) (r : Bytes) : endsValue (separator last ++ r) = true := by
  cases last <;> rfl

theorem afterItem_more (close : UInt8) (rest : Bytes) :
    afterItem close (separator false ++ rest) = some (.more (skipWs rest)) := by
  simp only [afterItem, separator, Bool.false_eq_true, if_false, List.cons_append,
    List.nil_append, skipWs_cons_of_not_ws _ (rfl : isWs 0x2C = false), if_pos, skipWs_newline]

theorem afterItem_close {close : UInt8} (hclose : isWs close = false) (hcomma : close ≠ 0x2C)
    (m : Nat) (r : Bytes) :
    afterItem close (separator true ++ ([] ++ (indent m ++ close :: r))) = some (.close r) := by
  simp only [afterItem, separator, if_true, List.cons_append, List.nil_append, skipWs_newline,
    skipWs_indent, skipWs_cons_of_not_ws _ hclose, if_neg hcomma]

theorem writeElems_nil {level : Nat} {rest : Bytes} (h : writeElems level [] = some rest) :
    rest = [] := (Option.some.inj h).symm

theorem writeMembers_nil {level : Nat} {rest : Bytes} (h : writeMembers level [] = some rest) :
    rest = [] := (Option.some.inj h).symm

theorem skipWs_writeElems {level : Nat} {v : JsonVal} {vs : List JsonVal} {body : Bytes}
    (hw : writeElems level (v :: vs) = some body) (r : Bytes) :
    (skipWs (body ++ r)).head? ≠ some 0x5D := by
  obtain ⟨w, rest, hwv, -, rfl⟩ := writeElems_cons_eq_some hw
  obtain ⟨c, t, rfl, hc, hc'⟩ := writeVal_head level v hwv
  simp only [List.append_assoc, skipWs_indent, List.cons_append, skipWs_cons_of_not_ws _ hc,
    List.head?_cons]
  simpa using hc'

theorem skipWs_writeMembers {level : Nat} {m : Bytes × JsonVal} {ms : List (Bytes × JsonVal)}
    {body : Bytes} (hw : writeMembers level (m :: ms) = some body) (r : Bytes) :
    (skipWs (body ++ r)).head? ≠ some 0x7D := by
  obtain ⟨key, v⟩ := m
  obtain ⟨k, w, rest, hk, -, -, rfl⟩ := writeMembers_cons_eq_some hw
  obtain ⟨-, rfl⟩ := writeStr_eq_some hk
  simp only [List.append_assoc, skipWs_indent, List.cons_append,
    skipWs_cons_of_not_ws _ (rfl : isWs 0x22 = false), List.head?_cons]
  decide

theorem parseMember_of_parseVal {parse : Bytes → Option (JsonVal × Bytes)} {key k w X : Bytes}
    {v : JsonVal} (hk : writeStr key = some k) (hhead : ∃ c t, w = c :: t ∧ isWs c = false)
    (hv : parse (w ++ X) = some (v, X)) :
    parseMember parse (k ++ ([0x3A, 0x20] ++ (w ++ X))) = some ((key, v), X) := by
  obtain ⟨hs, rfl⟩ := writeStr_eq_some hk
  obtain ⟨c, t, rfl, hc⟩ := hhead
  simp only [List.cons_append, parseMember, if_pos, List.append_assoc, List.singleton_append,
    parseStr_escaped hs, Option.some_bind, skipWs_cons_of_not_ws _ (rfl : isWs 0x3A = false),
    List.nil_append]
  rw [skipWs, if_pos (show isWs 0x20 = true from rfl), skipWs_cons_of_not_ws _ hc, ← List.cons_append, hv]
  rfl


theorem writeVal_head' {level : Nat} {v : JsonVal} {w : Bytes} (hw : writeVal level v = some w) :
    ∃ c t, w = c :: t ∧ isWs c = false :=
  let ⟨c, t, hct, hc, _⟩ := writeVal_head level v hw
  ⟨c, t, hct, hc⟩

mutual

/-- Reading a written value gives it back, before anything that may follow a value. -/
theorem parseVal_writeVal : ∀ (v : JsonVal) (level fuel : Nat) (w r : Bytes),
    writeVal level v = some w → w.length ≤ fuel → endsValue r = true →
      parseVal fuel (w ++ r) = some (v, r)
  | .null, _, fuel + 1, _, _, hw, _, _ => by rw [← Option.some.inj hw]; simp [parseVal, parseLit]
  | .bool true, _, fuel + 1, _, _, hw, _, _ => by rw [← Option.some.inj hw]; simp [parseVal, parseLit]
  | .bool false, _, fuel + 1, _, _, hw, _, _ => by rw [← Option.some.inj hw]; simp [parseVal, parseLit]
  | .int n, _, fuel + 1, w, r, hw, _, hr => by
      rw [writeVal] at hw
      split_ifs at hw with hrange
      obtain rfl := Option.some.inj hw
      obtain ⟨c, t, hct, hc⟩ := writeInt_cons n
      rw [hct, List.cons_append, parseVal_of_number_head _ hc, ← List.cons_append, ← hct,
        parseNumber_writeInt hrange.1 hrange.2 hr]
  | .str s, _, fuel + 1, w, r, hw, _, _ => by
      obtain ⟨hs, rfl⟩ := writeStr_eq_some hw
      rw [List.cons_append, parseVal, if_pos rfl, List.append_assoc, List.singleton_append,
        parseStr_escaped hs]
      rfl
  | .arr [], _, fuel + 1, _, _, hw, _, _ => by rw [← Option.some.inj hw]; rfl
  | .arr (v :: vs), level, fuel + 1, w, r, hw, hfuel, _ => by
      obtain ⟨body, hbody, rfl⟩ := Option.map_eq_some'.mp hw
      have hlen : body.length ≤ fuel := by simp at hfuel; omega
      simp only [List.append_assoc, List.cons_append, List.singleton_append, List.nil_append]
      rw [parseVal, if_neg (by decide), if_pos rfl, skipWs_newline,
        if_neg (skipWs_writeElems hbody _),
        parseItems_writeElems (v :: vs) (level + 1) fuel fuel level body r (List.cons_ne_nil _ _)
          hbody hlen hlen]
      rfl
  | .obj [], _, fuel + 1, _, _, hw, _, _ => by rw [← Option.some.inj hw]; rfl
  | .obj (m :: ms), level, fuel + 1, w, r, hw, hfuel, _ => by
      obtain ⟨body, hbody, rfl⟩ := Option.map_eq_some'.mp hw
      have hlen : body.length ≤ fuel := by simp at hfuel; omega
      simp only [List.append_assoc, List.cons_append, List.singleton_append, List.nil_append]
      rw [parseVal, if_neg (by decide), if_neg (by decide), if_pos rfl, skipWs_newline,
        if_neg (skipWs_writeMembers hbody _),
        parseItems_writeMembers (m :: ms) (level + 1) fuel fuel level body r
          (List.cons_ne_nil _ _) hbody hlen hlen]
      rfl
  | _, _, 0, w, _, hw, hfuel, _ => by
      obtain ⟨c, t, rfl, -⟩ := writeVal_head' hw
      simp at hfuel

/-- The elements of an array, one a line, read back up to the closing `]`. -/
theorem parseItems_writeElems : ∀ (vs : List JsonVal) (level fuel k m : Nat) (body r : Bytes),
    vs ≠ [] → writeElems level vs = some body → body.length ≤ fuel → body.length ≤ k →
      parseItems (parseVal fuel) 0x5D k (skipWs (body ++ (indent m ++ 0x5D :: r))) =
        some (vs, r)
  | [], _, _, _, _, _, _, hne, _, _, _ => absurd rfl hne
  | v :: vs, level, fuel, k, m, body, r, _, hbody, hfuel, hk => by
      obtain ⟨w, rest, hw, hrest, rfl⟩ := writeElems_cons_eq_some hbody
      obtain ⟨c, t, hct, hc⟩ := writeVal_head' hw
      obtain ⟨k, rfl⟩ : ∃ k', k = k' + 1 := ⟨k - 1, by simp [hct] at hk; omega⟩
      have hwlen : w.length ≤ fuel := by simp at hfuel; omega
      have hskip : skipWs (indent level ++ w ++ separator vs.isEmpty ++ rest ++
          (indent m ++ 0x5D :: r)) =
          w ++ (separator vs.isEmpty ++ (rest ++ (indent m ++ 0x5D :: r))) := by
        rw [hct]
        simp only [List.append_assoc, skipWs_indent, List.cons_append, skipWs_cons_of_not_ws _ hc]
      rw [hskip, parseItems, parseVal_writeVal v level fuel w _ hw hwlen (endsValue_separator _ _),
        Option.some_bind]
      cases vs with
      | nil =>
          rw [writeElems_nil hrest]
          simp only [List.isEmpty_nil, afterItem_close (rfl : isWs 0x5D = false) (by decide)]
      | cons v' vs' =>
          have hrestlen : rest.length ≤ fuel ∧ rest.length ≤ k := by
            simp [separator] at hfuel hk; omega
          simp only [List.isEmpty_cons, afterItem_more,
            parseItems_writeElems (v' :: vs') level fuel k m rest r (List.cons_ne_nil _ _) hrest
              hrestlen.1 hrestlen.2]
          rfl

/-- The members of an object, one a line, read back up to the closing brace. -/
theorem parseItems_writeMembers : ∀ (ms : List (Bytes × JsonVal)) (level fuel k m : Nat)
    (body r : Bytes),
    ms ≠ [] → writeMembers level ms = some body → body.length ≤ fuel → body.length ≤ k →
      parseItems (parseMember (parseVal fuel)) 0x7D k (skipWs (body ++ (indent m ++ 0x7D :: r))) =
        some (ms, r)
  | [], _, _, _, _, _, _, hne, _, _, _ => absurd rfl hne
  | (key, v) :: ms, level, fuel, k, m, body, r, _, hbody, hfuel, hk => by
      obtain ⟨kw, w, rest, hk', hw, hrest, rfl⟩ := writeMembers_cons_eq_some hbody
      obtain ⟨-, hkw⟩ := writeStr_eq_some hk'
      obtain ⟨k, rfl⟩ : ∃ k', k = k' + 1 := ⟨k - 1, by simp [hkw] at hk; omega⟩
      have hwlen : w.length ≤ fuel := by simp at hfuel; omega
      have hskip : skipWs (indent level ++ kw ++ [0x3A, 0x20] ++ w ++ separator ms.isEmpty ++ rest ++
          (indent m ++ 0x7D :: r)) =
          kw ++ ([0x3A, 0x20] ++ (w ++ (separator ms.isEmpty ++ (rest ++ (indent m ++ 0x7D :: r))))) := by
        rw [hkw]
        simp only [List.append_assoc, skipWs_indent, List.cons_append,
          skipWs_cons_of_not_ws _ (rfl : isWs 0x22 = false)]
      rw [hskip, parseItems, parseMember_of_parseVal hk' (writeVal_head' hw)
        (parseVal_writeVal v level fuel w _ hw hwlen (endsValue_separator _ _)), Option.some_bind]
      cases ms with
      | nil =>
          rw [writeMembers_nil hrest]
          simp only [List.isEmpty_nil, afterItem_close (rfl : isWs 0x7D = false) (by decide)]
      | cons m' ms' =>
          have hrestlen : rest.length ≤ fuel ∧ rest.length ≤ k := by
            simp [separator] at hfuel hk; omega
          simp only [List.isEmpty_cons, afterItem_more,
            parseItems_writeMembers (m' :: ms') level fuel k m rest r (List.cons_ne_nil _ _) hrest
              hrestlen.1 hrestlen.2]
          rfl

end

/-- `yyjson_read` reads back what `yyjson_mut_write` wrote. -/
theorem yyjsonRead_yyjsonWrite {v : JsonVal} {w : Bytes} (hw : yyjsonWrite v = some w) :
    yyjsonRead w = some v := by
  obtain ⟨c, t, hct, hc⟩ := writeVal_head' hw
  have hread := parseVal_writeVal v 0 (w.length + 1) w [] hw (by omega) rfl
  rw [List.append_nil] at hread
  rw [yyjsonRead, hct, skipWs_cons_of_not_ws _ hc, ← hct, hread]
  rfl

@[simp]
theorem writeStr_isSome (s : Bytes) : (writeStr s).isSome = utf8Valid s := by
  unfold writeStr; split <;> simp_all

@[simp]
theorem writeVal_str_isSome (level : Nat) (s : Bytes) :
    (writeVal level (.str s)).isSome = utf8Valid s := by
  simp [writeVal]

@[simp]
theorem writeVal_int_isSome (level : Nat) (n : Int) :
    (writeVal level (.int n)).isSome = decide (-2 ^ 63 ≤ n ∧ n < 2 ^ 63) := by
  simp only [writeVal]; split <;> simp_all

theorem writeElems_isSome (level : Nat) (vs : List JsonVal) :
    (writeElems level vs).isSome = true ↔ ∀ v ∈ vs, (writeVal level v).isSome = true := by
  induction vs with
  | nil => simp [writeElems]
  | cons v vs ih =>
      simp only [writeElems, Option.bind_eq_bind, List.mem_cons, forall_eq_or_imp, ← ih]
      cases writeVal level v <;> cases writeElems level vs <;> simp

theorem writeVal_arr_isSome (level : Nat) (vs : List JsonVal) :
    (writeVal level (.arr vs)).isSome = true ↔ ∀ v ∈ vs, (writeVal (level + 1) v).isSome = true := by
  cases vs with
  | nil => simp [writeVal]
  | cons v vs => simp [writeVal, writeElems_isSome]

theorem writeMembers_isSome (level : Nat) (ms : List (Bytes × JsonVal)) :
    (writeMembers level ms).isSome = true ↔
      ∀ m ∈ ms, utf8Valid m.1 = true ∧ (writeVal level m.2).isSome = true := by
  induction ms with
  | nil => simp [writeMembers]
  | cons m ms ih =>
      obtain ⟨key, v⟩ := m
      rw [List.forall_mem_cons, ← ih, ← writeStr_isSome]
      simp only [writeMembers, Option.bind_eq_bind]
      cases writeStr key <;> cases writeVal level v <;> cases writeMembers level ms <;> simp

theorem writeVal_obj_isSome (level : Nat) (ms : List (Bytes × JsonVal)) :
    (writeVal level (.obj ms)).isSome = true ↔
      ∀ m ∈ ms, utf8Valid m.1 = true ∧ (writeVal (level + 1) m.2).isSome = true := by
  cases ms with
  | nil => simp [writeVal]
  | cons m ms => simp [writeVal, writeMembers_isSome]

theorem escapeByte_ne_zero (b : UInt8) : ∀ c ∈ escapeByte b, c ≠ 0 := by
  have hhex : ∀ d, d < 16 → upperHex d ≠ 0 := by decide
  rcases escapeByte_cases b with ⟨-, h⟩ | ⟨-, h⟩ | ⟨-, h⟩ | ⟨-, h⟩ | ⟨-, h⟩ | ⟨-, h⟩ |
    ⟨-, h⟩ | ⟨-, h⟩ | ⟨-, -, hlt, h⟩ <;> rw [h]
  all_goals try decide
  · simp only [List.mem_cons, List.not_mem_nil, or_false]
    rintro c (rfl | rfl | rfl | rfl | rfl | rfl)
    all_goals first | decide | exact hhex _ (by have := UInt8.toNat_lt_256 b; omega)
  · simp only [List.mem_singleton]
    rintro c rfl rfl
    exact hlt (by decide)

theorem writeStr_ne_zero {s w : Bytes} (hw : writeStr s = some w) : ∀ c ∈ w, c ≠ 0 := by
  obtain ⟨-, rfl⟩ := writeStr_eq_some hw
  simp only [List.mem_cons, List.mem_append, List.mem_flatMap, List.mem_singleton,
    List.not_mem_nil, or_false]
  rintro c (rfl | ⟨b, -, hc⟩ | rfl)
  · decide
  · exact escapeByte_ne_zero b c hc
  · decide

theorem writeInt_ne_zero (n : Int) : ∀ c ∈ writeInt n, c ≠ 0 := by
  have hdigit : ∀ c ∈ decimal n.natAbs, c ≠ 0 := fun c hc => by
    rintro rfl; exact absurd (isDigit_of_mem_decimal _ _ hc) (by decide)
  unfold writeInt
  split_ifs
  · rintro c (_ | ⟨_, hc⟩)
    · decide
    · exact hdigit c hc
  · exact hdigit

theorem indent_ne_zero (level : Nat) : ∀ c ∈ indent level, c ≠ 0 := by
  intro c hc
  rw [indent, List.mem_replicate] at hc
  rw [hc.2]; decide

theorem separator_ne_zero (last : Bool) : ∀ c ∈ separator last, c ≠ 0 := by
  cases last <;> decide

mutual

/-- The writer never writes a NUL byte: control bytes in strings are escaped. -/
theorem writeVal_ne_zero : ∀ (level : Nat) (v : JsonVal) (w : Bytes), writeVal level v = some w →
    ∀ c ∈ w, c ≠ 0
  | _, .null, _, hw => by rw [← Option.some.inj hw]; decide
  | _, .bool true, _, hw => by rw [← Option.some.inj hw]; decide
  | _, .bool false, _, hw => by rw [← Option.some.inj hw]; decide
  | _, .int n, w, hw => by
      rw [writeVal] at hw
      split_ifs at hw
      rw [← Option.some.inj hw]
      exact writeInt_ne_zero n
  | _, .str s, _, hw => writeStr_ne_zero hw
  | _, .arr [], _, hw => by rw [← Option.some.inj hw]; decide
  | level, .arr (v :: vs), _, hw => by
      obtain ⟨body, hbody, rfl⟩ := Option.map_eq_some'.mp hw
      have hb := writeElems_ne_zero (level + 1) (v :: vs) body hbody
      have hi := indent_ne_zero level
      simp only [List.mem_append, List.mem_cons, List.mem_singleton, List.not_mem_nil, or_false]
      rintro c ((((rfl | rfl) | hc) | hc) | rfl)
      all_goals first | decide | exact hb c hc | exact hi c hc
  | _, .obj [], _, hw => by rw [← Option.some.inj hw]; decide
  | level, .obj (m :: ms), _, hw => by
      obtain ⟨body, hbody, rfl⟩ := Option.map_eq_some'.mp hw
      have hb := writeMembers_ne_zero (level + 1) (m :: ms) body hbody
      have hi := indent_ne_zero level
      simp only [List.mem_append, List.mem_cons, List.mem_singleton, List.not_mem_nil, or_false]
      rintro c ((((rfl | rfl) | hc) | hc) | rfl)
      all_goals first | decide | exact hb c hc | exact hi c hc

theorem writeElems_ne_zero : ∀ (level : Nat) (vs : List JsonVal) (body : Bytes),
    writeElems level vs = some body → ∀ c ∈ body, c ≠ 0
  | _, [], _, hw => by rw [← Option.some.inj hw]; simp
  | level, v :: vs, _, hw => by
      obtain ⟨w, rest, hwv, hrest, rfl⟩ := writeElems_cons_eq_some hw
      simp only [List.mem_append]
      rintro c (((hc | hc) | hc) | hc)
      · exact indent_ne_zero level c hc
      · exact writeVal_ne_zero level v w hwv c hc
      · exact separator_ne_zero _ c hc
      · exact writeElems_ne_zero level vs rest hrest c hc

theorem writeMembers_ne_zero : ∀ (level : Nat) (ms : List (Bytes × JsonVal)) (body : Bytes),
    writeMembers level ms = some body → ∀ c ∈ body, c ≠ 0
  | _, [], _, hw => by rw [← Option.some.inj hw]; simp
  | level, (key, v) :: ms, _, hw => by
      obtain ⟨k, w, rest, hk, hwv, hrest, rfl⟩ := writeMembers_cons_eq_some hw
      simp only [List.mem_append]
      rintro c (((((hc | hc) | hc) | hc) | hc) | hc)
      · exact indent_ne_zero level c hc
      · exact writeStr_ne_zero hk c hc
      · revert c; decide
      · exact writeVal_ne_zero level v w hwv c hc
      · exact separator_ne_zero _ c hc
      · exact writeMembers_ne_zero level ms rest hrest c hc

end

end Scribe

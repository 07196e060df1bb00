import Mathlib.Data.Fin.VecNotation
import Mathlib.Tactic.FinCases
import Mathlib.Data.List.TakeWhile
import GtpLibrary.Lib.Base64
import GtpLibrary.Lib.Sextets
import GtpLibrary.Mail.Base64

/-!
# Round trips of `class base64`

Both loops are folded three, respectively four characters at a time onto the
regrouping of `Lib.Sextets` (`base64Encode_eq`, `base64Decode_eq`). The leftover code
of each function is the short last group there. The decoder looks up cells it never
filled, but every byte it appends is made of filled cells only.
-/

namespace GtpLibrary.Mail
open GtpLibrary.Lib GtpLibrary.Lib.Sextets

/-! ## The alphabet -/

/-- The character at a six-bit value. -/
def symbolAt (n : Nat) : Byte := base64Chars.getD n 0

/-- The six-bit value of an alphabet character, as a number. -/
def sextetOf (c : Byte) : Nat := (value c).toNat

theorem isBase64_iff_mem (c : Byte) : isBase64 c = true ↔ c ∈ base64Chars := by
  change _ ↔ c ∈ Base64.alphabet
  rw [Base64.mem_alphabet]
  simp only [isBase64, isalnum, Bool.or_eq_true, Bool.and_eq_true, decide_eq_true_eq, beq_iff_eq, BitVec.le_def,
    ← BitVec.toNat_inj, byte, BitVec.toNat_ofNat]
  simp only [Char.reduceToNat, Nat.reduceMod, Nat.reducePow]
  omega

theorem isBase64_pad : isBase64 (byte '=') = false := by decide

/-- On the alphabet nothing is lost by the cast of the index to `unsigned char`. -/
theorem exists_sextetOf {c : Byte} (inside : isBase64 c = true) :
    find base64Chars c = sextetOf c ∧ sextetOf c < 64 ∧ symbolAt (sextetOf c) = c := by
  obtain ⟨n, sextet⟩ := Base64.exists_sextet ((isBase64_iff_mem c).1 inside)
  obtain ⟨small, here⟩ := Base64.sextet_eq_some.1 sextet
  have found : find base64Chars c = n := congrArg (fun o => o.getD npos) sextet
  have cast : sextetOf c = n := by
    rw [sextetOf, value, found, BitVec.toNat_ofNat]
    omega
  rw [cast]
  exact ⟨found, small, here⟩

theorem sextetOf_lt {c : Byte} (inside : isBase64 c = true) : sextetOf c < 64 := (exists_sextetOf inside).2.1

theorem symbolAt_sextetOf {c : Byte} (inside : isBase64 c = true) : symbolAt (sextetOf c) = c :=
  (exists_sextetOf inside).2.2

theorem isBase64_symbolAt {n : Nat} (small : n < 64) : isBase64 (symbolAt n) = true :=
  (isBase64_iff_mem _).2 (Base64.symbol_mem small)

theorem sextetOf_symbolAt {n : Nat} (small : n < 64) : sextetOf (symbolAt n) = n := by
  have same := (exists_sextetOf (isBase64_symbolAt small)).1
  have found : find base64Chars (symbolAt n) = n := congrArg (fun o => o.getD npos) (Base64.sextet_symbol small)
  exact same.symm.trans found

theorem isBase64_symbols {l : List Nat} (small : ∀ n ∈ l, n < 64) :
    ∀ c ∈ l.map symbolAt, isBase64 c = true := by
  simp only [List.mem_map, forall_exists_index, and_imp]
  rintro c n member rfl
  exact isBase64_symbolAt (small n member)

theorem sextets_of_symbols {l : List Nat} (small : ∀ n ∈ l, n < 64) :
    (l.map symbolAt).map sextetOf = l := by
  rw [List.map_map]
  exact (List.map_congr_left fun n h => sextetOf_symbolAt (small n h)).trans (List.map_id l)

theorem symbols_of_sextets {l : List Byte} (clean : ∀ c ∈ l, isBase64 c = true) :
    (l.map sextetOf).map symbolAt = l := by
  rw [List.map_map]
  exact (List.map_congr_left fun c h => symbolAt_sextetOf (clean c h)).trans (List.map_id l)

theorem sextets_lt {l : List Byte} (clean : ∀ c ∈ l, isBase64 c = true) :
    ∀ n ∈ l.map sextetOf, n < 64 := by
  simp only [List.mem_map, forall_exists_index, and_imp]
  rintro n c member rfl
  exact sextetOf_lt (clean c member)

/-! ## Codes of bytes -/

theorem codes_lt (l : List Byte) : ∀ n ∈ l.map BitVec.toNat, n < 256 := by
  simp only [List.mem_map, forall_exists_index, and_imp]
  rintro n c - rfl
  exact c.isLt

theorem map_ofNat_toNat (l : List Byte) : (l.map BitVec.toNat).map (BitVec.ofNat 8) = l := by
  simp [Function.comp_def]

theorem map_toNat_ofNat {l : List Nat} (small : ∀ n ∈ l, n < 256) :
    (l.map (BitVec.ofNat 8)).map BitVec.toNat = l := by
  rw [List.map_map]
  refine (List.map_congr_left fun n h => ?_).trans (List.map_id l)
  simp [Nat.mod_eq_of_lt (small n h)]

/-! ## One group -/

theorem sextets_toNat (a : Fin 3 → Byte) :
    (sextets a).map BitVec.toNat = [(a 0).toNat / 4, (a 0).toNat % 4 * 16 + (a 1).toNat / 16,
      (a 1).toNat % 16 * 4 + (a 2).toNat / 64, (a 2).toNat % 64] := by
  have top : ∀ x : Byte, ((x &&& 0xfc) >>> 2).toNat = x.toNat / 4 := by decide
  have low2 : ∀ x : Byte, ((x &&& 0x03) <<< 4).toNat = x.toNat % 4 * 16 := by decide
  have high4 : ∀ x : Byte, ((x &&& 0xf0) >>> 4).toNat = x.toNat / 16 := by decide
  have low4 : ∀ x : Byte, ((x &&& 0x0f) <<< 2).toNat = x.toNat % 16 * 4 := by decide
  have high2 : ∀ x : Byte, ((x &&& 0xc0) >>> 6).toNat = x.toNat / 64 := by decide
  have low6 : ∀ x : Byte, (x &&& 0x3f).toNat = x.toNat % 64 := by decide
  have b1 := (a 1).isLt
  have b2 := (a 2).isLt
  simp only [sextets, List.map_cons, List.map_nil, BitVec.toNat_add, top, low2, high4, low4, high2,
    low6, List.cons.injEq, and_true, true_and]
  omega

/-- The appended bytes of one group, from whatever the four cells hold. -/
theorem octets_toNat (a : Fin 4 → Byte) :
    (octets a).map BitVec.toNat = [((a 0).toNat * 4 + (a 1).toNat / 16 % 4) % 256,
      (a 1).toNat % 16 * 16 + (a 2).toNat / 4 % 16, ((a 2).toNat % 4 * 64 + (a 3).toNat) % 256] := by
  have shift2 : ∀ x : Byte, (x <<< 2).toNat = x.toNat * 4 % 256 := by decide
  have mid2 : ∀ x : Byte, ((x &&& 0x30) >>> 4).toNat = x.toNat / 16 % 4 := by decide
  have low4 : ∀ x : Byte, ((x &&& 0xf) <<< 4).toNat = x.toNat % 16 * 16 := by decide
  have mid4 : ∀ x : Byte, ((x &&& 0x3c) >>> 2).toNat = x.toNat / 4 % 16 := by decide
  have low2 : ∀ x : Byte, ((x &&& 0x3) <<< 6).toNat = x.toNat % 4 * 64 := by decide
  simp only [octets, List.map_cons, List.map_nil, BitVec.toNat_add, shift2, mid2, low4, mid4, low2,
    List.cons.injEq, and_true]
  omega

/-! ## Encoder -/

theorem map_symbol (l : List Byte) : l.map symbol = (l.map BitVec.toNat).map symbolAt := by
  simp [symbol, symbolAt, Function.comp_def]

/-- Three bytes from an empty array flush one group, whatever the array held. -/
theorem encodeByte_group (ret : List Byte) (array : Fin 3 → Byte) (a b c : Byte) :
    [a, b, c].foldl encodeByte ⟨ret, 0, array⟩ =
      ⟨ret ++ (sextets ![a, b, c]).map symbol, 0, ![a, b, c]⟩ := by
  have filled : Function.update (Function.update (Function.update array 0 a) 1 b) 2 c = ![a, b, c] := by
    funext j; fin_cases j <;> rfl
  simp only [List.foldl_cons, List.foldl_nil]
  rw [← filled]
  rfl

theorem encode_loop : ∀ (bytes ret : List Byte) (array : Fin 3 → Byte),
    encodeRest (bytes.foldl encodeByte ⟨ret, 0, array⟩) =
      ret ++ (toSextets (bytes.map BitVec.toNat)).map symbolAt ++
        List.replicate ((3 - bytes.length % 3) % 3) (byte '=')
  | a :: b :: c :: rest, ret, array => by
    have step := encodeByte_group ret array a b c
    simp only [List.foldl_cons, List.foldl_nil] at step
    have len : (a :: b :: c :: rest).length % 3 = rest.length % 3 := by
      simp only [List.length_cons]; omega
    rw [List.foldl_cons, List.foldl_cons, List.foldl_cons, step, encode_loop rest, len, map_symbol,
      sextets_toNat]
    simp [toSextets]
  | [a, b], ret, array => by
    have cells : zeroFrom (Function.update (Function.update array 0 a) 1 b) 2 = ![a, b, 0] := by
      funext j; fin_cases j <;> rfl
    have leftover : encodeRest ([a, b].foldl encodeByte ⟨ret, 0, array⟩) =
        ret ++ ((sextets ![a, b, 0]).take 3).map symbol ++ List.replicate 1 (byte '=') := by
      rw [← cells]; rfl
    rw [leftover, map_symbol, List.map_take, sextets_toNat]
    simp [toSextets]
  | [a], ret, array => by
    have cells : zeroFrom (Function.update array 0 a) 1 = ![a, 0, 0] := by
      funext j; fin_cases j <;> rfl
    have leftover : encodeRest ([a].foldl encodeByte ⟨ret, 0, array⟩) =
        ret ++ ((sextets ![a, 0, 0]).take 2).map symbol ++ List.replicate 2 (byte '=') := by
      rw [← cells]; rfl
    rw [leftover, map_symbol, List.map_take, sextets_toNat]
    simp [toSextets]
  | [], ret, array => by simp [encodeRest, toSextets]

/-- `base64_encode` writes the sextets of its bytes and fills up the last group. -/
theorem base64Encode_eq {bytes : List Byte} {inLen : BitVec 32} (whole : inLen.toNat = bytes.length) :
    base64Encode bytes inLen =
      (toSextets (bytes.map BitVec.toNat)).map symbolAt ++
        List.replicate ((3 - bytes.length % 3) % 3) (byte '=') := by
  rw [base64Encode, whole, List.take_length, encode_loop, List.nil_append]

/-- It is the standard encoding. -/
theorem base64Encode_standard {bytes : List Byte} {inLen : BitVec 32} (whole : inLen.toNat = bytes.length) :
    base64Encode bytes inLen = Base64.encode bytes := base64Encode_eq whole

/-! ## Decoder -/

/-- Four characters from an empty array flush one group. -/
theorem decodeByte_group (ret : List Byte) (array : Fin 4 → Byte) (p q r s : Byte) :
    [p, q, r, s].foldl decodeByte ⟨ret, 0, array⟩ =
      ⟨ret ++ octets (value ∘ ![p, q, r, s]), 0, value ∘ ![p, q, r, s]⟩ := by
  have filled : Function.update (Function.update (Function.update (Function.update array 0 p) 1 q) 2 r) 3 s =
      ![p, q, r, s] := by
    funext j; fin_cases j <;> rfl
  simp only [List.foldl_cons, List.foldl_nil]
  rw [← filled]
  rfl

/-- The bytes of a group whose first two cells are filled. -/
theorem octets_value {p q : Byte} (hp : isBase64 p = true) (hq : isBase64 q = true) (r s : Byte) :
    (octets (value ∘ ![p, q, r, s])).map BitVec.toNat =
      [sextetOf p * 4 + sextetOf q / 16, sextetOf q % 16 * 16 + sextetOf r / 4 % 16,
        (sextetOf r % 4 * 64 + sextetOf s) % 256] := by
  have vp := sextetOf_lt hp
  have vq := sextetOf_lt hq
  rw [octets_toNat]
  change [(sextetOf p * 4 + sextetOf q / 16 % 4) % 256, sextetOf q % 16 * 16 + sextetOf r / 4 % 16,
    (sextetOf r % 4 * 64 + sextetOf s) % 256] = _
  simp only [List.cons.injEq, and_true]
  omega

/-- Three characters that are left over. -/
theorem decodeRest_three {p q r : Byte} (hp : isBase64 p = true) (hq : isBase64 q = true) (hr : isBase64 r = true)
    (ret : List Byte) (array : Fin 4 → Byte) :
    decodeRest ([p, q, r].foldl decodeByte ⟨ret, 0, array⟩) =
      ret ++ (fromSextets ([p, q, r].map sextetOf)).map (BitVec.ofNat 8) := by
  have third : sextetOf r / 4 < 16 := Nat.div_lt_of_lt_mul (sextetOf_lt hr)
  have cells : zeroFrom (Function.update (Function.update (Function.update array 0 p) 1 q) 2 r) 3 =
      ![p, q, r, 0] := by
    funext j; fin_cases j <;> rfl
  have leftover : decodeRest ([p, q, r].foldl decodeByte ⟨ret, 0, array⟩) =
      ret ++ (octets (value ∘ ![p, q, r, 0])).take 2 := by
    rw [← cells]; rfl
  -- the fourth cell is `find('\0')`, and only the third byte is made of it
  have group : ((octets (value ∘ ![p, q, r, 0])).take 2).map BitVec.toNat =
      [sextetOf p * 4 + sextetOf q / 16, sextetOf q % 16 * 16 + sextetOf r / 4] := by
    rw [List.map_take, octets_value hp hq, Nat.mod_eq_of_lt third]
    rfl
  rw [leftover, ← map_ofNat_toNat (List.take _ _), group]
  simp [fromSextets]

/-- Two of them. -/
theorem decodeRest_two {p q : Byte} (hp : isBase64 p = true) (hq : isBase64 q = true) (ret : List Byte)
    (array : Fin 4 → Byte) :
    decodeRest ([p, q].foldl decodeByte ⟨ret, 0, array⟩) =
      ret ++ (fromSextets ([p, q].map sextetOf)).map (BitVec.ofNat 8) := by
  have cells : zeroFrom (Function.update (Function.update array 0 p) 1 q) 2 = ![p, q, 0, 0] := by
    funext j; fin_cases j <;> rfl
  have leftover : decodeRest ([p, q].foldl decodeByte ⟨ret, 0, array⟩) =
      ret ++ (octets (value ∘ ![p, q, 0, 0])).take 1 := by
    rw [← cells]; rfl
  have group : ((octets (value ∘ ![p, q, 0, 0])).take 1).map BitVec.toNat =
      [sextetOf p * 4 + sextetOf q / 16] := by
    rw [List.map_take, octets_value hp hq]
    rfl
  rw [leftover, ← map_ofNat_toNat (List.take _ _), group]
  simp [fromSextets]

theorem decode_loop : ∀ (symbols ret : List Byte) (array : Fin 4 → Byte),
    (∀ c ∈ symbols, isBase64 c = true) →
    decodeRest (symbols.foldl decodeByte ⟨ret, 0, array⟩) =
      ret ++ (fromSextets (symbols.map sextetOf)).map (BitVec.ofNat 8)
  | p :: q :: r :: s :: rest, ret, array, clean => by
    simp only [List.forall_mem_cons] at clean
    obtain ⟨hp, hq, hr, hs, clean⟩ := clean
    have third : sextetOf r / 4 < 16 := Nat.div_lt_of_lt_mul (sextetOf_lt hr)
    have fourth : sextetOf r % 4 * 64 + sextetOf s < 256 := by
      have vs := sextetOf_lt hs
      omega
    have step := decodeByte_group ret array p q r s
    simp only [List.foldl_cons, List.foldl_nil] at step
    have group : (octets (value ∘ ![p, q, r, s])).map BitVec.toNat =
        [sextetOf p * 4 + sextetOf q / 16, sextetOf q % 16 * 16 + sextetOf r / 4,
          sextetOf r % 4 * 64 + sextetOf s] := by
      rw [octets_value hp hq, Nat.mod_eq_of_lt third, Nat.mod_eq_of_lt fourth]
    rw [List.foldl_cons, List.foldl_cons, List.foldl_cons, List.foldl_cons, step,
      decode_loop rest _ _ clean, ← map_ofNat_toNat (octets _), group]
    simp [fromSextets]
  | [p, q, r], ret, array, clean => by
    simp only [List.forall_mem_cons] at clean
    obtain ⟨hp, hq, hr, -⟩ := clean
    exact decodeRest_three hp hq hr ret array
  | [p, q], ret, array, clean => by
    simp only [List.forall_mem_cons] at clean
    obtain ⟨hp, hq, -⟩ := clean
    exact decodeRest_two hp hq ret array
  | [p], ret, array, _ => by
    have leftover : decodeRest ([p].foldl decodeByte ⟨ret, 0, array⟩) =
        ret ++ (octets (value ∘ zeroFrom (Function.update array 0 p) 1)).take 0 := rfl
    rw [leftover]
    simp [fromSextets]
  | [], ret, array, _ => by simp [decodeRest, fromSextets]

/-- As long as `in_len` counts what is left, the loop runs over the alphabet prefix. -/
theorem decodeLoop_eq (s : List Byte) (st : DecodeState) :
    decodeLoop s s.length st = (s.takeWhile isBase64).foldl decodeByte st := by
  induction s generalizing st with
  | nil => rfl
  | cons c rest ih =>
    have positive : ((c :: rest).length : Int) ≠ 0 := by simp only [List.length_cons]; omega
    by_cases inside : isBase64 c = true
    · have notPad : c ≠ byte '=' := by
        rintro rfl
        rw [isBase64_pad] at inside
        cases inside
      have next : ((c :: rest).length : Int) - 1 = rest.length := by
        simp only [List.length_cons]; omega
      unfold decodeLoop
      rw [if_pos ⟨positive, notPad, inside⟩, next, ih, List.takeWhile_cons_of_pos inside, List.foldl_cons]
    · unfold decodeLoop
      rw [if_neg (fun h => inside h.2.2), List.takeWhile_cons_of_neg inside, List.foldl_nil]

/-- `base64_decode` regroups the sextets of the longest alphabet prefix. -/
theorem base64Decode_eq {s : List Byte} (short : s.length < 2 ^ 31) :
    base64Decode s = (fromSextets ((s.takeWhile isBase64).map sextetOf)).map (BitVec.ofNat 8) := by
  have cast : (s.length : Int).bmod (2 ^ 32) = s.length := by
    rw [Int.bmod_eq_of_le] <;> omega
  rw [base64Decode, cast, decodeLoop_eq, decode_loop _ _ _ fun _ => List.mem_takeWhile_imp,
    List.nil_append]

/-! ## Canonical texts -/

/-- Canonical padded base64: alphabet characters and at most two `'='` make whole groups
of four, and the bits of the last symbol that the padding leaves unused are zero. -/
def Canonical (s : List Byte) : Prop :=
  ∃ symbols padding, s = symbols ++ List.replicate padding (byte '=') ∧
    (∀ c ∈ symbols, c ∈ base64Chars) ∧ s.length % 4 = 0 ∧ padding ≤ 2 ∧
    ∀ last ∈ symbols.getLast?, find base64Chars last % 4 ^ padding = 0

/-- The padding and the last symbol of a canonical text, as a tidy sextet list. -/
theorem canonical_iff (s : List Byte) :
    Canonical s ↔ ∃ symbols padding, s = symbols ++ List.replicate padding (byte '=') ∧
      (∀ c ∈ symbols, isBase64 c = true) ∧ padding ≤ 2 ∧ (symbols.length + padding) % 4 = 0 ∧
      Tidy (symbols.map sextetOf) := by
  constructor
  · rintro ⟨symbols, padding, rfl, clean, groups, few, last⟩
    have inside : ∀ c ∈ symbols, isBase64 c = true := fun c h => (isBase64_iff_mem c).2 (clean c h)
    have len : (symbols.length + padding) % 4 = 0 := by simpa using groups
    refine ⟨symbols, padding, rfl, inside, few, len,
      (tidy_iff _).2 ⟨padding, few, by simpa using len, ?_⟩⟩
    intro v hv
    rw [List.getLast?_map, Option.mem_map] at hv
    obtain ⟨c, hc, rfl⟩ := hv
    rw [← (exists_sextetOf (inside c (List.mem_of_mem_getLast? hc))).1]
    exact last c hc
  · rintro ⟨symbols, padding, rfl, inside, few, len, tidy⟩
    refine ⟨symbols, padding, rfl, fun c h => (isBase64_iff_mem c).1 (inside c h), by simpa using len,
      few, ?_⟩
    intro c hc
    obtain ⟨k, small, len', last⟩ := (tidy_iff _).1 tidy
    have same : k = padding := by rw [List.length_map] at len'; omega
    rw [(exists_sextetOf (inside c (List.mem_of_mem_getLast? hc))).1, ← same]
    exact last _ (by rw [List.getLast?_map]; exact Option.mem_map_of_mem _ hc)

/-- Every text the encoder writes is canonical. -/
theorem canonical_base64Encode {bytes : List Byte} {inLen : BitVec 32}
    (whole : inLen.toNat = bytes.length) : Canonical (base64Encode bytes inLen) := by
  have small := toSextets_lt (codes_lt bytes)
  have len := length_toSextets (bytes.map BitVec.toNat)
  rw [List.length_map] at len
  refine (canonical_iff _).2
    ⟨_, _, base64Encode_eq whole, isBase64_symbols small, by omega, ?_, ?_⟩
  · rw [List.length_map, len]
    omega
  · rw [sextets_of_symbols small]
    exact tidy_toSextets _

/-- The alphabet prefix of a padded text. -/
theorem takeWhile_padded {symbols : List Byte} (padding : Nat)
    (clean : ∀ c ∈ symbols, isBase64 c = true) :
    (symbols ++ List.replicate padding (byte '=')).takeWhile isBase64 = symbols := by
  rw [List.takeWhile_append_of_pos clean]
  cases padding with
  | zero => simp
  | succ n =>
    rw [List.replicate_succ, List.takeWhile_cons_of_neg (by rw [isBase64_pad]; decide), List.append_nil]

theorem decode_encode {bytes : List Byte} {inLen : BitVec 32} (whole : inLen.toNat = bytes.length)
    (short : (base64Encode bytes inLen).length < 2 ^ 31) :
    base64Decode (base64Encode bytes inLen) = bytes := by
  have small := toSextets_lt (codes_lt bytes)
  rw [base64Decode_eq short, base64Encode_eq whole, takeWhile_padded _ (isBase64_symbols small),
    sextets_of_symbols small, fromSextets_toSextets (codes_lt bytes), map_ofNat_toNat]

theorem length_base64Decode {s : List Byte} (short : s.length < 2 ^ 31) :
    (base64Decode s).length = 6 * (s.takeWhile isBase64).length / 8 := by
  rw [base64Decode_eq short, List.length_map, length_fromSextets, List.length_map]

/-- What was decoded from a text that the decoder can count fits the encoder's `in_len`. -/
theorem inLen_base64Decode {s : List Byte} (short : s.length < 2 ^ 31) :
    (BitVec.ofNat 32 (base64Decode s).length).toNat = (base64Decode s).length := by
  have inside := (List.takeWhile_prefix isBase64 (l := s)).length_le
  rw [length_base64Decode short, BitVec.toNat_ofNat]
  omega

theorem encode_decode {s : List Byte} (short : s.length < 2 ^ 31) (canonical : Canonical s) :
    encodeContent (base64Decode s) = s := by
  obtain ⟨symbols, padding, rfl, clean, few, len, tidy⟩ := (canonical_iff s).1 canonical
  have small := sextets_lt clean
  have size := length_base64Decode short
  rw [takeWhile_padded padding clean] at size
  rw [encodeContent, base64Encode_eq (inLen_base64Decode short), size, filling_eq few len,
    base64Decode_eq short, takeWhile_padded padding clean, map_toNat_ofNat (fromSextets_lt small),
    toSextets_fromSextets small tidy, symbols_of_sextets clean]

/-- **Base64 round trips.** Decoding inverts encoding, and encoding inverts decoding on
exactly the canonical texts. -/
theorem base64_round_trips :
    (∀ (bytes : List Byte) (inLen : BitVec 32), inLen.toNat = bytes.length →
      (base64Encode bytes inLen).length < 2 ^ 31 → base64Decode (base64Encode bytes inLen) = bytes) ∧
    ∀ s : List Byte, s.length < 2 ^ 31 → (encodeContent (base64Decode s) = s ↔ Canonical s) := by
  refine ⟨fun bytes inLen whole short => decode_encode whole short, fun s short => ⟨fun same => ?_,
    encode_decode short⟩⟩
  rw [← same]
  exact canonical_base64Encode (inLen_base64Decode short)

/-- Both directions on a text with one `'='`. -/
theorem base64_round_trips_Ma :
    base64Decode (base64Encode (text "Ma") 2) = text "Ma" ∧
      (encodeContent (base64Decode (text "TWE=")) = text "TWE=" ↔ Canonical (text "TWE=")) :=
  ⟨base64_round_trips.1 (text "Ma") 2 (by decide) (by decide),
    base64_round_trips.2 (text "TWE=") (by decide)⟩

end GtpLibrary.Mail

import Mathlib.Data.BitVec
import GtpLibrary.Lib.Horner
import GtpLibrary.Digits.RemoveNonDigitChars

/-!
# Where the three versions agree

`upward_eq` and `downward_eq` list the positions of the loops. The second and third
version are then Horner's rule over the characters that their index reaches, and the
first one is the same value, built from the other end.
-/

namespace GtpLibrary.Digits

open Lib

/-- The digits among the characters. -/
def digits (chars : List Byte) : List (BitVec 64) := (chars.filter isDigit).map digit

/-- The number the characters stand for, modulo `2^64`. -/
def value (chars : List Byte) : BitVec 64 := horner 10 (digits chars)

/-- `-1` behind a leading minus. -/
def signOf (chars : List Byte) : BitVec 64 := if chars.head? = some (byte '-') then -1 else 1

theorem value_cons_digit {c : Byte} (is : isDigit c = true) (chars : List Byte) :
    value (c :: chars) = digit c * 10 ^ (digits chars).length + value chars := by
  rw [value, digits, List.filter_cons_of_pos is, List.map_cons, horner_cons]
  rfl

theorem digits_cons_other {c : Byte} (is : ¬ isDigit c = true) (chars : List Byte) :
    digits (c :: chars) = digits chars := by
  unfold digits
  rw [List.filter_cons_of_neg is]

theorem not_isDigit_minus : ¬ isDigit (byte '-') = true := by decide

theorem digits_tail {chars : List Byte} (minus : chars.head? = some (byte '-')) :
    digits (chars.drop 1) = digits chars := by
  obtain ⟨rest, rfl⟩ := List.head?_eq_some_iff.1 minus
  exact (digits_cons_other not_isDigit_minus rest).symm

theorem StdString.length_eq_zero {input : StdString} : input.length = 0 ↔ input.chars = [] := by
  have small := input.small
  rw [StdString.length, ← BitVec.toNat_inj, BitVec.toNat_ofNat, Nat.mod_eq_of_lt (by omega)]
  exact List.length_eq_zero_iff

theorem StdString.at_zero {input : StdString} (some : input.chars ≠ []) (c : Byte) :
    input.at 0 = c ↔ input.chars.head? = .some c := by
  obtain ⟨first, rest, eq⟩ := List.exists_cons_of_ne_nil some
  simp [StdString.at, eq]

/-! ## Loops that count up -/

section
variable {w : Nat} {widen : BitVec w → BitVec 64} {input : StdString} {n : Nat}

/-- `n` is the first index that does not pass the header, the smaller ones being widened
to what they count. -/
structure Reaches (widen : BitVec w → BitVec 64) (input : StdString) (n : Nat) : Prop where
  inside : ∀ i < n, widen (BitVec.ofNat w i) = BitVec.ofNat 64 i
  stop : (widen (BitVec.ofNat w n)).ult input.length = false
  within : n ≤ input.chars.length
  some : input.chars ≠ [] → 0 < n

theorem Reaches.zero (reaches : Reaches widen input n) (some : input.chars ≠ []) : widen 0 = 0 :=
  reaches.inside 0 (reaches.some some)

/-- The header counts up to `n`. -/
theorem Reaches.upward (reaches : Reaches widen input n) {p fuel : Nat} (le : p ≤ n) (enough : n - p < fuel) :
    upward widen input.length fuel (BitVec.ofNat w p) = (List.range' p (n - p)).map (BitVec.ofNat w) := by
  induction fuel generalizing p with
  | zero => omega
  | succ fuel ih =>
    rw [Digits.upward]
    rcases Nat.lt_or_eq_of_le le with more | rfl
    · have next : BitVec.ofNat w p + 1 = BitVec.ofNat w (p + 1) := (BitVec.ofNat_add ..).symm
      have below : (BitVec.ofNat 64 p).ult input.length = true := by
        have small := input.small
        have within := reaches.within
        simp only [BitVec.ult, StdString.length, BitVec.toNat_ofNat, decide_eq_true_eq]
        rw [Nat.mod_eq_of_lt (by omega), Nat.mod_eq_of_lt (by omega)]
        omega
      obtain ⟨k, eq⟩ : ∃ k, n - p = k + 1 := ⟨n - p - 1, by omega⟩
      rw [reaches.inside p more, if_pos below, next, ih more (by omega), eq, List.range'_succ, List.map_cons,
        show n - (p + 1) = k by omega]
    · rw [if_neg (by rw [reaches.stop]; exact Bool.false_ne_true), Nat.sub_self]
      rfl

theorem Reaches.at (reaches : Reaches widen input n) {i : Nat} (below : i < n) :
    (widen (BitVec.ofNat w i)).toNat = i := by
  have small := input.small
  have within := reaches.within
  rw [reaches.inside i below, BitVec.toNat_ofNat, Nat.mod_eq_of_lt (by omega)]

/-- The characters in front of `n`, by their positions. -/
theorem Reaches.chars (reaches : Reaches widen input n) (p : Nat) :
    ((List.range' p (n - p)).map (BitVec.ofNat w)).map (fun pos => input.at (widen pos)) = (input.chars.take n).drop p := by
  have within := reaches.within
  apply List.ext_getElem
  · simp [Nat.min_eq_left within]
  · intro i left right
    simp only [List.length_map, List.length_range'] at left
    have below : p + i < n := by omega
    simp only [List.getElem_map, List.getElem_range', one_mul, List.getElem_drop, List.getElem_take, StdString.at,
      reaches.at below]
    rw [List.getD_eq_getElem?_getD, List.getElem?_eq_getElem (by omega), Option.getD_some]

/-- A loop folds the characters at its positions. -/
theorem foldl_scanBody (positions : List (BitVec w)) :
    positions.foldl (scanBody widen input) 0 = value (positions.map fun pos => input.at (widen pos)) := by
  rw [value, horner, digits, List.foldl_map, List.foldl_filter, List.foldl_map]
  rfl

/-- The loop folds the characters in front of `n`. -/
theorem Reaches.foldl (reaches : Reaches widen input n) (p : Nat) :
    ((List.range' p (n - p)).map (BitVec.ofNat w)).foldl (scanBody widen input) 0 =
      value ((input.chars.take n).drop p) := by
  rw [foldl_scanBody, reaches.chars]

/-- The index of the first turn. -/
def startIndex (chars : List Byte) : Nat := if chars.head? = some (byte '-') then 1 else 0

theorem Reaches.scanned (reaches : Reaches widen input n) (some : input.chars ≠ []) :
    scanned widen input =
      (List.range' (startIndex input.chars) (n - startIndex input.chars)).map (BitVec.ofNat w) := by
  have within := reaches.within
  have positive := reaches.some some
  have start : startPos widen input = BitVec.ofNat w (startIndex input.chars) := by
    rw [startPos, startIndex, reaches.zero some]
    simp only [StdString.at_zero some]
    split <;> rfl
  rw [Digits.scanned, start, reaches.upward]
  · unfold startIndex
    split <;> omega
  · omega

/-- The shared text is Horner's rule on the characters that its index reaches. -/
theorem Reaches.scan (reaches : Reaches widen input n) :
    scan widen input = signOf input.chars * value (input.chars.take n) := by
  by_cases some : input.chars = []
  · unfold Digits.scan
    rw [if_pos (StdString.length_eq_zero.2 some), some]
    simp [value, digits]
  · have positive := reaches.some some
    unfold Digits.scan
    rw [if_neg (mt StdString.length_eq_zero.1 some), reaches.scanned some, reaches.foldl]
    have sign : (numberSign widen input).signExtend 64 = signOf input.chars := by
      rw [numberSign, signOf, reaches.zero some]
      simp only [StdString.at_zero some]
      split <;> rfl
    have same : value ((input.chars.take n).drop (startIndex input.chars)) = value (input.chars.take n) := by
      unfold startIndex
      split
      · rename_i minus
        rw [value, digits_tail (by rw [List.head?_take, if_neg (by omega), minus]), value]
      · rfl
    rw [sign, same]

/-- The positions that the shared text reads. -/
theorem Reaches.examined (reaches : Reaches widen input n) (some : input.chars ≠ []) :
    examined widen input =
      0 :: List.range' (startIndex input.chars) (n - startIndex input.chars) := by
  unfold Digits.examined
  rw [if_neg (mt StdString.length_eq_zero.1 some), reaches.scanned some, List.map_map]
  congr 1
  refine (List.map_congr_left fun i member => ?_).trans (List.map_id _)
  have le : startIndex input.chars ≤ n := by
    have positive := reaches.some some
    unfold startIndex
    split <;> omega
  have below : i < n := by have := List.mem_range'_1.1 member; omega
  exact reaches.at below

end

section
variable (input : StdString)

theorem ult_length {m : Nat} (small : m < 2 ^ 64) :
    (BitVec.ofNat 64 m).ult input.length = decide (m < input.chars.length) := by
  have bound := input.small
  simp only [BitVec.ult, StdString.length, BitVec.toNat_ofNat]
  rw [Nat.mod_eq_of_lt small, Nat.mod_eq_of_lt (by omega)]

/-- A `size_t` reaches every character. -/
theorem reaches_size_t : Reaches (id : BitVec 64 → BitVec 64) input input.chars.length where
  inside _ _ := rfl
  stop := by
    have bound := input.small
    rw [id, ult_length input (by omega)]
    simp
  within := Nat.le_refl _
  some := List.length_pos_iff.2

theorem widen_short {i : Nat} (small : i < 32768) :
    (BitVec.ofNat 16 i).msb = false ∧ (BitVec.ofNat 16 i).signExtend 64 = BitVec.ofNat 64 i := by
  have positive : (BitVec.ofNat 16 i).msb = false := by
    rw [BitVec.msb_eq_false_iff_two_mul_lt, BitVec.toNat_ofNat, Nat.mod_eq_of_lt (by omega)]
    omega
  refine ⟨positive, ?_⟩
  rw [BitVec.signExtend_eq_setWidth_of_msb_false positive, ← BitVec.toNat_inj]
  simp only [BitVec.toNat_setWidth, BitVec.toNat_ofNat]
  omega

/-- A `short int` wraps behind 32767, and its widened value is no position. -/
theorem reaches_short :
    Reaches (BitVec.signExtend 64 : BitVec 16 → BitVec 64) input (min input.chars.length 32768) where
  inside i below := (widen_short (by omega)).2
  stop := by
    have bound := input.small
    by_cases long : 32768 ≤ input.chars.length
    · have wrapped : (BitVec.ofNat 16 32768).signExtend 64 = BitVec.ofNat 64 (2 ^ 64 - 32768) := by decide
      rw [Nat.min_eq_right long, wrapped, ult_length input (by omega), decide_eq_false_iff_not]
      omega
    · rw [Nat.min_eq_left (by omega), (widen_short (by omega)).2, ult_length input (by omega)]
      simp
  within := Nat.min_le_left ..
  some some := by
    have := List.length_pos_iff.2 some
    omega

end

/-! ## The loop that counts down -/

/-- The header counts down to 0. -/
theorem downward_eq {i fuel : Nat} (small : i < 32768) (enough : i + 1 < fuel) :
    downward fuel (BitVec.ofNat 16 i) = ((List.range (i + 1)).map (BitVec.ofNat 16)).reverse := by
  induction i generalizing fuel with
  | zero =>
    obtain ⟨k, rfl⟩ : ∃ k, fuel = k + 2 := ⟨fuel - 2, by omega⟩
    rfl
  | succ i ih =>
    obtain ⟨k, rfl⟩ : ∃ k, fuel = k + 1 := ⟨fuel - 1, by omega⟩
    have next : BitVec.ofNat 16 (i + 1) - 1 = BitVec.ofNat 16 i := by
      rw [BitVec.ofNat_add]
      exact BitVec.add_sub_cancel ..
    rw [downward, (widen_short small).1, if_neg Bool.false_ne_true, next, ih (by omega) (by omega),
      List.range_succ (n := i + 1), List.map_append, List.reverse_append]
    rfl

theorem StdString.at_short {input : StdString} {i : Nat} (below : i < input.chars.length) (small : i < 32768) :
    input.at ((BitVec.ofNat 16 i).signExtend 64) = input.chars[i] := by
  rw [(widen_short small).2, StdString.at, BitVec.toNat_ofNat, Nat.mod_eq_of_lt (by omega),
    List.getD_eq_getElem?_getD, List.getElem?_eq_getElem below, Option.getD_some]

/-- A digit is added with the weight of the digits behind it. -/
theorem bodyV1_digit {input : StdString} {i : Nat} (below : i < input.chars.length) (small : i < 32768)
    (is : isDigit input.chars[i] = true) (rest : List Byte) :
    bodyV1 input ⟨value rest, 10 ^ (digits rest).length⟩ (BitVec.ofNat 16 i) =
      ⟨value (input.chars[i] :: rest), 10 ^ (digits (input.chars[i] :: rest)).length⟩ := by
  have longer : (digits (input.chars[i] :: rest)).length = (digits rest).length + 1 := by
    rw [digits, List.filter_cons_of_pos is]
    rfl
  simp only [bodyV1, StdString.at_short below small]
  rw [if_pos is, value_cons_digit is, longer, pow_succ, add_comm]

/-- Behind position 0, the first version adds the digits with their weights. -/
theorem foldr_bodyV1 {input : StdString} (short : input.chars.length ≤ 32768) {k p : Nat} (positive : 0 < p)
    (all : p + k = input.chars.length) :
    (List.range' p k).foldr (fun i s => bodyV1 input s (BitVec.ofNat 16 i)) ⟨0, 1⟩ =
      ⟨value (input.chars.drop p), 10 ^ (digits (input.chars.drop p)).length⟩ := by
  induction k generalizing p with
  | zero =>
    rw [List.drop_of_length_le (by omega)]
    rfl
  | succ k ih =>
    have below : p < input.chars.length := by omega
    rw [List.range'_succ, List.foldr_cons, ih (by omega) (by omega), List.drop_eq_getElem_cons below]
    by_cases is : isDigit input.chars[p] = true
    · exact bodyV1_digit below (by omega) is _
    · have behind : ¬ (BitVec.ofNat 16 p = 0 ∧ input.chars[p] = byte '-') := by
        rintro ⟨zero, -⟩
        have := congrArg BitVec.toNat zero
        rw [BitVec.toNat_ofNat, Nat.mod_eq_of_lt (by omega)] at this
        exact absurd this (by simp; omega)
      simp only [bodyV1, StdString.at_short below (show p < 32768 by omega)]
      rw [if_neg is, if_neg behind, value, value, digits_cons_other is]

theorem removeNonDigitCharsV1_eq {input : StdString} (short : input.chars.length ≤ 32768) :
    removeNonDigitCharsV1 input = signOf input.chars * value input.chars := by
  by_cases some : input.chars = []
  · rw [removeNonDigitCharsV1, if_pos (StdString.length_eq_zero.2 some), some]
    simp [value, digits]
  · have below := List.length_pos_iff.2 some
    have last : (input.length - 1).setWidth 16 = BitVec.ofNat 16 (input.chars.length - 1) := by
      rw [← BitVec.toNat_inj]
      simp only [StdString.length, BitVec.toNat_setWidth, BitVec.toNat_sub, BitVec.toNat_ofNat,
        show (1 : BitVec 64).toNat = 1 from rfl]
      omega
    have rest := foldr_bodyV1 short Nat.one_pos (k := input.chars.length - 1) (by omega)
    rw [removeNonDigitCharsV1, if_neg (mt StdString.length_eq_zero.1 some), last,
      downward_eq (by omega) (by omega), List.foldl_reverse, List.foldr_map, List.range_eq_range',
      List.range'_succ, List.foldr_cons, rest]
    have whole : input.chars = input.chars[0] :: input.chars.drop 1 := by
      rw [← List.drop_eq_getElem_cons below, List.drop_zero]
    have head : input.chars.head? = .some input.chars[0] := by
      rw [List.head?_eq_getElem?, List.getElem?_eq_getElem below]
    by_cases is : isDigit input.chars[0] = true
    · have plus : ¬ input.chars[0] = byte '-' := fun minus => not_isDigit_minus (minus ▸ is)
      rw [bodyV1_digit below (by omega) is, signOf, head, if_neg (by simpa using plus), one_mul, ← whole]
    · have same : value input.chars = value (input.chars.drop 1) := by
        conv_lhs => rw [whole]
        rw [value, digits_cons_other is, value]
      simp only [bodyV1, StdString.at_short below (show 0 < 32768 by omega), signOf, head, same]
      rw [if_neg is]
      by_cases minus : input.chars[0] = byte '-'
      · rw [if_pos ⟨rfl, minus⟩, if_pos (by rw [minus]), neg_one_mul]
      · rw [if_neg fun both => minus both.2, if_neg (by simpa using minus), one_mul]

/-! ## The claims -/

/-- **The first and the third version agree on strings that a `short int` can index.** -/
theorem v1_eq_v3 {input : StdString} (short : input.chars.length ≤ 32768) :
    removeNonDigitCharsV1 input = removeNonDigitCharsV3 input := by
  rw [removeNonDigitCharsV1_eq short, removeNonDigitCharsV3, (reaches_size_t input).scan,
    List.take_of_length_le (Nat.le_refl _)]

theorem v1_eq_v3_mixed :
    removeNonDigitCharsV1 ⟨text "-a9ssj93-2", by decide⟩ =
      removeNonDigitCharsV3 ⟨text "-a9ssj93-2", by decide⟩ :=
  v1_eq_v3 (by decide)

/-- **The second and the third version agree and read every character exactly on strings
that a `short int` can index.** -/
theorem v2_agrees_v3_iff_short (input : StdString) :
    (removeNonDigitCharsV2 input = removeNonDigitCharsV3 input ∧
      ∀ i < input.chars.length, i ∈ examinedV2 input ∧ i ∈ examinedV3 input) ↔
      input.chars.length ≤ 32768 := by
  by_cases some : input.chars = []
  · refine iff_of_true ⟨?_, ?_⟩ ?_
    · rw [removeNonDigitCharsV2, removeNonDigitCharsV3, (reaches_short input).scan, (reaches_size_t input).scan,
        some, List.take_nil, List.take_nil]
    · simp [some]
    · simp [some]
  have positive := List.length_pos_iff.2 some
  have start : startIndex input.chars ≤ 1 := by rw [startIndex]; split <;> omega
  have read2 : ∀ i, i ∈ examinedV2 input ↔ i < min input.chars.length 32768 := by
    intro i
    rw [examinedV2, (reaches_short input).examined some, List.mem_cons, List.mem_range'_1]
    omega
  have read3 : ∀ i, i ∈ examinedV3 input ↔ i < input.chars.length := by
    intro i
    rw [examinedV3, (reaches_size_t input).examined some, List.mem_cons, List.mem_range'_1]
    omega
  simp only [read2, read3]
  constructor
  · rintro ⟨-, all⟩
    have last := (all (input.chars.length - 1) (by omega)).1
    omega
  · intro short
    refine ⟨?_, fun i below => ⟨by omega, below⟩⟩
    rw [removeNonDigitCharsV2, removeNonDigitCharsV3, (reaches_short input).scan, (reaches_size_t input).scan,
      Nat.min_eq_left short]

/-- Behind 32768 letters a digit is not seen. -/
theorem v2_misses_last_digit :
    ∃ input : StdString, input.chars = List.replicate 32768 (byte 'a') ++ [byte '1'] ∧
      removeNonDigitCharsV2 input = 0 ∧ removeNonDigitCharsV3 input = 1 := by
  have length : (List.replicate 32768 (byte 'a') ++ [byte '1']).length = 32769 := by
    rw [List.length_append, List.length_replicate]
    rfl
  have letters : digits (List.replicate 32768 (byte 'a')) = [] := by
    rw [digits, List.filter_replicate, if_neg (by decide)]
    rfl
  have positive : signOf (List.replicate 32768 (byte 'a') ++ [byte '1']) = 1 := by
    rw [List.replicate_succ]
    rfl
  refine ⟨⟨_, by rw [length]; decide⟩, rfl, ?_, ?_⟩
  · rw [removeNonDigitCharsV2, (reaches_short _).scan, positive,
      Nat.min_eq_right (by simp only [length]; decide), List.take_left' List.length_replicate, value, letters]
    rfl
  · rw [removeNonDigitCharsV3, (reaches_size_t _).scan, positive, List.take_length, value, digits,
      List.filter_append, List.map_append, ← digits, letters]
    rfl

end GtpLibrary.Digits

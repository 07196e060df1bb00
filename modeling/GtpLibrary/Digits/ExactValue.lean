import GtpLibrary.Digits.Agreement
import GtpLibrary.Lib.Runs

/-!
# Where the third version is exact

The number at a turn is the value of the digits before it, and no more than the value of all
digits: where that is a `long int`, nothing overflows. The least `long int` is not the
opposite of one, so that its digits overflow before the sign is put to them.
-/

namespace GtpLibrary.Digits

open Lib

/-- The decimal value of the digits among the characters. -/
def magnitude (chars : List Byte) : Nat := horner 10 ((chars.filter isDigit).map fun c => (charToDigit c).toNat)

/-- The integer that the characters stand for. -/
def represented (chars : List Byte) : Int :=
  if chars.head? = some (byte '-') then -magnitude chars else magnitude chars

/-! ## Values of digits -/

theorem charToDigit_lt : ∀ c : Byte, isDigit c = true → (charToDigit c).toNat < 10 := by decide

theorem digit_eq : ∀ c : Byte, isDigit c = true → digit c = BitVec.ofNat 64 (charToDigit c).toNat := by decide

/-- The machine holds the value modulo `2^64`. -/
theorem value_eq (chars : List Byte) : value chars = BitVec.ofNat 64 (magnitude chars) := by
  have cast := map_horner (Nat.castRingHom (BitVec 64)) 10 ((chars.filter isDigit).map fun c => (charToDigit c).toNat)
  have same : digits chars =
      ((chars.filter isDigit).map fun c => (charToDigit c).toNat).map (Nat.castRingHom (BitVec 64)) := by
    rw [digits, List.map_map]
    exact List.map_congr_left fun c member => digit_eq c (List.mem_filter.1 member).2
  rw [value, same]
  exact cast.symm

theorem magnitude_tail {chars : List Byte} (minus : chars.head? = some (byte '-')) :
    magnitude (chars.drop 1) = magnitude chars := by
  obtain ⟨rest, rfl⟩ := List.head?_eq_some_iff.1 minus
  unfold magnitude
  rw [List.filter_cons_of_neg not_isDigit_minus]
  rfl

/-- The digits behind a digit do not make the value less. -/
theorem append_le_magnitude {c : Byte} (is : isDigit c = true) (front back : List Byte) :
    magnitude front * 10 + (charToDigit c).toNat ≤ magnitude (front ++ c :: back) := by
  have split : magnitude (front ++ c :: back) =
      (magnitude front * 10 + (charToDigit c).toNat) * 10 ^ (back.filter isDigit).length + magnitude back := by
    unfold magnitude
    rw [List.filter_append, List.filter_cons_of_pos is, List.map_append, List.map_cons, horner_append, horner_cons,
      List.length_cons, List.length_map, pow_succ]
    ring
  have power : 1 ≤ 10 ^ (back.filter isDigit).length := Nat.one_le_pow _ _ (by decide)
  have grown := Nat.le_mul_of_pos_right (magnitude front * 10 + (charToDigit c).toNat) power
  omega

/-! ## One operation -/

section
variable {input : StdString} {m : Nat} {c : Byte}

theorem toInt_ofNat_small (small : m < 2 ^ 63) : (BitVec.ofNat 64 m).toInt = m := by
  have value : (BitVec.ofNat 64 m).toNat = m := by
    rw [BitVec.toNat_ofNat, Nat.mod_eq_of_lt (by omega)]
  rw [BitVec.toInt_eq_toNat_of_lt (by omega), value]

theorem appendFits_of_le (small : m * 10 + (charToDigit c).toNat < 2 ^ 63) : AppendFits (BitVec.ofNat 64 m) c := by
  intro is
  have ten : (10 : BitVec 64).toInt = 10 := by decide
  have product : BitVec.ofNat 64 m * 10 = BitVec.ofNat 64 (m * 10) := (BitVec.ofNat_mul ..).symm
  constructor
  · unfold BitVec.smulOverflow
    rw [ten, toInt_ofNat_small (by omega)]
    simp only [Bool.or_eq_false_iff, decide_eq_false_iff_not]
    omega
  · have digit_lt := charToDigit_lt c is
    unfold BitVec.saddOverflow
    rw [product, digit_eq c is, toInt_ofNat_small (by omega), toInt_ofNat_small (by omega)]
    simp only [Bool.or_eq_false_iff, decide_eq_false_iff_not]
    omega

/-! ## The loop -/

/-- What the loop reads. -/
theorem chars_scanned (some : input.chars ≠ []) :
    (scanned id input).map (fun pos => input.at (id pos)) = input.chars.drop (startIndex input.chars) := by
  rw [(reaches_size_t input).scanned some, (reaches_size_t input).chars, List.take_length]

theorem magnitude_scanned (some : input.chars ≠ []) :
    magnitude ((scanned id input).map fun pos => input.at (id pos)) = magnitude input.chars := by
  rw [chars_scanned some, startIndex]
  split
  · rename_i minus
    exact magnitude_tail minus
  · rfl

theorem foldl_scanned (some : input.chars ≠ []) :
    (scanned id input).foldl (scanBody id input) 0 = BitVec.ofNat 64 (magnitude input.chars) := by
  rw [foldl_scanBody, value_eq, magnitude_scanned some]

/-- The number at a turn is bounded by the whole value. -/
theorem appendFits_turn (some : input.chars ≠ []) (small : magnitude input.chars < 2 ^ 63) :
    ∀ turn ∈ turnsV3 input, AppendFits turn.1 (input.at turn.2) := by
  rintro ⟨number, pos⟩ member is
  obtain ⟨front, back, split, rfl⟩ := mem_zip_scanl.1 member
  have whole := magnitude_scanned some
  rw [split, List.map_append, List.map_cons] at whole
  have bound := append_le_magnitude is (front.map fun pos => input.at (id pos)) (back.map fun pos => input.at (id pos))
  rw [foldl_scanBody, value_eq]
  refine appendFits_of_le ?_ is
  simp only [id] at whole bound ⊢
  omega

/-! ## The sign -/

theorem represented_of_minus (minus : input.chars.head? = some (byte '-')) :
    represented input.chars = -magnitude input.chars := if_pos minus

theorem represented_of_not_minus (plus : input.chars.head? ≠ some (byte '-')) :
    represented input.chars = magnitude input.chars := if_neg plus

theorem numberSign_eq (some : input.chars ≠ []) :
    ((numberSign id input).signExtend 64 : BitVec 64) = signOf input.chars := by
  rw [numberSign, signOf, id]
  simp only [StdString.at_zero some]
  split <;> rfl

/-- The sign never overflows on the opposite of a `long int`. -/
theorem smulOverflow_signOf (small : m < 2 ^ 63) (chars : List Byte) :
    (signOf chars).smulOverflow (BitVec.ofNat 64 m) = false := by
  have one : (1 : BitVec 64).toInt = 1 := by decide
  have negative : (-1 : BitVec 64).toInt = -1 := by decide
  unfold BitVec.smulOverflow signOf
  rw [toInt_ofNat_small small]
  simp only [Bool.or_eq_false_iff, decide_eq_false_iff_not]
  split
  · rw [negative]
    omega
  · rw [one]
    omega

/-- The result stands for the represented integer, modulo `2^64`. -/
theorem removeNonDigitCharsV3_eq (input : StdString) :
    removeNonDigitCharsV3 input = BitVec.ofInt 64 (represented input.chars) := by
  rw [removeNonDigitCharsV3, (reaches_size_t input).scan, List.take_length, value_eq, signOf, represented]
  split
  · rw [neg_one_mul, BitVec.ofInt_neg, BitVec.ofInt_natCast]
  · rw [one_mul, BitVec.ofInt_natCast]

theorem operationsFit_of_magnitude (small : magnitude input.chars < 2 ^ 63) : OperationsFit input := by
  intro nonempty
  have some : input.chars ≠ [] := mt StdString.length_eq_zero.2 nonempty
  refine ⟨appendFits_turn some small, ?_⟩
  rw [numberSign_eq some, foldl_scanned some]
  exact smulOverflow_signOf small input.chars

/-- The least `long int` stands in `number` before the sign is put to it. -/
theorem not_operationsFit_of_least (least : represented input.chars = -2 ^ 63) : ¬ OperationsFit input := by
  have minus : input.chars.head? = some (byte '-') := by
    by_contra plus
    rw [represented_of_not_minus plus] at least
    omega
  have some : input.chars ≠ [] := by
    intro none
    rw [none] at minus
    cases minus
  rw [represented_of_minus minus] at least
  have size : magnitude input.chars = 2 ^ 63 := by omega
  intro fits
  have sign := (fits (mt StdString.length_eq_zero.1 some)).2
  rw [numberSign_eq some, foldl_scanned some, size, signOf, if_pos minus] at sign
  exact absurd sign (by decide)

end

/-- **The third version is exact wherever the integer fits, but for the least `long int`.** -/
theorem v3_exact_iff (input : StdString)
    (inRange : -2 ^ 63 ≤ represented input.chars ∧ represented input.chars < 2 ^ 63) :
    ((removeNonDigitCharsV3 input).toInt = represented input.chars ∧ OperationsFit input) ↔
      represented input.chars ≠ -2 ^ 63 := by
  constructor
  · rintro ⟨-, fits⟩ least
    exact not_operationsFit_of_least least fits
  · intro other
    constructor
    · rw [removeNonDigitCharsV3_eq, BitVec.toInt_ofInt, Int.bmod_eq_of_le] <;> omega
    · apply operationsFit_of_magnitude
      by_cases minus : input.chars.head? = some (byte '-')
      · rw [represented_of_minus minus] at inRange other
        omega
      · rw [represented_of_not_minus minus] at inRange
        omega

/-- A minus, digits and other characters. -/
theorem v3_exact_iff_mixed :
    ((removeNonDigitCharsV3 ⟨text "-130.76562500", by decide⟩).toInt = represented (text "-130.76562500") ∧
        OperationsFit ⟨text "-130.76562500", by decide⟩) ↔
      represented (text "-130.76562500") ≠ -2 ^ 63 :=
  v3_exact_iff ⟨text "-130.76562500", by decide⟩ (by decide)

/-- The digits of the least `long int` overflow. -/
theorem v3_overflows_on_least :
    (-2 ^ 63 ≤ represented (text "-9223372036854775808") ∧ represented (text "-9223372036854775808") < 2 ^ 63) ∧
      ¬ ((removeNonDigitCharsV3 ⟨text "-9223372036854775808", by decide⟩).toInt =
          represented (text "-9223372036854775808") ∧
        OperationsFit ⟨text "-9223372036854775808", by decide⟩) := by
  decide

end GtpLibrary.Digits

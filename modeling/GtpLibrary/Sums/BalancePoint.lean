import Mathlib.Algebra.BigOperators.Intervals
import Mathlib.Algebra.Order.BigOperators.Group.Finset
import Mathlib.Data.Int.ModEq
import Mathlib.Order.Bounds.Basic
import GtpLibrary.Sums.FindIndex

/-!
# The first balance point

At the head of turn `i` the two variables are the given sum less the elements in front of
`i`, and these elements, both modulo `2^64` (`Reached`). A turn therefore returns where
`2 * (elements in front) + element` is the given sum modulo `2^64`; for the sum of the array
the bounds of `int` make this an equality of integers.
-/

namespace GtpLibrary.Sums

/-- `elements[0] + … + elements[i - 1]` -/
def total (elements : IntArray) (i : Nat) : Int := ∑ j ∈ Finset.range i, (elements j).toInt

/-- `elements[i + 1] + … + elements[n - 1]` -/
def behind (elements : IntArray) (n i : Nat) : Int := ∑ j ∈ Finset.Ico (i + 1) n, (elements j).toInt

/-- Where the loop returns, for any sum it is given. -/
def points (elements : IntArray) (n : BitVec 32) (sum : BitVec 64) : Set Nat :=
  {i | i < turns n ∧ 2 * total elements i + (elements i).toInt ≡ sum.toInt [ZMOD 2 ^ 64]}

/-- The sum in front is the sum behind. -/
def balancePoints (elements : IntArray) (n : BitVec 32) : Set Nat :=
  {i | i < turns n ∧ total elements i = behind elements (turns n) i}

/-- The least index of a set, or -1 if there is none. -/
def FirstOf (indices : Set Nat) (result : Int) : Prop :=
  (∀ i : Nat, result = i ↔ IsLeast indices i) ∧ (result = -1 ↔ indices = ∅)

section
variable {elements : IntArray} {n : BitVec 32} {sum : BitVec 64} {i more : Nat}

theorem turns_le (n : BitVec 32) : turns n ≤ 2 ^ 31 - 1 := by
  have bound := BitVec.toInt_lt (x := n)
  unfold turns
  omega

theorem total_succ (elements : IntArray) (i : Nat) : total elements (i + 1) = total elements i + (elements i).toInt :=
  Finset.sum_range_succ ..

theorem total_split {m : Nat} (inside : i < m) :
    total elements m = total elements i + (elements i).toInt + behind elements m i := by
  rw [← total_succ]
  exact (Finset.sum_range_add_sum_Ico _ inside).symm

/-! ## Bounds -/

theorem sum_bounds (elements : IntArray) (indices : Finset Nat) :
    -(indices.card * 2 ^ 31 : Int) ≤ ∑ j ∈ indices, (elements j).toInt ∧
      ∑ j ∈ indices, (elements j).toInt ≤ indices.card * 2 ^ 31 := by
  have low : ∀ j ∈ indices, -2 ^ 31 ≤ (elements j).toInt := fun j _ => BitVec.le_toInt (elements j)
  have high : ∀ j ∈ indices, (elements j).toInt ≤ 2 ^ 31 := fun j _ => (BitVec.toInt_lt (x := elements j)).le
  have below := Finset.card_nsmul_le_sum indices _ _ low
  have above := Finset.sum_le_card_nsmul indices _ _ high
  rw [nsmul_eq_mul] at below above
  rw [mul_neg] at below
  exact ⟨below, above⟩

theorem total_bounds (elements : IntArray) (i : Nat) :
    -(i * 2 ^ 31 : Int) ≤ total elements i ∧ total elements i ≤ i * 2 ^ 31 := by
  have bounds := sum_bounds elements (Finset.range i)
  rwa [Finset.card_range] at bounds

theorem behind_bounds (elements : IntArray) {m : Nat} (inside : i < m) :
    -((m - 1 - i) * 2 ^ 31 : Int) ≤ behind elements m i ∧ behind elements m i ≤ (m - 1 - i) * 2 ^ 31 := by
  have bounds := sum_bounds elements (Finset.Ico (i + 1) m)
  have count : ((Finset.Ico (i + 1) m).card : Int) = m - 1 - i := by
    rw [Nat.card_Ico]
    omega
  rwa [count] at bounds

/-! ## The loop -/

/-- What the variables are at the head of turn `i`. -/
def reached (elements : IntArray) (sum : BitVec 64) (i : Nat) : Remainders :=
  ⟨sum - BitVec.ofInt 64 (total elements i), BitVec.ofInt 64 (total elements i)⟩

theorem reached_zero (elements : IntArray) (sum : BitVec 64) : reached elements sum 0 = { sum } := by
  unfold reached total
  simp

theorem reached_succ (elements : IntArray) (sum : BitVec 64) (i : Nat) :
    (reached elements sum i).pass (elements i) = reached elements sum (i + 1) := by
  have next : BitVec.ofInt 64 (total elements (i + 1)) = BitVec.ofInt 64 (total elements i) + widen (elements i) := by
    rw [total_succ, BitVec.ofInt_add]
    rfl
  unfold reached Remainders.pass Remainders.takeOut Remainders.putBefore
  rw [next]
  simp only [Remainders.mk.injEq, and_true]
  rw [BitVec.sub_sub]

theorem ofInt_eq_ofInt_iff {x y : Int} : BitVec.ofInt 64 x = BitVec.ofInt 64 y ↔ x ≡ y [ZMOD 2 ^ 64] := by
  rw [← BitVec.toInt_inj, BitVec.toInt_ofInt, BitVec.toInt_ofInt]
  constructor
  · intro same
    have residue := congrArg (· % ((2 ^ 64 : Nat) : Int)) same
    rwa [Int.bmod_emod, Int.bmod_emod] at residue
  · intro same
    rw [← Int.emod_bmod x, ← Int.emod_bmod y]
    exact congrArg (fun r => Int.bmod r (2 ^ 64)) same

/-- The comparison of turn `i`. -/
theorem balanced_iff : ((reached elements sum i).takeOut (elements i)).Balanced ↔
    2 * total elements i + (elements i).toInt ≡ sum.toInt [ZMOD 2 ^ 64] := by
  have whole : BitVec.ofInt 64 (2 * total elements i + (elements i).toInt) =
      BitVec.ofInt 64 (total elements i) + BitVec.ofInt 64 (total elements i) + widen (elements i) := by
    rw [two_mul, BitVec.ofInt_add, BitVec.ofInt_add]
    rfl
  have exchange : ∀ p w s : BitVec 64, p = s - p - w ↔ p + p + w = s := by
    intro p w s
    bv_omega
  calc ((reached elements sum i).takeOut (elements i)).Balanced
    _ ↔ BitVec.ofInt 64 (2 * total elements i + (elements i).toInt) = BitVec.ofInt 64 sum.toInt := by
      rw [whole, BitVec.ofInt_toInt]
      exact exchange ..
    _ ↔ _ := by
      rw [ofInt_eq_ofInt_iff]

/-- The loop returns at the first turn whose comparison holds. -/
theorem search_first : (∃ k, i ≤ k ∧ k < i + more ∧ ((reached elements sum k).takeOut (elements k)).Balanced ∧
      (∀ j, i ≤ j → j < k → ¬ ((reached elements sum j).takeOut (elements j)).Balanced) ∧
      search elements more i (reached elements sum i) = k) ∨
    (∀ j, i ≤ j → j < i + more → ¬ ((reached elements sum j).takeOut (elements j)).Balanced) ∧
      search elements more i (reached elements sum i) = -1 := by
  induction more generalizing i with
  | zero =>
    right
    exact ⟨fun j from' below => by omega, rfl⟩
  | succ more ih =>
    rw [search]
    by_cases here : ((reached elements sum i).takeOut (elements i)).Balanced
    · left
      refine ⟨i, le_rfl, by omega, here, fun j from' below => by omega, ?_⟩
      rw [if_pos here]
    · rw [if_neg here, reached_succ]
      have first : ∀ {k}, (∀ j, i + 1 ≤ j → j < k → ¬ ((reached elements sum j).takeOut (elements j)).Balanced) →
          ∀ j, i ≤ j → j < k → ¬ ((reached elements sum j).takeOut (elements j)).Balanced := by
        intro k later j from' below
        rcases Nat.eq_or_lt_of_le from' with rfl | behind
        · exact here
        · exact later j behind below
      rcases ih (i := i + 1) with ⟨k, from', below, point, later, result⟩ | ⟨later, result⟩
      · left
        exact ⟨k, by omega, by omega, point, first later, result⟩
      · right
        rw [Nat.add_right_comm, Nat.add_assoc] at later
        exact ⟨first later, result⟩

/-! ## The result -/

theorem FirstOf.of_least {indices : Set Nat} {k : Nat} (least : IsLeast indices k) : FirstOf indices k := by
  constructor
  · intro i
    constructor
    · intro same
      rwa [← Int.ofNat.inj same]
    · intro other
      rw [least.unique other]
  · constructor
    · intro negative
      omega
    · intro none
      have member := least.1
      rw [none] at member
      exact member.elim

theorem FirstOf.of_empty {indices : Set Nat} (none : indices = ∅) : FirstOf indices (-1) := by
  constructor
  · intro i
    constructor
    · intro negative
      omega
    · intro least
      have member := least.1
      rw [none] at member
      exact member.elim
  · exact ⟨fun _ => none, fun _ => rfl⟩

theorem findIndex_points (elements : IntArray) (n : BitVec 32) (sum : BitVec 64) :
    FirstOf (points elements n sum) (findIndex elements n sum) := by
  unfold findIndex
  rw [← reached_zero elements sum]
  have loop := @search_first elements sum 0 (turns n)
  rcases loop with ⟨k, -, below, point, first, result⟩ | ⟨none, result⟩
  · rw [result]
    apply FirstOf.of_least
    constructor
    · exact ⟨by omega, balanced_iff.1 point⟩
    · rintro j ⟨-, other⟩
      by_contra before
      exact first j (Nat.zero_le j) (Nat.lt_of_not_le before) (balanced_iff.2 other)
  · rw [result]
    apply FirstOf.of_empty
    rw [Set.eq_empty_iff_forall_notMem]
    rintro j ⟨below, other⟩
    exact none j (Nat.zero_le j) (by omega) (balanced_iff.2 other)

/-- For the sum of the array the congruence is an equality: both sides lie within `2^62`. -/
theorem points_eq (whole : sum.toInt = total elements (turns n)) : points elements n sum = balancePoints elements n := by
  ext i
  refine and_congr_right fun inside => ?_
  have few := turns_le n
  have front := total_bounds elements i
  have back := behind_bounds elements inside
  rw [whole, total_split inside, Int.modEq_iff_dvd]
  constructor
  · intro divides
    have zero := Int.eq_zero_of_abs_lt_dvd divides (by rw [abs_lt]; omega)
    omega
  · intro same
    rw [same]
    exact ⟨0, by omega⟩

/-- **`find_index`.** For any array, count and sum it returns the first index that its
congruence holds at; for the sum of the array that is the first balance point. -/
theorem findIndex_first (elements : IntArray) (n : BitVec 32) (sum : BitVec 64) :
    FirstOf (points elements n sum) (findIndex elements n sum) ∧
      (sum.toInt = total elements (turns n) → FirstOf (balancePoints elements n) (findIndex elements n sum)) := by
  have first := findIndex_points elements n sum
  exact ⟨first, fun whole => points_eq whole ▸ first⟩

theorem findIndex_first_ones : (3 : BitVec 64).toInt = total (fun _ => 1) (turns 3) ∧
    FirstOf (balancePoints (fun _ => 1) 3) (findIndex (fun _ => 1) 3 3) :=
  ⟨by decide, (findIndex_first (fun _ => 1) 3 3).2 (by decide)⟩

end

end GtpLibrary.Sums

import GtpLibrary.Sums.BalancePoint

/-!
# No sum overflows

All partial sums of at most `2^31 - 1` values of an `int` lie within `2^62`, and so do the
remainders of their sum: no signed operation of `main` or of its call of `find_index` leaves
the range of `long long int`.
-/

namespace GtpLibrary.Sums

section
variable {integers : IntArray} {n : BitVec 32} {sum : BitVec 64} {i k more : Nat}

theorem widen_toInt (element : BitVec 32) : (widen element).toInt = element.toInt :=
  BitVec.toInt_signExtend_of_le (by decide)

/-! ## The loop of `main` -/

theorem sumAfter_eq (integers : IntArray) (k : Nat) : sumAfter integers k = BitVec.ofInt 64 (total integers k) := by
  induction k with
  | zero => rfl
  | succ k ih =>
    rw [sumAfter, ih, total_succ, BitVec.ofInt_add]
    rfl

theorem sumAfter_toInt (few : k ≤ 2 ^ 31 - 1) : (sumAfter integers k).toInt = total integers k := by
  have bounds := total_bounds integers k
  rw [sumAfter_eq]
  apply BitVec.toInt_ofInt_eq_self (by decide)
  · omega
  · omega

theorem add_fits (inside : k < turns n) : (sumAfter integers k).saddOverflow (widen (integers k)) = false := by
  have few := turns_le n
  have bounds := total_bounds integers (k + 1)
  rw [total_succ] at bounds
  unfold BitVec.saddOverflow
  rw [sumAfter_toInt (by omega), widen_toInt]
  simp only [Bool.or_eq_false_iff, decide_eq_false_iff_not]
  omega

/-! ## The loop of `find_index` -/

/-- Every head of the loop is one of those reached. -/
theorem reached_of_mem {head : Head} (member : head ∈ heads integers more i (reached integers sum i)) :
    head.i ≤ i + more ∧ head.s = reached integers sum head.i := by
  induction more generalizing i with
  | zero =>
    obtain rfl := List.mem_singleton.1 member
    exact ⟨Nat.le_refl _, rfl⟩
  | succ more ih =>
    rw [heads, reached_succ] at member
    rcases List.mem_cons.1 member with rfl | later
    · exact ⟨Nat.le_add_right .., rfl⟩
    · split at later
      · cases later
      · obtain ⟨below, same⟩ := ih later
        exact ⟨by omega, same⟩

theorem reached_toInt (below : i ≤ turns n) :
    (reached integers (sumAfter integers (turns n)) i).sum.toInt = total integers (turns n) - total integers i := by
  have few := turns_le n
  have whole := total_bounds integers (turns n)
  have front := total_bounds integers i
  have difference : (reached integers (sumAfter integers (turns n)) i).sum =
      BitVec.ofInt 64 (total integers (turns n) - total integers i) := by
    rw [Int.sub_eq_add_neg, BitVec.ofInt_add, BitVec.ofInt_neg, ← BitVec.sub_eq_add_neg, ← sumAfter_eq]
    rfl
  rw [difference]
  apply BitVec.toInt_ofInt_eq_self (by decide)
  · omega
  · omega

theorem sub_fits (inside : i < turns n) :
    (reached integers (sumAfter integers (turns n)) i).sum.ssubOverflow (widen (integers i)) = false := by
  have few := turns_le n
  have back := behind_bounds integers inside
  unfold BitVec.ssubOverflow
  rw [reached_toInt inside.le, widen_toInt, total_split inside]
  simp only [Bool.or_eq_false_iff, decide_eq_false_iff_not]
  omega

/-- **No overflow.** For every count that `main` reads and every array, none of its additions
and none of the subtractions in `find_index` overflows, and at each head the unsigned
variable is the sum of the elements in front, modulo `2^64`. -/
theorem no_sum_overflow (value : BitVec 32) (allocated : Bool) (integers : IntArray) :
    (∀ k < mainTurns value allocated, (sumAfter integers k).saddOverflow (widen (integers k)) = false) ∧
      ∀ head ∈ mainHeads value allocated integers,
        (head.i < turns value → head.s.sum.ssubOverflow (widen (integers head.i)) = false) ∧
          (head.s.sumBefore.toNat : Int) = total integers head.i % 2 ^ 64 := by
  constructor
  · intro k inside
    unfold mainTurns at inside
    split at inside
    · cases inside
    · exact add_fits inside
  · intro head member
    unfold mainHeads at member
    split at member
    · cases member
    · unfold findIndexHeads at member
      rw [← reached_zero integers] at member
      obtain ⟨-, same⟩ := reached_of_mem member
      rw [same]
      refine ⟨fun inside => sub_fits inside, ?_⟩
      unfold reached
      rw [BitVec.toNat_ofInt]
      exact Int.toNat_of_nonneg (Int.emod_nonneg _ (by decide))

/-- What `main` prints for a count that it accepts. -/
theorem main_foundIndex {value : BitVec 32} (accepted : value.slt 1 = false) :
    main value true integers = .foundIndex i ↔ IsLeast (balancePoints integers value) i := by
  have first := findIndex_points integers value (sumAfter integers (turns value))
  rw [points_eq (sumAfter_toInt (turns_le value))] at first
  rw [← first.1 i]
  unfold main
  rw [accepted]
  dsimp only
  by_cases none : findIndex integers value (sumAfter integers (turns value)) = -1
  · rw [none]
    simp
  · simp [none]

end

end GtpLibrary.Sums

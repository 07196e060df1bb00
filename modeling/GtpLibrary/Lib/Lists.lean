import Mathlib.Algebra.GroupWithZero.Nat
import Mathlib.Algebra.Order.BigOperators.Group.List
import Mathlib.Algebra.Order.Ring.Nat
import Mathlib.Tactic.Common

/-!
# Lists

A sum and a count when one element is replaced, and the pieces of a list that is split.
-/

namespace GtpLibrary.Lib

section
variable {α : Type*} {l : List α} {i : Nat} {a b : α}

/-- The sum changes by what the new element adds and the old one does not any more. -/
theorem sum_map_set (f : α → Nat) (there : l[i]? = some a) :
    ((l.set i b).map f).sum + f a = (l.map f).sum + f b := by
  induction l generalizing i with
  | nil => cases there
  | cons first l ih =>
    cases i with
    | zero =>
      cases there
      simp only [List.set_cons_zero, List.map_cons, List.sum_cons]
      omega
    | succ i =>
      have later := ih there
      simp only [List.set_cons_succ, List.map_cons, List.sum_cons]
      omega

/-- A count is a sum of ones. -/
theorem countP_eq_sum (p : α → Bool) : l.countP p = (l.map fun x => (p x).toNat).sum := by
  induction l with
  | nil => rfl
  | cons x l ih =>
    rw [List.countP_cons, List.map_cons, List.sum_cons, ih]
    cases p x <;> simp [Nat.add_comm]

theorem countP_set (p : α → Bool) (there : l[i]? = some a) :
    (l.set i b).countP p + (p a).toNat = l.countP p + (p b).toNat := by
  rw [countP_eq_sum, countP_eq_sum]
  exact sum_map_set (fun x => (p x).toNat) there

end

/-- No piece holds what it is split at. -/
theorem not_mem_of_mem_splitOn {α : Type*} [DecidableEq α] {l piece : List α} {a : α} (member : piece ∈ l.splitOn a) :
    a ∉ piece := by
  induction l generalizing piece with
  | nil =>
    rw [List.splitOn_nil, List.mem_singleton] at member
    rw [member]
    exact List.not_mem_nil
  | cons d l ih =>
    obtain ⟨first, rest, split⟩ := List.exists_cons_of_ne_nil (List.splitOn_ne_nil a l)
    rw [List.splitOn_cons_eq_if_modifyHead, split] at member
    rw [split] at ih
    split at member
    · rcases List.mem_cons.1 member with rfl | later
      · exact List.not_mem_nil
      · exact ih later
    · rename_i other
      rcases List.mem_cons.1 member with rfl | later
      · rw [List.mem_cons, not_or]
        exact ⟨fun same => other (by simp [same]), ih List.mem_cons_self⟩
      · exact ih (List.mem_cons_of_mem _ later)

end GtpLibrary.Lib

import Mathlib.Data.Finset.Basic
import Mathlib.Data.Int.Order.Basic
import Mathlib.Data.List.Sort

/-!
# Rows that are turned over

A row is on when it was turned over an odd number of times.
-/

namespace GtpLibrary.Lib

def toggled (presses : List Nat) (row : Nat) : Bool := presses.count row % 2 = 1

/-- The rows of a list of `n` that are on, from the top. -/
def toggledRows (presses : List Nat) (n : Nat) : List Nat := (List.range n).filter (toggled presses)

section
variable {presses : List Nat} {n row pressed : Nat} {marked : Finset Int}

theorem toggled_concat : toggled (presses ++ [pressed]) row = if row = pressed then !toggled presses row else toggled presses row := by
  unfold toggled
  rw [List.count_append]
  split
  · rename_i here
    subst here
    rw [List.count_singleton_self]
    rcases Nat.mod_two_eq_zero_or_one (presses.count row) with even | odd
    · simp [Nat.add_mod, even]
    · simp [Nat.add_mod, odd]
  · rename_i other
    rw [List.count_singleton, if_neg (by simpa using Ne.symm other), Nat.add_zero]

theorem mem_toggledRows : row ∈ toggledRows presses n ↔ row < n ∧ toggled presses row = true := by
  rw [toggledRows, List.mem_filter, List.mem_range]

/-- A mark that is turned over in a set of marks. -/
theorem mem_turnedOver {i pressed : Int} :
    (i ∈ if pressed ∈ marked then marked.erase pressed else insert pressed marked) ↔
      if i = pressed then pressed ∉ marked else i ∈ marked := by
  by_cases here : i = pressed
  · subst here
    split <;> simp [*]
  · split <;> simp [*]

/-- The marks in their order. -/
theorem eq_toggledRows {rows : List Int} (ordered : rows.Pairwise (· < ·))
    (same : ∀ i, i ∈ rows ↔ ∃ row : Nat, i = row ∧ row < n ∧ toggled presses row = true) :
    rows = (toggledRows presses n).map (Nat.cast : Nat → Int) := by
  have ordered' : ((toggledRows presses n).map (Nat.cast : Nat → Int)).Pairwise (· < ·) := by
    refine List.Pairwise.map _ (fun _ _ => Int.ofNat_lt.2) ?_
    exact List.pairwise_lt_range.filter _
  refine ordered.eq_of_mem_iff ordered' fun {i} => ?_
  rw [same, List.mem_map]
  constructor
  · rintro ⟨row, rfl, on⟩
    exact ⟨row, mem_toggledRows.2 on, rfl⟩
  · rintro ⟨row, member, rfl⟩
    exact ⟨row, rfl, mem_toggledRows.1 member⟩

end

end GtpLibrary.Lib

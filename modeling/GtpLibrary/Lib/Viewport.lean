import Mathlib.Algebra.Order.Field.Basic
import Mathlib.Algebra.Order.Floor.Ring
import Mathlib.Data.Rat.Floor
import Mathlib.Tactic.Common
import Mathlib.Tactic.Positivity

/-!
# A window on a list, and its slider

A window shows `size` rows of a list from the row `top` on. It follows a cursor, and moves no
further than the cursor needs; the slider is what the window is to the list, in cells of a
track as long as the window.
-/

namespace GtpLibrary.Lib

/-- The first row of the window that shows the cursor. -/
def follow (top cursor size : Int) : Int :=
  if cursor < top then cursor
  else if cursor ≥ top + size then cursor - size + 1
  else top

/-- The integer part, rounded to zero. -/
def truncate (q : ℚ) : Int := q.num.tdiv q.den

/-- The first cell of the slider, and its length. -/
def slider (size total top : Int) : Int × Int :=
  let height := max 1 (truncate ((size / total) * size))
  let start := truncate ((top / total) * size)
  (if start + height > size then size - height else start, height)

section
variable {top cursor size total : Int} {q : ℚ}

theorem follow_le (positive : 0 < size) : follow top cursor size ≤ cursor := by
  unfold follow
  split_ifs <;> omega

theorem lt_follow_add (positive : 0 < size) : cursor < follow top cursor size + size := by
  unfold follow
  split_ifs <;> omega

/-- Also where the window has no row. -/
theorem follow_nonneg (row : 0 ≤ cursor) (first : 0 ≤ top) : 0 ≤ follow top cursor size := by
  unfold follow
  split_ifs <;> omega

theorem truncate_eq_floor (nonneg : 0 ≤ q) : truncate q = ⌊q⌋ := by
  rw [truncate, Int.tdiv_eq_ediv_of_nonneg (Rat.num_nonneg.2 nonneg)]
  exact Rat.floor_def'.symm

theorem truncate_nonneg (nonneg : 0 ≤ q) : 0 ≤ truncate q := by
  rw [truncate_eq_floor nonneg]
  exact Int.floor_nonneg.2 nonneg

theorem truncate_le {n : Int} (nonneg : 0 ≤ q) (bound : q ≤ n) : truncate q ≤ n := by
  rw [truncate_eq_floor nonneg]
  exact Int.cast_le.1 ((Int.floor_le q).trans bound)

/-- The slider has a cell, and all its cells are on the track. -/
theorem slider_mem (positive : 0 < size) (longer : size < total) (first : 0 ≤ top) :
    0 ≤ (slider size total top).1 ∧ 1 ≤ (slider size total top).2 ∧
      (slider size total top).1 + (slider size total top).2 ≤ size := by
  have size_pos : (0 : ℚ) < size := Int.cast_pos.2 positive
  have total_pos : (0 : ℚ) < total := Int.cast_pos.2 (positive.trans longer)
  have top_nonneg : (0 : ℚ) ≤ top := Int.cast_nonneg first
  have share : (size / total : ℚ) * size ≤ size := by
    apply mul_le_of_le_one_left size_pos.le
    rw [div_le_one total_pos]
    exact Int.cast_le.2 longer.le
  have height_le := truncate_le (by positivity) share
  have start_nonneg : 0 ≤ truncate ((top / total : ℚ) * size) := truncate_nonneg (by positivity)
  unfold slider
  dsimp only
  split_ifs <;> omega

end

end GtpLibrary.Lib

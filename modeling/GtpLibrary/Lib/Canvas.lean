import Mathlib.Data.BitVec
import Mathlib.Tactic.Common

/-!
# Drawing by exclusive or

A canvas gives every point a colour. `toggle` combines the points of a figure with a mask:
twice the same figure is nothing, and with a mask other than zero the figure can be read off
the canvas. A `Raster` chooses the points of the segment between two ends.
-/

namespace GtpLibrary.Lib

abbrev Point := Int × Int

/-- The points of a figure. -/
abbrev Figure := Point → Bool

abbrev Canvas (w : Nat) := Point → BitVec w

def toggle {w : Nat} (mask : BitVec w) (figure : Figure) (canvas : Canvas w) : Canvas w :=
  fun x => if figure x then canvas x ^^^ mask else canvas x

/-- `x` is between `a` and `b`, in either order. -/
def Between (a b x : Int) : Prop := (a ≤ x ∧ x ≤ b) ∨ (b ≤ x ∧ x ≤ a)

instance (a b x : Int) : Decidable (Between a b x) := inferInstanceAs (Decidable (_ ∨ _))

/-- How segments are drawn: with both ends, and inside the box they span. -/
structure Raster where
  segment : Point → Point → Figure
  first : ∀ p q, segment p q p = true
  last : ∀ p q, segment p q q = true
  inBox : ∀ p q x, segment p q x = true → Between p.1 q.1 x.1 ∧ Between p.2 q.2 x.2

section
variable {w : Nat} {mask : BitVec w} {figure other : Figure} {canvas : Canvas w}

theorem toggle_toggle : toggle mask figure (toggle mask figure canvas) = canvas := by
  funext x
  unfold toggle
  by_cases inside : figure x = true
  · rw [if_pos inside, if_pos inside, BitVec.xor_assoc, BitVec.xor_self, BitVec.xor_zero]
  · rw [if_neg inside, if_neg inside]

theorem toggle_zero : toggle 0 figure canvas = canvas := by
  funext x
  simp [toggle]

theorem xor_ne_self (visible : mask ≠ 0) (c : BitVec w) : c ^^^ mask ≠ c := by
  intro same
  have gone := congrArg (c ^^^ ·) same
  simp only [← BitVec.xor_assoc, BitVec.xor_self, BitVec.zero_xor] at gone
  exact visible gone

variable (canvas) in
theorem mem_iff_toggle_ne (visible : mask ≠ 0) (x : Point) : figure x = true ↔ toggle mask figure canvas x ≠ canvas x := by
  unfold toggle
  by_cases inside : figure x = true
  · simp [inside, xor_ne_self visible]
  · simp [inside]

/-- A visible figure can be read off. -/
theorem toggle_injective (visible : mask ≠ 0) (same : toggle mask figure canvas = toggle mask other canvas) :
    figure = other := by
  funext x
  rw [Bool.eq_iff_iff, mem_iff_toggle_ne canvas visible, mem_iff_toggle_ne canvas visible, same]

theorem Between.antisymm {a b q : Int} (first : Between b q a) (second : Between a q b) : a = b := by
  unfold Between at *
  omega

/-- Two segments to one end with the same points start in the same point. -/
theorem Raster.start_unique (r : Raster) {p p' q : Point} (same : r.segment p q = r.segment p' q) : p = p' := by
  obtain ⟨h, v⟩ := r.inBox p' q p (same ▸ r.first p q)
  obtain ⟨h', v'⟩ := r.inBox p q p' (same ▸ r.first p' q)
  exact Prod.ext (h.antisymm h') (v.antisymm v')

end

/-- The points whose distance from the line is at most half a step along its longer side. -/
def digital : Raster where
  segment p q x :=
    decide (Between p.1 q.1 x.1 ∧ Between p.2 q.2 x.2 ∧
      2 * ((q.1 - p.1) * (x.2 - p.2) - (q.2 - p.2) * (x.1 - p.1)).natAbs ≤ max (q.1 - p.1).natAbs (q.2 - p.2).natAbs)
  first p q := by
    simp [Between]
    omega
  last p q := by
    simp [Between, Int.mul_comm]
    omega
  inBox p q x inside := by
    have spelled := of_decide_eq_true inside
    exact ⟨spelled.1, spelled.2.1⟩

end GtpLibrary.Lib

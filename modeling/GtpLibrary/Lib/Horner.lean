import Mathlib.Algebra.Ring.Basic
import Mathlib.Tactic.Ring

/-!
# Horner's rule

The value of a list of digits, the most significant first, in any commutative
semiring. `foldl_horner` is the rule for a loop from the first digit on, `horner_cons`
the one for a loop from the last digit on, which knows a power of the base.
-/

namespace GtpLibrary.Lib

variable {R : Type} [CommSemiring R]

/-- The value of the digits to the base `b`. -/
def horner (b : R) (digits : List R) : R := digits.foldl (fun n d => n * b + d) 0

@[simp] theorem horner_nil (b : R) : horner b [] = 0 := rfl

theorem foldl_horner (b n : R) (digits : List R) :
    digits.foldl (fun n d => n * b + d) n = n * b ^ digits.length + horner b digits := by
  induction digits generalizing n with
  | nil => simp
  | cons d digits ih =>
    rw [horner, List.foldl_cons, List.foldl_cons, ih, ih, List.length_cons, pow_succ]
    ring

theorem horner_append (b : R) (front digits : List R) :
    horner b (front ++ digits) = horner b front * b ^ digits.length + horner b digits := by
  rw [horner, List.foldl_append, foldl_horner]
  rfl

theorem horner_cons (b d : R) (digits : List R) :
    horner b (d :: digits) = d * b ^ digits.length + horner b digits := by
  rw [horner, List.foldl_cons, foldl_horner, zero_mul, zero_add]

theorem map_horner {S : Type} [CommSemiring S] (f : R →+* S) (b : R) (digits : List R) :
    f (horner b digits) = horner (f b) (digits.map f) := by
  induction digits with
  | nil => simp
  | cons d digits ih => rw [List.map_cons, horner_cons, horner_cons, map_add, map_mul, map_pow, ih, List.length_map]

end GtpLibrary.Lib

import Mathlib.Algebra.Order.Field.Rat
import GtpLibrary.Lib.Numerals

/-!
# Decimal fractions as texts

A decimal has a point with digits on both sides. A fraction is written in a field of fixed width
that is filled up with zeros, so that its places can be told from the text.
-/

namespace GtpLibrary.Lib.Numerals

/-- A numeral in a field that is filled up with zeros in front. -/
def padded (width n : Nat) : Text := (numeral n).leftpad width '0'

/-- The number that a decimal stands for, and how many digits are behind its point. -/
structure Decimal where
  value : ℚ
  places : Nat
  deriving DecidableEq

/-- Reads a decimal. -/
def decimal (t : Text) : Option Decimal :=
  match t.splitOn '.' with
  | [whole, fraction] => do
    let units ← number whole
    let parts ← number fraction
    return ⟨units + parts / 10 ^ fraction.length, fraction.length⟩
  | _ => none

section
variable {width n : Nat}

theorem isDigit_of_mem_padded {c : Char} (member : c ∈ padded width n) : c.isDigit = true := by
  rcases List.mem_append.1 member with zero | digit
  · rw [List.eq_of_mem_replicate zero]
    rfl
  · exact isDigit_of_mem_numeral digit

theorem length_padded (positive : 0 < width) (small : n < 10 ^ width) : (padded width n).length = width := by
  have short : (numeral n).length ≤ width := (Nat.length_toDigits_le_iff (by decide) positive).2 small
  unfold padded
  rw [List.length_leftpad]
  omega

/-- The zeros in front do not count. -/
@[simp] theorem number_padded (width n : Nat) : number (padded width n) = some n := by
  have filled : padded width n ≠ [] := by
    intro empty
    exact numeral_ne_nil n (List.append_eq_nil_iff.1 empty).2
  have digits : (padded width n).all Char.isDigit = true := List.all_eq_true.2 fun c => isDigit_of_mem_padded
  unfold number
  rw [if_pos ⟨filled, digits⟩, padded, List.leftpad, Nat.ofDigitChars_append, Nat.ofDigitChars_replicate_zero,
    Nat.mul_zero]
  exact congrArg some Nat.ofDigitChars_ten_toDigits

/-- **A whole number and a fraction read back**, with the places of the field. -/
theorem decimal_padded (whole : Nat) (positive : 0 < width) (small : n < 10 ^ width) :
    decimal (numeral whole ++ '.' :: padded width n) = some ⟨whole + n / 10 ^ width, width⟩ := by
  have parts : (numeral whole ++ '.' :: padded width n).splitOn '.' = [numeral whole, padded width n] := by
    have joined : numeral whole ++ '.' :: padded width n = ['.'].intercalate [numeral whole, padded width n] := by
      simp [List.intercalate]
    rw [joined]
    apply List.splitOn_intercalate
    · intro t member dot
      rcases List.mem_pair.1 member with rfl | rfl
      · cases isDigit_of_mem_numeral dot
      · cases isDigit_of_mem_padded dot
    · exact List.cons_ne_nil _ _
  simp only [decimal, parts, number_numeral, number_padded, length_padded positive small]
  rfl

end

end GtpLibrary.Lib.Numerals

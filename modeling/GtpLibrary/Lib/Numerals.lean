import Mathlib.Data.List.DropRight
import Mathlib.Tactic.Common

/-!
# Numbers as texts

Decimal numerals, with a sign or without, and numerals with dots between them.
-/

namespace GtpLibrary.Lib.Numerals

/-- Texts, character by character. -/
abbrev Text := List Char

/-- The decimal digits of a number. -/
def numeral (n : Nat) : Text := Nat.toDigits 10 n

/-- The number that a text of digits stands for. -/
def number (t : Text) : Option Nat :=
  if t ≠ [] ∧ t.all Char.isDigit then some (Nat.ofDigitChars 10 t 0) else none

/-- A numeral, behind a minus for a negative number. -/
def signed (x : Int) : Text := if x < 0 then '-' :: numeral (-x).toNat else numeral x.toNat

/-- A number with or without a minus in front. -/
def integer (t : Text) : Option Int :=
  if t.head? = some '-' then (number t.tail).map fun n : Nat => -(n : Int) else (number t).map Int.ofNat

/-- Numerals with a dot between any two. -/
def dotted (parts : List Nat) : Text := ['.'].intercalate (parts.map numeral)

theorem numeral_ne_nil (n : Nat) : numeral n ≠ [] := Nat.toDigits_ne_nil

/-- A numeral is made of digits. -/
theorem isDigit_of_mem_numeral {n : Nat} {c : Char} (member : c ∈ numeral n) : c.isDigit = true :=
  Nat.isDigit_of_mem_toDigits (by decide) (by decide) member

/-- No other character is in a numeral. -/
theorem not_mem_numeral {c : Char} (other : c.isDigit = false) (n : Nat) : c ∉ numeral n := by
  intro member
  rw [isDigit_of_mem_numeral member] at other
  cases other

/-- A numeral is read as its number. -/
@[simp] theorem number_numeral (n : Nat) : number (numeral n) = some n := by
  have digits : (numeral n).all Char.isDigit = true := List.all_eq_true.2 fun c => isDigit_of_mem_numeral
  unfold number
  rw [if_pos ⟨numeral_ne_nil n, digits⟩]
  exact congrArg some Nat.ofDigitChars_ten_toDigits

/-- Numbers differ in their numerals. -/
theorem numeral_injective : Function.Injective numeral := by
  intro m n same
  have read := congrArg number same
  rw [number_numeral, number_numeral] at read
  exact Option.some.inj read

/-- No numeral begins with a minus. -/
theorem head_numeral (n : Nat) : (numeral n).head? ≠ some '-' := fun head =>
  not_mem_numeral (by decide) n (List.mem_of_mem_head? head)

theorem signed_natCast (n : Nat) : signed n = numeral n := by
  unfold signed
  rw [if_neg (by omega), Int.toNat_natCast]

@[simp] theorem integer_numeral (n : Nat) : integer (numeral n) = some (n : Int) := by
  unfold integer
  rw [if_neg (head_numeral n), number_numeral]
  rfl

/-- A printed integer is read as itself. -/
@[simp] theorem integer_signed (x : Int) : integer (signed x) = some x := by
  unfold signed
  split
  · unfold integer
    rw [List.head?_cons, if_pos rfl, List.tail_cons, number_numeral, Option.map_some]
    congr 1
    omega
  · rw [integer_numeral]
    congr 1
    omega

/-- The numerals between the dots. -/
theorem splitOn_dotted {parts : List Nat} (some : parts ≠ []) : (dotted parts).splitOn '.' = parts.map numeral := by
  apply List.splitOn_intercalate
  · intro t member
    obtain ⟨n, -, rfl⟩ := List.mem_map.1 member
    exact not_mem_numeral (by decide) n
  · simpa using some

/-- A further part comes behind a dot. -/
theorem dotted_concat {parts : List Nat} (some : parts ≠ []) (n : Nat) :
    dotted (parts ++ [n]) = dotted parts ++ '.' :: numeral n := by
  unfold dotted
  induction parts with
  | nil => exact absurd rfl some
  | cons m parts ih =>
    cases parts with
    | nil => simp [List.intercalate]
    | cons k parts =>
      have later := ih (List.cons_ne_nil k parts)
      simp only [List.cons_append, List.map_cons, List.intercalate_cons_cons] at later ⊢
      rw [later]
      simp

/-- Digits and dots are all there is. -/
theorem mem_dotted {parts : List Nat} {c : Char} (member : c ∈ dotted parts) : c.isDigit = true ∨ c = '.' := by
  unfold dotted at member
  induction parts with
  | nil => cases member
  | cons m parts ih =>
    cases parts with
    | nil =>
      rw [List.map_singleton, List.intercalate_singleton] at member
      exact .inl (isDigit_of_mem_numeral member)
    | cons k parts =>
      rw [List.map_cons, List.map_cons, List.intercalate_cons_cons, List.mem_append, List.mem_append] at member
      rcases member with (first | dot) | later
      · exact .inl (isDigit_of_mem_numeral first)
      · exact .inr (List.mem_singleton.1 dot)
      · exact ih later

end GtpLibrary.Lib.Numerals

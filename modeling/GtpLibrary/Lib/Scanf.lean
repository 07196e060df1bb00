import Mathlib.Data.BitVec
import GtpLibrary.Lib.Numerals

/-!
# Reading numbers from an input

What `%d` and `%hhu` of `scanf` take: blanks, a sign, digits. Where no digit stands there is no number,
the variable stays as it was, and the blanks and the sign are gone.
-/

namespace GtpLibrary.Lib.Scanf

open Numerals

def isSpace (c : Char) : Bool := c = ' ' || '\t' ≤ c && c ≤ '\r'

/-- The digits in front, and what stands behind them. -/
def digits (input : Text) : Option Nat × Text := (number (input.takeWhile Char.isDigit), input.dropWhile Char.isDigit)

def readDecimal (input : Text) : Option Int × Text :=
  match input.dropWhile isSpace with
  | '-' :: rest => ((digits rest).1.map fun n : Nat => -(n : Int), (digits rest).2)
  | '+' :: rest => ((digits rest).1.map Int.ofNat, (digits rest).2)
  | rest => ((digits rest).1.map Int.ofNat, (digits rest).2)

/-- A number as an `int`; a number that no `long` holds is the one next to it. -/
def toInt32 (x : Int) : BitVec 32 := BitVec.ofInt 32 (max (-2 ^ 63) (min x (2 ^ 63 - 1)))

/-- `scanf("%d", …)` into a variable that was `old`. -/
def scanD (input : Text) (old : BitVec 32) : BitVec 32 × Text :=
  (((readDecimal input).1.map toInt32).getD old, (readDecimal input).2)

/-- A number as an `unsigned char`; one that no `unsigned long` holds is the last of these. -/
def toUnsignedChar (x : Int) : BitVec 8 := if x.natAbs < 2 ^ 64 then BitVec.ofInt 8 x else BitVec.ofNat 8 (2 ^ 64 - 1)

/-- `scanf("%hhu", …)` into a variable that was `old`. -/
def scanHhu (input : Text) (old : BitVec 8) : BitVec 8 × Text :=
  (((readDecimal input).1.map toUnsignedChar).getD old, (readDecimal input).2)

/-- Some blanks. -/
def Blank (gap : Text) : Prop := ∀ c ∈ gap, isSpace c = true

instance (gap : Text) : Decidable (Blank gap) := List.decidableBAll _ gap

/-- A text that no digits of a number go on with. -/
def Ends (rest : Text) : Prop := ∀ c ∈ rest.head?, c.isDigit = false

instance (rest : Text) : Decidable (Ends rest) := Option.decidableForallMem rest.head?

section
variable {rest gap : Text}

theorem digits_numeral (n : Nat) (ends : Ends rest) : digits (numeral n ++ rest) = (some n, rest) := by
  have all : ∀ c ∈ numeral n, c.isDigit = true := fun c => isDigit_of_mem_numeral
  have stop : rest.takeWhile Char.isDigit = [] ∧ rest.dropWhile Char.isDigit = rest := by
    cases rest with
    | nil => exact ⟨rfl, rfl⟩
    | cons c rest =>
      have first := ends c rfl
      simp [first]
  unfold digits
  rw [List.takeWhile_append_of_pos all, List.dropWhile_append_of_pos all, stop.1, stop.2, List.append_nil, number_numeral]

theorem exists_numeral_cons (n : Nat) : ∃ c more, numeral n = c :: more ∧ c.isDigit = true := by
  obtain ⟨c, more, eq⟩ := List.exists_cons_of_ne_nil (numeral_ne_nil n)
  exact ⟨c, more, eq, isDigit_of_mem_numeral (eq ▸ List.mem_cons_self)⟩

theorem isSpace_of_isDigit {c : Char} (digit : c.isDigit = true) : isSpace c = false := by
  by_contra space
  rw [Bool.not_eq_false] at space
  simp only [isSpace, Bool.or_eq_true, Bool.and_eq_true, decide_eq_true_eq] at space
  simp only [Char.isDigit, Bool.and_eq_true, decide_eq_true_eq] at digit
  rcases space with rfl | ⟨-, high⟩
  · exact absurd digit.1 (by decide)
  · have digit := digit.1
    have high : c.val ≤ '\r'.val := high
    have contra := UInt32.le_trans digit high
    exact absurd contra (by decide)

/-- A number behind blanks is read as it is. -/
theorem readDecimal_signed (blank : Blank gap) (x : Int) (ends : Ends rest) :
    readDecimal (gap ++ signed x ++ rest) = (some x, rest) := by
  unfold readDecimal
  rw [List.append_assoc, List.dropWhile_append_of_pos blank]
  by_cases negative : x < 0
  · have front : (signed x ++ rest).dropWhile isSpace = '-' :: (numeral (-x).toNat ++ rest) := by
      rw [signed, if_pos negative]
      rfl
    rw [front]
    show ((digits (numeral (-x).toNat ++ rest)).1.map fun n : Nat => -(n : Int), (digits (numeral (-x).toNat ++ rest)).2) = _
    rw [digits_numeral _ ends, Option.map_some]
    congr 2
    omega
  · obtain ⟨c, more, eq, digit⟩ := exists_numeral_cons x.toNat
    have front : (signed x ++ rest).dropWhile isSpace = numeral x.toNat ++ rest := by
      rw [signed, if_neg negative, eq, List.cons_append, List.dropWhile_cons_of_neg (by simp [isSpace_of_isDigit digit])]
    have noSign : ∀ {d : Char} {t : Text}, numeral x.toNat ++ rest = d :: t → d.isDigit = true := by
      intro d t same
      rw [eq, List.cons_append, List.cons.injEq] at same
      exact same.1 ▸ digit
    rw [front]
    split
    · rename_i same
      exact absurd (noSign same) (by decide)
    · rename_i same
      exact absurd (noSign same) (by decide)
    · rw [digits_numeral _ ends, Option.map_some]
      congr 2
      exact Int.toNat_of_nonneg (by omega)

theorem toInt32_of_bounds {x : Int} (low : -2 ^ 63 ≤ x) (high : x < 2 ^ 63) : toInt32 x = BitVec.ofInt 32 x := by
  unfold toInt32
  rw [min_eq_left (by omega), max_eq_right low]

theorem scanD_signed (blank : Blank gap) {x : Int} (low : -2 ^ 63 ≤ x) (high : x < 2 ^ 63) (ends : Ends rest)
    (old : BitVec 32) : scanD (gap ++ signed x ++ rest) old = (BitVec.ofInt 32 x, rest) := by
  unfold scanD
  rw [readDecimal_signed blank x ends, Option.map_some, Option.getD_some, toInt32_of_bounds low high]

theorem scanD_int (blank : Blank gap) (x : BitVec 32) (ends : Ends rest) (old : BitVec 32) :
    scanD (gap ++ signed x.toInt ++ rest) old = (x, rest) := by
  have low := BitVec.le_toInt x
  have high := BitVec.toInt_lt (x := x)
  rw [scanD_signed blank (by omega) (by omega) ends, BitVec.ofInt_toInt]

theorem scanHhu_numeral (blank : Blank gap) {n : Nat} (small : n < 2 ^ 64) (ends : Ends rest) (old : BitVec 8) :
    scanHhu (gap ++ numeral n ++ rest) old = (BitVec.ofNat 8 n, rest) := by
  have read : readDecimal (gap ++ numeral n ++ rest) = (some (n : Int), rest) := by
    rw [← signed_natCast]
    exact readDecimal_signed blank n ends
  unfold scanHhu
  rw [read, Option.map_some, Option.getD_some, toUnsignedChar, Int.natAbs_natCast, if_pos small, BitVec.ofInt_natCast]

theorem ends_of_space (blank : Blank gap) (filled : gap ≠ []) : Ends (gap ++ rest) := by
  intro c head
  obtain ⟨d, more, rfl⟩ := List.exists_cons_of_ne_nil filled
  rw [List.cons_append, List.head?_cons, Option.mem_some_iff] at head
  subst head
  by_contra digit
  rw [Bool.not_eq_false] at digit
  have space := blank d List.mem_cons_self
  rw [isSpace_of_isDigit digit] at space
  cases space

end

end GtpLibrary.Lib.Scanf

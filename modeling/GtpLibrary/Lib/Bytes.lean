import Mathlib.Data.BitVec

/-!
# Bytes and byte strings

A C `char`, an element of a `std::string` and a byte of a PHP string are all a
`Byte`; a string is the list of its bytes. Literals of the sources are written
through `byte` and `text`, which read an ASCII literal code by code, so that a
definition shows the same characters as the line it models.
-/

namespace GtpLibrary.Lib

/-- An eight-bit `char`. -/
abbrev Byte := BitVec 8

/-- The byte of an ASCII character literal. -/
def byte (c : Char) : Byte := BitVec.ofNat 8 c.toNat

/-- The bytes of an ASCII string literal. -/
def text (s : String) : List Byte := s.toList.map byte

/-- C's `strlen` on the data of a string: the bytes in front of the first NUL. The
terminating NUL of `c_str()` stands behind the last byte. -/
def cString (s : List Byte) : List Byte := s.takeWhile (· != 0)

theorem cString_eq_self {s : List Byte} (clean : (0 : Byte) ∉ s) : cString s = s := by
  induction s with
  | nil => rfl
  | cons c rest ih =>
    obtain ⟨head, tail⟩ := not_or.1 (List.mem_cons.not.1 clean)
    simp only [cString, List.takeWhile_cons, bne_iff_ne, ne_eq, Ne.symm head, not_false_eq_true,
      if_true, List.cons.injEq, true_and]
    exact ih tail

theorem cString_length_le (s : List Byte) : (cString s).length ≤ s.length :=
  (List.takeWhile_prefix _).length_le

/-- A NUL inside the data cuts the C string short. -/
theorem cString_length_lt {s : List Byte} (nul : (0 : Byte) ∈ s) :
    (cString s).length < s.length := by
  induction s with
  | nil => cases nul
  | cons c rest ih =>
    by_cases zero : c = 0
    · simp [cString, zero]
    · have later : (0 : Byte) ∈ rest := (List.mem_cons.1 nul).resolve_left (Ne.symm zero)
      simp only [cString, List.takeWhile_cons, bne_iff_ne, ne_eq, zero, not_false_eq_true, if_true,
        List.length_cons]
      exact Nat.succ_lt_succ (ih later)

end GtpLibrary.Lib

import GtpLibrary.Lib.Arrays
import GtpLibrary.Lib.Numerals

/-!
# `portToCharArray`

`ServerSocket.cpp` and `server.c` have the function in the same words. The digits are written
from the right into a static buffer, and what is returned is the string behind the last one
that was written.
-/

namespace GtpLibrary.Sockets

open Lib Lib.Arrays Lib.Numerals

def base : Int := 10

def digits : List Byte := text "0123456789abcdef"

/-- The static `buf`. -/
abbrev Buf := CArray Byte 32

def buf : Buf := ⟨List.replicate 32 0, List.length_replicate⟩

/-- The loop from an `i` on, with the `i` it ends at. -/
def portLoop : Nat → Int → Buf → Option (Buf × Nat)
  | 0, _, buf => some (buf, 0)
  | i + 1, port, buf =>
    if port = 0 then some (buf, i + 1)
    else do
      let digit ← element digits (port.tmod base)
      let buf ← buf.write (i + 1) [digit]
      portLoop i (port.tdiv base) buf

/-- The buffer after a call and the string that is returned. -/
def portToCharArray (port : Int) (buf : Buf) : Option (Buf × List Byte) := do
  let (buf, i) ← portLoop 30 port buf
  let string ← buf.string (i + 1)
  return (buf, string)

/-- The strings that calls return, one after the other. -/
def portToCharArrays : List Int → Buf → Option (List (List Byte))
  | [], _ => some []
  | port :: ports, buf => do
    let (buf, string) ← portToCharArray port buf
    let strings ← portToCharArrays ports buf
    return string :: strings

example : portToCharArrays [1234, 80] buf = some [text "1234", text "80"] := by decide

/-! ## One call -/

/-- The digits that the loop writes. -/
def written (n : Nat) : List Byte := if n = 0 then [] else (numeral n).map byte

/-- The terminating NUL is in its place. -/
def Ended (buf : Buf) : Prop := buf.1.drop 31 = [0]

theorem element_digits : ∀ d < 10, element digits (d : Nat) = some (byte d.digitChar) := by decide

theorem written_step {n : Nat} (positive : n ≠ 0) : written n = written (n / 10) ++ [byte (n % 10).digitChar] := by
  unfold written numeral
  rw [if_neg positive]
  by_cases short : n < 10
  · have zero : n / 10 = 0 := by omega
    rw [if_pos zero, Nat.toDigits_of_lt_base short, Nat.mod_eq_of_lt short]
    rfl
  · have more : n / 10 ≠ 0 := by omega
    rw [if_neg more, Nat.toDigits_of_base_le (by omega) (by omega), List.map_append]
    rfl

/-- What the loop writes stands in front of what was behind. -/
theorem portLoop_spec {n i : Nat} {buf : Buf} (fits : (written n).length < i) (inside : i < 32) :
    ∃ after : Buf, portLoop i n buf = some (after, i - (written n).length) ∧
      after.1.drop (i - (written n).length + 1) = written n ++ buf.1.drop (i + 1) := by
  induction i generalizing n buf with
  | zero => omega
  | succ i ih =>
    by_cases zero : n = 0
    · subst zero
      exact ⟨buf, rfl, rfl⟩
    · have digit : element digits ((n : Int).tmod base) = some (byte (n % 10).digitChar) :=
        element_digits (n % 10) (Nat.mod_lt n (by omega))
      have rest : (n : Int).tdiv base = (n / 10 : Nat) := rfl
      -- the digit takes the place of the byte at `i + 1`
      have here : i + 1 < buf.1.length := by
        rw [buf.2]
        exact inside
      have cells : buf.1 = buf.1.take (i + 1) ++ [buf.1[i + 1]] ++ buf.1.drop (i + 1 + 1) := by
        rw [List.take_append_getElem, List.take_append_drop]
      have place : (i : Int) + 1 = (buf.1.take (i + 1)).length := by
        rw [List.length_take_of_le here.le]
        rfl
      obtain ⟨next, wrote, now⟩ := write_eq_some (i + 1) [byte (n % 10).digitChar] cells place rfl
      have step := written_step zero
      have shorter : (written n).length = (written (n / 10)).length + 1 := by
        rw [step, List.length_append, List.length_singleton]
      obtain ⟨after, looped, behind⟩ := @ih (n / 10) next (by omega) (by omega)
      have stop : i + 1 - (written n).length = i - (written (n / 10)).length := by omega
      refine ⟨after, ?_, ?_⟩
      · rw [portLoop, if_neg (Int.natCast_ne_zero.2 zero), digit, rest, stop]
        show ((buf.write (i + 1) [byte (n % 10).digitChar]).bind fun buf => portLoop i (n / 10 : Nat) buf) = _
        rw [wrote]
        exact looped
      · have digitBehind : next.1.drop (i + 1) = byte (n % 10).digitChar :: buf.1.drop (i + 1 + 1) := by
          rw [now, List.append_assoc, List.drop_left' (List.length_take_of_le here.le)]
          rfl
        rw [stop, behind, digitBehind, step, List.append_assoc]
        rfl

theorem length_written {n k : Nat} (below : n < 10 ^ k) : (written n).length ≤ k := by
  induction k generalizing n with
  | zero =>
    have zero : n = 0 := by omega
    rw [zero]
    rfl
  | succ k ih =>
    by_cases zero : n = 0
    · rw [zero]
      exact Nat.zero_le _
    · rw [written_step zero, List.length_append, List.length_singleton]
      apply Nat.succ_le_succ
      apply ih
      rw [pow_succ] at below
      omega

theorem zero_not_mem_written (n : Nat) : (0 : Byte) ∉ written n := by
  induction n using Nat.strongRecOn with
  | ind n ih =>
    by_cases zero : n = 0
    · rw [zero]
      exact List.not_mem_nil
    · have digit : ∀ d < 10, (0 : Byte) ≠ byte d.digitChar := by decide
      rw [written_step zero, List.mem_append, List.mem_singleton]
      rintro (before | last)
      · exact ih (n / 10) (by omega) before
      · exact digit (n % 10) (Nat.mod_lt n (by omega)) last

/-- An `int` that is not negative. -/
abbrev Port := { port : Int // 0 ≤ port ∧ port < 2 ^ 31 }

/-- A call returns the digits it writes, whatever earlier calls have left. -/
theorem portToCharArray_spec (port : Port) {buf : Buf} (ended : Ended buf) :
    ∃ after : Buf, portToCharArray port buf = some (after, written port.1.toNat) ∧ Ended after := by
  obtain ⟨port, positive, small⟩ := port
  obtain ⟨n, rfl⟩ := Int.eq_ofNat_of_zero_le positive
  have short : (written n).length ≤ 10 := length_written (by omega)
  obtain ⟨after, looped, behind⟩ := @portLoop_spec n 30 buf (by omega) (by omega)
  have last : buf.1.drop (30 + 1) = [0] := ended
  rw [last] at behind
  have string : after.string (30 - (written n).length + 1) = some (written n) := by
    rw [string_eq_some behind, cString_eq_self (zero_not_mem_written n)]
  refine ⟨after, ?_, ?_⟩
  · show ((portLoop 30 n buf).bind fun result =>
      (result.1.string (result.2 + 1)).bind fun string => some (result.1, string)) = _
    rw [looped, Option.bind_some, string, Option.bind_some]
    rfl
  · show after.1.drop 31 = [0]
    have place : 31 = 30 - (written n).length + 1 + (written n).length := by omega
    rw [place, ← List.drop_drop, behind, List.drop_left]

/-! ## Any calls -/

/-- The bytes of a canonical numeral. -/
def decimal (port : Port) : List Byte := (numeral port.1.toNat).map byte

theorem portToCharArrays_spec (ports : List Port) {buf : Buf} (ended : Ended buf) :
    portToCharArrays (ports.map Subtype.val) buf = some (ports.map fun port => written port.1.toNat) := by
  induction ports generalizing buf with
  | nil => rfl
  | cons port ports ih =>
    obtain ⟨after, called, kept⟩ := portToCharArray_spec port ended
    show ((portToCharArray port buf).bind fun result =>
      (portToCharArrays (ports.map Subtype.val) result.1).bind fun strings => some (result.2 :: strings)) = _
    rw [called, Option.bind_some, ih kept, Option.bind_some, List.map_cons]

theorem written_eq_decimal (port : Port) : written port.1.toNat = decimal port ↔ port.1 ≠ 0 := by
  have positive := port.2.1
  unfold written decimal
  by_cases zero : port.1.toNat = 0
  · have same : port.1 = 0 := by omega
    rw [if_pos zero, zero, same]
    decide
  · have other : port.1 ≠ 0 := by omega
    rw [if_neg zero]
    exact iff_of_true rfl other

/-- **Calls return the numerals of their ports exactly where no port is 0.** -/
theorem portToCharArrays_eq_iff (ports : List Port) :
    portToCharArrays (ports.map Subtype.val) buf = some (ports.map decimal) ↔ ∀ port ∈ ports, port.1 ≠ 0 := by
  have ended : Ended buf := by
    unfold Ended
    rfl
  rw [portToCharArrays_spec ports ended, Option.some_inj, List.map_inj_left]
  exact forall₂_congr fun port _ => written_eq_decimal port

/-- For port 0 the string is empty. -/
theorem portToCharArrays_zero :
    ¬ ∀ ports : List Port, portToCharArrays (ports.map Subtype.val) buf = some (ports.map decimal) := by
  intro decimals
  have zero := decimals [⟨0, by decide⟩]
  exact absurd zero (by decide)

end GtpLibrary.Sockets

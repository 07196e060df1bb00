import GtpLibrary.Bits.BitProcessor
import GtpLibrary.Lib.Scanf

/-!
# The program

`main` with what it reads and prints. The position is an `unsigned char`, so that a number is taken
modulo 256 before it is compared. What is printed of the integers follows from the weight of the bit
(`runMain_position`).
-/

namespace GtpLibrary.Bits

open Lib Lib.Numerals Lib.Scanf

def askInteger : Text := "integer = ".toList

def askPosition : Text := "bit_position(first one from right is number 0) = ".toList

def only32 : Text := "ERROR: An integer(int) value only has 32 bits on this architecture.\n".toList

/-- The line about a value and a bit of it. -/
def inside (value : Int) (bitPosition : Nat) (bit : Int) : Text :=
  "Inside integer value=".toList ++ signed value ++ ", the bit at position ".toList ++ numeral bitPosition ++
    " has a value of ".toList ++ signed bit ++ ".\n".toList

def setting (bitPosition : Nat) (bit : Nat) : Text :=
  "Setting bit at position ".toList ++ numeral bitPosition ++ " to ".toList ++ numeral bit ++ ".\n".toList

/-- A value as it is printed, with its bit. -/
def shown (value : CInt) (p : Position) : Text := inside value.toInt p (bpIsBitTrue value p).toInt

/-- What `main` does behind its check. -/
def changes (value : CInt) (p : Position) : Text :=
  let set := bpSetBitTrue value p
  let cleared := bpSetBitFalse set p
  shown value p ++ setting p 1 ++ shown set p ++ setting p 0 ++ shown cleared p

/-- The standard output and the exit code. -/
def runMain (stdin : Text) : Text × Nat :=
  let (value, rest) := scanD stdin 0
  let (bitPosition, _) := scanHhu rest 0
  if fits : bitPosition.toNat < 32 then (askInteger ++ askPosition ++ changes value ⟨bitPosition.toNat, fits⟩, 0)
  else (askInteger ++ askPosition ++ only32, 1)

/-- What a bit counts in two's complement. -/
def weight (p : Position) : Int := if p = 31 then -2 ^ 31 else 2 ^ p.val

/-- What is printed of an integer that has the bit or not. -/
def changesOf (value : Int) (p : Position) (bit : Bool) : Text :=
  let without := if bit then value - weight p else value
  inside value p (if bit then 1 else 0) ++ setting p 1 ++ inside (without + weight p) p 1 ++ setting p 0 ++
    inside without p 0

section
variable {value : CInt} {p : Position} {lead gap tail : Text} {n : Nat}

theorem toNat_mask (p : Position) : (mask p).toNat = 2 ^ p.val := by
  revert p
  decide

theorem msb_mask (p : Position) : (mask p).msb = decide (p = 31) := by
  revert p
  decide

theorem getLsbD_setBit_self (value : CInt) (p : Position) (bit : Bool) : (setBit value (p, bit)).getLsbD p = bit := by
  rw [getLsbD_setBit, if_pos rfl]

/-- A bit that was clear counts when it is set. -/
theorem toInt_set (clear : value.getLsbD p = false) : (bpSetBitTrue value p).toInt = value.toInt + weight p := by
  have apart : value &&& mask p = 0#32 := by
    rw [and_mask, clear]
    rfl
  have total : (value ||| mask p).toNat = value.toNat + 2 ^ p.val := by
    rw [← BitVec.add_eq_or_of_and_eq_zero _ _ apart, BitVec.toNat_add_of_and_eq_zero apart, toNat_mask]
  have sign : value.msb = value.getLsbD (31 : Position) := BitVec.msb_eq_getLsbD_last value
  unfold bpSetBitTrue weight
  rw [BitVec.toInt_eq_msb_cond, BitVec.toInt_eq_msb_cond, BitVec.msb_or, msb_mask, total]
  by_cases last : p = 31
  · subst last
    rw [sign, clear]
    simp
    omega
  · rw [if_neg last, decide_eq_false last, Bool.or_false]
    split <;> push_cast <;> omega

/-- Of the calls for a position the last one counts. -/
theorem setBit_setBit (value : CInt) (p : Position) (bit bit' : Bool) :
    setBit (setBit value (p, bit)) (p, bit') = setBit value (p, bit') := by
  apply BitVec.eq_of_getLsbD_eq
  intro i inside
  have cell : ∀ value bit, (setBit value (p, bit)).getLsbD i = if p = ⟨i, inside⟩ then bit else value.getLsbD i :=
    fun value bit => getLsbD_setBit value p bit ⟨i, inside⟩
  rw [cell, cell, cell]
  split <;> rfl

theorem setBit_getLsbD (value : CInt) (p : Position) : setBit value (p, value.getLsbD p) = value := by
  apply BitVec.eq_of_getLsbD_eq
  intro i inside
  have cell := getLsbD_setBit value p (value.getLsbD p) ⟨i, inside⟩
  rw [cell]
  split
  · rename_i same
    rw [same]
  · rfl

/-- The value without the bit. -/
theorem toInt_cleared (value : CInt) (p : Position) :
    (bpSetBitFalse value p).toInt = if value.getLsbD p then value.toInt - weight p else value.toInt := by
  have self := setBit_getLsbD value p
  cases bit : value.getLsbD p with
  | true =>
    have clear := getLsbD_setBit_self value p false
    have again : bpSetBitTrue (setBit value (p, false)) p = value := by
      rw [bit] at self
      exact (setBit_setBit value p false true).trans self
    have counts := toInt_set clear
    rw [again] at counts
    rw [counts, if_pos rfl, add_sub_cancel_right]
    rfl
  | false =>
    rw [bit] at self
    have same : bpSetBitFalse value p = value := self
    rw [same, if_neg Bool.false_ne_true]

theorem toInt_bpIsBitTrue (value : CInt) (p : Position) :
    (bpIsBitTrue value p).toInt = if value.getLsbD p then 1 else 0 := by
  rw [bpIsBitTrue_eq]
  cases value.getLsbD p <;> rfl

theorem changes_eq (value : CInt) (p : Position) : changes value p = changesOf value.toInt p (value.getLsbD p) := by
  have cleared : bpSetBitFalse (bpSetBitTrue value p) p = bpSetBitFalse value p := setBit_setBit value p true false
  have set : bpSetBitTrue (bpSetBitFalse value p) p = bpSetBitTrue value p := setBit_setBit value p false true
  have clear : (bpSetBitFalse value p).getLsbD p = false := getLsbD_setBit_self value p false
  have filled : (bpSetBitTrue value p).getLsbD p = true := getLsbD_setBit_self value p true
  have counts := toInt_set clear
  rw [set, toInt_cleared] at counts
  simp only [changes, changesOf, shown, cleared, toInt_cleared, counts, toInt_bpIsBitTrue, clear, filled]
  rfl

/-- **The program.** For a number and a position it prints the number, the number with the bit counted and
without it, when the position modulo 256 is one of an `int`. -/
theorem runMain_position (blank : Blank lead) (blank' : Blank gap) (apart : gap ≠ []) (ends : Ends tail) (value : CInt)
    (small : n < 2 ^ 64) : runMain (lead ++ signed value.toInt ++ (gap ++ numeral n ++ tail)) =
      if fits : n % 256 < 32 then
        (askInteger ++ askPosition ++ changesOf value.toInt ⟨n % 256, fits⟩ (value.getLsbD (n % 256)), 0)
      else (askInteger ++ askPosition ++ only32, 1) := by
  have ends' : Ends (gap ++ numeral n ++ tail) := by
    rw [List.append_assoc]
    exact ends_of_space blank' apart
  have position : (BitVec.ofNat 8 n).toNat = n % 256 := BitVec.toNat_ofNat n 8
  unfold runMain
  rw [scanD_int blank value ends']
  dsimp only
  rw [scanHhu_numeral blank' small ends]
  dsimp only
  by_cases fits : n % 256 < 32
  · have same : (⟨(BitVec.ofNat 8 n).toNat, position.trans_lt fits⟩ : Position) = ⟨n % 256, fits⟩ := Fin.ext position
    rw [dif_pos (position.trans_lt fits), dif_pos fits, same, changes_eq]
  · rw [dif_neg (position ▸ fits), dif_neg fits]

end

/-- The run that `main.c` shows: bit 1 of 4. -/
theorem runMain_position_four : runMain "4\n1\n".toList = (askInteger ++ askPosition ++ changesOf 4 1 false, 0) :=
  @runMain_position [] "\n".toList "\n".toList 1 (by decide) (by decide) (by decide) (by decide) 4 (by decide)

end GtpLibrary.Bits

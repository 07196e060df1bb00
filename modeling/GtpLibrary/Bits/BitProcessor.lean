import GtpLibrary.Lib.Bytes
import GtpLibrary.Lib.Cells

/-!
# `bit_processor`

An `int` is a word of 32 bits in two's complement, `1 << 31` is its sign bit, `>>` repeats the
sign, and the result of an operation on `int` is cut to the eight bits of a `char`. A bit
position is a `char` from 0 to 31; elsewhere C leaves the shift undefined.
-/

namespace GtpLibrary.Bits

open Lib

abbrev CInt := BitVec 32

abbrev Position := Fin 32

/-- `1 << bit_position`. -/
def mask (bitPosition : Position) : CInt := 1#32 <<< bitPosition.val

/-- `bp_is_bit_true_bad`: the bit is copied, then shifted. -/
def bpIsBitTrueBad (value : CInt) (bitPosition : Position) : Byte :=
  ((value &&& mask bitPosition).sshiftRight bitPosition).setWidth 8

/-- `bp_is_bit_true`: the bit is shifted, then copied. -/
def bpIsBitTrue (value : CInt) (bitPosition : Position) : Byte :=
  (value.sshiftRight bitPosition &&& 1#32).setWidth 8

/-- `bp_set_bit_true`. -/
def bpSetBitTrue (value : CInt) (bitPosition : Position) : CInt := value ||| mask bitPosition

/-- `bp_set_bit_false`. -/
def bpSetBitFalse (value : CInt) (bitPosition : Position) : CInt := value &&& ~~~mask bitPosition

/-- One call, which sets the bit at a position to true or to false. -/
def setBit (value : CInt) : Position × Bool → CInt
  | (bitPosition, true) => bpSetBitTrue value bitPosition
  | (bitPosition, false) => bpSetBitFalse value bitPosition

/-- The `char` of a truth value. -/
def charOf (bit : Bool) : Byte := if bit then 1 else 0

section
variable {value : CInt} {p q : Position}

theorem getLsbD_mask (p q : Position) : (mask p).getLsbD q = decide (p = q) := by
  revert p q
  decide

/-- A mask copies one bit. -/
theorem and_mask (value : CInt) (p : Position) : value &&& mask p = if value.getLsbD p then mask p else 0 := by
  apply BitVec.eq_of_getLsbD_eq
  intro i inside
  have here := getLsbD_mask p ⟨i, inside⟩
  rw [BitVec.getLsbD_and, here]
  by_cases same : p = ⟨i, inside⟩
  · subst same
    cases value.getLsbD i <;> simp [here]
  · split_ifs <;> simp [same, here]

theorem bpIsBitTrue_eq (value : CInt) (p : Position) : bpIsBitTrue value p = charOf (value.getLsbD p) := by
  have first : value.sshiftRight p &&& 1#32 = if (value.sshiftRight p).getLsbD 0 then 1#32 else 0 :=
    and_mask (value.sshiftRight p) 0
  have shifted : (value.sshiftRight p).getLsbD 0 = value.getLsbD p := by
    rw [BitVec.getLsbD_sshiftRight]
    simp [p.isLt]
  rw [bpIsBitTrue, first, shifted]
  cases value.getLsbD p <;> rfl

theorem getLsbD_setBit (value : CInt) (p : Position) (bit : Bool) (q : Position) :
    (setBit value (p, bit)).getLsbD q = if p = q then bit else value.getLsbD q := by
  cases bit with
  | true =>
    rw [setBit, bpSetBitTrue, BitVec.getLsbD_or, getLsbD_mask]
    split_ifs with same <;> simp [same]
  | false =>
    rw [setBit, bpSetBitFalse, BitVec.getLsbD_and, BitVec.getLsbD_not, getLsbD_mask]
    split_ifs with same <;> simp [same]

/-- **32 independent cells.** After any calls the bit at a position is the one that the last call
for it has set, or the original one. -/
theorem bpIsBitTrue_foldl (value : CInt) (calls : List (Position × Bool)) (p : Position) :
    bpIsBitTrue (calls.foldl setBit value) p =
      match lastWrite calls p with
      | some bit => charOf bit
      | none => bpIsBitTrue value p := by
  have cell : (calls.foldl setBit value).getLsbD p = (lastWrite calls p).getD (value.getLsbD p) :=
    @read_foldl Position Bool CInt _ (fun value p => value.getLsbD p) setBit getLsbD_setBit calls value p
  rw [bpIsBitTrue_eq, bpIsBitTrue_eq, cell]
  cases lastWrite calls p <;> rfl

/-! ## The first implementation -/

/-- The copied sign bit is shifted back as minus one. -/
theorem shifted_mask (p : Position) : ((mask p).sshiftRight p).setWidth 8 = if p = 31 then 255#8 else 1#8 := by
  revert p
  decide

theorem bpIsBitTrueBad_eq (value : CInt) (p : Position) :
    bpIsBitTrueBad value p = if value.getLsbD p then (if p = 31 then 255 else 1) else 0 := by
  rw [bpIsBitTrueBad, and_mask]
  split_ifs with bit last
  · rw [shifted_mask, if_pos last]
    rfl
  · rw [shifted_mask, if_neg last]
    rfl
  · simp

/-- The two queries give the same truth value. -/
def Agree (value : CInt) (p : Position) : Prop :=
  bpIsBitTrueBad value p = bpIsBitTrue value p ∧
    bpIsBitTrueBad value p ∈ [0, 1] ∧ bpIsBitTrue value p ∈ [0, 1]

/-- **They do exactly below the sign bit, and there for a value that is not negative.** -/
theorem agree_iff (value : CInt) (p : Position) : Agree value p ↔ p < 31 ∨ 0 ≤ value.toInt := by
  unfold Agree
  rw [bpIsBitTrueBad_eq, bpIsBitTrue_eq]
  by_cases last : p = 31
  · subst last
    have sign : 0 ≤ value.toInt ↔ value.getLsbD (31 : Position) = false := by
      have last : value.msb = value.getLsbD (31 : Position) := BitVec.msb_eq_getLsbD_last value
      rw [← last, BitVec.msb_eq_toInt, decide_eq_false_iff_not, not_lt]
    rw [sign, or_iff_right (lt_irrefl (31 : Position))]
    cases value.getLsbD (31 : Position) <;> decide
  · have below : p < 31 := lt_of_le_of_ne (Fin.le_last p) last
    rw [if_neg last]
    refine iff_of_true ?_ (.inl below)
    cases value.getLsbD p <;> decide

/-- The sign of minus one is -1 as a `char`. -/
theorem agree_sign : ¬ Agree (-1) 31 := by
  unfold Agree
  decide

end

end GtpLibrary.Bits

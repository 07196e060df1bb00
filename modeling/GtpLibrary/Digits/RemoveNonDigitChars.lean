import GtpLibrary.Lib.Bytes

/-!
# The three versions of `remove_non_digit_chars`

`long int` and `size_t` are 64 bits wide, `short int` is 16 bits wide, and all of them
wrap. A loop is the list of the positions its header yields, folded by its body; the
fuel of a header is more than the number of its turns (`downward_eq`, `upward_eq`).
-/

namespace GtpLibrary.Digits

open Lib

/-- A `std::string`; no string is longer than `max_size()`. -/
structure StdString where
  chars : List Byte
  small : chars.length < 2 ^ 63

/-- `input.length()`, `input.size()`. -/
def StdString.length (s : StdString) : BitVec 64 := BitVec.ofNat 64 s.chars.length

/-- `input[pos]`; a NUL stands behind the last character. -/
def StdString.at (s : StdString) (pos : BitVec 64) : Byte := s.chars.getD pos.toNat 0

/-- `is_digit`; `char` is signed. -/
def isDigit (c : Byte) : Bool := (byte '0').sle c && c.sle (byte '9')

/-- `char_to_digit`. -/
def charToDigit (c : Byte) : Byte := c - 48

/-- The result of `char_to_digit`, converted to a 64 bit operand. -/
def digit (c : Byte) : BitVec 64 := (charToDigit c).signExtend 64

/-! ## `remove_non_digit_chars_v1` -/

/-- `for (…; pos >= 0; pos--)`. -/
def downward : Nat → BitVec 16 → List (BitVec 16)
  | 0, _ => []
  | fuel + 1, pos => if pos.msb then [] else pos :: downward fuel (pos - 1)

/-- `number` and `pow_of_ten`. -/
structure Weighted where
  number : BitVec 64
  powOfTen : BitVec 64

def bodyV1 (input : StdString) (s : Weighted) (pos : BitVec 16) : Weighted :=
  let ch := input.at (pos.signExtend 64)
  if isDigit ch then ⟨s.number + digit ch * s.powOfTen, s.powOfTen * 10⟩
  else if pos = 0 ∧ ch = byte '-' then ⟨-s.number, s.powOfTen⟩
  else s

def removeNonDigitCharsV1 (input : StdString) : BitVec 64 :=
  if input.length = 0 then 0
  else ((downward (2 ^ 15 + 1) ((input.length - 1).setWidth 16)).foldl (bodyV1 input) ⟨0, 1⟩).number

/-! ## `remove_non_digit_chars_v2` and `remove_non_digit_chars_v3` -/

section
variable {w : Nat} (widen : BitVec w → BitVec 64)

/-- `for (; pos < size; pos++)`; `widen` converts the index to `size_t`. -/
def upward (size : BitVec 64) : Nat → BitVec w → List (BitVec w)
  | 0, _ => []
  | fuel + 1, pos => if (widen pos).ult size then pos :: upward size fuel (pos + 1) else []

/-- `pos` behind a sign. -/
def startPos (input : StdString) : BitVec w := if input.at (widen 0) = byte '-' then 1 else 0

def numberSign (input : StdString) : BitVec 8 := if input.at (widen 0) = byte '-' then -1 else 1

def scanBody (input : StdString) (number : BitVec 64) (pos : BitVec w) : BitVec 64 :=
  let ch := input.at (widen pos)
  if isDigit ch then number * 10 + digit ch else number

/-- The positions of the loop. -/
def scanned (input : StdString) : List (BitVec w) :=
  upward widen input.length (input.chars.length + 1) (startPos widen input)

/-- The text that the second and the third version share. -/
def scan (input : StdString) : BitVec 64 :=
  if input.length = 0 then 0
  else (numberSign widen input).signExtend 64 * (scanned widen input).foldl (scanBody widen input) 0

/-- The positions of the characters that are read. -/
def examined (input : StdString) : List Nat :=
  if input.length = 0 then [] else 0 :: (scanned widen input).map fun pos => (widen pos).toNat

end

/-- The index is a `short int`. -/
def removeNonDigitCharsV2 (input : StdString) : BitVec 64 := scan (BitVec.signExtend 64 : BitVec 16 → _) input

/-- The index is a `size_t`. -/
def removeNonDigitCharsV3 (input : StdString) : BitVec 64 := scan (id : BitVec 64 → _) input

def examinedV2 (input : StdString) : List Nat := examined (BitVec.signExtend 64 : BitVec 16 → _) input

def examinedV3 (input : StdString) : List Nat := examined (id : BitVec 64 → _) input

/-! ## The signed operations of the third version -/

/-- `number` at each turn of the loop, and the position. -/
def turnsV3 (input : StdString) : List (BitVec 64 × BitVec 64) :=
  ((scanned id input).scanl (scanBody id input) 0).zip (scanned id input)

/-- `number * 10 + char_to_digit(*ch)` stays in the range of `long int`, if it is computed. -/
def AppendFits (number : BitVec 64) (ch : Byte) : Prop :=
  isDigit ch = true → number.smulOverflow 10 = false ∧ (number * 10).saddOverflow (digit ch) = false

instance (number : BitVec 64) (ch : Byte) : Decidable (AppendFits number ch) :=
  inferInstanceAs (Decidable (_ → _))

/-- No turn overflows, and `number_sign * number` does not either. -/
def OperationsFit (input : StdString) : Prop :=
  input.length ≠ 0 → (∀ turn ∈ turnsV3 input, AppendFits turn.1 (input.at turn.2)) ∧
    ((numberSign id input).signExtend 64).smulOverflow ((scanned id input).foldl (scanBody id input) 0) = false

instance (input : StdString) : Decidable (OperationsFit input) :=
  have : Decidable (∀ turn ∈ turnsV3 input, AppendFits turn.1 (input.at turn.2)) := List.decidableBAll ..
  inferInstanceAs (Decidable (_ → _ ∧ _))

end GtpLibrary.Digits

import Mathlib.Data.BitVec

/-!
# `find_index` and its `main`

An array is what stands behind a pointer, by index. `int` is 32 bits wide and `long long int`
64; the arithmetic of `long long int` wraps here, and the operands of its signed operations
are listed, so that it can be said of each whether it overflows.
-/

namespace GtpLibrary.Sums

/-- The memory behind an `int*`. -/
abbrev IntArray := Nat → BitVec 32

/-- An `int` as an operand of `long long int` arithmetic, signed or unsigned. -/
def widen (element : BitVec 32) : BitVec 64 := element.signExtend 64

/-- The number of turns of `for(int i=0; i<n; i++)`. -/
def turns (n : BitVec 32) : Nat := n.toInt.toNat

/-! ## `find_index` -/

/-- `sum`, which is signed, and `sum_before`, which is not. -/
structure Remainders where
  sum : BitVec 64
  sumBefore : BitVec 64 := 0
  deriving DecidableEq

namespace Remainders

/-- `sum -= elements[i]` -/
def takeOut (s : Remainders) (element : BitVec 32) : Remainders := { s with sum := s.sum - widen element }

/-- `sum_before == sum`: the signed side is converted. -/
def Balanced (s : Remainders) : Prop := s.sumBefore = s.sum

instance (s : Remainders) : Decidable s.Balanced := inferInstanceAs (Decidable (_ = _))

/-- `sum_before += elements[i]` -/
def putBefore (s : Remainders) (element : BitVec 32) : Remainders :=
  { s with sumBefore := s.sumBefore + widen element }

/-- A turn that does not return. -/
def pass (s : Remainders) (element : BitVec 32) : Remainders := (s.takeOut element).putBefore element

end Remainders

/-- The loop with `more` turns to go. -/
def search (elements : IntArray) : (more i : Nat) → Remainders → Int
  | 0, _, _ => -1
  | more + 1, i, s =>
    if (s.takeOut (elements i)).Balanced then i else search elements more (i + 1) (s.pass (elements i))

def findIndex (elements : IntArray) (numberOfElements : BitVec 32) (sum : BitVec 64) : Int :=
  search elements (turns numberOfElements) 0 { sum }

/-- What the variables are whenever the header of the loop is evaluated. -/
structure Head where
  i : Nat
  s : Remainders

def heads (elements : IntArray) : (more i : Nat) → Remainders → List Head
  | 0, i, s => [⟨i, s⟩]
  | more + 1, i, s =>
    ⟨i, s⟩ :: if (s.takeOut (elements i)).Balanced then [] else heads elements more (i + 1) (s.pass (elements i))

/-- The heads of a call. -/
def findIndexHeads (elements : IntArray) (numberOfElements : BitVec 32) (sum : BitVec 64) : List Head :=
  heads elements (turns numberOfElements) 0 { sum }

/-! ## `main` -/

/-- `sum` after the first `k` turns of `sum += integers[i]`. -/
def sumAfter (integers : IntArray) : Nat → BitVec 64
  | 0 => 0
  | k + 1 => sumAfter integers k + widen (integers k)

/-- The exit code, and what is printed at the end. -/
inductive Outcome
  | invalidNumber
  | noMemory
  | foundIndex (index : Int)
  | noIndex
  deriving DecidableEq

def Outcome.exitCode : Outcome → Nat
  | invalidNumber => 1
  | noMemory => 2
  | foundIndex _ | noIndex => 0

/-- `main`: `value` is the number read, `allocated` whether `malloc` succeeds, and `integers`
what the array holds after the reading. -/
def main (value : BitVec 32) (allocated : Bool) (integers : IntArray) : Outcome :=
  if value.slt 1 then .invalidNumber
  else if !allocated then .noMemory
  else
    let index := findIndex integers value (sumAfter integers (turns value))
    if index = -1 then .noIndex else .foundIndex index

/-- The turns that `main` makes in its own loop. -/
def mainTurns (value : BitVec 32) (allocated : Bool) : Nat := if value.slt 1 || !allocated then 0 else turns value

/-- The heads of the loop of `find_index` that `main` calls. -/
def mainHeads (value : BitVec 32) (allocated : Bool) (integers : IntArray) : List Head :=
  if value.slt 1 || !allocated then [] else findIndexHeads integers value (sumAfter integers (turns value))

end GtpLibrary.Sums

import Mathlib.Logic.Function.Basic
import GtpLibrary.Lib.Scanf
import GtpLibrary.Sums.NoOverflow

/-!
# The program

`main` with what it reads and prints. A number that cannot be read leaves the variable as it is, for
an element what `malloc` left there. What is printed at the end is the outcome of the numbers read
(`runMain_outcome`), and for an input of numbers these are the numbers (`runMain_numbers`).
-/

namespace GtpLibrary.Sums

open Lib.Numerals Lib.Scanf

/-- What the reading leaves: the array, the sum, and what was printed. -/
structure Reading where
  integers : IntArray
  sum : BitVec 64
  printed : Text

def prompt (i : Nat) : Text := "integers[".toList ++ numeral i ++ "]=".toList

/-- The loop that reads the integers, with `more` turns to go. -/
def readIntegers : (more i : Nat) → IntArray → BitVec 64 → Text → Reading
  | 0, _, integers, sum, _ => ⟨integers, sum, []⟩
  | more + 1, i, integers, sum, input =>
    let (element, rest) := scanD input (integers i)
    let integers := Function.update integers i element
    let reading := readIntegers more (i + 1) integers (sum + widen (integers i)) rest
    { reading with printed := prompt i ++ reading.printed }

/-- The line at the end. -/
def Outcome.text (value : BitVec 32) : Outcome → Text
  | invalidNumber => "Really?! Next time, give me a valid value!\n".toList
  | noMemory => "ERROR: Can not allocate memory for ".toList ++ signed value.toInt ++ " integers.\n".toList
  | foundIndex index => "Found index at position ".toList ++ signed index ++ ".\n".toList
  | noIndex => "Could not find such an index.\n".toList

def numberOfElements : Text := "number of elements (1 to 2^31 -1) = ".toList

def makeSure : Text := "Please make sure that the sum of integers does not overflow a long long int.\n".toList

/-- The standard output and the exit code. -/
def runMain (stdin : Text) (allocated : Bool) (garbage : IntArray) : Text × Nat :=
  let (value, rest) := scanD stdin 0
  if value.slt 1 then (numberOfElements ++ Outcome.text value .invalidNumber, 1)
  else if !allocated then (numberOfElements ++ Outcome.text value .noMemory, 2)
  else
    let reading := readIntegers (turns value) 0 garbage 0 rest
    let index := findIndex reading.integers value reading.sum
    (numberOfElements ++ makeSure ++ reading.printed ++
      Outcome.text value (if index = -1 then .noIndex else .foundIndex index), 0)

section
variable {integers garbage : IntArray} {sum : BitVec 64} {more i : Nat} {input : Text}

/-! ## What is read -/

/-- Elements in front of the loop stay. -/
theorem readIntegers_front {j : Nat} (before : j < i) :
    (readIntegers more i integers sum input).integers j = integers j := by
  induction more generalizing i integers sum input with
  | zero => rfl
  | succ more ih =>
    rw [readIntegers]
    exact (ih (Nat.lt_succ_of_lt before)).trans (Function.update_of_ne (Nat.ne_of_lt before) ..)

/-- The sum that is taken while reading is that of the array. -/
theorem readIntegers_sum (front : sum = sumAfter integers i) :
    (readIntegers more i integers sum input).sum = sumAfter (readIntegers more i integers sum input).integers (i + more) := by
  have congr : ∀ {a b : IntArray} {k : Nat}, (∀ j < k, a j = b j) → sumAfter a k = sumAfter b k := by
    intro a b k same
    induction k with
    | zero => rfl
    | succ k ih => rw [sumAfter, sumAfter, ih fun j below => same j (Nat.lt_succ_of_lt below), same k (Nat.lt_succ_self k)]
  induction more generalizing i integers sum input with
  | zero => exact front
  | succ more ih =>
    rw [readIntegers]
    refine (ih ?_).trans (by rw [Nat.add_right_comm, Nat.add_assoc])
    rw [sumAfter, front]
    congr 1
    exact congr fun j below => (Function.update_of_ne (Nat.ne_of_lt below) ..).symm

theorem readIntegers_printed : (readIntegers more i integers sum input).printed = (List.range' i more).flatMap prompt := by
  induction more generalizing i integers sum input with
  | zero => rfl
  | succ more ih =>
    rw [readIntegers, List.range'_succ, List.flatMap_cons]
    exact congrArg (prompt i ++ ·) ih

/-- What is printed at the end is the outcome for what was read. -/
theorem runMain_outcome (stdin : Text) (allocated : Bool) (garbage : IntArray) :
    let value := (scanD stdin 0).1
    let integers := (readIntegers (turns value) 0 garbage 0 (scanD stdin 0).2).integers
    let outcome := main value allocated integers
    (runMain stdin allocated garbage).2 = outcome.exitCode ∧
      outcome.text value <:+ (runMain stdin allocated garbage).1 := by
  intro value integers outcome
  have taken : (readIntegers (turns value) 0 garbage 0 (scanD stdin 0).2).sum = sumAfter integers (turns value) :=
    (readIntegers_sum rfl).trans (congrArg _ (Nat.zero_add _))
  unfold runMain
  show (if value.slt 1 then _ else _ : Text × Nat).2 = _ ∧ _ <:+ (if value.slt 1 then _ else _ : Text × Nat).1
  by_cases low : value.slt 1 = true
  · have is : outcome = .invalidNumber := if_pos low
    rw [if_pos low, is]
    exact ⟨rfl, List.suffix_append ..⟩
  · by_cases none : (!allocated) = true
    · have is : outcome = .noMemory := (if_neg low).trans (if_pos none)
      rw [if_neg low, if_pos none, is]
      exact ⟨rfl, List.suffix_append ..⟩
    · have is : outcome = if findIndex integers value (sumAfter integers (turns value)) = -1 then .noIndex
          else .foundIndex (findIndex integers value (sumAfter integers (turns value))) :=
        (if_neg low).trans (if_neg none)
      rw [if_neg low, if_neg none, is, ← taken]
      refine ⟨?_, List.suffix_append ..⟩
      dsimp only
      split <;> rfl

/-! ## An input of numbers -/

/-- The number of the integers, and the integers with blanks in front of them. -/
def written (lead : Text) (entries : List (Text × BitVec 32)) (tail : Text) : Text :=
  lead ++ numeral entries.length ++ (entries.flatMap (fun entry => entry.1 ++ signed entry.2.toInt) ++ tail)

/-- There are blanks in front of each integer. -/
def Apart (entries : List (Text × BitVec 32)) : Prop := ∀ entry ∈ entries, entry.1 ≠ [] ∧ Blank entry.1

instance (entries : List (Text × BitVec 32)) : Decidable (Apart entries) :=
  inferInstanceAs (Decidable (∀ entry ∈ entries, _ ∧ _))

variable {lead tail rest gap : Text} {entries : List (Text × BitVec 32)}

theorem ends_entries (apart : Apart entries) (ends : Ends tail) :
    Ends (entries.flatMap (fun entry => entry.1 ++ signed entry.2.toInt) ++ tail) := by
  cases entries with
  | nil => exact ends
  | cons entry entries =>
    obtain ⟨filled, blank⟩ := apart entry List.mem_cons_self
    rw [List.flatMap_cons, List.append_assoc, List.append_assoc]
    exact ends_of_space blank filled

/-- The array holds the integers that were read. -/
theorem readIntegers_entries (apart : Apart entries) (ends : Ends tail) :
    ∀ j < entries.length, (readIntegers entries.length i integers sum
      (entries.flatMap (fun entry => entry.1 ++ signed entry.2.toInt) ++ tail)).integers (i + j) =
        (entries.map Prod.snd).getD j 0 := by
  induction entries generalizing i integers sum with
  | nil => exact fun j inside => absurd inside (Nat.not_lt_zero j)
  | cons entry entries ih =>
    obtain ⟨⟨-, blank⟩, later⟩ := List.forall_mem_cons.1 apart
    have first := scanD_int blank entry.2 (ends_entries later ends) (integers i)
    intro j inside
    rw [List.length_cons, readIntegers, List.flatMap_cons, List.append_assoc, first]
    cases j with
    | zero =>
      exact (readIntegers_front (Nat.lt_succ_self i)).trans (Function.update_self ..)
    | succ j =>
      rw [Nat.add_comm j 1, ← Nat.add_assoc, Nat.add_comm 1 j]
      exact ih later j (Nat.lt_of_succ_lt_succ inside)

/-- The sum in front of a position is the sum behind it. -/
def balances (xs : List Int) : Set Nat := {i | i < xs.length ∧ (xs.take i).sum = (xs.drop (i + 1)).sum}

theorem total_eq_sum {xs : List Int} (same : ∀ j < xs.length, (integers j).toInt = xs.getD j 0) (inside : i ≤ xs.length) :
    total integers i = (xs.take i).sum := by
  induction i with
  | zero => rfl
  | succ i ih =>
    rw [total_succ, ih (Nat.le_of_succ_le inside), same i inside, List.take_add_one, List.getD_eq_getElem?_getD,
      List.getElem?_eq_getElem inside, List.sum_append]
    simp

theorem balancePoints_eq {xs : List Int} {n : BitVec 32} (count : turns n = xs.length)
    (same : ∀ j < xs.length, (integers j).toInt = xs.getD j 0) : balancePoints integers n = balances xs := by
  ext i
  unfold balancePoints balances
  rw [count]
  refine and_congr_right fun inside => ?_
  have whole : total integers xs.length = total integers (i + 1) + behind integers xs.length i := by
    rw [total_succ]
    exact total_split inside
  rw [total_eq_sum same le_rfl, List.take_length, total_eq_sum same inside] at whole
  have split : (xs.take (i + 1)).sum + (xs.drop (i + 1)).sum = xs.sum := by
    rw [← List.sum_append, List.take_append_drop]
  rw [← split] at whole
  rw [total_eq_sum same inside.le, add_left_cancel whole]

theorem turns_ofInt {n : Nat} (few : n ≤ 2 ^ 31 - 1) : (BitVec.ofInt 32 n).toInt = n ∧ turns (BitVec.ofInt 32 n) = n := by
  have whole : (BitVec.ofInt 32 n).toInt = n := BitVec.toInt_ofInt_eq_self (by decide) (by omega) (by omega)
  exact ⟨whole, by rw [turns, whole, Int.toNat_natCast]⟩

/-- **The program.** For an input of numbers it prints the first position that has the same sum in
front and behind, or that there is none. -/
theorem runMain_numbers (blank : Blank lead) (apart : Apart entries) (ends : Ends tail) (some : entries ≠ [])
    (few : entries.length ≤ 2 ^ 31 - 1) (garbage : IntArray) :
    ∃ result : Int, FirstOf (balances (entries.map fun entry => entry.2.toInt)) result ∧
      runMain (written lead entries tail) true garbage =
        (numberOfElements ++ makeSure ++ (List.range entries.length).flatMap prompt ++
          (if result = -1 then "Could not find such an index.\n".toList
            else "Found index at position ".toList ++ signed result ++ ".\n".toList), 0) := by
  obtain ⟨whole, count⟩ := turns_ofInt few
  have filled := List.length_pos_iff.2 some
  have read : scanD (written lead entries tail) 0 = (BitVec.ofInt 32 entries.length,
      entries.flatMap (fun entry => entry.1 ++ signed entry.2.toInt) ++ tail) := by
    unfold written
    rw [← signed_natCast]
    exact scanD_signed blank (by omega) (by omega) (ends_entries apart ends) 0
  have accepted : ¬ (BitVec.ofInt 32 entries.length).slt 1 = true := by
    unfold BitVec.slt
    rw [whole, decide_eq_true_eq, show (1 : BitVec 32).toInt = 1 from rfl]
    omega
  -- the array and the sum behind the loop
  generalize reads : readIntegers entries.length 0 garbage 0
    (entries.flatMap (fun entry => entry.1 ++ signed entry.2.toInt) ++ tail) = reading
  have integers : ∀ j < (entries.map fun entry => entry.2.toInt).length,
      (reading.integers j).toInt = (entries.map fun entry => entry.2.toInt).getD j 0 := by
    intro j inside
    rw [List.length_map] at inside
    have element : (readIntegers entries.length 0 garbage 0 _).integers (0 + j) = _ := readIntegers_entries apart ends j inside
    rw [reads, Nat.zero_add] at element
    rw [element]
    simp [List.getD_eq_getElem?_getD, inside]
  have sum : reading.sum = sumAfter reading.integers (turns (BitVec.ofInt 32 entries.length)) := by
    rw [← reads, count]
    exact (readIntegers_sum rfl).trans (congrArg _ (Nat.zero_add _))
  have first := findIndex_points reading.integers (BitVec.ofInt 32 entries.length) reading.sum
  rw [points_eq (sum ▸ sumAfter_toInt (turns_le _)), balancePoints_eq (count.trans (List.length_map ..).symm) integers] at first
  refine ⟨_, first, ?_⟩
  unfold runMain
  rw [read]
  dsimp only
  rw [if_neg accepted, if_neg (by decide), count, reads]
  have printed : reading.printed = (List.range entries.length).flatMap prompt := by
    rw [← reads, readIntegers_printed, List.range_eq_range']
  rw [printed]
  split <;> rfl

end

/-- The first run that `main.c` shows. -/
theorem runMain_numbers_ones : ∃ result : Int, FirstOf (balances [1, 2, 1]) result ∧
    runMain "3\n1\n2\n1\n".toList true (fun _ => 7) =
      (numberOfElements ++ makeSure ++ (List.range 3).flatMap prompt ++
        (if result = -1 then "Could not find such an index.\n".toList
          else "Found index at position ".toList ++ signed result ++ ".\n".toList), 0) :=
  @runMain_numbers [] "\n".toList [("\n".toList, 1), ("\n".toList, 2), ("\n".toList, 1)]
    (by decide) (by decide) (by decide) (by decide) (by decide) (fun _ => 7)

end GtpLibrary.Sums

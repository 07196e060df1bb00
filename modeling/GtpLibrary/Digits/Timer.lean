import Mathlib.Data.BitVec
import GtpLibrary.Lib.Decimals

/-!
# `gtp::Timer`

The benchmark measures the versions with it. `time_t`, `long int` and `unsigned long long int`
are 64 bits wide, and all of them wrap. What `clock_gettime` answers is a parameter; it leaves the
variable as it is where it fails.
-/

namespace GtpLibrary.Digits

open Lib.Numerals

/-- `struct timespec`. -/
structure Timespec where
  tvSec : BitVec 64
  tvNsec : BitVec 64
  deriving DecidableEq

/-- `Timer::Interval`. -/
structure Interval where
  seconds : BitVec 64
  nanoSeconds : BitVec 64
  deriving DecidableEq

structure Timer where
  interval : Interval
  startTime : Timespec
  stopTime : Timespec
  timerType : BitVec 32
  deriving DecidableEq

/-- What `clock_gettime` stores for a clock. -/
abbrev ClockGettime := BitVec 32 → Option Timespec

def Timer.start (clock : ClockGettime) (t : Timer) : Timer :=
  { t with startTime := (clock t.timerType).getD t.startTime }

def Timer.stop (clock : ClockGettime) (t : Timer) : Timer :=
  let stopTime := (clock t.timerType).getD t.stopTime
  let seconds := stopTime.tvSec - t.startTime.tvSec
  let tmp := stopTime.tvNsec - t.startTime.tvNsec
  let interval := if tmp.slt 0 then ⟨seconds - 1, tmp + 1000000000⟩ else ⟨seconds, tmp⟩
  { t with stopTime, interval }

def Timer.getInterval (t : Timer) : Text :=
  numeral t.interval.seconds.toNat ++ '.' :: padded 9 t.interval.nanoSeconds.toNat

/-! ## What an interval is -/

/-- The nanoseconds since the clock began to count. -/
def Timespec.nanoseconds (time : Timespec) : Int := time.tvSec.toInt * 10 ^ 9 + time.tvNsec.toInt

/-- The nanoseconds are less than a second. -/
def Timespec.Normal (time : Timespec) : Prop := 0 ≤ time.tvNsec.toInt ∧ time.tvNsec.toInt < 10 ^ 9

instance (time : Timespec) : Decidable time.Normal := inferInstanceAs (Decidable (_ ∧ _))

/-- The nanoseconds from the start to the stop. -/
def Timer.elapsed (t : Timer) : Int := t.stopTime.nanoseconds - t.startTime.nanoseconds

/-- The interval is what has elapsed, in the numbers and in the text. -/
structure Timer.Exact (t : Timer) : Prop where
  less : t.interval.nanoSeconds.toNat < 10 ^ 9
  total : t.interval.seconds.toNat * 10 ^ 9 + t.interval.nanoSeconds.toNat = t.elapsed
  text : decimal t.getInterval = some ⟨t.elapsed / 10 ^ 9, 9⟩

section
variable {x y : BitVec 64}

/-- A word that is not negative is the same number without a sign. -/
theorem toNat_of_nonneg (nonneg : 0 ≤ x.toInt) : (x.toNat : Int) = x.toInt := by
  have small := x.isLt
  rw [BitVec.toInt_eq_toNat_cond] at *
  split_ifs at * <;> omega

/-- The difference of two signed words, the smaller one taken from the greater, is exact without a
sign. -/
theorem toNat_sub_of_le (order : y.toInt ≤ x.toInt) : ((x - y).toNat : Int) = x.toInt - y.toInt := by
  have small := x.isLt
  have small' := y.isLt
  rw [BitVec.toInt_eq_toNat_cond, BitVec.toInt_eq_toNat_cond] at *
  rw [BitVec.toNat_sub]
  split_ifs at * <;> omega

theorem saddOverflow_eq_false (low : -2 ^ 63 ≤ x.toInt + y.toInt) (high : x.toInt + y.toInt < 2 ^ 63) :
    x.saddOverflow y = false := by
  simp only [BitVec.saddOverflow, Bool.or_eq_false_iff, decide_eq_false_iff_not]
  omega

theorem ssubOverflow_eq_false_iff :
    x.ssubOverflow y = false ↔ -2 ^ 63 ≤ x.toInt - y.toInt ∧ x.toInt - y.toInt < 2 ^ 63 := by
  simp only [BitVec.ssubOverflow, Bool.or_eq_false_iff, decide_eq_false_iff_not]
  omega

end

/-! ## The signed operations -/

section
variable {start stop : Timespec}

/-- The difference of the nanoseconds fits in a `long int`. -/
theorem tvNsec_fits (first : start.Normal) (second : stop.Normal) :
    stop.tvNsec.ssubOverflow start.tvNsec = false := by
  obtain ⟨low, high⟩ := first
  obtain ⟨low', high'⟩ := second
  rw [ssubOverflow_eq_false_iff]
  omega

theorem toInt_tmp (first : start.Normal) (second : stop.Normal) :
    (stop.tvNsec - start.tvNsec).toInt = stop.tvNsec.toInt - start.tvNsec.toInt := by
  apply BitVec.toInt_sub_of_not_ssubOverflow
  rw [tvNsec_fits first second]
  exact Bool.false_ne_true

/-- So does a second more, where it is negative. -/
theorem tmp_fits (first : start.Normal) (second : stop.Normal) (borrow : stop.tvNsec.toInt < start.tvNsec.toInt) :
    (stop.tvNsec - start.tvNsec).saddOverflow 1000000000 = false := by
  have second' : BitVec.toInt (1000000000 : BitVec 64) = 10 ^ 9 := by decide
  obtain ⟨low, high⟩ := first
  obtain ⟨low', high'⟩ := second
  apply saddOverflow_eq_false
  · rw [toInt_tmp ⟨low, high⟩ ⟨low', high'⟩, second']
    omega
  · rw [toInt_tmp ⟨low, high⟩ ⟨low', high'⟩, second']
    omega

/-- The difference of the seconds does unless the interval is `2 ^ 63` seconds long. -/
theorem tvSec_fits_iff (order : start.tvSec.toInt ≤ stop.tvSec.toInt) :
    stop.tvSec.ssubOverflow start.tvSec = false ↔ stop.tvSec.toInt - start.tvSec.toInt < 2 ^ 63 := by
  rw [ssubOverflow_eq_false_iff]
  omega

theorem tmp_slt_iff (first : start.Normal) (second : stop.Normal) :
    (stop.tvNsec - start.tvNsec).slt 0 = true ↔ stop.tvNsec.toInt < start.tvNsec.toInt := by
  have zero : BitVec.toInt (0 : BitVec 64) = 0 := rfl
  rw [BitVec.slt_iff_toInt_lt, toInt_tmp first second, zero]
  omega

/-! ## The interval -/

/-- The nanoseconds with a second that is borrowed. -/
theorem toNat_borrowed (first : start.Normal) (second : stop.Normal)
    (borrow : stop.tvNsec.toInt < start.tvNsec.toInt) :
    ((stop.tvNsec - start.tvNsec + 1000000000).toNat : Int) = stop.tvNsec.toInt - start.tvNsec.toInt + 10 ^ 9 := by
  have sum : (stop.tvNsec - start.tvNsec + 1000000000).toInt = stop.tvNsec.toInt - start.tvNsec.toInt + 10 ^ 9 := by
    rw [BitVec.toInt_add_of_not_saddOverflow, toInt_tmp first second]
    · rfl
    · rw [tmp_fits first second borrow]
      exact Bool.false_ne_true
  obtain ⟨low, -⟩ := second
  obtain ⟨-, high⟩ := first
  rw [toNat_of_nonneg, sum]
  rw [sum]
  omega

/-- Where a second is borrowed there is one. -/
theorem toNat_seconds_borrowed (more : start.tvSec.toInt < stop.tvSec.toInt) :
    ((stop.tvSec - start.tvSec - 1).toNat : Int) = stop.tvSec.toInt - start.tvSec.toInt - 1 := by
  have difference := toNat_sub_of_le more.le
  have one : (1 : BitVec 64) ≤ stop.tvSec - start.tvSec := by
    rw [BitVec.le_def]
    show 1 ≤ (stop.tvSec - start.tvSec).toNat
    omega
  rw [BitVec.toNat_sub_of_le one]
  show ((stop.tvSec - start.tvSec).toNat - 1 : Nat) = stop.tvSec.toInt - start.tvSec.toInt - 1
  omega

/-- With a borrowed second the nanoseconds are less than one, and with the seconds they are the
difference. -/
theorem numbers_borrowed (first : start.Normal) (second : stop.Normal)
    (borrow : stop.tvNsec.toInt < start.tvNsec.toInt) (order : start.nanoseconds ≤ stop.nanoseconds) :
    (stop.tvNsec - start.tvNsec + 1000000000).toNat < 10 ^ 9 ∧
      (stop.tvSec - start.tvSec - 1).toNat * 10 ^ 9 + (stop.tvNsec - start.tvNsec + 1000000000).toNat =
        stop.nanoseconds - start.nanoseconds := by
  have nanos := toNat_borrowed first second borrow
  obtain ⟨low, high⟩ := first
  obtain ⟨low', high'⟩ := second
  unfold Timespec.nanoseconds at *
  have more : start.tvSec.toInt < stop.tvSec.toInt := by omega
  have seconds := toNat_seconds_borrowed more
  omega

/-- So they are without it. -/
theorem numbers_plain (first : start.Normal) (second : stop.Normal)
    (plain : start.tvNsec.toInt ≤ stop.tvNsec.toInt) (order : start.nanoseconds ≤ stop.nanoseconds) :
    (stop.tvNsec - start.tvNsec).toNat < 10 ^ 9 ∧
      (stop.tvSec - start.tvSec).toNat * 10 ^ 9 + (stop.tvNsec - start.tvNsec).toNat =
        stop.nanoseconds - start.nanoseconds := by
  have nanos := toNat_sub_of_le plain
  obtain ⟨low, high⟩ := first
  obtain ⟨low', high'⟩ := second
  unfold Timespec.nanoseconds at *
  have less : start.tvSec.toInt ≤ stop.tvSec.toInt := by omega
  have seconds := toNat_sub_of_le less
  omega

theorem stop_numbers {clock : ClockGettime} {t : Timer} (first : t.startTime.Normal)
    (second : (t.stop clock).stopTime.Normal)
    (order : t.startTime.nanoseconds ≤ (t.stop clock).stopTime.nanoseconds) :
    (t.stop clock).interval.nanoSeconds.toNat < 10 ^ 9 ∧
      (t.stop clock).interval.seconds.toNat * 10 ^ 9 + (t.stop clock).interval.nanoSeconds.toNat =
        (t.stop clock).elapsed := by
  have signed := tmp_slt_iff first second
  by_cases borrow : (t.stop clock).stopTime.tvNsec.toInt < t.startTime.tvNsec.toInt
  · have interval : (t.stop clock).interval = ⟨_, _⟩ := if_pos (signed.2 borrow)
    rw [interval]
    exact numbers_borrowed first second borrow order
  · have interval : (t.stop clock).interval = ⟨_, _⟩ := if_neg fun negative => borrow (signed.1 negative)
    rw [interval]
    exact numbers_plain first second (not_lt.1 borrow) order

end

/-- The text is the number of seconds with nine places. -/
theorem decimal_getInterval {t : Timer} (less : t.interval.nanoSeconds.toNat < 10 ^ 9) :
    decimal t.getInterval =
      some ⟨(t.interval.seconds.toNat * 10 ^ 9 + t.interval.nanoSeconds.toNat) / 10 ^ 9, 9⟩ := by
  rw [Timer.getInterval, decimal_padded _ (by decide) less, add_div, mul_div_cancel_right₀]
  exact pow_ne_zero 9 (by decide)

end GtpLibrary.Digits

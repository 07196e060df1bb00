import Mathlib.Logic.Function.Basic

/-!
# Mutexes

A mutex knows its owner; where a thread stands says whether it holds the mutex. `Owned` ties the
two together. A step of one thread hands the mutex over by what the thread holds in front of the
step and behind it.
-/

namespace GtpLibrary.Lib

open Function (update)

variable {Thread : Type}

/-- The owner is the one thread that holds the mutex. -/
def Owned (owner : Option Thread) (holds : Thread → Bool) : Prop := ∀ i, owner = some i ↔ holds i = true

/-- The owner behind a step of a thread. -/
def handover (owner : Option Thread) (i : Thread) : (before after : Bool) → Option Thread
  | false, true => some i
  | true, false => none
  | false, false | true, true => owner

section
variable {owner : Option Thread} {holds : Thread → Bool} {i j : Thread}

theorem Owned.exclusive (owned : Owned owner holds) (first : holds i = true) (second : holds j = true) : i = j := by
  have fromFirst := (owned i).2 first
  rw [(owned j).2 second] at fromFirst
  exact (Option.some.inj fromFirst).symm

theorem Owned.free (owned : Owned owner holds) (unowned : owner = none) : holds i = false := by
  rw [Bool.eq_false_iff]
  intro held
  have := (owned i).2 held
  rw [unowned] at this
  cases this

variable [DecidableEq Thread]

theorem Owned.handover (owned : Owned owner holds) {after : Bool}
    (free : holds i = false → after = true → owner = none) :
    Owned (handover owner i (holds i) after) (update holds i after) := by
  intro j
  by_cases same : j = i
  · subst same
    rw [Function.update_self]
    cases before : holds j <;> cases after
    · simpa [Lib.handover, before] using owned j
    · exact iff_of_true rfl rfl
    · exact iff_of_false nofun nofun
    · simpa [Lib.handover, before] using owned j
  · rw [Function.update_of_ne same]
    cases before : holds i <;> cases after
    · exact owned j
    · have unheld : holds j = false := owned.free (free before rfl)
      rw [unheld]
      refine iff_of_false ?_ nofun
      rintro ⟨⟩
      exact same rfl
    · refine iff_of_false nofun ?_
      intro held
      exact same (owned.exclusive held before)
    · exact owned j

end

end GtpLibrary.Lib

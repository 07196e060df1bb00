import Mathlib.Data.List.Count
import Mathlib.Logic.Function.Basic

/-!
# What is acquired and released

Owners hold what was acquired, one thing at most. As long as no thing has two owners, and none is
released behind its owner's back or dropped, everything that was acquired is held, and not
released yet, or was released once.
-/

namespace GtpLibrary.Lib

open Function (update)

/-- The thing that an owner holds, and what was acquired and released so far. -/
structure Ledger (Owner Thing : Type) where
  held : Owner → Option Thing
  acquired : List Thing
  released : List Thing

namespace Ledger

variable {Owner Thing : Type}

def empty : Ledger Owner Thing := ⟨fun _ => none, [], []⟩

/-- A new thing for an owner. -/
def acquire [DecidableEq Owner] (l : Ledger Owner Thing) (x : Owner) (h : Thing) : Ledger Owner Thing where
  held := update l.held x (some h)
  acquired := h :: l.acquired
  released := l.released

/-- An owner gives back what it holds. -/
def release [DecidableEq Owner] (l : Ledger Owner Thing) (x : Owner) (h : Thing) : Ledger Owner Thing where
  held := update l.held x none
  acquired := l.acquired
  released := h :: l.released

/-- Everything that was acquired has one owner, or was released once. -/
structure Accounted [DecidableEq Thing] (l : Ledger Owner Thing) : Prop where
  apart : ∀ {x y h}, l.held x = some h → l.held y = some h → x = y
  owned : ∀ {x h}, l.held x = some h → h ∈ l.acquired
  known : ∀ h ∈ l.released, h ∈ l.acquired
  once : ∀ h ∈ l.acquired,
    ((∃ x, l.held x = some h) ∧ l.released.count h = 0) ∨ ((∀ x, l.held x ≠ some h) ∧ l.released.count h = 1)

theorem Accounted.empty [DecidableEq Thing] : Accounted (.empty : Ledger Owner Thing) where
  apart holds := nomatch holds
  owned holds := nomatch holds
  known _ member := absurd member List.not_mem_nil
  once _ member := absurd member List.not_mem_nil

theorem Accounted.count_le_one [DecidableEq Thing] {l : Ledger Owner Thing} (accounted : Accounted l) {h : Thing}
    (member : h ∈ l.acquired) : l.released.count h ≤ 1 := by
  rcases accounted.once h member with ⟨-, unreleased⟩ | ⟨-, released⟩
  · omega
  · omega

/-- When nothing is held any more, each thing was released once. -/
theorem Accounted.settled [DecidableEq Thing] {l : Ledger Owner Thing} (accounted : Accounted l)
    (gone : ∀ x, l.held x = none) : ∀ h ∈ l.acquired, l.released.count h = 1 := by
  intro h member
  rcases accounted.once h member with ⟨⟨x, holds⟩, -⟩ | ⟨-, released⟩
  · cases (gone x).symm.trans holds
  · exact released

section
variable [DecidableEq Owner] {l : Ledger Owner Thing} {x : Owner} {h : Thing}

/-- What the owners hold when one of them is another one now. -/
theorem bind_update {Object : Type} (objects : Owner → Option Object) (x : Owner) (r : Option Object)
    (thing : Object → Option Thing) :
    (fun y => (update objects x r y).bind thing) = update (fun y => (objects y).bind thing) x (r.bind thing) := by
  funext y
  by_cases same : y = x
  · rw [same, Function.update_self, Function.update_self]
  · rw [Function.update_of_ne same, Function.update_of_ne same]

theorem held_acquire {y : Owner} {g : Thing} (holds : (l.acquire x h).held y = some g) :
    (y = x ∧ g = h) ∨ (y ≠ x ∧ l.held y = some g) := by
  change update l.held x (some h) y = some g at holds
  by_cases same : y = x
  · rw [same, Function.update_self, Option.some_inj] at holds
    exact .inl ⟨same, holds.symm⟩
  · rw [Function.update_of_ne same] at holds
    exact .inr ⟨same, holds⟩

theorem held_release {y : Owner} {g : Thing} (holds : (l.release x h).held y = some g) :
    y ≠ x ∧ l.held y = some g := by
  change update l.held x none y = some g at holds
  by_cases same : y = x
  · rw [same, Function.update_self] at holds
    cases holds
  · rw [Function.update_of_ne same] at holds
    exact ⟨same, holds⟩

variable [DecidableEq Thing]

theorem Accounted.acquire (accounted : Accounted l) (free : l.held x = none) (fresh : h ∉ l.acquired) :
    Accounted (l.acquire x h) where
  apart := by
    intro y z g first second
    rcases held_acquire first with ⟨atX, new⟩ | ⟨-, before⟩
    · rcases held_acquire second with ⟨atX', -⟩ | ⟨-, before⟩
      · exact atX.trans atX'.symm
      · exact absurd (new ▸ accounted.owned before) fresh
    · rcases held_acquire second with ⟨-, new⟩ | ⟨-, before'⟩
      · exact absurd (new ▸ accounted.owned before) fresh
      · exact accounted.apart before before'
  owned := by
    intro y g holds
    rcases held_acquire holds with ⟨-, rfl⟩ | ⟨-, holds⟩
    · exact List.mem_cons_self
    · exact List.mem_cons_of_mem _ (accounted.owned holds)
  known g member := List.mem_cons_of_mem _ (accounted.known g member)
  once := by
    intro g member
    by_cases same : g = h
    · subst same
      refine .inl ⟨⟨x, Function.update_self ..⟩, List.count_eq_zero.2 ?_⟩
      exact fun released => fresh (accounted.known g released)
    · rcases accounted.once g (List.mem_of_ne_of_mem same member) with ⟨⟨y, holds⟩, unreleased⟩ | ⟨unheld, released⟩
      · have other : y ≠ x := by
          rintro rfl
          cases free.symm.trans holds
        exact .inl ⟨⟨y, (Function.update_of_ne other ..).trans holds⟩, unreleased⟩
      · refine .inr ⟨fun y holds => ?_, released⟩
        rcases held_acquire holds with ⟨-, rfl⟩ | ⟨-, holds⟩
        · exact same rfl
        · exact unheld y holds

theorem Accounted.release (accounted : Accounted l) (holds : l.held x = some h) : Accounted (l.release x h) where
  apart first second := accounted.apart (held_release first).2 (held_release second).2
  owned held := accounted.owned (held_release held).2
  known := by
    intro g member
    rcases List.mem_cons.1 member with rfl | member
    · exact accounted.owned holds
    · exact accounted.known g member
  once := by
    intro g member
    rcases accounted.once g member with ⟨⟨y, there⟩, unreleased⟩ | ⟨unheld, released⟩
    · by_cases same : g = h
      · subst same
        refine .inr ⟨fun z held => ?_, (List.count_cons_self ..).trans (congrArg (· + 1) unreleased)⟩
        have back := held_release held
        exact back.1 (accounted.apart back.2 holds)
      · have other : y ≠ x := by
          rintro rfl
          exact same (Option.some_inj.1 (there.symm.trans holds))
        exact .inl ⟨⟨y, (Function.update_of_ne other ..).trans there⟩,
          (List.count_cons_of_ne (Ne.symm same)).trans unreleased⟩
    · have other : g ≠ h := fun same => unheld x (same ▸ holds)
      exact .inr ⟨fun y held => unheld y (held_release held).2,
        (List.count_cons_of_ne (Ne.symm other)).trans released⟩

end

end Ledger

end GtpLibrary.Lib

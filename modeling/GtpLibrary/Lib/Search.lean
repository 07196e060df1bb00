import Mathlib.Data.List.Infix
import Mathlib.Tactic.Common

/-!
# First occurrences

Where a pattern stands first in a text. `First` says it of the two texts around the
occurrence; they are determined by it.
-/

namespace GtpLibrary.Lib.Search

variable {α : Type*}

/-- `front` and `behind` stand around the first occurrence of the pattern. -/
structure First (pattern t front behind : List α) : Prop where
  split : t = front ++ (pattern ++ behind)
  first : ∀ front' behind', t = front' ++ (pattern ++ behind') → front.length ≤ front'.length

section
variable {pattern t front behind front' behind' : List α}

theorem First.unique (one : First pattern t front behind) (other : First pattern t front' behind') :
    front = front' ∧ behind = behind' := by
  have size : front.length = front'.length :=
    Nat.le_antisymm (one.first _ _ other.split) (other.first _ _ one.split)
  obtain ⟨fronts, rest⟩ := List.append_inj (one.split.symm.trans other.split) size
  exact ⟨fronts, List.append_cancel_left rest⟩

theorem First.infix (one : First pattern t front behind) : pattern <:+: t :=
  ⟨front, behind, by rw [List.append_assoc]; exact one.split.symm⟩

end

section
variable [DecidableEq α]

/-- The place of the first occurrence. -/
def position (pattern t : List α) : Option Nat := t.tails.findIdx? pattern.isPrefixOf

variable {pattern t front behind : List α} {i : Nat}

theorem position_eq_some_iff : position pattern t = some i ↔
    i ≤ t.length ∧ pattern <+: t.drop i ∧ ∀ j < i, ¬ pattern <+: t.drop j := by
  unfold position
  rw [List.findIdx?_eq_some_iff_getElem]
  simp only [List.length_tails, List.getElem_tails, List.isPrefixOf_iff_prefix, exists_and_left]
  constructor
  · rintro ⟨here, inside, before⟩
    exact ⟨by omega, here, before⟩
  · rintro ⟨inside, here, before⟩
    exact ⟨here, by omega, before⟩

theorem position_eq_none_iff : position pattern t = none ↔ ¬ pattern <:+: t := by
  unfold position
  rw [List.findIdx?_eq_none_iff]
  simp only [List.mem_tails, Bool.eq_false_iff, ne_eq, List.isPrefixOf_iff_prefix]
  rw [List.infix_iff_prefix_suffix]
  constructor
  · rintro none ⟨tail, starts, ends⟩
    exact none tail ends starts
  · intro none tail ends starts
    exact none ⟨tail, starts, ends⟩

theorem First.position (one : First pattern t front behind) : position pattern t = some front.length := by
  rw [position_eq_some_iff, one.split, List.drop_left]
  refine ⟨?_, List.prefix_append .., ?_⟩
  · rw [List.length_append]
    exact Nat.le_add_right ..
  · rintro j before ⟨rest, here⟩
    have earlier : front.length ≤ (t.take j).length := by
      apply one.first _ rest
      rw [here, ← one.split, List.take_append_drop]
    rw [List.length_take] at earlier
    omega

theorem first_of_position (found : position pattern t = some i) :
    First pattern t (t.take i) (t.drop (i + pattern.length)) ∧ (t.take i).length = i := by
  obtain ⟨inside, ⟨rest, here⟩, before⟩ := position_eq_some_iff.1 found
  have size : (t.take i).length = i := List.length_take_of_le inside
  have behind : t.drop (i + pattern.length) = rest := by
    rw [← List.drop_drop, ← here, List.drop_left]
  refine ⟨⟨?_, fun front' behind' other => ?_⟩, size⟩
  · rw [behind, here, List.take_append_drop]
  · rw [size]
    by_contra earlier
    apply before front'.length (Nat.lt_of_not_le earlier)
    rw [other, List.drop_left]
    exact List.prefix_append ..

theorem exists_first_iff : (∃ front behind, First pattern t front behind) ↔ pattern <:+: t := by
  constructor
  · rintro ⟨front, behind, one⟩
    exact one.infix
  · intro occurs
    cases found : Search.position pattern t with
    | none => exact absurd occurs (position_eq_none_iff.1 found)
    | some i => exact ⟨_, _, (first_of_position found).1⟩

end

end GtpLibrary.Lib.Search

import Mathlib.Data.Finset.Card
import Mathlib.Order.Interval.Finset.Nat

/-!
# Numbers that are handed out and given back

The numbers from 1 up to a greatest one. The next number is the least that is not used, and
as long as the used numbers are those of the holders there is one whenever the holders are
fewer than the numbers.
-/

namespace GtpLibrary.Lib.Numbers

/-- The least number from 1 to `greatest` that is not used. -/
def next (greatest : Nat) (used : Finset Nat) : Option Nat := (List.range' 1 greatest).find? fun i => i ∉ used

/-- The holders have different numbers, and these are the used ones. -/
structure Allotted (greatest : Nat) (held : List Nat) (used : Finset Nat) : Prop where
  distinct : held.Nodup
  within : ∀ n ∈ held, 1 ≤ n ∧ n ≤ greatest
  exact : used = held.toFinset

section
variable {greatest i : Nat} {held : List Nat} {used : Finset Nat}

theorem next_eq_some (free : next greatest used = some i) : 1 ≤ i ∧ i ≤ greatest ∧ i ∉ used := by
  have member := List.mem_range'_1.1 (List.mem_of_find?_eq_some free)
  have unused := List.find?_some free
  rw [decide_eq_true_eq] at unused
  exact ⟨member.1, by omega, unused⟩

theorem next_eq_none : next greatest used = none ↔ Finset.Icc 1 greatest ⊆ used := by
  unfold next
  rw [List.find?_eq_none]
  constructor
  · intro full n member
    rw [Finset.mem_Icc] at member
    have here := full n (List.mem_range'_1.2 ⟨member.1, by omega⟩)
    simpa using here
  · intro full n member
    have inside := List.mem_range'_1.1 member
    have here := full (Finset.mem_Icc.2 ⟨inside.1, by omega⟩)
    simpa using here

theorem Allotted.nil : Allotted greatest [] ∅ where
  distinct := List.nodup_nil
  within _ member := absurd member List.not_mem_nil
  exact := rfl

theorem Allotted.mem (allotted : Allotted greatest held used) (n : Nat) : n ∈ used ↔ n ∈ held := by
  rw [allotted.exact, List.mem_toFinset]

theorem Allotted.card (allotted : Allotted greatest held used) : used.card = held.length := by
  rw [allotted.exact, List.toFinset_card_of_nodup allotted.distinct]

theorem Allotted.length_le (allotted : Allotted greatest held used) : held.length ≤ greatest := by
  have inside : used ⊆ Finset.Icc 1 greatest := by
    intro n member
    rw [Finset.mem_Icc]
    exact allotted.within n ((allotted.mem n).1 member)
  have few := Finset.card_le_card inside
  rwa [allotted.card, Nat.card_Icc, Nat.add_sub_cancel] at few

/-- There is a number for one holder more. -/
theorem Allotted.exists_next (allotted : Allotted greatest held used) (room : held.length < greatest) :
    ∃ i, next greatest used = some i := by
  rw [← Option.ne_none_iff_exists', Ne, next_eq_none]
  intro full
  have many := Finset.card_le_card full
  rw [allotted.card, Nat.card_Icc] at many
  omega

theorem Allotted.take (allotted : Allotted greatest held used) (free : next greatest used = some i) :
    Allotted greatest (i :: held) (insert i used) := by
  obtain ⟨positive, small, unused⟩ := next_eq_some free
  constructor
  · exact List.nodup_cons.2 ⟨fun member => unused ((allotted.mem i).2 member), allotted.distinct⟩
  · exact List.forall_mem_cons.2 ⟨⟨positive, small⟩, allotted.within⟩
  · rw [allotted.exact, List.toFinset_cons]

theorem Allotted.giveBack (allotted : Allotted greatest held used) {k : Nat} (holder : held[k]? = some i) :
    Allotted greatest (held.eraseIdx k) (used.erase i) := by
  obtain ⟨inside, rfl⟩ := List.getElem?_eq_some_iff.1 holder
  constructor
  · exact allotted.distinct.eraseIdx k
  · exact fun n member => allotted.within n (List.mem_of_mem_eraseIdx member)
  · rw [← allotted.distinct.erase_getElem k inside, allotted.exact]
    ext n
    simp only [Finset.mem_erase, List.mem_toFinset, allotted.distinct.mem_erase_iff]

end

end GtpLibrary.Lib.Numbers

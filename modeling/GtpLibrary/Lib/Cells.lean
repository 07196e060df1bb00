import Mathlib.Data.List.Find
import Mathlib.Tactic.Common

/-!
# Cells that are written one at a time

A store is read and written by keys. Where a write changes the cell of its key and no other,
a cell holds the value of the last write to it, after any sequence of writes.
-/

namespace GtpLibrary.Lib

variable {Key Value Store : Type} [DecidableEq Key]

/-- The value of the last write to a key. -/
def lastWrite : List (Key × Value) → Key → Option Value
  | [], _ => none
  | (key, value) :: later, k => (lastWrite later k).or (if key = k then some value else none)

section
variable {writes : List (Key × Value)} {k : Key} {v : Value}

theorem mem_of_lastWrite (written : lastWrite writes k = some v) : (k, v) ∈ writes := by
  induction writes with
  | nil => cases written
  | cons write writes ih =>
    rw [lastWrite, Option.or_eq_some_iff] at written
    rcases written with later | ⟨-, here⟩
    · exact List.mem_cons_of_mem _ (ih later)
    · split_ifs at here with same
      cases here
      exact same ▸ List.mem_cons_self

theorem lastWrite_eq_none_iff : lastWrite writes k = none ↔ k ∉ writes.map Prod.fst := by
  induction writes with
  | nil => simp [lastWrite]
  | cons write writes ih =>
    have here : (if write.1 = k then some write.2 else none) = none ↔ k ≠ write.1 := by
      by_cases same : write.1 = k
      · rw [if_pos same]
        exact iff_of_false (Option.some_ne_none _) fun other => other same.symm
      · rw [if_neg same]
        exact iff_of_true rfl (Ne.symm same)
    rw [lastWrite, Option.or_eq_none_iff, ih, here, List.map_cons, List.mem_cons, not_or, and_comm]

/-- Where no key is written twice, every write is the last one. -/
theorem lastWrite_of_nodup (distinct : (writes.map Prod.fst).Nodup) (member : (k, v) ∈ writes) :
    lastWrite writes k = some v := by
  induction writes with
  | nil => cases member
  | cons write writes ih =>
    rw [List.map_cons, List.nodup_cons] at distinct
    rcases List.mem_cons.1 member with rfl | later
    · rw [lastWrite, lastWrite_eq_none_iff.2 distinct.1, if_pos rfl]
      rfl
    · rw [lastWrite, ih distinct.2 later]
      rfl

/-- Then the first write is the last one, too. -/
theorem find?_eq_lastWrite (distinct : (writes.map Prod.fst).Nodup) (k : Key) :
    (writes.find? fun write => write.1 = k).map Prod.snd = lastWrite writes k := by
  induction writes with
  | nil => rfl
  | cons write writes ih =>
    rw [List.map_cons, List.nodup_cons] at distinct
    rw [List.find?_cons, lastWrite]
    by_cases same : write.1 = k
    · rw [decide_eq_true same, lastWrite_eq_none_iff.2 (same ▸ distinct.1), if_pos same]
      rfl
    · rw [decide_eq_false same, if_neg same, Option.or_none]
      exact ih distinct.2

/-- **The law of independent cells**: what is read is the last write to the cell, or the original
content. -/
theorem read_foldl {read : Store → Key → Value} {write : Store → Key × Value → Store}
    (law : ∀ s k v j, read (write s (k, v)) j = if k = j then v else read s j) (writes : List (Key × Value))
    (s : Store) (j : Key) : read (writes.foldl write s) j = (lastWrite writes j).getD (read s j) := by
  induction writes generalizing s with
  | nil => rfl
  | cons first writes ih =>
    obtain ⟨k, v⟩ := first
    rw [List.foldl_cons, ih, law, lastWrite]
    cases lastWrite writes j with
    | some later => rfl
    | none => split_ifs <;> rfl

end

end GtpLibrary.Lib

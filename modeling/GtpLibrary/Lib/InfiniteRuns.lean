import Mathlib.Data.Seq.Basic
import GtpLibrary.Lib.Runs

/-!
# Finite and infinite runs

The labels of a run are a sequence, finite or not. What is said of such a run is said of the states
that its beginnings lead to. `exists_goal_of_rank` is the rule for what has to happen in an
infinite run: a rank that falls until it does.
-/

namespace GtpLibrary.Lib

open Stream'

variable {State Label : Type}

/-- Each label is enabled in its turn. -/
def Enabled (step : State → Label → Option State) (s : State) (labels : Seq Label) : Prop :=
  ∀ n, (run step s (labels.take n)).isSome

section
variable {step : State → Label → Option State} {s t : State} {labels : Seq Label} {label : Label} {n : Nat}

theorem take_succ (labels : Seq Label) (n : Nat) : labels.take (n + 1) = labels.take n ++ (labels.get? n).toList := by
  induction n generalizing labels with
  | zero =>
    cases labels with
    | nil => rfl
    | cons label labels => rfl
  | succ n ih =>
    cases labels with
    | nil => rfl
    | cons label labels => rw [Seq.take_succ_cons, ih labels, Seq.take_succ_cons, Seq.get?_cons_succ, List.cons_append]

theorem mem_of_mem_take (member : label ∈ labels.take n) : label ∈ labels := by
  obtain ⟨i, there⟩ := List.mem_iff_getElem?.1 member
  rw [Seq.getElem?_take] at there
  split_ifs at there
  exact Seq.get?_mem there

theorem run_take_succ (there : labels.get? n = some label) (ran : run step s (labels.take n) = some t) :
    run step s (labels.take (n + 1)) = step t label := by
  rw [take_succ, there, run_append, ran]
  show (step t label).bind some = step t label
  exact Option.bind_fun_some _

theorem take_ofList (list : List Label) (n : Nat) : (Seq.ofList list).take n = list.take n := by
  induction n generalizing list with
  | zero => rw [Seq.take_zero, List.take_zero]
  | succ n ih =>
    cases list with
    | nil => rfl
    | cons label list => rw [Seq.ofList_cons, Seq.take_succ_cons, ih, List.take_succ_cons]

/-- A list that can be taken to its end. -/
theorem enabled_ofList {list : List Label} (ran : run step s list = some t) : Enabled step s (Seq.ofList list) := by
  intro n
  rw [take_ofList]
  rw [← List.take_append_drop n list, run_append] at ran
  obtain ⟨u, begun, -⟩ := Option.bind_eq_some_iff.1 ran
  exact Option.isSome_iff_exists.2 ⟨u, begun⟩

/-- Where each step that does not reach a goal lowers a rank, an infinite run reaches the goal, from
any of its states on. -/
theorem exists_goal_of_rank {Goal : State → Prop} (rank : State → Nat)
    (falls : ∀ {s t label}, ¬ Goal s → step s label = some t → Goal t ∨ rank t < rank s)
    (infinite : ¬ labels.Terminates) (enabled : Enabled step s labels) (n : Nat) :
    ∃ m ≥ n, ∃ t, run step s (labels.take m) = some t ∧ Goal t := by
  obtain ⟨t, ran⟩ := Option.isSome_iff_exists.1 (enabled n)
  induction h : rank t using Nat.strongRecOn generalizing n t with
  | ind r ih =>
    by_cases goal : Goal t
    · exact ⟨n, le_rfl, t, ran, goal⟩
    · obtain ⟨label, there⟩ := Option.isSome_iff_exists.1 (Seq.not_terminates_iff.1 infinite n)
      obtain ⟨u, later⟩ := Option.isSome_iff_exists.1 (enabled (n + 1))
      have taken : step t label = some u := (run_take_succ there ran).symm.trans later
      rcases falls goal taken with reached | less
      · exact ⟨n + 1, Nat.le_succ n, u, later, reached⟩
      · obtain ⟨m, after, reached⟩ := ih (rank u) (h ▸ less) (n + 1) u later rfl
        exact ⟨m, by omega, reached⟩

end

end GtpLibrary.Lib

import GtpLibrary.Lib.Runs

/-!
# Runs that end

A rank that each step lowers, but for some labels that may raise it by a fixed amount, bounds the
length of every run by the number of these labels. Where a goal is out of reach only in states that
can lower their rank, it can be reached from everywhere.
-/

namespace GtpLibrary.Lib

variable {State Label : Type} {step : State → Label → Option State} {s t : State} {labels : List Label}

theorem run_length_add_rank_le (Inv : State → Prop) (rank : State → Nat) (raises : Label → Bool) (amount : Nat)
    (keep : ∀ {s t label}, Inv s → step s label = some t → Inv t)
    (falls : ∀ {s t label}, Inv s → step s label = some t →
      rank t + 1 ≤ rank s + if raises label then amount + 1 else 0)
    (start : Inv s) (ran : run step s labels = some t) :
    labels.length + rank t ≤ rank s + (amount + 1) * labels.countP raises := by
  induction labels generalizing s with
  | nil =>
    rw [run_nil, Option.some.injEq] at ran
    rw [ran, List.countP_nil, List.length_nil]
    omega
  | cons label labels ih =>
    obtain ⟨next, taken, ran⟩ := run_cons_eq_some.1 ran
    have later := ih (keep start taken) ran
    have first := falls start taken
    rw [List.countP_cons, List.length_cons, Nat.mul_add]
    cases raised : raises label
    · rw [raised] at first
      simp only [Bool.false_eq_true, if_false] at first ⊢
      omega
    · rw [raised] at first
      simp only [if_true] at first ⊢
      omega

theorem exists_run_of_rank (Inv Goal : State → Prop) (rank : State → Nat)
    (keep : ∀ {s t label}, Inv s → step s label = some t → Inv t)
    (advances : ∀ {s}, Inv s → ¬ Goal s → ∃ label t, step s label = some t ∧ rank t < rank s)
    (start : Inv s) : ∃ labels t, run step s labels = some t ∧ Goal t := by
  induction h : rank s using Nat.strongRecOn generalizing s with
  | ind r ih =>
    by_cases goal : Goal s
    · exact ⟨[], s, rfl, goal⟩
    · obtain ⟨label, next, taken, less⟩ := advances start goal
      obtain ⟨labels, t, ran, reached⟩ := ih (rank next) (h ▸ less) (keep start taken) rfl
      exact ⟨label :: labels, t, run_cons_eq_some.2 ⟨next, taken, ran⟩, reached⟩

end GtpLibrary.Lib

import Mathlib.Data.List.Basic

/-!
# Logs

A log grows at its end. `Sentence` says that each of its entries was permitted by the ones in front
of it.
-/

namespace GtpLibrary.Lib

variable {Entry : Type} {permitted : List Entry → Entry → Prop} {log : List Entry} {entry : Entry}

def Sentence (permitted : List Entry → Entry → Prop) (log : List Entry) : Prop :=
  ∀ front entry back, log = front ++ entry :: back → permitted front entry

theorem Sentence.nil : Sentence permitted [] := by
  intro front entry back split
  simp at split

theorem sentence_concat : Sentence permitted (log ++ [entry]) ↔ Sentence permitted log ∧ permitted log entry := by
  constructor
  · intro sentence
    refine ⟨?_, sentence log entry [] rfl⟩
    rintro front earlier back rfl
    exact sentence front earlier (back ++ [entry]) (by simp)
  · rintro ⟨sentence, last⟩ front other back split
    rcases List.eq_nil_or_concat back with rfl | ⟨back, final, rfl⟩
    · obtain ⟨rfl, ⟨⟩⟩ := List.append_inj' split rfl
      exact last
    · rw [List.concat_eq_append, ← List.cons_append, ← List.append_assoc] at split
      obtain ⟨inside, -⟩ := List.append_inj' split rfl
      exact sentence front other back inside

end GtpLibrary.Lib

import Mathlib.Data.List.Forall2

/-!
# Lists of checks

A loop that leaves its function at the first bad element is `List.mapM` in `Except`. A
result stands for one result of each element; an error is that of some element.
-/

namespace GtpLibrary.Lib

variable {α β ε : Type} {f : α → Except ε β} {items : List α}

theorem mapM_ok {results : List β} (ok : items.mapM f = .ok results) :
    List.Forall₂ (fun item result => f item = .ok result) items results := by
  induction items generalizing results with
  | nil =>
    cases ok
    exact .nil
  | cons item items ih =>
    simp only [List.mapM_cons, bind, Except.bind, pure, Except.pure] at ok
    split at ok
    · cases ok
    · rename_i result first
      split at ok
      · cases ok
      · rename_i rest later
        cases ok
        exact .cons first (ih later)

theorem mapM_error {error : ε} (failed : items.mapM f = .error error) :
    ∃ item ∈ items, f item = .error error := by
  induction items with
  | nil => cases failed
  | cons item items ih =>
    simp only [List.mapM_cons, bind, Except.bind, pure, Except.pure] at failed
    split at failed
    · rename_i first
      cases failed
      exact ⟨item, List.mem_cons_self .., first⟩
    · split at failed
      · rename_i later
        cases failed
        obtain ⟨item', member, same⟩ := ih later
        exact ⟨item', List.mem_cons_of_mem _ member, same⟩
      · cases failed

theorem mapM_eq_some_iff {g : α → Option β} {results : List β} :
    items.mapM g = some results ↔ List.Forall₂ (fun item result => g item = some result) items results := by
  induction items generalizing results with
  | nil =>
    rw [List.mapM_nil, List.forall₂_nil_left_iff]
    exact ⟨fun same => (Option.some.inj same).symm, fun same => by rw [same]; rfl⟩
  | cons item items ih =>
    rw [List.mapM_cons, List.forall₂_cons_left_iff]
    simp only [Option.bind_eq_bind, Option.bind_eq_some_iff, Option.pure_def, Option.some.injEq, ih]
    constructor
    · rintro ⟨result, first, rest, later, rfl⟩
      exact ⟨result, rest, first, later, rfl⟩
    · rintro ⟨result, rest, first, later, rfl⟩
      exact ⟨result, first, rest, later, rfl⟩

/-- Two checks with the same results. -/
theorem exists_results_iff {g h : α → Option β} :
    (∃ results, List.Forall₂ (fun item result => g item = some result) items results ∧
      List.Forall₂ (fun item result => h item = some result) items results) ↔
    ∀ item ∈ items, ∃ result, g item = some result ∧ h item = some result := by
  induction items with
  | nil => exact ⟨fun _ _ member => absurd member List.not_mem_nil, fun _ => ⟨[], .nil, .nil⟩⟩
  | cons item items ih =>
    rw [List.forall_mem_cons, ← ih]
    constructor
    · rintro ⟨results, first, second⟩
      cases first with
      | cons g_item g_rest =>
        cases second with
        | cons h_item h_rest => exact ⟨⟨_, g_item, h_item⟩, ⟨_, g_rest, h_rest⟩⟩
    · rintro ⟨⟨result, g_item, h_item⟩, results, g_rest, h_rest⟩
      exact ⟨result :: results, .cons g_item g_rest, .cons h_item h_rest⟩

/-- A loop whose checks all pass gets through. -/
theorem exists_mapM_ok (each : ∀ item ∈ items, ∃ result, f item = .ok result) :
    ∃ results, items.mapM f = .ok results := by
  cases run : items.mapM f with
  | ok results => exact ⟨results, rfl⟩
  | error error =>
    obtain ⟨item, member, failed⟩ := mapM_error run
    obtain ⟨result, passed⟩ := each item member
    rw [passed] at failed
    cases failed

theorem exists_of_mem {R : α → β → Prop} {results : List β} (all : List.Forall₂ R items results) {item : α}
    (member : item ∈ items) : ∃ result ∈ results, R item result := by
  induction all with
  | nil => cases member
  | cons r _ ih =>
    rcases List.mem_cons.1 member with rfl | member
    · exact ⟨_, List.mem_cons_self .., r⟩
    · obtain ⟨result, there, r⟩ := ih member
      exact ⟨result, List.mem_cons_of_mem _ there, r⟩

/-- Two loops over the same elements, side by side. -/
theorem forall₂_side_by_side {γ : Type} {R : α → β → Prop} {S : α → γ → Prop} {bs : List β} {cs : List γ}
    (first : List.Forall₂ R items bs) (second : List.Forall₂ S items cs) :
    List.Forall₂ (fun item pair => R item pair.1 ∧ S item pair.2) items (bs.zip cs) := by
  induction first generalizing cs with
  | nil => exact .nil
  | cons r _ ih =>
    cases second with
    | cons s rest => exact .cons ⟨r, s⟩ (ih rest)

/-- Two loops over the same elements that count them. -/
theorem forall₂_mapIdx {γ : Type} {R : β → γ → Prop} {f : Nat → α → β} {g : Nat → α → γ}
    (each : ∀ i item, f i item ∈ items.mapIdx f → R (f i item) (g i item)) :
    List.Forall₂ R (items.mapIdx f) (items.mapIdx g) := by
  induction items generalizing f g with
  | nil => exact .nil
  | cons item items ih =>
    rw [List.mapIdx_cons] at each
    rw [List.mapIdx_cons, List.mapIdx_cons]
    have later := ih fun i other member => each (i + 1) other (List.mem_cons_of_mem _ member)
    exact .cons (each 0 item (List.mem_cons_self ..)) later

end GtpLibrary.Lib

import GtpLibrary.Lib.Runs

/-!
# Systems side by side

A system that has another one as a component, a system that goes step by step with another one, and a
reader that takes what is new of a text that grows at its end.
-/

namespace GtpLibrary.Lib

variable {State Label Part Event Symbol : Type}

/-! ## Runs of the component -/

section
variable {step : State → Label → Option State} {move : Part → Event → Option Part} {part : State → Part}
  {event : Label → Option Event} {s t : State}

/-- A run of the system is one of the component, as far as a relation between them tells, where each step is one of
the component's or leaves it. -/
theorem run_component_rel {R : State → Part → Prop} {p : Part}
    (moves : ∀ {s p label t}, R s p → step s label = some t → ∃ q, run move p (event label).toList = some q ∧ R t q)
    {labels : List Label} (start : R s p) (ran : run step s labels = some t) :
    ∃ q, run move p (labels.filterMap event) = some q ∧ R t q := by
  induction labels generalizing s p with
  | nil =>
    cases ran
    exact ⟨p, rfl, start⟩
  | cons label labels ih =>
    obtain ⟨next, taken, later⟩ := run_cons_eq_some.1 ran
    obtain ⟨q, moved, related⟩ := moves start taken
    obtain ⟨last, rest, ended⟩ := ih related later
    refine ⟨last, ?_, ended⟩
    cases kind : event label with
    | none =>
      rw [kind, Option.toList_none, run_nil, Option.some.injEq] at moved
      rwa [List.filterMap_cons_none kind, moved]
    | some e =>
      rw [kind, Option.toList_some] at moved
      rw [List.filterMap_cons_some kind, ← List.singleton_append, run_append, moved, Option.bind_some, rest]

theorem run_component
    (moves : ∀ {s t label}, step s label = some t → run move (part s) (event label).toList = some (part t))
    {labels : List Label} (ran : run step s labels = some t) :
    run move (part s) (labels.filterMap event) = some (part t) := by
  obtain ⟨_, ran', rfl⟩ := run_component_rel (R := fun s p => p = part s)
    (fun same taken => ⟨_, same ▸ moves taken, rfl⟩) rfl ran
  exact ran'

/-- What the component can do, the system can do. -/
theorem run_of_component (put : State → Part → State) {label : Event → Label}
    (moves : ∀ {s e p}, move (part s) e = some p → step s (label e) = some (put s p))
    (there : ∀ s p, part (put s p) = p) (again : ∀ s p q, put (put s p) q = put s q) (same : ∀ s, put s (part s) = s)
    {events : List Event} {p : Part} (ran : run move (part s) events = some p) :
    run step s (events.map label) = some (put s p) := by
  induction events generalizing s with
  | nil =>
    cases ran
    rw [same]
    rfl
  | cons e events ih =>
    obtain ⟨next, taken, later⟩ := run_cons_eq_some.1 ran
    rw [List.map_cons, run_cons, moves taken, Option.bind_some]
    rw [← there s next] at later
    rw [ih later, again]

end

/-! ## Step by step -/

theorem rel_imp {Other : Type} {R R' : State → Other → Prop} (imp : ∀ {s o}, R s o → R' s o) {s : Option State}
    {o : Option Other} (related : Option.Rel R s o) : Option.Rel R' s o := by
  cases related with
  | some same => exact .some (imp same)
  | none => exact .none

/-- Systems that correspond step by step correspond along a run, and come to a stop together. -/
theorem run_rel {Other : Type} {step : State → Label → Option State} {move : Other → Label → Option Other}
    {R : State → Other → Prop} (steps : ∀ s o label, R s o → Option.Rel R (step s label) (move o label))
    {s : State} {o : Other} (start : R s o) (labels : List Label) : Option.Rel R (run step s labels) (run move o labels) := by
  induction labels generalizing s o with
  | nil => exact .some start
  | cons label labels ih =>
    rw [run_cons, run_cons]
    cases h : step s label with
    | none =>
      have stop := h ▸ steps _ _ label start
      cases h' : move o label with
      | none => exact .none
      | some _ => rw [h'] at stop; cases stop
    | some t =>
      have next := h ▸ steps _ _ label start
      cases h' : move o label with
      | none => rw [h'] at next; cases next
      | some u =>
        rw [h'] at next
        cases next with
        | some related => exact ih related

/-- A system that another one follows step by step is followed along a run. -/
theorem run_follows {Other : Type} {step : State → Label → Option State} {move : Other → Label → Option Other}
    {R : State → Other → Prop} (steps : ∀ {s o label t}, R s o → step s label = some t → ∃ p, move o label = some p ∧ R t p)
    {s t : State} {o : Other} (start : R s o) {labels : List Label} (ran : run step s labels = some t) :
    ∃ p, run move o labels = some p ∧ R t p := by
  have moves : ∀ {s o label t}, R s o → step s label = some t → ∃ p, run move o (some label).toList = some p ∧ R t p := by
    intro s o label t same taken
    obtain ⟨p, moved, related⟩ := steps same taken
    exact ⟨p, by rw [Option.toList_some, run_cons, moved]; rfl, related⟩
  obtain ⟨p, went, related⟩ := run_component_rel moves start ran
  exact ⟨p, by rwa [List.filterMap_some] at went, related⟩

/-! ## Reading what is new -/

/-- What was taken of a text is its front, up to the position that is remembered. -/
structure CaughtUp (updates : List (List Symbol)) (seek : Nat) (text : List Symbol) : Prop where
  within : seek ≤ text.length
  taken : updates.flatten = text.take seek

section
variable {updates : List (List Symbol)} {seek : Nat} {text more : List Symbol}

theorem CaughtUp.start (text : List Symbol) : CaughtUp [] 0 text where
  within := Nat.zero_le _
  taken := rfl

/-- The text may grow behind the position. -/
theorem CaughtUp.grows (caught : CaughtUp updates seek text) (grown : text <+: more) : CaughtUp updates seek more where
  within := Nat.le_trans caught.within grown.length_le
  taken := by
    obtain ⟨rest, rfl⟩ := grown
    rw [List.take_append_of_le_length caught.within, caught.taken]

theorem CaughtUp.take (caught : CaughtUp updates seek text) :
    CaughtUp (updates ++ [text.drop seek]) text.length text where
  within := Nat.le_refl _
  taken := by
    rw [List.flatten_append, List.flatten_singleton, caught.taken, List.take_append_drop, List.take_length]

theorem CaughtUp.infix (caught : CaughtUp updates seek text) : updates.flatten <+: text :=
  caught.taken ▸ List.take_prefix seek text

end

end GtpLibrary.Lib

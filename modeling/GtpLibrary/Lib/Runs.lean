import Mathlib.Data.List.Basic

/-!
# Runs of a step function

A system is a function from a state and a label to the next state, without a value
where the label is not enabled; what the environment chooses is part of the label.
`Along` says of a run that each of its steps meets a condition, and `Along.invariant`
is the rule all the run theorems of this development go through.
-/

namespace GtpLibrary.Lib

variable {State Label : Type}

/-- The state after a list of labels. -/
def run (step : State → Label → Option State) : State → List Label → Option State
  | s, [] => some s
  | s, label :: labels => (step s label).bind fun t => run step t labels

/-- Each step of the run from `s` is taken in a state that meets `ok` with its label. -/
def Along (step : State → Label → Option State) (ok : State → Label → Prop) : State → List Label → Prop
  | _, [] => True
  | s, label :: labels => ok s label ∧ ∀ t ∈ step s label, Along step ok t labels

section
variable {step : State → Label → Option State} {ok : State → Label → Prop} {Inv : State → Prop}
  {s t u : State} {label : Label} {labels more : List Label}

@[simp] theorem run_nil : run step s [] = some s := rfl

theorem run_cons : run step s (label :: labels) = (step s label).bind fun t => run step t labels := rfl

theorem run_cons_eq_some :
    run step s (label :: labels) = some u ↔ ∃ t, step s label = some t ∧ run step t labels = some u := by
  rw [run_cons, Option.bind_eq_some_iff]

theorem run_append : run step s (labels ++ more) = (run step s labels).bind fun t => run step t more := by
  induction labels generalizing s with
  | nil => rfl
  | cons label labels ih =>
    rw [List.cons_append, run_cons, run_cons, Option.bind_assoc]
    apply congrArg
    funext t
    exact ih

theorem along_cons (taken : step s label = some t) :
    Along step ok s (label :: labels) ↔ ok s label ∧ Along step ok t labels := by
  rw [Along, taken]
  simp only [Option.mem_def, Option.some.injEq, forall_eq']

theorem Along.of_all (all : ∀ s label, ok s label) : Along step ok s labels := by
  induction labels generalizing s with
  | nil => trivial
  | cons label labels ih => exact ⟨all s label, fun t _ => ih⟩

theorem along_append : Along step ok s (labels ++ more) ↔
    Along step ok s labels ∧ ∀ t, run step s labels = some t → Along step ok t more := by
  induction labels generalizing s with
  | nil => simp [Along, run]
  | cons label labels ih =>
    rw [List.cons_append, Along, Along, and_assoc]
    refine and_congr_right fun _ => ?_
    constructor
    · intro along
      refine ⟨fun next taken => (ih.1 (along next taken)).1, ?_⟩
      intro t ran
      obtain ⟨next, taken, ran⟩ := run_cons_eq_some.1 ran
      exact (ih.1 (along next taken)).2 t ran
    · rintro ⟨front, back⟩ next taken
      exact ih.2 ⟨front next taken, fun t ran => back t (run_cons_eq_some.2 ⟨next, taken, ran⟩)⟩

/-- What every step that meets the condition keeps, the run keeps. -/
theorem Along.invariant (along : Along step ok s labels)
    (keep : ∀ {s t label}, Inv s → ok s label → step s label = some t → Inv t)
    (start : Inv s) (ran : run step s labels = some t) : Inv t := by
  induction labels generalizing s with
  | nil =>
    rw [run_nil, Option.some.injEq] at ran
    exact ran ▸ start
  | cons label labels ih =>
    obtain ⟨next, taken, ran⟩ := run_cons_eq_some.1 ran
    exact ih (along.2 next taken) (keep start along.1 taken) ran

variable (Inv) in
/-- Two conditions that agree where the invariant holds. -/
theorem along_congr {other : State → Label → Prop} (same : ∀ {s label}, Inv s → (ok s label ↔ other s label))
    (keep : ∀ {s t label}, Inv s → ok s label → step s label = some t → Inv t) (start : Inv s) :
    Along step ok s labels ↔ Along step other s labels := by
  induction labels generalizing s with
  | nil => exact Iff.rfl
  | cons label labels ih =>
    constructor
    · rintro ⟨first, later⟩
      exact ⟨(same start).1 first, fun t taken => (ih (keep start first taken)).1 (later t taken)⟩
    · rintro ⟨first, later⟩
      have first' := (same start).2 first
      exact ⟨first', fun t taken => (ih (keep start first' taken)).2 (later t taken)⟩

variable (Inv) in
/-- What every step keeps, every run keeps. -/
theorem run_invariant (keep : ∀ {s t label}, Inv s → step s label = some t → Inv t) (start : Inv s)
    (ran : run step s labels = some t) : Inv t := by
  have always : Along step (fun _ _ => True) s labels := .of_all fun _ _ => trivial
  exact always.invariant (fun inv _ taken => keep inv taken) start ran

variable (Inv) in
/-- A property that each step keeps exactly under the condition, and never brings back. -/
theorem along_iff_of_step {Good : State → Prop}
    (each : ∀ {s t label}, Inv s → step s label = some t → (Good t ↔ Good s ∧ ok s label))
    (keep : ∀ {s t label}, Inv s → step s label = some t → Inv t) (start : Inv s)
    (ran : run step s labels = some t) : Good t ↔ Good s ∧ Along step ok s labels := by
  induction labels generalizing s with
  | nil =>
    rw [run_nil, Option.some.injEq] at ran
    rw [ran]
    exact (and_iff_left trivial).symm
  | cons label labels ih =>
    obtain ⟨next, taken, ran⟩ := run_cons_eq_some.1 ran
    rw [ih (keep start taken) ran, each start taken, and_assoc, along_cons taken]

theorem Along.mono {other : State → Label → Prop} (along : Along step ok s labels)
    (weaker : ∀ s label, ok s label → other s label) : Along step other s labels := by
  induction labels generalizing s with
  | nil => trivial
  | cons label labels ih => exact ⟨weaker s label along.1, fun t taken => ih (along.2 t taken)⟩

/-- A condition on the labels alone, of a run that takes them all. -/
theorem along_labels_iff {only : Label → Prop} (ran : run step s labels = some t) :
    Along step (fun _ label => only label) s labels ↔ ∀ label ∈ labels, only label := by
  induction labels generalizing s with
  | nil => exact iff_of_true trivial fun _ member => absurd member List.not_mem_nil
  | cons label labels ih =>
    obtain ⟨next, taken, ran⟩ := run_cons_eq_some.1 ran
    rw [List.forall_mem_cons, along_cons taken, ih ran]

/-- A condition on the labels alone. -/
theorem Along.of_labels {only : Label → Prop} (all : ∀ label ∈ labels, only label) :
    Along step (fun _ label => only label) s labels := by
  induction labels generalizing s with
  | nil => trivial
  | cons label labels ih =>
    refine ⟨all label (List.mem_cons_self ..), fun t _ => ih fun later member => ?_⟩
    exact all later (List.mem_cons_of_mem _ member)

end

/-! ## Total steps -/

section
variable {f : State → Label → State} {Inv : State → Prop} {s : State} {labels : List Label}

/-- What every step of the list keeps holds in all its states. -/
theorem scanl_invariant (keep : ∀ t, ∀ label ∈ labels, Inv t → Inv (f t label)) (start : Inv s) :
    ∀ t ∈ labels.scanl f s, Inv t := by
  induction labels generalizing s with
  | nil =>
    intro t member
    rw [List.scanl_nil, List.mem_singleton] at member
    exact member ▸ start
  | cons label labels ih =>
    intro t member
    rw [List.scanl_cons] at member
    rcases List.mem_cons.1 member with rfl | later
    · exact start
    · have first := keep s label (List.mem_cons_self ..) start
      exact ih (fun u other inside => keep u other (List.mem_cons_of_mem _ inside)) first t later

/-- A state in front of a label is what the labels before it lead to. -/
theorem mem_zip_scanl {t : State} {label : Label} :
    (t, label) ∈ (labels.scanl f s).zip labels ↔ ∃ front back, labels = front ++ label :: back ∧ t = front.foldl f s := by
  induction labels generalizing s with
  | nil => simp
  | cons first labels ih =>
    rw [List.scanl_cons, List.zip_cons_cons, List.mem_cons, ih]
    constructor
    · rintro (here | ⟨front, back, rfl, rfl⟩)
      · cases here
        exact ⟨[], labels, rfl, rfl⟩
      · exact ⟨first :: front, back, rfl, rfl⟩
    · rintro ⟨front, back, split, rfl⟩
      cases front with
      | nil =>
        cases split
        exact .inl rfl
      | cons other front =>
        cases split
        exact .inr ⟨front, back, rfl, rfl⟩

/-- The last state is one of them. -/
theorem foldl_mem_scanl (f : State → Label → State) (s : State) (labels : List Label) :
    labels.foldl f s ∈ labels.scanl f s := by
  induction labels generalizing s with
  | nil => simp
  | cons label labels ih =>
    rw [List.foldl_cons, List.scanl_cons]
    exact List.mem_cons_of_mem _ (ih _)

end

instance Along.decide (step : State → Label → Option State) (ok : State → Label → Prop)
    [each : ∀ s label, Decidable (ok s label)] (s : State) : ∀ labels, Decidable (Along step ok s labels)
  | [] => isTrue trivial
  | label :: labels =>
    match taken : step s label, each s label with
    | none, isTrue holds => isTrue ⟨holds, fun _ member => by rw [taken] at member; cases member⟩
    | some t, isTrue holds =>
      match Along.decide step ok t labels with
      | isTrue rest => isTrue ⟨holds, fun u member => by
          rw [taken] at member
          exact Option.mem_some_iff.1 member ▸ rest⟩
      | isFalse fails => isFalse fun along => fails (along.2 t (by rw [taken]; rfl))
    | _, isFalse fails => isFalse fun along => fails along.1

end GtpLibrary.Lib

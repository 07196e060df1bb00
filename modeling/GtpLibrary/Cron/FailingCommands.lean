import GtpLibrary.Cron.CrontabSecond

/-!
# A command that fails

The trap is set for `ERR`, too, so the first command that returns another status than 0 runs it:
the instance removes the pid file and ends. `lasts_iff` says that of an instance in the loop,
whatever else happens on the host.
-/

namespace GtpLibrary.Cron

open Lib

/-- Takes an instance out of the loop. -/
def Action.Leaves : Action → Prop
  | .signal | .kill => True
  | .command status | .sleep status => status ≠ 0
  | .trap | .write | .check | .exit => False

/-- A signal to the instance, or to its `sleep`. -/
def Action.Signals : Action → Prop
  | .signal | .kill => True
  | .sleep status => status ≠ 0
  | .command _ | .trap | .write | .check | .exit => False

/-- The instance takes no such action. -/
def Avoids (pid : Nat) (bad : Action → Prop) : Label → Prop
  | .start _ _ => True
  | .act p action => p = pid → ¬ bad action

/-- The instance leaves the pid file as it is. -/
def KeepsFile (pid : Nat) (s : Host) : Label → Prop
  | .start _ _ => True
  | .act p action => p = pid → ∀ t, step s (.act p action) = some t → t.pidFile = s.pidFile

/-- It sleeps and runs the command again, whatever the command returns. -/
def RunsAgain (pid : Nat) (s : Host) : Prop :=
  ∀ status, ∃ labels t, (∀ label ∈ labels, label = .act pid (.sleep 0)) ∧
    run step s (labels ++ [.act pid (.command status)]) = some t

section
variable {s t : Host} {pid : Nat} {i : Instance} {action : Action} {phase : Phase} {label : Label} {labels : List Label}

theorem Moves.inLoop_iff (moves : Moves i.arguments i.phase action phase) (inLoop : i.phase.InLoop) :
    phase.InLoop ↔ ¬ action.Leaves := by
  obtain ⟨arguments, before⟩ := i
  cases moves with
  | commandEnds | sleepEnds => exact iff_of_true trivial fun leaves => leaves rfl
  | commandFails fails | sleepFails fails => exact iff_of_false (fun inLoop => inLoop) (not_not_intro fails)
  | signal trapped | kill => exact iff_of_false (fun inLoop => inLoop) (not_not_intro trivial)
  | _ => exact inLoop.elim

/-- Behind the loop. -/
def Phase.Past : Phase → Prop
  | .exiting | .ended _ => True
  | _ => False

theorem Moves.past (moves : Moves i.arguments i.phase action phase) (past : i.phase.Past) : phase.Past := by
  obtain ⟨arguments, before⟩ := i
  cases moves with
  | signal trapped | exit | kill => trivial
  | _ => exact past.elim

theorem Moves.past_of_inLoop (moves : Moves i.arguments i.phase action phase) (inLoop : i.phase.InLoop) :
    phase.InLoop ∨ phase.Past := by
  obtain ⟨arguments, before⟩ := i
  cases moves with
  | commandEnds | sleepEnds => exact .inl trivial
  | commandFails fails | sleepFails fails | signal trapped | kill => exact .inr trivial
  | _ => exact inLoop.elim

theorem Moves.keepsFile (moves : Moves i.arguments i.phase action phase) (inLoop : i.phase.InLoop)
    (stays : ¬ action.Leaves) (pidFile : Option Nat) : pidFileAfter pidFile pid i action = pidFile := by
  obtain ⟨arguments, before⟩ := i
  cases moves with
  | commandEnds | sleepEnds => rfl
  | commandFails fails | sleepFails fails => exact absurd fails stays
  | signal trapped | kill => exact absurd trivial stays
  | _ => exact inLoop.elim

theorem is_iff {phases : Phase → Prop} (there : s.instances pid = some i) : s.Is phases pid ↔ phases i.phase := by
  constructor
  · rintro ⟨j, here, holds⟩
    exact Option.some.inj (here.symm.trans there) ▸ holds
  · exact fun holds => ⟨i, there, holds⟩

/-- In the loop, or behind it. -/
def Entered (pid : Nat) (s : Host) : Prop := s.Is (fun phase => phase.InLoop ∨ phase.Past) pid

theorem Entered.ne_of_start {p : Nat} {arguments : List (List Byte)} (entered : Entered pid s)
    (taken : step s (.start p arguments) = some t) : pid ≠ p := by
  rintro rfl
  exact not_is_of_free (start_of_step taken).1 entered

theorem Entered.step (entered : Entered pid s) (taken : step s label = some t) : Entered pid t := by
  cases label with
  | start p arguments =>
    have other := entered.ne_of_start taken
    obtain ⟨-, rfl⟩ := start_of_step taken
    exact is_put.2 (by rw [if_neg other]; exact entered)
  | act p action =>
    obtain ⟨i, phase, there, moves, rfl⟩ := act_of_step taken
    by_cases same : pid = p
    · subst same
      refine is_put.2 ?_
      rw [if_pos rfl]
      rcases (is_iff there).1 entered with inLoop | past
      · exact moves.past_of_inLoop inLoop
      · exact .inr (moves.past past)
    · exact is_put.2 (by rw [if_neg same]; exact entered)

/-- One step takes the instance out of the loop exactly where its action does. -/
theorem inLoop_step (entered : Entered pid s) (taken : step s label = some t) :
    t.Is Phase.InLoop pid ↔ s.Is Phase.InLoop pid ∧ Avoids pid Action.Leaves label := by
  cases label with
  | start p arguments =>
    have other := entered.ne_of_start taken
    obtain ⟨-, rfl⟩ := start_of_step taken
    rw [is_put, if_neg other]
    exact (and_iff_left trivial).symm
  | act p action =>
    obtain ⟨i, phase, there, moves, rfl⟩ := act_of_step taken
    rw [is_put]
    by_cases same : pid = p
    · subst same
      rw [if_pos rfl, is_iff there, Avoids, imp_iff_right rfl]
      rcases (is_iff there).1 entered with inLoop | past
      · exact (moves.inLoop_iff inLoop).trans (and_iff_right inLoop).symm
      · have apart : ∀ phase : Phase, phase.Past → ¬ phase.InLoop := by
          intro phase past inLoop
          cases phase with
          | exiting | ended code => exact inLoop
          | _ => exact past
        exact iff_of_false (apart _ (moves.past past)) fun both => apart _ past both.1
    · rw [if_neg same, Avoids]
      exact (and_iff_left fun eq => absurd eq.symm same).symm

theorem keepsFile_of_avoids (inLoop : s.Is Phase.InLoop pid) (avoids : Avoids pid Action.Leaves label) :
    KeepsFile pid s label := by
  cases label with
  | start p arguments => trivial
  | act p action =>
    rintro rfl t taken
    obtain ⟨i, phase, there, moves, rfl⟩ := act_of_step taken
    exact moves.keepsFile ((is_iff there).1 inLoop) (avoids rfl) s.pidFile

theorem runsAgain_of_inLoop (inLoop : s.Is Phase.InLoop pid) : RunsAgain pid s := by
  obtain ⟨⟨arguments, phase⟩, there, holds⟩ := inLoop
  intro status
  cases phase with
  | running =>
    exact ⟨[], _, nofun, run_cons_eq_some.2 ⟨_, step_act there rfl, rfl⟩⟩
  | sleeping =>
    exact ⟨[.act pid (.sleep 0)], _, fun label member => List.mem_singleton.1 member,
      run_cons_eq_some.2 ⟨_, step_act there rfl, run_cons_eq_some.2 ⟨_, step_act put_self rfl, rfl⟩⟩⟩
  | _ => exact holds.elim

theorem avoids_leaves_iff (unsignalled : ∀ label ∈ labels, Avoids pid Action.Signals label) :
    (∀ label ∈ labels, Avoids pid Action.Leaves label) ↔
      ∀ status, .act pid (.command status) ∈ labels → status = 0 := by
  constructor
  · intro avoids status member
    exact Decidable.not_not.1 (avoids _ member rfl)
  · intro zero label member
    cases label with
    | start p arguments => trivial
    | act p action =>
      rintro rfl
      cases action with
      | command status => exact not_not_intro (zero status member)
      | signal | kill | sleep status => exact unsignalled _ member rfl
      | trap | write | check | exit => exact id

/-- **An instance that no signal reaches stays in the loop exactly as long as the command succeeds.** -/
theorem lasts_iff (inLoop : s.Is Phase.InLoop pid) (ran : run step s labels = some t)
    (unsignalled : ∀ label ∈ labels, Avoids pid Action.Signals label) :
    (t.Is Phase.InLoop pid ∧ Along step (KeepsFile pid) s labels ∧ RunsAgain pid t) ↔
      ∀ status, .act pid (.command status) ∈ labels → status = 0 := by
  have entered : Entered pid s := by
    obtain ⟨i, there, inside⟩ := inLoop
    exact ⟨i, there, .inl inside⟩
  have stays : t.Is Phase.InLoop pid ↔ ∀ label ∈ labels, Avoids pid Action.Leaves label := by
    rw [along_iff_of_step (Entered pid) inLoop_step Entered.step entered ran, and_iff_right inLoop,
      along_labels_iff ran]
  rw [← avoids_leaves_iff unsignalled, ← stays]
  constructor
  · exact And.left
  · intro inLoop'
    refine ⟨inLoop', ?_, runsAgain_of_inLoop inLoop'⟩
    have avoids := (along_labels_iff ran).2 (stays.1 inLoop')
    have both : Along step (fun s label => Avoids pid Action.Leaves label ∧ KeepsFile pid s label) s labels := by
      refine (along_congr (fun s => s.Is Phase.InLoop pid) ?_ ?_ inLoop).1 avoids
      · intro s label inLoop
        exact (and_iff_left_of_imp fun avoids => keepsFile_of_avoids inLoop avoids).symm
      · intro s t label inLoop avoids taken
        obtain ⟨i, there, inside⟩ := inLoop
        exact (inLoop_step ⟨i, there, .inl inside⟩ taken).2 ⟨⟨i, there, inside⟩, avoids⟩
    exact both.mono fun _ _ => And.right

end

/-- `crontab_second.sh 1 false`. -/
def falseEverySecond : List (List Byte) := [text "1", text "false"]

theorem lasts_iff_twice : ∃ s t, s.Is Phase.InLoop 1 ∧
    run step s [.act 1 (.command 0), .start 2 falseEverySecond, .act 1 (.sleep 0), .act 1 (.command 0)] = some t ∧
      t.Is Phase.InLoop 1 ∧ RunsAgain 1 t := by
  obtain ⟨s, t, inLoop, ran⟩ : ∃ s t, s.Is Phase.InLoop 1 ∧
      run step s [.act 1 (.command 0), .start 2 falseEverySecond, .act 1 (.sleep 0), .act 1 (.command 0)] = some t :=
    ⟨Host.put .initial (some 1) 1 ⟨falseEverySecond, .running⟩, _, ⟨_, rfl, trivial⟩, rfl⟩
  have lasts := (lasts_iff inLoop ran (by simp [Avoids, Action.Signals])).2 (by simp)
  exact ⟨s, t, inLoop, ran, lasts.1, lasts.2.2⟩

/-- The first failure ends the instance. -/
theorem lasts_not_failing : ∃ s t,
    run step .initial [.start 1 falseEverySecond, .act 1 .trap, .act 1 .write, .act 1 .check] = some s ∧
      s.Is Phase.InLoop 1 ∧ run step s [.act 1 (.command 1)] = some t ∧ ¬ t.Is Phase.InLoop 1 ∧ t.pidFile = none := by
  refine ⟨_, _, rfl, ⟨_, rfl, trivial⟩, rfl, ?_, rfl⟩
  rintro ⟨i, there, inLoop⟩
  cases there
  exact inLoop

end GtpLibrary.Cron

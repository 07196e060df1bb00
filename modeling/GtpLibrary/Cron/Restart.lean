import GtpLibrary.Cron.CrontabSecond

/-!
# A dead instance and the next start

Every way out of the script but one runs the trap, which removes the pid file. A signal that no
trap catches leaves the file behind, and so does a restart of the machine. While another instance
is alive that does no harm, since its own end removes the file; but a file that no living
instance will remove stops every later start.
-/

namespace GtpLibrary.Cron

open Lib

/-- A step of an instance, a start, or a restart of the machine, which ends all processes and
leaves the files. -/
inductive Event
  | label (label : Label)
  | restart

def eventStep (s : Host) : Event → Option Host
  | .label label => step s label
  | .restart => some ⟨s.pidFile, fun _ => none⟩

/-- The process is there. -/
def Phase.Live : Phase → Prop
  | .ended _ => False
  | _ => True

/-- Where no instance is alive, a start with valid arguments gets past the test. -/
def NotBlocked (s : Host) : Prop :=
  (∀ q, ¬ s.Is Phase.Live q) → ∀ pid arguments, s.instances pid = none → checkArguments arguments = none →
    ∃ t, step s (.start pid arguments) = some t ∧ t.Is Phase.Waiting pid

/-- The machine is restarted, and the last living instance is killed, only while there is no pid file. -/
def Spared (s : Host) : Event → Prop
  | .label (.act pid .kill) => (∀ q ≠ pid, ¬ s.Is Phase.Live q) → s.pidFile = none
  | .restart => s.pidFile = none
  | _ => True

/-- Not all process ids are in use. -/
def Roomy (s : Host) : Prop := ∃ n, ∀ pid ≥ n, s.instances pid = none

section
variable {s t : Host} {event : Event}

theorem Roomy.initial : Roomy .initial := ⟨0, fun _ _ => rfl⟩

theorem Roomy.put (roomy : Roomy s) (pidFile : Option Nat) (pid : Nat) (i : Instance) :
    Roomy (s.put pidFile pid i) := by
  obtain ⟨n, free⟩ := roomy
  refine ⟨max n (pid + 1), fun q high => ?_⟩
  rw [put_other (by omega)]
  exact free q (by omega)

theorem Roomy.step (roomy : Roomy s) (taken : eventStep s event = some t) : Roomy t := by
  cases event with
  | restart =>
    cases taken
    exact ⟨0, fun _ _ => rfl⟩
  | label label =>
    cases label with
    | start pid arguments =>
      obtain ⟨-, rfl⟩ := start_of_step taken
      exact roomy.put ..
    | act pid action =>
      obtain ⟨i, phase, -, -, rfl⟩ := act_of_step taken
      exact roomy.put ..

/-- No pid file is what it takes. -/
theorem notBlocked_iff_file (roomy : Roomy s) :
    NotBlocked s ↔ ((∀ q, ¬ s.Is Phase.Live q) → s.pidFile = none) := by
  constructor
  · intro notBlocked dead
    obtain ⟨n, free⟩ := roomy
    obtain ⟨t, taken, waiting⟩ := notBlocked dead n [text "1", text "true"] (free n le_rfl) (by decide)
    obtain ⟨-, rfl⟩ := start_of_step taken
    cases file : s.pidFile with
    | none => rfl
    | some pid =>
      rw [is_put, if_pos rfl, file] at waiting
      exact waiting.elim
  · intro file dead pid arguments free _
    refine ⟨s.put s.pidFile pid ⟨arguments, .tested⟩, ?_, ?_⟩
    · simp only [step, free, file dead]
      rfl
    · rw [is_put, if_pos rfl]
      trivial

/-- Only a living process takes steps. -/
theorem live_of_next {i : Instance} {action : Action} {phase : Phase} (next : i.next action = some phase) :
    i.phase.Live := by
  obtain ⟨arguments, before⟩ := i
  cases before with
  | ended code => cases action <;> cases next
  | _ => trivial

theorem live_of_step {pid : Nat} {action : Action} (taken : step s (.act pid action) = some t) :
    s.Is Phase.Live pid := by
  simp only [step] at taken
  split at taken
  · cases taken
  · rename_i i there
    obtain ⟨phase, next, -⟩ := Option.map_eq_some_iff.1 taken
    exact ⟨i, there, live_of_next next⟩

/-- Whoever ends without being killed has removed the pid file. -/
theorem Moves.removes_of_ended {i : Instance} {action : Action} {phase : Phase}
    (moves : Moves i.arguments i.phase action phase) (ended : ¬ phase.Live) (other : action ≠ .kill)
    (pidFile : Option Nat) (pid : Nat) : pidFileAfter pidFile pid i action = none := by
  obtain ⟨arguments, before⟩ := i
  cases moves with
  | refuse bad => simp [pidFileAfter, Instance.removes, bad]
  | exit => rfl
  | kill => exact absurd rfl other
  | _ => exact absurd trivial ended

theorem Moves.ended_of_kill {arguments : List (List Byte)} {before phase : Phase}
    (moves : Moves arguments before .kill phase) : phase = .ended none := by
  cases moves with
  | kill => rfl

theorem dead_put {pidFile : Option Nat} {pid : Nat} {i : Instance} :
    (∀ q, ¬ (s.put pidFile pid i).Is Phase.Live q) ↔ ¬ i.phase.Live ∧ ∀ q ≠ pid, ¬ s.Is Phase.Live q := by
  constructor
  · intro dead
    refine ⟨fun live => dead pid (is_put.2 ?_), fun q other live => dead q (is_put.2 ?_)⟩
    · rw [if_pos rfl]
      exact live
    · rw [if_neg other]
      exact live
  · rintro ⟨own, others⟩ q live
    rw [is_put] at live
    by_cases same : q = pid
    · rw [if_pos same] at live
      exact own live
    · rw [if_neg same] at live
      exact others q same live

/-- What a file that nobody will remove depends on. -/
def Clear (s : Host) : Prop := (∀ q, ¬ s.Is Phase.Live q) → s.pidFile = none

theorem clear_start {pid : Nat} {arguments : List (List Byte)} (taken : step s (.start pid arguments) = some t) :
    Clear t ↔ Clear s := by
  obtain ⟨free, rfl⟩ := start_of_step taken
  cases file : s.pidFile with
  | none => exact iff_of_true (fun _ => rfl) fun _ => file
  | some holder =>
    have own : ¬ s.Is Phase.Live pid := not_is_of_free free
    unfold Clear
    rw [dead_put]
    apply imp_congr
    · constructor
      · rintro ⟨-, others⟩ q live
        by_cases same : q = pid
        · exact own (same ▸ live)
        · exact others q same live
      · exact fun dead => ⟨fun live => live.elim, fun q _ => dead q⟩
    · rw [file]
      rfl

theorem clear_act {pid : Nat} {action : Action} (taken : step s (.act pid action) = some t) :
    Clear t ↔ Clear s ∧ Spared s (.label (.act pid action)) := by
  have clear : Clear s := fun dead => absurd (live_of_step taken) (dead pid)
  obtain ⟨i, phase, there, moves, rfl⟩ := act_of_step taken
  rw [and_iff_right clear]
  by_cases killed : action = .kill
  · subst killed
    obtain rfl := moves.ended_of_kill
    unfold Clear
    rw [dead_put]
    exact imp_congr_left (and_iff_right id)
  · have spared : Spared s (.label (.act pid action)) := by
      cases action with
      | kill => exact absurd rfl killed
      | _ => trivial
    refine iff_of_true (fun dead => ?_) spared
    exact moves.removes_of_ended (dead_put.1 dead).1 killed s.pidFile pid

/-- One event blocks the next start exactly where it is not spared. -/
theorem clear_step (taken : eventStep s event = some t) : Clear t ↔ Clear s ∧ Spared s event := by
  cases event with
  | restart =>
    cases taken
    have dead : ∀ q, ¬ Host.Is ⟨s.pidFile, fun _ => none⟩ Phase.Live q := fun q => not_is_of_free rfl
    constructor
    · intro clear
      exact ⟨fun _ => clear dead, clear dead⟩
    · rintro ⟨-, file⟩ -
      exact file
  | label label =>
    cases label with
    | start pid arguments =>
      rw [clear_start taken]
      exact (and_iff_left trivial).symm
    | act pid action => exact clear_act taken

/-- **Exactly these events block the helper.** -/
theorem notBlocked_iff {events : List Event} (ran : run eventStep .initial events = some t) :
    NotBlocked t ↔ Along eventStep Spared .initial events := by
  have roomy : Roomy t := run_invariant Roomy (fun roomy taken => roomy.step taken) .initial ran
  have clear : Clear t ↔ Clear .initial ∧ Along eventStep Spared .initial events :=
    along_iff_of_step (fun _ => True) (fun _ taken => clear_step taken) (fun _ _ => trivial) trivial ran
  rw [notBlocked_iff_file roomy]
  exact clear.trans (and_iff_right fun _ => rfl)

end

/-- A trap has run in front of the restart. -/
theorem notBlocked_iff_signal : ∃ t, run eventStep .initial
    [.label (.start 1 [text "1", text "true"]), .label (.act 1 .trap), .label (.act 1 .write),
      .label (.act 1 .signal), .restart] = some t ∧ NotBlocked t := by
  obtain ⟨t, ran⟩ : ∃ t, run eventStep .initial
      [.label (.start 1 [text "1", text "true"]), .label (.act 1 .trap), .label (.act 1 .write),
        .label (.act 1 .signal), .restart] = some t := ⟨_, rfl⟩
  refine ⟨t, ran, (notBlocked_iff ran).2 ?_⟩
  refine (along_cons rfl).2 ⟨trivial, (along_cons rfl).2 ⟨trivial, ?_⟩⟩
  refine (along_cons rfl).2 ⟨trivial, (along_cons rfl).2 ⟨trivial, ?_⟩⟩
  exact (along_cons rfl).2 ⟨rfl, trivial⟩

/-- An instance is killed that has written the pid file. -/
theorem blocked_by_kill : ∃ t, run eventStep .initial
    [.label (.start 1 [text "1", text "true"]), .label (.act 1 .trap), .label (.act 1 .write),
      .label (.act 1 .kill)] = some t ∧ ¬ NotBlocked t := by
  refine ⟨_, rfl, fun notBlocked => ?_⟩
  have started := notBlocked (dead_put.2 ⟨fun live => live, ?_⟩) 2 [text "1", text "true"] rfl (by decide)
  · obtain ⟨t, taken, waiting⟩ := started
    obtain ⟨-, rfl⟩ := start_of_step taken
    rw [is_put, if_pos rfl] at waiting
    exact waiting
  · intro q other
    apply not_is_of_free
    rw [put_other other, put_other other, put_other other]
    rfl

end GtpLibrary.Cron

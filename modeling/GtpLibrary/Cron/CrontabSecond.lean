import Mathlib.Logic.Function.Basic
import GtpLibrary.Lib.Bytes
import GtpLibrary.Lib.Runs

/-!
# `crontab_second.sh`

Every start of the script is an instance with a process id. The test for the pid file, the
installation of the trap, the write of the pid file and each `rm` of the trap are steps of
their own, between which other instances run. A signal, and a command that fails, run the
trap, and its `exit` runs it once more as the `EXIT` trap.
-/

namespace GtpLibrary.Cron

open Lib

/-- Where an instance is in the script. -/
inductive Phase
  /-- Behind the test: there was no pid file. -/
  | tested
  /-- The trap is installed. -/
  | trapped
  /-- The pid file is written. -/
  | wrote
  /-- In the loop, in front of `$command`. -/
  | running
  /-- In the loop, in front of `sleep`. -/
  | sleeping
  /-- In the trap, in front of the `rm` of the `EXIT` trap. -/
  | exiting
  /-- Ended, with the return code where the script sets one. -/
  | ended (code : Option Nat)
  deriving DecidableEq

structure Instance where
  arguments : List (List Byte)
  phase : Phase
  deriving DecidableEq

/-- `[[ $number_of_seconds =~ ^[0-9]+$ ]]`. -/
def isNumber (s : List Byte) : Bool := s ≠ [] && s.all fun c => byte '0' ≤ c && c ≤ byte '9'

/-- The return code for bad arguments. -/
def checkArguments : List (List Byte) → Option Nat
  | numberOfSeconds :: _ :: _ => if isNumber numberOfSeconds then none else some 3
  | _ => some 2

/-- What an instance does, or what is done to it. -/
inductive Action
  | trap
  | write
  | check
  | command (status : Nat)
  | sleep (status : Nat)
  | signal
  | exit
  /-- A signal that no trap catches. -/
  | kill
  deriving DecidableEq

/-- The step runs the `rm` of the trap. -/
def Instance.removes (i : Instance) : Action → Bool
  | .signal | .exit => true
  | .check => (checkArguments i.arguments).isSome
  | .command status | .sleep status => status ≠ 0
  | .trap | .write | .kill => false

/-- The phase behind a step. -/
def Instance.next (i : Instance) (action : Action) : Option Phase :=
  match action, i.phase with
  | .trap, .tested => some .trapped
  | .write, .trapped => some .wrote
  | .check, .wrote =>
    match checkArguments i.arguments with
    | none => some .running
    | some code => some (.ended (some code))
  | .command status, .running => some (if status = 0 then .sleeping else .exiting)
  | .sleep status, .sleeping => some (if status = 0 then .running else .exiting)
  | .signal, .trapped | .signal, .wrote | .signal, .running | .signal, .sleeping | .signal, .exiting =>
    some .exiting
  | .exit, .exiting => some (.ended none)
  | .kill, .ended _ => none
  | .kill, _ => some (.ended none)
  | _, _ => none

/-- The pid file, with the process id in it, and the instances by process id. -/
structure Host where
  pidFile : Option Nat
  instances : Nat → Option Instance

inductive Label
  | start (pid : Nat) (arguments : List (List Byte))
  | act (pid : Nat) (action : Action)

/-- The pid file behind a step of an instance. -/
def pidFileAfter (pidFile : Option Nat) (pid : Nat) (i : Instance) (action : Action) : Option Nat :=
  if action = .write then some pid else if i.removes action then none else pidFile

/-- The host with an instance and a pid file changed. -/
def Host.put (s : Host) (pidFile : Option Nat) (pid : Nat) (i : Instance) : Host :=
  ⟨pidFile, Function.update s.instances pid (some i)⟩

def step (s : Host) : Label → Option Host
  | .start pid arguments =>
    match s.instances pid with
    | none =>
      -- `if [ -f $pid_file ]`
      let phase := if s.pidFile.isSome then .ended (some 1) else .tested
      some (s.put s.pidFile pid ⟨arguments, phase⟩)
    | some _ => none
  | .act pid action =>
    match s.instances pid with
    | none => none
    | some i => (i.next action).map fun phase =>
        s.put (pidFileAfter s.pidFile pid i action) pid { i with phase := phase }

/-- No instance was started yet. -/
def Host.initial : Host := ⟨none, fun _ => none⟩

/-- Inside the command loop. -/
def Phase.InLoop : Phase → Prop
  | .running | .sleeping => True
  | _ => False

/-- Past the test and in front of the write. -/
def Phase.Waiting : Phase → Prop
  | .tested | .trapped => True
  | _ => False

/-- The pid file stands for this instance. -/
def Phase.Holding : Phase → Prop
  | .wrote | .running | .sleeping => True
  | _ => False

/-- The instance with this process id is in such a phase. -/
def Host.Is (s : Host) (phases : Phase → Prop) (pid : Nat) : Prop :=
  ∃ i, s.instances pid = some i ∧ phases i.phase

theorem Phase.InLoop.holding {phase : Phase} (inLoop : phase.InLoop) : phase.Holding := by
  cases phase with
  | running | sleeping => trivial
  | _ => exact inLoop.elim

/-- The trap is installed and the script has not ended. -/
def Phase.Trapped : Phase → Prop
  | .trapped | .wrote | .running | .sleeping | .exiting => True
  | _ => False

/-- What a step does to an instance, by the step. -/
inductive Moves (arguments : List (List Byte)) : Phase → Action → Phase → Prop
  | trap : Moves arguments .tested .trap .trapped
  | write : Moves arguments .trapped .write .wrote
  | enter (valid : checkArguments arguments = none) : Moves arguments .wrote .check .running
  | refuse {code : Nat} (bad : checkArguments arguments = some code) :
      Moves arguments .wrote .check (.ended (some code))
  | commandEnds : Moves arguments .running (.command 0) .sleeping
  | commandFails {status : Nat} (fails : status ≠ 0) : Moves arguments .running (.command status) .exiting
  | sleepEnds : Moves arguments .sleeping (.sleep 0) .running
  | sleepFails {status : Nat} (fails : status ≠ 0) : Moves arguments .sleeping (.sleep status) .exiting
  | signal {phase : Phase} (trapped : phase.Trapped) : Moves arguments phase .signal .exiting
  | exit : Moves arguments .exiting .exit (.ended none)
  | kill {phase : Phase} : Moves arguments phase .kill (.ended none)

theorem Instance.moves {i : Instance} {action : Action} {phase : Phase} (next : i.next action = some phase) :
    Moves i.arguments i.phase action phase := by
  obtain ⟨arguments, before⟩ := i
  cases action with
  | trap | write | exit =>
    cases before <;> cases next
    constructor
  | check =>
    cases before with
    | wrote =>
      simp only [Instance.next] at next
      split at next
      · rename_i valid
        cases next
        exact .enter valid
      · rename_i bad
        cases next
        exact .refuse bad
    | _ => cases next
  | command status =>
    cases before with
    | running =>
      by_cases ok : status = 0
      · subst ok
        cases next
        exact .commandEnds
      · simp only [Instance.next, if_neg ok, Option.some.injEq] at next
        exact next ▸ .commandFails ok
    | _ => cases next
  | sleep status =>
    cases before with
    | sleeping =>
      by_cases ok : status = 0
      · subst ok
        cases next
        exact .sleepEnds
      · simp only [Instance.next, if_neg ok, Option.some.injEq] at next
        exact next ▸ .sleepFails ok
    | _ => cases next
  | signal =>
    cases before <;> cases next <;> exact .signal trivial
  | kill =>
    cases before <;> cases next <;> exact .kill

/-- Only an instance that waited goes on waiting, and its step leaves the pid file alone. -/
theorem Moves.waiting {i : Instance} {action : Action} {phase : Phase}
    (moves : Moves i.arguments i.phase action phase) (waiting : phase.Waiting) :
    i.phase.Waiting ∧ action ≠ .write ∧ i.removes action = false := by
  obtain ⟨arguments, before⟩ := i
  cases moves with
  | trap => exact ⟨trivial, nofun, rfl⟩
  | _ => exact waiting.elim

/-- An instance takes the pid file with its write, holds it, and lets it go with an `rm`. -/
theorem Moves.holding {i : Instance} {action : Action} {phase : Phase}
    (moves : Moves i.arguments i.phase action phase) (holding : phase.Holding) :
    (action = .write ∧ i.phase.Waiting) ∨ (i.phase.Holding ∧ i.removes action = false) := by
  obtain ⟨arguments, before⟩ := i
  cases moves with
  | write => exact .inl ⟨rfl, trivial⟩
  | enter valid => exact .inr ⟨trivial, by simp [Instance.removes, valid]⟩
  | commandEnds | sleepEnds => exact .inr ⟨trivial, rfl⟩
  | _ => exact holding.elim

section
variable {s t : Host} {pid : Nat} {i : Instance} {action : Action} {phase : Phase}

theorem step_act (there : s.instances pid = some i) (next : i.next action = some phase) :
    step s (.act pid action) = some (s.put (pidFileAfter s.pidFile pid i action) pid { i with phase := phase }) := by
  simp only [step, there, next, Option.map_some]

theorem act_of_step (taken : step s (.act pid action) = some t) :
    ∃ i phase, s.instances pid = some i ∧ Moves i.arguments i.phase action phase ∧
      t = s.put (pidFileAfter s.pidFile pid i action) pid { i with phase := phase } := by
  simp only [step] at taken
  split at taken
  · cases taken
  · rename_i i there
    obtain ⟨phase, next, rfl⟩ := Option.map_eq_some_iff.1 taken
    exact ⟨i, phase, there, i.moves next, rfl⟩

/-- A start, by the pid file. -/
theorem start_of_step {arguments : List (List Byte)} (taken : step s (.start pid arguments) = some t) :
    s.instances pid = none ∧
      t = s.put s.pidFile pid ⟨arguments, if s.pidFile.isSome then .ended (some 1) else .tested⟩ := by
  simp only [step] at taken
  split at taken
  · rename_i free
    cases taken
    exact ⟨free, rfl⟩
  · cases taken

@[simp] theorem put_self {pidFile : Option Nat} : (s.put pidFile pid i).instances pid = some i :=
  Function.update_self ..

theorem put_other {pidFile : Option Nat} {q : Nat} (other : q ≠ pid) :
    (s.put pidFile pid i).instances q = s.instances q := Function.update_of_ne other ..

theorem not_is_of_free {phases : Phase → Prop} (free : s.instances pid = none) : ¬ s.Is phases pid := by
  rintro ⟨i, there, -⟩
  cases free.symm.trans there

theorem is_put {pidFile : Option Nat} {phases : Phase → Prop} {q : Nat} :
    (s.put pidFile pid i).Is phases q ↔ if q = pid then phases i.phase else s.Is phases q := by
  unfold Host.Is
  by_cases own : q = pid
  · subst own
    simp
  · rw [put_other own, if_neg own]

end

end GtpLibrary.Cron

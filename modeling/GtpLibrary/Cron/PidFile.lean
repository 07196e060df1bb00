import GtpLibrary.Lib.Words
import GtpLibrary.Cron.CrontabSecond

/-!
# The path of the pid file

Each start computes the path from `$0` and from the directory it is called in. The write has the
path in quotes, the test and the `rm` of the trap have not, so that there the shell splits it at
blanks and takes it for a pattern. Where all starts compute one path, and it is one word, the
machine is the host of `CrontabSecond` (`host_step`).
-/

namespace GtpLibrary.Cron

open Function (update)
open Lib Lib.Numerals Lib.Words

/-- The pid files by their paths, and each instance with its `pid_file`. -/
structure Machine where
  files : Text → Option Nat
  instances : Nat → Option (Text × Instance)

inductive Step
  | start (pid : Nat) (pidFile : Text) (arguments : List (List Byte))
  | act (pid : Nat) (action : Action)

/-- The words of `$pid_file` outside of quotes. -/
def pidFileWords (matching : Text → List Text) (pidFile : Text) : List Text := (Word.joined [.value pidFile]).expand matching

section
variable (matching : Text → List Text) (expression : List Text → Bool)

/-- `[ -f $pid_file ]`. With another number of words than one it is an expression of `[`, or an error. -/
def fileTest (files : Text → Option Nat) (pidFile : Text) : Bool :=
  match pidFileWords matching pidFile with
  | [word] => (files word).isSome
  | words => expression words

/-- `rm $pid_file`. -/
def removal (files : Text → Option Nat) (pidFile : Text) : Text → Option Nat :=
  (pidFileWords matching pidFile).foldl (fun files word => update files word none) files

/-- The pid files behind a step of an instance. -/
def filesAfter (files : Text → Option Nat) (pid : Nat) (pidFile : Text) (i : Instance) (action : Action) :
    Text → Option Nat :=
  if action = .write then update files pidFile (some pid)
  else if i.removes action then removal matching files pidFile
  else files

/-- The machine with the pid files and an instance changed. -/
def Machine.put (m : Machine) (files : Text → Option Nat) (pid : Nat) (pidFile : Text) (i : Instance) : Machine :=
  ⟨files, update m.instances pid (some (pidFile, i))⟩

def machineStep (m : Machine) : Step → Option Machine
  | .start pid pidFile arguments =>
    match m.instances pid with
    | none =>
      let phase := if fileTest matching expression m.files pidFile then .ended (some 1) else .tested
      some (m.put m.files pid pidFile ⟨arguments, phase⟩)
    | some _ => none
  | .act pid action =>
    match m.instances pid with
    | none => none
    | some (pidFile, i) => (i.next action).map fun phase =>
        m.put (filesAfter matching m.files pid pidFile i action) pid pidFile { i with phase := phase }

end

/-- Nothing was started yet. -/
def Machine.initial : Machine := ⟨fun _ => none, fun _ => none⟩

/-- The instance with this process id is in such a phase. -/
def Machine.Is (m : Machine) (phases : Phase → Prop) (pid : Nat) : Prop :=
  ∃ pidFile i, m.instances pid = some (pidFile, i) ∧ phases i.phase

/-- The shell leaves the path as it is. -/
structure OneWord (path : Text) : Prop where
  filled : path ≠ []
  solid : ∀ c ∈ path, blank c = false
  plain : ∀ c ∈ path, special c = false

/-- The machine as the instances with one path see it. -/
def Machine.host (m : Machine) (path : Text) : Host := ⟨m.files path, fun pid => (m.instances pid).map Prod.snd⟩

/-- All instances have computed the path. -/
def Machine.Computed (m : Machine) (path : Text) : Prop := ∀ pid pidFile i, m.instances pid = some (pidFile, i) → pidFile = path

/-- The step without its path. -/
def Step.label : Step → Label
  | .start pid _ arguments => .start pid arguments
  | .act pid action => .act pid action

/-- A start computes the path. -/
def Step.Computes (path : Text) : Step → Prop
  | .start _ pidFile _ => pidFile = path
  | .act _ _ => True

section
variable {matching : Text → List Text} {expression : List Text → Bool} {m n : Machine} {path pidFile : Text} {pid : Nat}
  {i : Instance} {files : Text → Option Nat}

/-! ## One word -/

theorem pidFileWords_of_oneWord (pathnames : Pathnames matching) (word : OneWord path) :
    pidFileWords matching path = [path] := by
  have text : [Piece.value path].flatMap Piece.text = path := by simp [Piece.text]
  have solid : ∀ piece ∈ [Piece.value path], ∀ t, piece = .value t → ∀ c ∈ t, blank c = false := by
    intro piece member t same c inside
    rw [List.mem_singleton.1 member, Piece.value.injEq] at same
    exact word.solid c (same ▸ inside)
  rw [pidFileWords, pathnames.expand_plain solid (text.symm ▸ word.plain) (text.symm ▸ word.filled), text]

theorem fileTest_of_oneWord (pathnames : Pathnames matching) (word : OneWord path) :
    fileTest matching expression files path = (files path).isSome := by
  rw [fileTest, pidFileWords_of_oneWord pathnames word]

theorem removal_of_oneWord (pathnames : Pathnames matching) (word : OneWord path) :
    removal matching files path = update files path none := by
  rw [removal, pidFileWords_of_oneWord pathnames word]
  rfl

theorem filesAfter_of_oneWord (pathnames : Pathnames matching) (word : OneWord path) (action : Action) :
    filesAfter matching files pid path i action path = pidFileAfter (files path) pid i action := by
  unfold filesAfter pidFileAfter
  rw [removal_of_oneWord pathnames word]
  split
  · exact Function.update_self ..
  · split
    · exact Function.update_self ..
    · rfl

/-! ## The host of a path -/

theorem is_host {phases : Phase → Prop} : (m.host path).Is phases pid ↔ m.Is phases pid := by
  constructor
  · rintro ⟨i, there, holds⟩
    obtain ⟨⟨pidFile, j⟩, here, rfl⟩ := Option.map_eq_some_iff.1 there
    exact ⟨pidFile, j, here, holds⟩
  · rintro ⟨pidFile, i, there, holds⟩
    exact ⟨i, congrArg (Option.map Prod.snd) there, holds⟩

theorem host_put : (m.put files pid pidFile i).host path = (m.host path).put (files path) pid i := by
  have instances : (fun p => (update m.instances pid (some (pidFile, i)) p).map Prod.snd) =
      update (fun p => (m.instances p).map Prod.snd) pid (some i) := by
    funext p
    by_cases same : p = pid
    · subst same
      simp
    · rw [Function.update_of_ne same, Function.update_of_ne same]
  exact congrArg (Host.mk (files path)) instances

theorem Machine.Computed.put (computed : m.Computed path) : (m.put files pid path i).Computed path := by
  intro p pidFile j there
  by_cases same : p = pid
  · subst same
    have here : (m.put files p path i).instances p = some (path, i) := Function.update_self ..
    cases here.symm.trans there
    rfl
  · exact computed p pidFile j ((Function.update_of_ne same ..).symm.trans there)

/-- **A step of the machine is the step of the host.** -/
theorem host_step (pathnames : Pathnames matching) (word : OneWord path) (computed : m.Computed path) {label : Step}
    (computes : label.Computes path) (taken : machineStep matching expression m label = some n) :
    step (m.host path) label.label = some (n.host path) ∧ n.Computed path := by
  cases label with
  | start pid pidFile arguments =>
    obtain rfl : pidFile = path := computes
    unfold machineStep at taken
    dsimp only at taken
    split at taken
    · rename_i free
      rw [fileTest_of_oneWord pathnames word] at taken
      cases taken
      have free' : (m.host pidFile).instances pid = none := congrArg (Option.map Prod.snd) free
      refine ⟨?_, computed.put⟩
      simp only [step, Step.label, free', host_put]
      rfl
    · cases taken
  | act pid action =>
    unfold machineStep at taken
    dsimp only at taken
    split at taken
    · cases taken
    · rename_i pidFile i there
      obtain rfl : pidFile = path := computed pid pidFile i there
      obtain ⟨phase, next, rfl⟩ := Option.map_eq_some_iff.1 taken
      have there' : (m.host pidFile).instances pid = some i := congrArg (Option.map Prod.snd) there
      refine ⟨?_, computed.put⟩
      rw [Step.label, step_act there' next, host_put, filesAfter_of_oneWord pathnames word]
      rfl

end

end GtpLibrary.Cron

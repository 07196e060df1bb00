import Mathlib.Logic.Function.Basic
import GtpLibrary.GitlabRunner.Scripts
import GtpLibrary.Lib.Components

/-!
# The scripts of many jobs

The runner calls the scripts of its jobs side by side. Their commands come one by one and in any
order; a command can fail at any time, and a container can end by itself. A script goes on behind
a command that succeeds and is over at the first one that fails. What the commands of the project
do, on the runner or in a container, is left out. What `podman` does is a parameter, of which
`Podman.Behaves` says what its manual promises. A directory is known by the segments of its path:
there are no symbolic links.
-/

namespace GtpLibrary.GitlabRunner

open Lib Lib.Numerals Lib.Words

variable {C : Type}

/-! ## podman -/

/-- With what a container was started. -/
structure Config where
  options : List Text
  image : Text
  command : List Text
  deriving DecidableEq

/-- `podman`, as far as the scripts use it: how it reads a command line, and what an action that succeeds does
to the containers, which are known by their names; without a value it fails. Of a container `C` is all that
can be seen. -/
structure Podman (C : Type) where
  reads : List Text → Option Action
  performs : Action → (Text → Option C) → Option (Text → Option C)
  config : C → Config
  running : C → Bool
  /-- A container that has just been started. -/
  fresh : Config → C
  /-- A container in which a command was executed, if it can be. -/
  executed : C → List Text → Option C
  /-- What is left of a container that has ended. -/
  ended : C → Option C

/-- The value of `--name`. -/
def nameOf (options : List Text) : Option Text :=
  options.findSome? fun option => if "--name=".toList <+: option then some (option.drop 7) else none

/-- `run` needs a name that no container has, `exec` and `stop` name the container they are about, and with
`--rm` a container that has ended is removed. -/
structure Podman.Behaves (podman : Podman C) : Prop where
  documented : Documented podman.reads
  run : ∀ {options image command name} (containers : Text → Option C), nameOf options = some name →
    podman.performs (.starts options image command) containers =
      if (containers name).isNone then some (Function.update containers name (some (podman.fresh ⟨options, image, command⟩)))
      else none
  exec : ∀ name command (containers : Text → Option C), podman.performs (.executes name command) containers =
    (containers name).bind fun container =>
      (podman.executed container command).map fun after => Function.update containers name (some after)
  stop : ∀ name (containers : Text → Option C), podman.performs (.stops [name]) containers =
    (containers name).map fun container => Function.update containers name (podman.ended container)
  config_fresh : ∀ config, podman.config (podman.fresh config) = config
  running_fresh : ∀ config, podman.running (podman.fresh config) = true
  config_executed : ∀ {container command after}, podman.executed container command = some after →
    podman.config after = podman.config container
  running_executed : ∀ {container command after}, podman.executed container command = some after →
    podman.running after = true
  remove : ∀ container, "--rm=true".toList ∈ (podman.config container).options → podman.ended container = none

/-! ## The machine -/

/-- The segments of an absolute path. -/
def segments (path : Text) : List Text := (path.splitOn '/').filter (· ≠ [])

/-- An absolute path in which no segment leads back. -/
def Straight (path : Text) : Prop :=
  path.head? = some '/' ∧ ∀ segment ∈ segments path, segment ≠ ".".toList ∧ segment ≠ "..".toList

instance : DecidablePred Straight := fun path =>
  inferInstanceAs (Decidable (_ ∧ ∀ segment ∈ segments path, _))

/-- The containers by their names, and the directories that exist. -/
structure Machine (C : Type) where
  containers : Text → Option C
  directories : List Text → Bool

namespace Machine

def put (machine : Machine C) (name : Text) (container : Option C) : Machine C :=
  { machine with containers := Function.update machine.containers name container }

/-- `mkdir -p`, which makes the directories above as well. -/
def make (machine : Machine C) (path : Text) : Machine C :=
  { machine with directories := fun directory => machine.directories directory || decide (directory <+: segments path) }

/-- `rm -rf`, which removes all that is below as well. -/
def remove (machine : Machine C) (path : Text) : Machine C :=
  { machine with directories := fun directory => machine.directories directory && !decide (segments path <+: directory) }

/-- No other command of the scripts is about a directory of a job. -/
def shell (machine : Machine C) : List Text → Machine C
  | [program, option, path] =>
    if program = "mkdir".toList ∧ option = "-p".toList then machine.make path
    else if program = "rm".toList ∧ option = "-rf".toList then machine.remove path
    else machine
  | _ => machine

/-- A command that succeeds. Without a value it cannot. -/
def perform (podman : Podman C) (machine : Machine C) (words : List Text) : Option (Machine C) :=
  match podman.reads words with
  | some action => (podman.performs action machine.containers).map fun containers => { machine with containers }
  | none => some (machine.shell words)

end Machine

/-! ## The runner -/

/-- The generated script, which the runner gives with its full path. -/
structure Generated extends PlainText where
  absolute : text.head? = some '/'

inductive Script where
  | prepare
  | run (generated : Generated) (stage : Text)
  | cleanup

def Script.commands (matching : Text → List Text) (job : Job) : Script → List (List Text)
  | .prepare => GitlabRunner.prepare matching job
  | .run generated stage => GitlabRunner.run matching job [generated.text, stage]
  | .cleanup => GitlabRunner.cleanup matching job

inductive Status where
  | idle
  | busy (script : Script) (rest : List (List Text))
  | over (script : Script) (ok : Bool)

structure Runner (C J : Type) where
  machine : Machine C
  status : J → Status

inductive Label (J : Type) where
  | calls (j : J) (script : Script)
  | succeeds (j : J)
  | fails (j : J)
  | exits (j : J)
  | ends (name : Text)

/-- Nothing is there yet. -/
def start {J : Type} : Runner C J := ⟨⟨fun _ => none, fun _ => false⟩, fun _ => .idle⟩

section
variable {J : Type} [DecidableEq J] (podman : Podman C) (matching : Text → List Text) (job : J → Job)

def Runner.set (runner : Runner C J) (j : J) (status : Status) : Runner C J :=
  { runner with status := Function.update runner.status j status }

def step (runner : Runner C J) : Label J → Option (Runner C J)
  | .calls j script =>
    match runner.status j with
    | .busy .. => none
    | _ => some (runner.set j (.busy script (script.commands matching (job j))))
  | .succeeds j =>
    match runner.status j with
    | .busy script (words :: rest) =>
      (runner.machine.perform podman words).map fun machine => { runner with machine }.set j (.busy script rest)
    | _ => none
  | .fails j =>
    match runner.status j with
    | .busy script (_ :: _) => some (runner.set j (.over script false))
    | _ => none
  | .exits j =>
    match runner.status j with
    | .busy script [] => some (runner.set j (.over script true))
    | _ => none
  | .ends name =>
    (runner.machine.containers name).map fun container =>
      { runner with machine := runner.machine.put name (podman.ended container) }

end

/-! ## One job of them -/

/-- `${CUSTOM_ENV_CI_PROJECT_DIR}/${CUSTOM_ENV_CI_JOB_ID}` as the shell expands it. -/
def jobPath (job : Job) : Text := job.projectDir.text ++ "/".toList ++ numeral job.jobId

/-- The machines have the same container of the job, and the same directories where its own is and below. -/
structure Machine.Agrees (job : Job) (machine other : Machine C) : Prop where
  container : machine.containers (containerName job) = other.containers (containerName job)
  directories : ∀ directory, segments (jobPath job) <+: directory →
    machine.directories directory = other.directories directory

section
variable {J : Type} [DecidableEq J] (job : J → Job) (j : J)

/-- A runner with this job alone is where the job is. -/
structure Runner.Alone (runner : Runner C J) (alone : Runner C Unit) : Prop where
  status : alone.status () = runner.status j
  machine : alone.machine.Agrees (job j) runner.machine

/-- What of the steps is the job's. -/
def Label.own : Label J → Option (Label Unit)
  | .calls i script => if i = j then some (.calls () script) else none
  | .succeeds i => if i = j then some (.succeeds ()) else none
  | .fails i => if i = j then some (.fails ()) else none
  | .exits i => if i = j then some (.exits ()) else none
  | .ends name => if name = containerName (job j) then some (.ends name) else none

end

end GtpLibrary.GitlabRunner

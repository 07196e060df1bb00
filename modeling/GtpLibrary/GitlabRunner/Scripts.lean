import GtpLibrary.Lib.Words

/-!
# The scripts of the custom executor

`prepare.sh`, `run.sh` and `cleanup.sh` are run for a job with its variables in the environment.
Each puts the name of the container together and uses it outside of quotes. A script is here
the list of the commands it runs if each of them succeeds, as the words that the shell makes of
them; what is printed for debugging is left out. `podman` is not part of the repository: how it
reads a command line is a parameter, and `Documented` says what its manual promises.
-/

namespace GtpLibrary.GitlabRunner

open Lib.Numerals Lib.Words

/-- A value that the shell does not take apart. -/
structure PlainText where
  text : Text
  filled : text ≠ []
  solid : ∀ c ∈ text, blank c = false
  plain : ∀ c ∈ text, special c = false

/-- The `CUSTOM_ENV_CI_…` variables and the working directory. Job ids are numbers; the
directories lie under the `--builds-dir` and the `--working-directory` of `manage.sh`. -/
structure Job where
  runnerId : Text
  projectRootNamespace : Text
  projectTitle : Text
  commitSha : Text
  jobId : Nat
  jobImage : Text
  projectDir : PlainText
  pwd : PlainText

/-- `container_name`, which the three scripts compute alike. -/
def containerName (job : Job) : Text :=
  "gitlab-runner".toList ++ "--id-".toList ++ job.runnerId ++ "--ns-".toList ++ job.projectRootNamespace ++
    "--project-".toList ++ job.projectTitle ++ "--commit-".toList ++ job.commitSha ++ "--job-".toList ++
    numeral job.jobId

/-! ## Command lines -/

section
variable (job : Job)

/-- `${CUSTOM_ENV_CI_PROJECT_DIR}/${CUSTOM_ENV_CI_JOB_ID}` -/
def jobDir : Word := .joined [.value job.projectDir.text, .kept "/".toList, .value (numeral job.jobId)]

/-- `${directory}:${directory}:mode` -/
def volume (directory : PlainText) (mode : Text) : Word :=
  .joined [.value directory.text, .kept ":".toList, .value directory.text, .kept mode]

/-- `--name=${container_name}` -/
def nameOption : Word := .joined [.kept "--name=".toList, .value (containerName job)]

/-- `${container_name}` -/
def nameWord : Word := .joined [.value (containerName job)]

def podmanRun : List Word := [
  .fixed "podman".toList, .fixed "run".toList,
  .fixed "--detach".toList,
  .fixed "--rm=true".toList,
  nameOption job,
  .fixed "--cap-add=sys_admin,mknod".toList,
  .fixed "--volume".toList, volume job.pwd ":ro".toList,
  .fixed "--volume".toList, volume job.projectDir ":rw".toList,
  .joined [.value job.jobImage],
  .fixed "sleep".toList, .fixed "infinity".toList]

/-- `"${@}"` in an assignment. -/
def cmd (arguments : List Text) : Text := [' '].intercalate arguments

def podmanExec (arguments : List Text) : List Word := [
  .fixed "podman".toList, .fixed "exec".toList,
  .fixed "-it".toList,
  nameWord job,
  .fixed "/bin/sh".toList, .fixed "-c".toList, .fixed (cmd arguments)]

def podmanStop : List Word := [
  .fixed "podman".toList, .fixed "stop".toList,
  .fixed "-t0".toList,
  nameWord job]

end

/-! ## The scripts -/

section
variable (matching : Text → List Text) (job : Job)

def prepare : List (List Text) := [
  expand matching [.fixed "mkdir".toList, .fixed "-p".toList, jobDir job],
  expand matching (podmanRun job)]

/-- The stages that `run.sh` runs on the runner. -/
def runnerStages : List Text :=
  ["prepare_script".toList, "get_sources".toList, "download_artifacts".toList,
    "upload_artifacts_on_success".toList, "cleanup_file_variables".toList]

/-- `${1}` is the generated script, `${2}` the stage. -/
def run (arguments : List Text) : List (List Text) :=
  if arguments.getD 1 [] ∈ runnerStages then [expand matching [.joined [.value (cmd arguments)]]]
  else [
    expand matching [.fixed "sed".toList, .fixed "-i".toList,
      .fixed "s/\\/usr\\/bin\\/env bash/\\/usr\\/bin\\/env sh/g".toList, .joined [.value (arguments.getD 0 [])]],
    expand matching (podmanExec job arguments)]

def cleanup : List (List Text) := [
  expand matching (podmanStop job),
  expand matching [.fixed "rm".toList, .fixed "-rf".toList, jobDir job]]

end

/-! ## `podman` -/

/-- What a command line asks for. The options are all words in front of the image. -/
inductive Action where
  | starts (options : List Text) (image : Text) (command : List Text)
  | executes (container : Text) (command : List Text)
  | stops (containers : List Text)
  deriving DecidableEq

/-- The words that are no image and no container. -/
def isOption (word : Text) : Bool := word.head? = some '-' && word ≠ "-".toList

/-- The options that `prepare.sh` writes. -/
def options (name volume volume' : Text) : List Text :=
  ["--detach".toList, "--rm=true".toList, "--name=".toList ++ name, "--cap-add=sys_admin,mknod".toList,
    "--volume".toList, volume, "--volume".toList, volume']

/-- The options of a job. -/
def Job.options (job : Job) (name : Text) : List Text :=
  GitlabRunner.options name (job.pwd.text ++ ":".toList ++ job.pwd.text ++ ":ro".toList)
    (job.projectDir.text ++ ":".toList ++ job.projectDir.text ++ ":rw".toList)

/-- The options stand first; the word behind them is the image or the container, and what
follows it is the command. -/
structure Documented (podman : List Text → Option Action) : Prop where
  foreign : ∀ words : List Text, words.head? ≠ some "podman".toList → podman words = none
  run : ∀ name volume volume' image command, isOption image = false →
    podman (["podman".toList, "run".toList] ++ options name volume volume' ++ image :: command) =
      some (.starts (options name volume volume') image command)
  runOption : ∀ name volume volume' word more image command, isOption word = true →
    podman (["podman".toList, "run".toList] ++ options name volume volume' ++ word :: more) ≠
      some (.starts (options name volume volume') image command)
  exec : ∀ container command, isOption container = false →
    podman (["podman".toList, "exec".toList, "-it".toList] ++ container :: command) = some (.executes container command)
  stop : ∀ container, isOption container = false →
    podman ["podman".toList, "stop".toList, "-t0".toList, container] = some (.stops [container])

def nameChar (c : Char) : Bool := c.isAlphanum || c = '_' || c = '.' || c = '-'

/-- The names that `podman` gives: `[a-zA-Z0-9][a-zA-Z0-9_.-]*`. -/
def ValidName (name : Text) : Prop := (name.head?.any Char.isAlphanum && name.all nameChar) = true

/-- No path in the working directory begins like the name of a container. -/
structure NoSuchPath (matching : Text → List Text) : Prop where
  container : ∀ rest : Text, matching ("gitlab-runner--id-".toList ++ rest) = ["gitlab-runner--id-".toList ++ rest]
  option : ∀ rest : Text,
    matching ("--name=gitlab-runner--id-".toList ++ rest) = ["--name=gitlab-runner--id-".toList ++ rest]

/-! ## The stages of a job -/

section
variable (podman : List Text → Option Action) (matching : Text → List Text)

/-- One container is started from the image of the job, under the name; what is executed for a
stage is executed in it, and it is stopped. -/
structure Addresses (job : Job) (name : Text) : Prop where
  valid : ValidName name
  prepares : (prepare matching job).filterMap podman =
    [.starts (job.options name) job.jobImage ["sleep".toList, "infinity".toList]]
  runs : ∀ arguments : List Text, arguments.getD 1 [] ∉ runnerStages →
    (run matching job arguments).filterMap podman =
      [.executes name ["/bin/sh".toList, "-c".toList, cmd arguments]]
  cleans : (cleanup matching job).filterMap podman = [.stops [name]]

/-- Both jobs address a container of their own. -/
def AddressOwn (job other : Job) : Prop :=
  ∃ name name', Addresses podman matching job name ∧ Addresses podman matching other name' ∧
    (job.jobId ≠ other.jobId → name ≠ name')

/-- The parts of the name are characters of names, and the image is one word. -/
structure Job.Plain (job : Job) : Prop where
  runnerId : job.runnerId.all nameChar
  projectRootNamespace : job.projectRootNamespace.all nameChar
  projectTitle : job.projectTitle.all nameChar
  commitSha : job.commitSha.all nameChar
  jobImage : expand matching [.joined [.value job.jobImage]] = [job.jobImage]
  noOption : isOption job.jobImage = false

end

end GtpLibrary.GitlabRunner

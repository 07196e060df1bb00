import GtpLibrary.GitlabRunner.Containers
import GtpLibrary.GitlabRunner.Runner

/-!
# Jobs do not meet

Each command of a job is about the job's own container or its own directory, and no job's directory lies
below another's. So what the others do between two commands of a job makes no difference to it, and the job
goes as it would go alone.
-/

namespace GtpLibrary.GitlabRunner

open Lib Lib.Numerals Lib.Words

section
variable {C : Type} {reads : List Text → Option Action} {podman : Podman C} {matching : Text → List Text} {job other : Job}
  {words : List Text} {machine after alone : Machine C}

/-! ## The directory -/

/-- The last name on the way to a job directory is the id of the job. -/
theorem segments_jobPath (job : Job) : segments (jobPath job) = segments job.projectDir.text ++ [numeral job.jobId] := by
  have slash : '/' ∉ numeral job.jobId := not_mem_numeral (by decide) job.jobId
  have path : jobPath job = job.projectDir.text ++ '/' :: numeral job.jobId := List.append_assoc ..
  unfold segments
  rw [path, List.splitOn_append_cons_self, List.splitOn_eq_singleton slash, List.filter_append]
  congr 1
  exact List.filter_eq_self.2 fun segment member => by simp [List.mem_singleton.1 member, numeral_ne_nil]

/-- A job's directory is not below that of another job if the project directory is not. -/
theorem jobPath_apart (different : job.jobId ≠ other.jobId)
    (apart : ¬ segments (jobPath job) <+: segments other.projectDir.text) :
    ¬ segments (jobPath job) <+: segments (jobPath other) := by
  rw [segments_jobPath other, List.prefix_concat_iff]
  rintro (same | below)
  · rw [segments_jobPath job] at same
    exact different (numeral_injective (List.singleton_injective (List.append_inj_right' same rfl)))
  · exact apart below

/-- The job directory is quoted, hence one word. -/
theorem expand_jobDir (pathnames : Pathnames matching) (program option : Text) :
    expand matching [.fixed program, .fixed option, jobDir job] = [program, option, jobPath job] := by
  have text : [Piece.value job.projectDir.text, .kept "/".toList, .value (numeral job.jobId)].flatMap Piece.text =
      jobPath job := by
    simp [Piece.text, jobPath]
  have digits : ∀ c ∈ numeral job.jobId, blank c = false ∧ special c = false := by
    intro c member
    have digit := isDigit_of_mem_numeral member
    constructor
    · exact blank_of_nameChar (nameChar_numeral member)
    · by_contra isSpecial
      rw [Bool.not_eq_false] at isSpecial
      simp only [special, Bool.or_eq_true, decide_eq_true_eq] at isSpecial
      rcases isSpecial with ((rfl | rfl) | rfl) | rfl <;> exact absurd digit (by decide)
  have one : (jobDir job).expand matching = [jobPath job] := by
    rw [← text]
    apply pathnames.expand_plain
    · intro piece member t same c inside
      subst same
      simp only [List.mem_cons, List.not_mem_nil, or_false, reduceCtorEq, Piece.value.injEq, false_or] at member
      rcases member with rfl | rfl
      · exact job.projectDir.solid c inside
      · exact (digits c inside).1
    · rw [text]
      intro c member
      simp only [jobPath, List.mem_append] at member
      rcases member with (inside | slash) | inside
      · exact job.projectDir.plain c inside
      · rw [List.mem_singleton.1 slash]
        rfl
      · exact (digits c inside).2
    · rw [text]
      exact List.append_ne_nil_of_right_ne_nil _ (numeral_ne_nil _)
  rw [expand_cons, expand_cons, expand_cons, one]
  rfl

/-! ## The commands of a job -/

variable (reads job) in
/-- What a command of the job is about. -/
inductive Deed : List Text → Prop where
  | makes (foreign : reads ["mkdir".toList, "-p".toList, jobPath job] = none) :
      Deed ["mkdir".toList, "-p".toList, jobPath job]
  | removes (foreign : reads ["rm".toList, "-rf".toList, jobPath job] = none) :
      Deed ["rm".toList, "-rf".toList, jobPath job]
  | starts {words : List Text} (asks : reads words =
      some (.starts (job.options (containerName job)) job.jobImage ["sleep".toList, "infinity".toList])) : Deed words
  | executes {words : List Text} (command : List Text)
      (asks : reads words = some (.executes (containerName job) command)) : Deed words
  | stops {words : List Text} (asks : reads words = some (.stops [containerName job])) : Deed words
  | works {words : List Text} (foreign : reads words = none) (mkdir : words.head? ≠ some "mkdir".toList)
      (rm : words.head? ≠ some "rm".toList) : Deed words

/-- Another program asks podman for nothing. -/
theorem Documented.foreign_cons (documented : Documented reads) {program : Text} (other : program ≠ "podman".toList)
    (more : List Text) : reads (program :: more) = none :=
  documented.foreign _ fun same => other (Option.some.inj same)

/-- Another program leaves containers and directories alone. -/
theorem Documented.works (documented : Documented reads) {program : Text} {more : List Text}
    (other : program ∉ ["podman".toList, "mkdir".toList, "rm".toList]) : Deed reads job (program :: more) := by
  simp only [List.mem_cons, List.not_mem_nil, or_false, not_or] at other
  obtain ⟨podman, mkdir, rm⟩ := other
  exact .works (documented.foreign_cons podman _) (fun same => mkdir (Option.some.inj same))
    fun same => rm (Option.some.inj same)

/-- On the runner the generated script is the program. -/
theorem expand_cmd (pathnames : Pathnames matching) (generated : Generated) (stage : Text) :
    ∃ more, expand matching [.joined [.value (cmd [generated.text, stage])]] = generated.text :: more := by
  have text : cmd [generated.text, stage] = generated.text ++ ' ' :: stage := by
    simp [cmd, List.intercalate]
  refine ⟨(fields [.value stage]).flatMap matching, ?_⟩
  rw [expand_cons, text]
  show (fields _).flatMap matching ++ [] = _
  rw [fields_value_cons generated.filled generated.solid rfl, List.flatMap_cons,
    pathnames.plain _ generated.plain, List.append_nil]
  rfl

/-- A script that the runner has generated is another program. -/
theorem Generated.program (generated : Generated) :
    generated.text ∉ ["podman".toList, "mkdir".toList, "rm".toList] := by
  intro member
  have absolute := generated.absolute
  simp only [List.mem_cons, List.not_mem_nil, or_false] at member
  rcases member with same | same | same <;> rw [same] at absolute <;> exact absurd absolute (by decide)

/-- The commands of the three scripts. -/
theorem deed_of_mem (pathnames : Pathnames matching) (noPath : NoSuchPath matching) (documented : Documented reads)
    (plain : job.Plain matching) {script : Script} (member : words ∈ script.commands matching job) :
    Deed reads job words := by
  have addresses := addresses_of_plain pathnames noPath documented plain
  have ofToList : ∀ {o : Option Action} {action : Action}, o.toList = [action] → o = some action :=
    Option.toList_eq_singleton_iff.1
  cases script with
  | prepare =>
    rcases List.mem_cons.1 member with rfl | later
    · rw [expand_jobDir pathnames]
      exact .makes (documented.foreign_cons (by decide) _)
    · rw [List.mem_singleton.1 later]
      exact .starts (ofToList (filterMap_prepare documented ▸ addresses.prepares))
  | run generated stage =>
    change words ∈ GitlabRunner.run matching job [generated.text, stage] at member
    by_cases inside : [generated.text, stage].getD 1 [] ∈ runnerStages
    · rw [GitlabRunner.run, if_pos inside, List.mem_singleton] at member
      obtain ⟨more, front⟩ := expand_cmd pathnames generated stage
      rw [member, front]
      exact documented.works generated.program
    · have runs := addresses.runs _ inside
      rw [filterMap_run documented inside] at runs
      rw [GitlabRunner.run, if_neg inside] at member
      rcases List.mem_cons.1 member with rfl | later
      · exact documented.works (by decide)
      · rw [List.mem_singleton.1 later]
        exact .executes _ (ofToList runs)
  | cleanup =>
    rcases List.mem_cons.1 member with rfl | later
    · exact .stops (ofToList (filterMap_cleanup documented ▸ addresses.cleans))
    · rw [List.mem_singleton.1 later, expand_jobDir pathnames]
      exact .removes (documented.foreign_cons (by decide) _)

/-! ## What they do to the machine -/

namespace Machine

/-- Every machine agrees with itself. -/
theorem Agrees.refl (job : Job) (machine : Machine C) : machine.Agrees job machine := ⟨rfl, fun _ _ => rfl⟩

/-- The same container put on both. -/
theorem Agrees.put (agrees : alone.Agrees job machine) (name : Text) (container : Option C) :
    (alone.put name container).Agrees job (machine.put name container) where
  container := by
    show Function.update _ _ _ _ = Function.update _ _ _ _
    rw [Function.update_apply, Function.update_apply, agrees.container]
  directories := agrees.directories

/-- The same directory made on both. -/
theorem Agrees.make (agrees : alone.Agrees job machine) (path : Text) : (alone.make path).Agrees job (machine.make path) where
  container := agrees.container
  directories directory below := by
    show (alone.directories directory || _) = (machine.directories directory || _)
    rw [agrees.directories directory below]

/-- The same directory removed on both. -/
theorem Agrees.remove (agrees : alone.Agrees job machine) (path : Text) :
    (alone.remove path).Agrees job (machine.remove path) where
  container := agrees.container
  directories directory below := by
    show (alone.directories directory && _) = (machine.directories directory && _)
    rw [agrees.directories directory below]

/-- A container of another name is nothing to the job. -/
theorem Agrees.put_other {name : Text} (agrees : alone.Agrees job machine) (away : containerName job ≠ name)
    (container : Option C) : alone.Agrees job (machine.put name container) where
  container := agrees.container.trans (Function.update_of_ne away ..).symm
  directories := agrees.directories

/-- A path that does not lead below the job's directory makes none there. -/
theorem Agrees.make_other {path : Text} (agrees : alone.Agrees job machine)
    (apart : ¬ segments (jobPath job) <+: segments path) : alone.Agrees job (machine.make path) where
  container := agrees.container
  directories directory below := by
    have away : ¬ directory <+: segments path := fun above => apart (below.trans above)
    show _ = (machine.directories directory || decide _)
    rw [decide_eq_false away, Bool.or_false]
    exact agrees.directories directory below

/-- A path that is neither above nor below the job's directory removes none there. -/
theorem Agrees.remove_other {path : Text} (agrees : alone.Agrees job machine)
    (apart : ¬ segments (jobPath job) <+: segments path) (apart' : ¬ segments path <+: segments (jobPath job)) :
    alone.Agrees job (machine.remove path) where
  container := agrees.container
  directories directory below := by
    have away : ¬ segments path <+: directory := by
      intro inside
      rcases List.prefix_or_prefix_of_prefix below inside with above | above
      · exact apart above
      · exact apart' above
    show _ = (machine.directories directory && !decide _)
    rw [decide_eq_false away, Bool.not_false, Bool.and_true]
    exact agrees.directories directory below

/-- Programs other than `mkdir` and `rm` leave the directories. -/
theorem shell_of_ne (machine : Machine C) (mkdir : words.head? ≠ some "mkdir".toList)
    (rm : words.head? ≠ some "rm".toList) : machine.shell words = machine := by
  unfold shell
  split
  · rw [if_neg fun same => mkdir (congrArg some same.1), if_neg fun same => rm (congrArg some same.1)]
  · rfl

/-- A command of podman does what podman performs. -/
theorem perform_some {action : Action} (asks : podman.reads words = some action) (machine : Machine C) :
    machine.perform podman words =
      (podman.performs action machine.containers).map fun containers => { machine with containers } := by
  rw [perform, asks]

/-- A command of another program is run by the shell. -/
theorem perform_none (foreign : podman.reads words = none) (machine : Machine C) :
    machine.perform podman words = some (machine.shell words) := by
  rw [perform, foreign]

end Machine

/-- The name among the options is the one of the job. -/
theorem nameOf_options (job : Job) : nameOf (job.options (containerName job)) = some (containerName job) := by
  have front : "--name=".toList <+: "--name=".toList ++ containerName job := List.prefix_append ..
  have value : ("--name=".toList ++ containerName job).drop 7 = containerName job := rfl
  unfold nameOf Job.options options
  rw [List.findSome?_cons, if_neg (by decide), List.findSome?_cons, if_neg (by decide), List.findSome?_cons,
    if_pos front, value]

/-- As what `prepare.sh` starts a container. -/
def Job.config (job : Job) : Config := ⟨job.options (containerName job), job.jobImage, ["sleep".toList, "infinity".toList]⟩

variable (podman job words) in
/-- What a command of the job does where it succeeds: it is about the directory, about nothing, or about the
container. -/
inductive Does : Prop where
  | makes (all : ∀ machine : Machine C, machine.perform podman words = some (machine.make (jobPath job)))
  | removes (all : ∀ machine : Machine C, machine.perform podman words = some (machine.remove (jobPath job)))
  | nothing (all : ∀ machine : Machine C, machine.perform podman words = some machine)
  | starts (all : ∀ machine : Machine C, machine.perform podman words =
      if (machine.containers (containerName job)).isNone then
        some (machine.put (containerName job) (some (podman.fresh job.config)))
      else none)
  | executes (command : List Text) (all : ∀ machine : Machine C, machine.perform podman words =
      (machine.containers (containerName job)).bind fun container =>
        (podman.executed container command).map fun after => machine.put (containerName job) (some after))
  | stops (all : ∀ machine : Machine C, machine.perform podman words =
      (machine.containers (containerName job)).map fun container =>
        machine.put (containerName job) (podman.ended container))

/-- What the commands of a job do, once podman has read them. -/
theorem Deed.does (behaves : podman.Behaves) (deed : Deed podman.reads job words) : Does podman job words := by
  cases deed with
  | makes foreign => exact .makes fun machine => machine.perform_none foreign
  | removes foreign => exact .removes fun machine => machine.perform_none foreign
  | works foreign mkdir rm =>
    refine .nothing fun machine => ?_
    rw [machine.perform_none foreign, machine.shell_of_ne mkdir rm]
  | starts asks =>
    refine .starts fun machine => ?_
    rw [machine.perform_some asks, behaves.run _ (nameOf_options job), apply_ite (Option.map _)]
    rfl
  | executes command asks =>
    refine .executes command fun machine => ?_
    rw [machine.perform_some asks, behaves.exec, Option.map_bind]
    refine Option.bind_congr fun container _ => ?_
    rw [Function.comp_apply, Option.map_map]
    rfl
  | stops asks =>
    refine .stops fun machine => ?_
    rw [machine.perform_some asks, behaves.stop, Option.map_map]
    rfl

/-- On a machine that has the same of the job, a command of the job does the same. -/
theorem Does.agrees (does : Does podman job words) (agrees : alone.Agrees job machine)
    (performed : machine.perform podman words = some after) :
    ∃ other, alone.perform podman words = some other ∧ other.Agrees job after := by
  cases does with
  | makes all =>
    cases (all machine).symm.trans performed
    exact ⟨_, all alone, agrees.make _⟩
  | removes all =>
    cases (all machine).symm.trans performed
    exact ⟨_, all alone, agrees.remove _⟩
  | nothing all =>
    cases (all machine).symm.trans performed
    exact ⟨_, all alone, agrees⟩
  | starts all =>
    rw [all, Option.ite_none_right_eq_some] at performed
    obtain ⟨free, same⟩ := performed
    cases same
    exact ⟨_, by rw [all, agrees.container, if_pos free], agrees.put _ _⟩
  | executes command all =>
    rw [all] at performed
    obtain ⟨container, there, performed⟩ := Option.bind_eq_some_iff.1 performed
    obtain ⟨executed, done, rfl⟩ := Option.map_eq_some_iff.1 performed
    exact ⟨_, by rw [all, agrees.container, there, Option.bind_some, done, Option.map_some], agrees.put _ _⟩
  | stops all =>
    rw [all] at performed
    obtain ⟨container, there, rfl⟩ := Option.map_eq_some_iff.1 performed
    exact ⟨_, by rw [all, agrees.container, there, Option.map_some], agrees.put _ _⟩

/-- It does nothing to the other jobs. -/
theorem Does.agrees_other (does : Does podman other words) (agrees : alone.Agrees job machine)
    (away : containerName job ≠ containerName other) (apart : ¬ segments (jobPath job) <+: segments (jobPath other))
    (apart' : ¬ segments (jobPath other) <+: segments (jobPath job)) (performed : machine.perform podman words = some after) :
    alone.Agrees job after := by
  cases does with
  | makes all =>
    cases (all machine).symm.trans performed
    exact agrees.make_other apart
  | removes all =>
    cases (all machine).symm.trans performed
    exact agrees.remove_other apart apart'
  | nothing all =>
    cases (all machine).symm.trans performed
    exact agrees
  | starts all =>
    rw [all, Option.ite_none_right_eq_some] at performed
    cases performed.2
    exact agrees.put_other away _
  | executes command all =>
    rw [all] at performed
    obtain ⟨container, -, performed⟩ := Option.bind_eq_some_iff.1 performed
    obtain ⟨executed, -, rfl⟩ := Option.map_eq_some_iff.1 performed
    exact agrees.put_other away _
  | stops all =>
    rw [all] at performed
    obtain ⟨container, -, rfl⟩ := Option.map_eq_some_iff.1 performed
    exact agrees.put_other away _

end

/-! ## The steps of the runner -/

section
variable {C J : Type} [DecidableEq J] {podman : Podman C} {matching : Text → List Text} {job : J → Job}
  {runner next : Runner C J} {label : Label J}

variable (podman matching job) in
/-- What a step does, and when it is there. -/
inductive Moves (runner : Runner C J) : Label J → Runner C J → Prop where
  | calls (j : J) (script : Script) (idle : ∀ script rest, runner.status j ≠ .busy script rest) :
      Moves runner (.calls j script) (runner.set j (.busy script (script.commands matching (job j))))
  | succeeds {j : J} {script : Script} {words : List Text} {rest : List (List Text)} {machine : Machine C}
      (busy : runner.status j = .busy script (words :: rest))
      (performed : runner.machine.perform podman words = some machine) :
      Moves runner (.succeeds j) ({ runner with machine }.set j (.busy script rest))
  | fails {j : J} {script : Script} {words : List Text} {rest : List (List Text)}
      (busy : runner.status j = .busy script (words :: rest)) : Moves runner (.fails j) (runner.set j (.over script false))
  | exits {j : J} {script : Script} (busy : runner.status j = .busy script []) :
      Moves runner (.exits j) (runner.set j (.over script true))
  | ends {name : Text} {container : C} (there : runner.machine.containers name = some container) :
      Moves runner (.ends name) { runner with machine := runner.machine.put name (podman.ended container) }

/-- The steps are the moves. -/
theorem step_iff : step podman matching job runner label = some next ↔ Moves podman matching job runner label next := by
  constructor
  · intro taken
    cases label with
    | calls j script =>
      simp only [step] at taken
      split at taken
      · cases taken
      · rename_i idle
        cases taken
        exact .calls j script idle
    | succeeds j =>
      simp only [step] at taken
      split at taken
      · rename_i busy
        obtain ⟨machine, performed, rfl⟩ := Option.map_eq_some_iff.1 taken
        exact .succeeds busy performed
      · cases taken
    | fails j =>
      simp only [step] at taken
      split at taken
      · rename_i busy
        cases taken
        exact .fails busy
      · cases taken
    | exits j =>
      simp only [step] at taken
      split at taken
      · rename_i busy
        cases taken
        exact .exits busy
      · cases taken
    | ends name =>
      obtain ⟨container, there, rfl⟩ := Option.map_eq_some_iff.1 taken
      exact .ends there
  · intro moves
    cases moves with
    | calls j script idle =>
      simp only [step]
    | succeeds busy performed => simp only [step, busy, performed, Option.map_some]
    | fails busy => simp only [step, busy]
    | exits busy => simp only [step, busy]
    | ends there => simp only [step, there, Option.map_some]

/-- Only the status of the one job is set. -/
theorem Runner.set_status (runner : Runner C J) (j : J) (status : Status) (i : J) :
    (runner.set j status).status i = if i = j then status else runner.status i :=
  Function.update_apply ..

variable (matching job) in
/-- Scripts run the commands that they have, in their order. -/
def Underway (runner : Runner C J) : Prop :=
  ∀ j script rest, runner.status j = .busy script rest → rest <:+ script.commands matching (job j)

/-- A job goes on with a rest of its script. -/
theorem Underway.set (underway : Underway matching job runner) {j : J} {status : Status}
    (here : ∀ script rest, status = .busy script rest → rest <:+ script.commands matching (job j)) :
    Underway matching job (runner.set j status) := by
  intro i script rest busy
  rw [Runner.set_status] at busy
  split at busy
  · rename_i same
    exact same ▸ here script rest busy
  · exact underway i script rest busy

omit [DecidableEq J] in
/-- No script is underway at the start. -/
theorem underway_start : Underway (C := C) matching job start := by
  intro j script rest busy
  cases busy

/-- A step leaves every job a rest of its script. -/
theorem Underway.step (underway : Underway matching job runner)
    (taken : step podman matching job runner label = some next) : Underway matching job next := by
  cases step_iff.1 taken with
  | calls j script =>
    refine underway.set fun script' rest busy => ?_
    cases busy
    exact List.suffix_refl _
  | succeeds busy =>
    refine Underway.set underway fun script' rest' busy' => ?_
    cases busy'
    exact (List.suffix_cons _ _).trans (underway _ _ _ busy)
  | fails => exact underway.set nofun
  | exits => exact underway.set nofun
  | ends => exact underway

/-! ## One of the jobs -/

variable (podman matching job) in
/-- What the runs need of the environment and of the jobs. -/
structure Sound : Prop where
  pathnames : Pathnames matching
  noPath : NoSuchPath matching
  behaves : podman.Behaves
  plain : ∀ j, (job j).Plain matching
  distinct : ∀ i j, i ≠ j → (job i).jobId ≠ (job j).jobId
  straight : ∀ j, Straight (job j).projectDir.text
  /-- No project directory lies in the directory of another job. -/
  apart : ∀ i j, i ≠ j → ¬ segments (jobPath (job i)) <+: segments (job j).projectDir.text

omit [DecidableEq J] in
/-- The command that a job is at. -/
theorem Underway.does (underway : Underway matching job runner) (sound : Sound podman matching job) {j : J}
    {script : Script} {words : List Text} {rest : List (List Text)} (busy : runner.status j = .busy script (words :: rest)) :
    Does podman (job j) words :=
  (deed_of_mem sound.pathnames sound.noPath sound.behaves.documented (sound.plain j)
    ((underway j script _ busy).mem List.mem_cons_self)).does sound.behaves

omit [DecidableEq J] in
/-- No job directory lies below the one of another job. -/
theorem Sound.jobPath_apart (sound : Sound podman matching job) {i j : J} (different : i ≠ j) :
    ¬ segments (jobPath (job i)) <+: segments (jobPath (job j)) :=
  GitlabRunner.jobPath_apart (sound.distinct i j different) (sound.apart i j different)

section
variable {alone : Runner C Unit} {j : J}

/-- The job goes on in both. -/
theorem Runner.Alone.set (seen : runner.Alone job j alone) (status : Status) :
    (runner.set j status).Alone job j (alone.set () status) where
  status := by rw [Runner.set_status, Runner.set_status, if_pos rfl, if_pos rfl]
  machine := seen.machine

/-- Another job goes on, which the one alone does not see. -/
theorem Runner.Alone.set_ne (seen : runner.Alone job j alone) {i : J} (different : i ≠ j) (status : Status) :
    (runner.set i status).Alone job j alone where
  status := by rw [Runner.set_status, if_neg different.symm, seen.status]
  machine := seen.machine

omit [DecidableEq J] in
/-- The machine changes, but not for the one job. -/
theorem Runner.Alone.of_agrees (seen : runner.Alone job j alone) {machine : Machine C} (agrees : alone.machine.Agrees (job j) machine) :
    { runner with machine }.Alone job j alone := ⟨seen.status, agrees⟩

/-- A step of the runner is for the job a step of its own, or none. -/
theorem alone_step (sound : Sound podman matching job) (underway : Underway matching job runner) (seen : runner.Alone job j alone)
    (taken : step podman matching job runner label = some next) :
    ∃ after, Lib.run (step podman matching fun _ : Unit => job j) alone (label.own job j).toList = some after ∧
      next.Alone job j after := by
  have single : ∀ label after, Moves podman matching (fun _ : Unit => job j) alone label after →
      Lib.run (step podman matching fun _ : Unit => job j) alone [label] = some after := by
    intro label after moves
    rw [run_cons, step_iff.2 moves]
    rfl
  cases step_iff.1 taken with
  | calls i script idle =>
    by_cases own : i = j
    · subst own
      rw [Label.own, if_pos rfl]
      exact ⟨_, single _ _ (.calls () script fun script rest busy => idle script rest (seen.status.symm.trans busy)), seen.set _⟩
    · rw [Label.own, if_neg own]
      exact ⟨alone, rfl, seen.set_ne own _⟩
  | @succeeds i script words rest machine busy performed =>
    have does := underway.does sound busy
    by_cases own : i = j
    · subst own
      rw [Label.own, if_pos rfl]
      obtain ⟨other, performed', agrees⟩ := does.agrees seen.machine performed
      have seen' : { runner with machine }.Alone job i { alone with machine := other } := ⟨seen.status, agrees⟩
      exact ⟨_, single _ _ (.succeeds (seen.status.trans busy) performed'), seen'.set _⟩
    · rw [Label.own, if_neg own]
      have agrees := does.agrees_other seen.machine (containerName_ne (sound.distinct j i (Ne.symm own)))
        (sound.jobPath_apart (Ne.symm own)) (sound.jobPath_apart own) performed
      exact ⟨alone, rfl, (seen.of_agrees agrees).set_ne own _⟩
  | @fails i _ _ _ busy =>
    by_cases own : i = j
    · subst own
      rw [Label.own, if_pos rfl]
      exact ⟨_, single _ _ (.fails (seen.status.trans busy)), seen.set _⟩
    · rw [Label.own, if_neg own]
      exact ⟨alone, rfl, seen.set_ne own _⟩
  | @exits i _ busy =>
    by_cases own : i = j
    · subst own
      rw [Label.own, if_pos rfl]
      exact ⟨_, single _ _ (.exits (seen.status.trans busy)), seen.set _⟩
    · rw [Label.own, if_neg own]
      exact ⟨alone, rfl, seen.set_ne own _⟩
  | @ends name container there =>
    by_cases own : name = containerName (job j)
    · subst own
      rw [Label.own, if_pos rfl]
      have here := seen.machine.container.trans there
      exact ⟨_, single _ _ (.ends here), seen.status, seen.machine.put _ _⟩
    · rw [Label.own, if_neg own]
      exact ⟨alone, rfl, seen.of_agrees (seen.machine.put_other (Ne.symm own) _)⟩

/-- Every run, seen by one job, is a run of that job alone. -/
theorem alone_run (sound : Sound podman matching job) (underway : Underway matching job runner) (seen : runner.Alone job j alone)
    {labels : List (Label J)} (ran : Lib.run (step podman matching job) runner labels = some next) :
    ∃ after, Lib.run (step podman matching fun _ : Unit => job j) alone (labels.filterMap (Label.own job j)) = some after ∧
      next.Alone job j after := by
  have moves : ∀ {s p label t}, Underway matching job s ∧ s.Alone job j p → step podman matching job s label = some t →
      ∃ q, Lib.run (step podman matching fun _ : Unit => job j) p (label.own job j).toList = some q ∧
        Underway matching job t ∧ t.Alone job j q := by
    rintro s p label t ⟨underway, seen⟩ taken
    obtain ⟨after, ran, seen⟩ := alone_step sound underway seen taken
    exact ⟨after, ran, underway.step taken, seen⟩
  obtain ⟨after, ran, -, seen⟩ := run_component_rel moves ⟨underway, seen⟩ ran
  exact ⟨after, ran, seen⟩

end

end

/-! ## Two jobs of a project -/

/-- A container that keeps the commands that were executed in it. -/
structure Container where
  config : Config
  running : Bool
  commands : List (List Text)
  deriving DecidableEq

namespace Container

/-- A command runs in a container that runs. -/
def execute (container : Container) (command : List Text) : Option Container :=
  if container.running then some { container with commands := container.commands ++ [command] } else none

/-- A container that has ended stays only without `--rm`. -/
def ended (container : Container) : Option Container :=
  if container.config.options.contains "--rm=true".toList then none else some { container with running := false }

/-- Containers are stopped in order, up to the first that is missing. -/
def stopAll : List Text → (Text → Option Container) → Option (Text → Option Container)
  | [], containers => some containers
  | name :: names, containers =>
    (containers name).bind fun container => stopAll names (Function.update containers name container.ended)

end Container

/-- A `podman` with such containers. -/
def plainPodman : Podman Container where
  reads := readPodman
  performs
    | .starts options image command, containers =>
      (nameOf options).bind fun name =>
        if (containers name).isNone then
          some (Function.update containers name (some ⟨⟨options, image, command⟩, true, []⟩))
        else none
    | .executes name command, containers =>
      (containers name).bind fun container =>
        (container.execute command).map fun after => Function.update containers name (some after)
    | .stops names, containers => Container.stopAll names containers
  config := Container.config
  running := Container.running
  fresh config := ⟨config, true, []⟩
  executed := Container.execute
  ended := Container.ended

/-- It behaves as podman documents it. -/
theorem behaves_plainPodman : plainPodman.Behaves where
  documented := documented_readPodman
  run containers named := by
    show (nameOf _).bind _ = _
    rw [named]
    rfl
  exec _ _ _ := rfl
  stop name containers := by
    rw [Option.map_eq_bind]
    rfl
  config_fresh _ := rfl
  running_fresh _ := rfl
  config_executed made := by
    obtain ⟨-, same⟩ := Option.ite_none_right_eq_some.1 made
    cases same
    rfl
  running_executed made := by
    obtain ⟨running, same⟩ := Option.ite_none_right_eq_some.1 made
    cases same
    exact running
  remove _ option := if_pos (List.contains_iff_mem.2 option)

/-- Two jobs of one project. -/
def twoJobs (late : Bool) : Job := jobOf "My_Project".toList (if late then 8 else 7)

/-- Their names and directories are apart. -/
theorem sound_twoJobs : Sound plainPodman noMatch twoJobs where
  pathnames := pathnames_noMatch
  noPath := noSuchPath_noMatch
  behaves := behaves_plainPodman
  plain := by
    intro late
    cases late <;> constructor <;> decide
  distinct := by decide
  straight := by decide
  apart := by decide

/-- The second job is prepared between the commands of the first one, and cleans up. -/
def twoPrepared : List (Label Bool) := [
  .calls false .prepare, .calls true .prepare, .succeeds false, .succeeds true, .succeeds true, .succeeds false,
  .exits true, .exits false, .calls true .cleanup, .succeeds true, .succeeds true, .exits true]

end GtpLibrary.GitlabRunner

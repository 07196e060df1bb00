import GtpLibrary.GitlabRunner.Isolation

/-!
# What the jobs leave

A container that runs is the one that `prepare.sh` has started for a job. A cleanup that succeeds
leaves nothing of its job; without a container of the job it fails, and then the directory stays.
-/

namespace GtpLibrary.GitlabRunner

open Lib Lib.Numerals Lib.Words

section
variable {C : Type} {podman : Podman C} {matching : Text → List Text} {job : Job} {words : List Text}
  {machine after : Machine C} {runner next : Runner C Unit} {label : Label Unit}

/-! ## The container -/

variable (podman job) in
/-- It runs and is as it was started, but for what was executed in it. -/
def Own (machine : Machine C) : Prop :=
  ∀ container, machine.containers (containerName job) = some container →
    podman.config container = job.config ∧ podman.running container = true

theorem put_containers (machine : Machine C) (name : Text) (container : Option C) :
    (machine.put name container).containers name = container :=
  Function.update_self ..

/-- `--rm=true` is one of the options. -/
theorem Own.ends (own : Own podman job machine) (behaves : podman.Behaves) {container : C}
    (there : machine.containers (containerName job) = some container) : podman.ended container = none := by
  apply behaves.remove
  rw [(own container there).1]
  simp [Job.config, Job.options, options]

theorem Own.perform (own : Own podman job machine) (behaves : podman.Behaves) (does : Does podman job words)
    (performed : machine.perform podman words = some after) : Own podman job after := by
  cases does with
  | makes all =>
    cases (all machine).symm.trans performed
    exact own
  | removes all =>
    cases (all machine).symm.trans performed
    exact own
  | nothing all =>
    cases (all machine).symm.trans performed
    exact own
  | starts all =>
    rw [all, Option.ite_none_right_eq_some] at performed
    cases performed.2
    intro container there
    rw [put_containers] at there
    cases there
    exact ⟨behaves.config_fresh _, behaves.running_fresh _⟩
  | executes command all =>
    rw [all] at performed
    obtain ⟨container, there, performed⟩ := Option.bind_eq_some_iff.1 performed
    obtain ⟨executed, made, rfl⟩ := Option.map_eq_some_iff.1 performed
    intro container' there'
    rw [put_containers] at there'
    cases there'
    exact ⟨(behaves.config_executed made).trans (own container there).1, behaves.running_executed made⟩
  | stops all =>
    rw [all] at performed
    obtain ⟨container, there, rfl⟩ := Option.map_eq_some_iff.1 performed
    intro container' there'
    rw [put_containers, own.ends behaves there] at there'
    cases there'

/-! ## Cleaning up -/

/-- Nothing is where the job's directory was. -/
def Cleared (job : Job) (machine : Machine C) : Prop :=
  ∀ directory, segments (jobPath job) <+: directory → machine.directories directory = false

theorem cleared_remove (machine : Machine C) (job : Job) : Cleared job (machine.remove (jobPath job)) := by
  intro directory below
  show (machine.directories directory && !decide _) = false
  rw [decide_eq_true below, Bool.not_true, Bool.and_false]

variable (podman job) in
/-- What `podman stop` does for the job. -/
def Stops (words : List Text) : Prop :=
  ∀ machine : Machine C, machine.perform podman words = (machine.containers (containerName job)).map fun container =>
    machine.put (containerName job) (podman.ended container)

/-- The two commands of `cleanup.sh`. -/
theorem cleanup_commands (sound : Sound podman matching fun _ : Unit => job) :
    ∃ stop rm, cleanup matching job = [stop, rm] ∧ Stops podman job stop ∧
      ∀ machine : Machine C, machine.perform podman rm = some (machine.remove (jobPath job)) := by
  have addresses := addresses_of_plain sound.pathnames sound.noPath sound.behaves.documented (sound.plain ())
  have asks : podman.reads (expand matching (podmanStop job)) = some (.stops [containerName job]) :=
    Option.toList_eq_singleton_iff.1 (filterMap_cleanup sound.behaves.documented ▸ addresses.cleans)
  have foreign : podman.reads ["rm".toList, "-rf".toList, jobPath job] = none :=
    sound.behaves.documented.foreign_cons (by decide) _
  refine ⟨expand matching (podmanStop job), ["rm".toList, "-rf".toList, jobPath job], ?_, fun machine => ?_,
    fun machine => machine.perform_none foreign⟩
  · rw [cleanup, expand_jobDir sound.pathnames]
  · rw [machine.perform_some asks, sound.behaves.stop, Option.map_map]
    rfl

variable (podman matching job) in
/-- How far the cleanup has come. -/
structure Cleaning (runner : Runner C Unit) : Prop where
  underway : Underway matching (fun _ => job) runner
  own : Own podman job runner.machine
  stopped : ∀ rest, runner.status () = .busy .cleanup rest → rest.length < 2 →
    runner.machine.containers (containerName job) = none
  removed : runner.status () = .busy .cleanup [] → Cleared job runner.machine
  cleaned : runner.status () = .over .cleanup true →
    runner.machine.containers (containerName job) = none ∧ Cleared job runner.machine

theorem cleaning_start : Cleaning podman matching job start where
  underway := underway_start
  own := nofun
  stopped := nofun
  removed := nofun
  cleaned := nofun

/-- What a command of the cleanup leaves, by how many there are behind it. -/
theorem cleanup_succeeds (sound : Sound podman matching fun _ : Unit => job) (own : Own podman job machine)
    {rest : List (List Text)} (suffix : words :: rest <:+ cleanup matching job)
    (performed : machine.perform podman words = some after) :
    (rest.length = 1 ∧ after.containers (containerName job) = none) ∨
      rest = [] ∧ after = machine.remove (jobPath job) := by
  obtain ⟨stop, rm, commands, stops, removes⟩ := cleanup_commands sound
  rw [commands, List.suffix_cons_iff] at suffix
  rcases suffix with same | later
  · cases same
    obtain ⟨container, there, rfl⟩ := Option.map_eq_some_iff.1 ((stops machine).symm.trans performed)
    rw [put_containers]
    exact .inl ⟨rfl, own.ends sound.behaves there⟩
  · rw [List.suffix_cons_iff] at later
    rcases later with same | nothing
    · cases same
      cases (removes machine).symm.trans performed
      exact .inr ⟨rfl, rfl⟩
    · cases List.suffix_nil.1 nothing

theorem Own.put (own : Own podman job machine) (behaves : podman.Behaves) {name : Text} {container : C}
    (there : machine.containers name = some container) : Own podman job (machine.put name (podman.ended container)) := by
  by_cases same : name = containerName job
  · subst same
    intro container' there'
    rw [put_containers, own.ends behaves there] at there'
    cases there'
  · intro container' there'
    exact own container' ((Function.update_of_ne (Ne.symm same) ..).symm.trans there')

/-- A container that ends is none that is not there. -/
theorem put_none {name : Text} {container : C} (there : machine.containers name = some container) {other : Text}
    (none : machine.containers other = none) {left : Option C} : (machine.put name left).containers other = Option.none := by
  have away : other ≠ name := by
    rintro rfl
    cases none.symm.trans there
  exact (Function.update_of_ne away ..).trans none

theorem Cleaning.step (sound : Sound podman matching fun _ : Unit => job) (cleaning : Cleaning podman matching job runner)
    (taken : step podman matching (fun _ => job) runner label = some next) : Cleaning podman matching job next := by
  have underway := cleaning.underway.step taken
  obtain ⟨before, own, stopped, removed, cleaned⟩ := cleaning
  cases step_iff.1 taken with
  | calls j script idle =>
    refine ⟨underway, own, fun rest busy short => ?_, fun busy => ?_, nofun⟩
    · cases busy
      exact absurd short (Nat.lt_irrefl 2)
    · cases busy
  | @succeeds j script words rest machine busy performed =>
    have does := before.does sound busy
    refine ⟨underway, own.perform sound.behaves does performed, fun rest' busy' short => ?_, fun busy' => ?_, nofun⟩
    · cases busy'
      rcases cleanup_succeeds sound own (before () .cleanup _ busy) performed with ⟨-, none⟩ | ⟨rfl, rfl⟩
      · exact none
      · exact stopped _ busy (Nat.lt_succ_self 1)
    · cases busy'
      rcases cleanup_succeeds sound own (before () .cleanup _ busy) performed with ⟨one, -⟩ | ⟨-, rfl⟩
      · cases one
      · exact cleared_remove _ job
  | fails busy => exact ⟨underway, own, nofun, nofun, nofun⟩
  | exits busy =>
    refine ⟨underway, own, nofun, nofun, fun past => ?_⟩
    cases past
    exact ⟨stopped [] busy (Nat.zero_lt_succ 1), removed busy⟩
  | ends there =>
    refine ⟨underway, own.put sound.behaves there, fun rest busy short => ?_, removed, fun past => ?_⟩
    · exact put_none there (stopped rest busy short)
    · exact ⟨put_none there (cleaned past).1, (cleaned past).2⟩

/-! ## Cleaning up in vain -/

variable (matching job) in
/-- There is no container to stop. -/
structure InVain (there : List Text → Bool) (runner : Runner C Unit) : Prop where
  none : runner.machine.containers (containerName job) = none
  directories : ∀ directory, segments (jobPath job) <+: directory → runner.machine.directories directory = there directory
  status : runner.status () = .busy .cleanup (cleanup matching job) ∨ runner.status () = .over .cleanup false

theorem InVain.step (sound : Sound podman matching fun _ : Unit => job) {there : List Text → Bool}
    (inVain : InVain matching job there runner) (noCall : ∀ script, label ≠ .calls () script)
    (taken : step podman matching (fun _ => job) runner label = some next) : InVain matching job there next := by
  obtain ⟨stop, rm, commands, stops, -⟩ := cleanup_commands sound
  obtain ⟨none, directories, status⟩ := inVain
  rw [commands] at status
  cases step_iff.1 taken with
  | calls j script => exact absurd rfl (noCall script)
  | succeeds busy performed =>
    rcases status with at_ | past
    · cases busy.symm.trans at_
      rw [stops runner.machine, none] at performed
      cases performed
    · cases busy.symm.trans past
  | fails busy =>
    rcases status with at_ | past
    · cases busy.symm.trans at_
      exact ⟨none, directories, .inr rfl⟩
    · cases busy.symm.trans past
  | exits busy =>
    rcases status with at_ | past
    · cases busy.symm.trans at_
    · cases busy.symm.trans past
  | ends ended =>
    refine ⟨put_none ended none, directories, ?_⟩
    rw [commands]
    exact status

end

/-! ## All the jobs -/

section
variable {C J : Type} [DecidableEq J] {podman : Podman C} {matching : Text → List Text} {job : J → Job}
  {runner next : Runner C J} {label : Label J} {labels : List (Label J)}

omit [DecidableEq J] in
theorem Sound.single (sound : Sound podman matching job) (j : J) : Sound podman matching fun _ : Unit => job j where
  pathnames := sound.pathnames
  noPath := sound.noPath
  behaves := sound.behaves
  plain _ := sound.plain j
  distinct i i' different := absurd (Subsingleton.elim i i') different
  straight _ := sound.straight j
  apart i i' different := absurd (Subsingleton.elim i i') different

/-- Whatever is there belongs to a job: a container by its name, a directory as the job's own or one above it. -/
structure Accounted (job : J → Job) (machine : Machine C) : Prop where
  containers : ∀ name, machine.containers name ≠ none → ∃ j, name = containerName (job j)
  directories : ∀ directory, machine.directories directory = true → ∃ j, directory <+: segments (jobPath (job j))

omit [DecidableEq J] in
variable (job) in
theorem Accounted.put {machine : Machine C} (accounted : Accounted job machine) {name : Text} {container : Option C}
    (belongs : ∃ j, name = containerName (job j)) : Accounted job (machine.put name container) where
  containers other there := by
    by_cases same : other = name
    · exact same ▸ belongs
    · exact accounted.containers other fun none => there ((Function.update_of_ne same ..).trans none)
  directories := accounted.directories

omit [DecidableEq J] in
theorem Accounted.perform {machine after : Machine C} (accounted : Accounted job machine) {j : J} {words : List Text}
    (does : Does podman (job j) words) (performed : machine.perform podman words = some after) : Accounted job after := by
  cases does with
  | makes all =>
    cases (all machine).symm.trans performed
    refine ⟨accounted.containers, fun directory there => ?_⟩
    rcases (Bool.or_eq_true ..).mp there with before | above
    · exact accounted.directories directory before
    · exact ⟨j, of_decide_eq_true above⟩
  | removes all =>
    cases (all machine).symm.trans performed
    exact ⟨accounted.containers, fun directory there => accounted.directories directory ((Bool.and_eq_true ..).mp there).1⟩
  | nothing all =>
    cases (all machine).symm.trans performed
    exact accounted
  | starts all =>
    rw [all, Option.ite_none_right_eq_some] at performed
    cases performed.2
    exact accounted.put job ⟨j, rfl⟩
  | executes command all =>
    rw [all] at performed
    obtain ⟨container, -, performed⟩ := Option.bind_eq_some_iff.1 performed
    obtain ⟨executed, -, rfl⟩ := Option.map_eq_some_iff.1 performed
    exact accounted.put job ⟨j, rfl⟩
  | stops all =>
    rw [all] at performed
    obtain ⟨container, -, rfl⟩ := Option.map_eq_some_iff.1 performed
    exact accounted.put job ⟨j, rfl⟩

theorem Accounted.step (sound : Sound podman matching job) (underway : Underway matching job runner)
    (accounted : Accounted job runner.machine) (taken : step podman matching job runner label = some next) :
    Accounted job next.machine := by
  cases step_iff.1 taken with
  | calls => exact accounted
  | succeeds busy performed => exact accounted.perform (underway.does sound busy) performed
  | fails => exact accounted
  | exits => exact accounted
  | @ends name container there =>
    have filled : runner.machine.containers name ≠ none := by
      rw [there]
      exact Option.some_ne_none container
    exact accounted.put job (accounted.containers name filled)

/-- A call of the job alone is a call of the job. -/
theorem Label.calls_of_own {j : J} {script : Script} (own : label.own job j = some (.calls () script)) :
    label = .calls j script := by
  cases label with
  | calls i script' =>
    obtain ⟨rfl, same⟩ := Option.ite_none_right_eq_some.1 own
    cases same
    rfl
  | succeeds i => cases (Option.ite_none_right_eq_some.1 own).2
  | fails i => cases (Option.ite_none_right_eq_some.1 own).2
  | exits i => cases (Option.ite_none_right_eq_some.1 own).2
  | ends name => cases (Option.ite_none_right_eq_some.1 own).2

end

end GtpLibrary.GitlabRunner

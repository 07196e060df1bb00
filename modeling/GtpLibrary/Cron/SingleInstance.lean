import GtpLibrary.Cron.PidFile

/-!
# At most one instance in the loop

The pid file is tested and written in two steps, and every trap removes it, whoever wrote
it. Two schedules break the lock: an instance writes the file while another one has
already tested for it, and a trap runs while the file is another instance's. `Locked` is
the invariant of the runs without these; `two_of_write` and `two_of_removal` lead from
each of the two to a second instance in the loop. That the file can be tested at all takes
a path that is one word of the shell, which all starts compute (`two_in_loop_blank`).
-/

namespace GtpLibrary.Cron

open Lib Lib.Numerals Lib.Words

/-- No instance writes the pid file while another waits to, and no trap removes the file
of another instance. -/
def Orderly (s : Host) : Label → Prop
  | .start _ _ => True
  | .act pid action =>
    (action = .write → ∀ q ≠ pid, ¬ s.Is Phase.Waiting q) ∧
      ∀ i, s.instances pid = some i → i.removes action → ∀ q ≠ pid, ¬ s.Is Phase.Holding q

/-- The pid file is there where it should be, and nobody waits to overwrite it. -/
structure Locked (s : Host) : Prop where
  one : ∀ p q, s.Is Phase.Holding p → s.Is Phase.Holding q → p = q
  file : ∀ p, s.Is Phase.Holding p → s.pidFile ≠ none
  apart : ∀ p q, s.Is Phase.Waiting p → ¬ s.Is Phase.Holding q

section
variable {s t : Host} {label : Label}

theorem Locked.initial : Locked .initial where
  one _ _ first := absurd first (not_is_of_free rfl)
  file _ holding := absurd holding (not_is_of_free rfl)
  apart _ _ waiting := absurd waiting (not_is_of_free rfl)

theorem Locked.start {pid : Nat} {arguments : List (List Byte)} (locked : Locked s)
    (taken : step s (.start pid arguments) = some t) : Locked t := by
  obtain ⟨-, rfl⟩ := start_of_step taken
  have held : ∀ q, (s.put s.pidFile pid ⟨arguments, if s.pidFile.isSome then .ended (some 1) else .tested⟩).Is
      Phase.Holding q → s.Is Phase.Holding q := by
    intro q holding
    rw [is_put] at holding
    split at holding
    · split at holding <;> cases holding
    · exact holding
  refine ⟨fun p q first second => locked.one p q (held p first) (held q second),
    fun p holding => locked.file p (held p holding), ?_⟩
  intro p q waiting holding
  have holder := held q holding
  rw [is_put] at waiting
  split at waiting
  · have file := Option.isSome_iff_ne_none.2 (locked.file q holder)
    rw [if_pos file] at waiting
    exact waiting
  · exact locked.apart p q waiting holder

/-- Who holds the pid file behind a step held it before, or writes it now. -/
theorem holding_act {pid : Nat} {action : Action} {i : Instance} {phase : Phase} {file : Option Nat}
    (there : s.instances pid = some i) (moves : Moves i.arguments i.phase action phase)
    (own : i.removes action → ∀ q ≠ pid, ¬ s.Is Phase.Holding q) {q : Nat}
    (holding : (s.put file pid { i with phase := phase }).Is Phase.Holding q) :
    (s.Is Phase.Holding q ∧ i.removes action = false) ∨
      (q = pid ∧ action = .write ∧ s.Is Phase.Waiting pid) := by
  rw [is_put] at holding
  by_cases same : q = pid
  · subst same
    rw [if_pos rfl] at holding
    rcases moves.holding holding with ⟨write, waiting⟩ | ⟨held, kept⟩
    · exact .inr ⟨rfl, write, i, there, waiting⟩
    · exact .inl ⟨⟨i, there, held⟩, kept⟩
  · rw [if_neg same] at holding
    refine .inl ⟨holding, ?_⟩
    rw [Bool.eq_false_iff]
    intro removes
    exact own removes q same holding

/-- Who waits behind a step waited before, and did not write. -/
theorem waiting_act {pid : Nat} {action : Action} {i : Instance} {phase : Phase} {file : Option Nat}
    (there : s.instances pid = some i) (moves : Moves i.arguments i.phase action phase) {q : Nat}
    (waiting : (s.put file pid { i with phase := phase }).Is Phase.Waiting q) :
    s.Is Phase.Waiting q ∧ (q = pid → action ≠ .write) := by
  rw [is_put] at waiting
  by_cases same : q = pid
  · subst same
    rw [if_pos rfl] at waiting
    obtain ⟨before, other, -⟩ := moves.waiting waiting
    exact ⟨⟨i, there, before⟩, fun _ => other⟩
  · rw [if_neg same] at waiting
    exact ⟨waiting, fun eq => absurd eq same⟩

theorem Locked.act {pid : Nat} {action : Action} (locked : Locked s) (orderly : Orderly s (.act pid action))
    (taken : step s (.act pid action) = some t) : Locked t := by
  obtain ⟨i, phase, there, moves, rfl⟩ := act_of_step taken
  obtain ⟨unrivalled, own⟩ := orderly
  constructor
  · intro p q first second
    rcases holding_act there moves (own i there) first with ⟨held, -⟩ | ⟨rfl, -, waiting⟩
    · rcases holding_act there moves (own i there) second with ⟨held', -⟩ | ⟨rfl, -, waiting⟩
      · exact locked.one p q held held'
      · exact absurd held (locked.apart q p waiting)
    · rcases holding_act there moves (own i there) second with ⟨second, -⟩ | ⟨rfl, -, -⟩
      · exact absurd second (locked.apart p q waiting)
      · rfl
  · intro p holding
    show pidFileAfter s.pidFile pid i action ≠ none
    unfold pidFileAfter
    rcases holding_act there moves (own i there) holding with ⟨held, kept⟩ | ⟨-, write, -⟩
    · split
      · exact Option.some_ne_none pid
      · rw [kept]
        exact locked.file p held
    · rw [if_pos write]
      exact Option.some_ne_none pid
  · intro p q waiting holding
    obtain ⟨waited, other⟩ := waiting_act there moves waiting
    rcases holding_act there moves (own i there) holding with ⟨held, -⟩ | ⟨rfl, write, -⟩
    · exact locked.apart p q waited held
    · by_cases same : p = q
      · exact other same write
      · exact unrivalled write p same waited

theorem Locked.step (locked : Locked s) (orderly : Orderly s label) (taken : step s label = some t) :
    Locked t := by
  cases label with
  | start pid arguments => exact locked.start taken
  | act pid action => exact locked.act orderly taken

/-- A start computes this path of the pid file, and another step is orderly. -/
def OrderlyAt (path : Text) (m : Machine) : Step → Prop
  | .start _ pidFile _ => pidFile = path
  | .act pid action => Orderly (m.host path) (.act pid action)

theorem OrderlyAt.orderly {path : Text} {m : Machine} {label : Step} (orderly : OrderlyAt path m label) :
    label.Computes path ∧ Orderly (m.host path) label.label := by
  cases label with
  | start pid pidFile arguments => exact ⟨orderly, trivial⟩
  | act pid action => exact ⟨trivial, orderly⟩

/-- **Single instance.** Where the path of the pid file is one word, in an orderly run at most one instance
is inside the loop. -/
theorem one_in_loop {matching : Text → List Text} {expression : List Text → Bool} {path : Text} {m : Machine}
    {labels : List Step} (pathnames : Pathnames matching) (word : OneWord path)
    (along : Along (machineStep matching expression) (OrderlyAt path) .initial labels)
    (ran : run (machineStep matching expression) .initial labels = some m) {p q : Nat} (first : m.Is Phase.InLoop p)
    (second : m.Is Phase.InLoop q) : p = q := by
  let Kept : Machine → Prop := fun m => Locked (m.host path) ∧ m.Computed path
  have keep : ∀ {m n label}, Kept m → OrderlyAt path m label → machineStep matching expression m label = some n → Kept n := by
    rintro m n label ⟨locked, computed⟩ orderly taken
    obtain ⟨computes, orderly⟩ := orderly.orderly
    obtain ⟨taken, computed⟩ := host_step pathnames word computed computes taken
    exact ⟨locked.step orderly taken, computed⟩
  have start : Kept .initial := ⟨.initial, nofun⟩
  obtain ⟨locked, -⟩ : Kept m := along.invariant keep start ran
  obtain ⟨i, there, inLoop⟩ := is_host.2 first
  obtain ⟨j, there', inLoop'⟩ := is_host.2 second
  exact locked.one p q ⟨i, there, inLoop.holding⟩ ⟨j, there', inLoop'.holding⟩

/-- An instance that is alone disturbs nobody. -/
theorem OrderlyAt.of_alone {path : Text} {m : Machine} {pid : Nat} {action : Action}
    (alone : ∀ q ≠ pid, m.instances q = none) : OrderlyAt path m (.act pid action) := by
  have nobody : ∀ phases, ∀ q ≠ pid, ¬ (m.host path).Is phases q := fun _ q other =>
    not_is_of_free (congrArg (Option.map Prod.snd) (alone q other))
  exact ⟨fun _ => nobody _, fun _ _ _ => nobody _⟩

end

/-- `crontab_second.sh 1 true`. -/
def everySecond : List (List Byte) := [text "1", text "true"]

/-- A directory without matches, and `[` refuses what is no file name. -/
abbrev everyStep : Machine → Step → Option Machine := machineStep (fun t => [t]) fun _ => false

def pidFilePath : Text := "/root/crontab_second.sh.pid_file".toList

/-- A second start while the first instance is in the loop. -/
theorem one_in_loop_second : ∃ m, run everyStep .initial
    [.start 1 pidFilePath everySecond, .act 1 .trap, .act 1 .write, .act 1 .check,
      .start 2 pidFilePath everySecond] = some m ∧
      m.Is Phase.InLoop 1 ∧ ∀ q, m.Is Phase.InLoop q → q = 1 := by
  obtain ⟨m, ran, first⟩ : ∃ m, run everyStep .initial
      [.start 1 pidFilePath everySecond, .act 1 .trap, .act 1 .write, .act 1 .check,
        .start 2 pidFilePath everySecond] = some m ∧ m.Is Phase.InLoop 1 := ⟨_, rfl, _, _, rfl, trivial⟩
  have pathnames : Pathnames fun t => [t] := ⟨fun _ _ => rfl, fun _ => List.cons_ne_nil _ _⟩
  have word : OneWord pidFilePath :=
    ⟨by decide, forall_eq_false (by decide), forall_eq_false (by decide)⟩
  refine ⟨m, ran, first, fun q second => one_in_loop pathnames word ?_ ran second first⟩
  have alone : ∀ (m : Machine) files i, (∀ q ≠ 1, m.instances q = none) →
      ∀ q ≠ 1, (m.put files 1 pidFilePath i).instances q = none := by
    intro m files i alone q other
    exact (Function.update_of_ne other ..).trans (alone q other)
  have nobody : ∀ q ≠ 1, Machine.initial.instances q = none := fun _ _ => rfl
  refine (along_cons rfl).2 ⟨rfl, (along_cons rfl).2 ⟨.of_alone (alone _ _ _ nobody), ?_⟩⟩
  refine (along_cons rfl).2 ⟨.of_alone (alone _ _ _ (alone _ _ _ nobody)), ?_⟩
  refine (along_cons rfl).2 ⟨.of_alone (alone _ _ _ (alone _ _ _ (alone _ _ _ nobody))), ?_⟩
  exact (along_cons rfl).2 ⟨rfl, trivial⟩

/-- Both instances test before either writes. -/
theorem two_in_loop : ∃ m, run everyStep .initial
    [.start 1 pidFilePath everySecond, .start 2 pidFilePath everySecond, .act 1 .trap, .act 2 .trap, .act 1 .write,
      .act 2 .write, .act 1 .check, .act 2 .check] = some m ∧ m.Is Phase.InLoop 1 ∧ m.Is Phase.InLoop 2 :=
  ⟨_, rfl, ⟨_, _, rfl, trivial⟩, ⟨_, _, rfl, trivial⟩⟩

/-- A blank in the path: the second start comes when the first instance is in the loop, and does not see its file. -/
theorem two_in_loop_blank : ∃ m, run everyStep .initial
    [.start 1 "/my scripts/every.sh.pid_file".toList everySecond, .act 1 .trap, .act 1 .write, .act 1 .check,
      .start 2 "/my scripts/every.sh.pid_file".toList everySecond, .act 2 .trap, .act 2 .write, .act 2 .check] = some m ∧
      m.Is Phase.InLoop 1 ∧ m.Is Phase.InLoop 2 :=
  ⟨_, rfl, ⟨_, _, rfl, trivial⟩, ⟨_, _, rfl, trivial⟩⟩

section
variable {s t : Host}

/-! ## The two races -/

/-- Left alone, an instance that waits gets into the loop. -/
theorem enters {q : Nat} {j : Instance} (there : s.instances q = some j) (waiting : j.phase.Waiting)
    (valid : checkArguments j.arguments = none) :
    ∃ labels t, run step s labels = some t ∧ t.Is Phase.InLoop q ∧ ∀ p ≠ q, t.instances p = s.instances p := by
  have fromTrapped : ∀ (s : Host) (j : Instance), s.instances q = some j → j.phase = .trapped →
      checkArguments j.arguments = none →
      ∃ t, run step s [.act q .write, .act q .check] = some t ∧ t.Is Phase.InLoop q ∧
        ∀ p ≠ q, t.instances p = s.instances p := by
    intro s j there trapped valid
    have write : j.next .write = some .wrote := by simp only [Instance.next, trapped]
    have check : Instance.next { j with phase := .wrote } .check = some .running := by
      simp only [Instance.next, valid]
    refine ⟨_, run_cons_eq_some.2 ⟨_, step_act there write,
      run_cons_eq_some.2 ⟨_, step_act put_self check, rfl⟩⟩, ⟨_, put_self, trivial⟩, ?_⟩
    intro p other
    rw [put_other other, put_other other]
  cases phase : j.phase with
  | trapped =>
    obtain ⟨t, ran⟩ := fromTrapped s j there phase valid
    exact ⟨_, t, ran⟩
  | tested =>
    have trap : j.next .trap = some .trapped := by simp only [Instance.next, phase]
    have taken := step_act there trap
    obtain ⟨t, ran, inLoop, others⟩ := fromTrapped _ { j with phase := .trapped } put_self rfl valid
    refine ⟨_, t, run_cons_eq_some.2 ⟨_, taken, ran⟩, inLoop, ?_⟩
    intro p other
    rw [others p other, put_other other]
  | _ =>
    rw [phase] at waiting
    exact waiting.elim

/-- Where one instance writes while another waits, both can get into the loop. -/
theorem two_of_write {p q : Nat} {i j : Instance} (there : s.instances p = some i) (there' : s.instances q = some j)
    (other : q ≠ p) (first : i.phase.Waiting) (second : j.phase.Waiting)
    (valid : checkArguments i.arguments = none) (valid' : checkArguments j.arguments = none) :
    ∃ labels t, run step s labels = some t ∧ t.Is Phase.InLoop p ∧ t.Is Phase.InLoop q := by
  obtain ⟨labels, t, ran, ⟨k, here, inLoop⟩, others⟩ := enters there first valid
  obtain ⟨labels', u, ran', inLoop', others'⟩ := enters ((others q other).trans there') second valid'
  refine ⟨labels ++ labels', u, ?_, ⟨k, (others' p other.symm).trans here, inLoop⟩, inLoop'⟩
  rw [run_append, ran]
  exact ran'

/-- Where a trap removes the file of an instance in the loop, the next start gets in too. -/
theorem two_of_removal {p q r : Nat} {i : Instance} {action : Action} (there : s.instances p = some i)
    (removes : i.removes action = true) (taken : step s (.act p action) = some t) (other : q ≠ p)
    (inLoop : s.Is Phase.InLoop q) (fresh : t.instances r = none) :
    ∃ labels u, run step t labels = some u ∧ u.Is Phase.InLoop q ∧ u.Is Phase.InLoop r := by
  obtain ⟨i', phase, there', -, rfl⟩ := act_of_step taken
  obtain rfl : i = i' := Option.some.inj (there.symm.trans there')
  have gone : pidFileAfter s.pidFile p i action = none := by
    unfold pidFileAfter
    rw [if_pos removes, if_neg (by rintro rfl; cases removes)]
  obtain ⟨j, here, looping⟩ := inLoop
  have stays : q ≠ r := by
    rintro rfl
    rw [put_other other, here] at fresh
    cases fresh
  rw [gone] at fresh ⊢
  have started : step (s.put none p { i with phase := phase }) (.start r everySecond) =
      some ((s.put none p { i with phase := phase }).put none r ⟨everySecond, .tested⟩) := by
    simp only [step, fresh]
    rfl
  obtain ⟨labels, u, ran, inLoop', others⟩ := enters (j := ⟨everySecond, .tested⟩)
    (s := (s.put none p { i with phase := phase }).put none r ⟨everySecond, .tested⟩) put_self trivial
    (by decide)
  refine ⟨_, u, run_cons_eq_some.2 ⟨_, started, ran⟩, ⟨j, ?_, looping⟩, inLoop'⟩
  rw [others q stays, put_other stays, put_other other, here]

end

end GtpLibrary.Cron

import GtpLibrary.Barrier.Passing
import GtpLibrary.Lib.Progress
import Mathlib.Algebra.GroupWithZero.Nat
import Mathlib.Algebra.Order.BigOperators.Group.List

/-!
# When the program ends

Where as many are needed as there are workers, some thread can always go on until `main` is done, and
only the waits that end early make a run longer. `notify_all` puts back all that wait, so a step in
front of it is worth as much as that. Where another number is needed, the last worker to count itself
stays inside.
-/

namespace GtpLibrary.Barrier

open Lib

/-! ## Nobody is forgotten -/

/-- Whoever waits although enough have counted is about to be notified. -/
def Notified (needed : Nat) (s : Program) : Prop :=
  s.c = needed → (∃ w ∈ s.workers, w.point = .waiting) → ∃ w ∈ s.workers, w.point = .notify

section
variable {n needed i rand : Nat} {s t : Program} {w v : Worker} {label : Label} {labels : List Label}

/-- A step that neither makes its worker wait nor takes away a notification. -/
theorem Notified.set (notified : Notified needed s) (there : s.workers[i]? = some w) (workers : t.workers = s.workers.set i v)
    (same : t.c = s.c) (before : w.point ≠ .notify) (after : v.point ≠ .waiting) : Notified needed t := by
  rintro enough ⟨u, member, waiting⟩
  rw [workers] at member ⊢
  have inside : u ∈ s.workers := by
    rcases List.mem_or_eq_of_mem_set member with inside | rfl
    · exact inside
    · exact absurd waiting after
  obtain ⟨u', member', notify⟩ := notified (same ▸ enough) ⟨u, inside, waiting⟩
  obtain ⟨j, again⟩ := List.mem_iff_getElem?.1 member'
  have other : i ≠ j := by
    rintro rfl
    cases there.symm.trans again
    exact before notify
  exact ⟨u', List.mem_of_getElem? ((List.getElem?_set_ne other).trans again), notify⟩

/-- Every step keeps it: the last one that counts wakes the others. -/
theorem Notified.step (notified : Notified needed s) (taken : step n needed s label = some t) : Notified needed t := by
  cases step_taken taken with
  | mainLog | mainLogged | join => exact notified
  | create here =>
    rintro enough ⟨u, member, waiting⟩
    rcases List.mem_append.1 member with inside | last
    · obtain ⟨u', member', notify⟩ := notified enough ⟨u, inside, waiting⟩
      exact ⟨u', List.mem_append_left _ member', notify⟩
    · rw [List.mem_singleton.1 last] at waiting
      cases waiting
  | start there here | lock there here | pass there here | relock there here | unlock there here | wake there here =>
    exact notified.set there rfl rfl (by rw [here]; nofun) nofun
  | @log i rand w line next there here free =>
    obtain ⟨sec, point⟩ := w
    cases point <;> cases here <;> exact notified.set there rfl rfl nofun nofun
  | @logged i rand w next there here =>
    obtain ⟨sec, point⟩ := w
    cases point <;> cases here <;> exact notified.set there rfl rfl nofun nofun
  | count there here =>
    rintro - -
    exact ⟨_, List.mem_of_getElem? (List.getElem?_set_self (List.getElem?_eq_some_iff.1 there).1), rfl⟩
  | notify there here =>
    rintro - ⟨u, member, waiting⟩
    rcases List.mem_or_eq_of_mem_set member with inside | rfl
    · obtain ⟨⟨sec, point⟩, -, rfl⟩ := List.mem_map.1 inside
      cases point <;> cases waiting
    · cases waiting
  | wait there here notEnough =>
    intro enough
    exact absurd enough notEnough

/-! ## Somebody can go on -/

/-- A worker that cannot go on while nobody prints waits or has to wait for the mutex, or has ended. -/
theorem stuck_worker (free : s.coutMtx = none) (stuck : stepWorker needed s i 0 w = none) :
    w.point = .waiting ∨ w.point = .ended ∨ ((w.point = .lock ∨ w.point = .woken) ∧ s.sharedMtx ≠ none) := by
  obtain ⟨sec, point⟩ := w
  cases point <;> simp [stepWorker, Worker.log, Point.logged, free] at stuck ⊢
  case lock | woken => exact stuck
  case test => split_ifs at stuck

/-- Who holds the mutex of `cout` can leave it. -/
theorem Kept.goesOn_of_writer (kept : Kept n s) {thread : Thread} (owner : s.coutMtx = some thread) :
    ∃ (label : Label) (t : Program), label.isWake = false ∧ Barrier.step n needed s label = some t := by
  have logs := (kept.writer thread).1 owner
  cases thread with
  | main =>
    change s.main.logs = true at logs
    refine ⟨.main, ?_⟩
    cases point : s.main <;> rw [point] at logs <;> cases logs <;>
      exact ⟨_, rfl, by simp only [Barrier.step, stepMain, point, Main.logged]; rfl⟩
  | worker i =>
    change s.workers[i]?.elim false _ = true at logs
    cases there : s.workers[i]? with
    | none =>
      rw [there] at logs
      cases logs
    | some w =>
      rw [there] at logs
      obtain ⟨sec, point⟩ := w
      refine ⟨.worker i 0, ?_⟩
      cases point <;> cases logs <;>
        exact ⟨_, rfl, by simp only [Barrier.step, there, stepWorker, Point.logged]; rfl⟩

/-- When all workers are stuck while nobody prints, those that have not ended wait. -/
theorem Kept.waiting_of_stuck (kept : Kept n s) (free : s.coutMtx = none)
    (stuck : ∀ (i : Nat) (w : Worker), s.workers[i]? = some w → stepWorker needed s i 0 w = none) :
    ∀ w ∈ s.workers, w.point = .waiting ∨ w.point = .ended := by
  have unowned : s.sharedMtx = none := by
    rw [Option.eq_none_iff_forall_ne_some]
    intro i owner
    have holds := (kept.holder i).1 owner
    change s.workers[i]?.elim false _ = true at holds
    cases there : s.workers[i]? with
    | none =>
      rw [there] at holds
      cases holds
    | some w =>
      rw [there] at holds
      change w.point.holds = true at holds
      rcases stuck_worker free (stuck i w there) with here | here | ⟨here | here, -⟩ <;>
        rw [here] at holds <;> cases holds
  intro w member
  obtain ⟨i, there⟩ := List.mem_iff_getElem?.1 member
  rcases stuck_worker free (stuck i w there) with here | here | ⟨-, owned⟩
  · exact .inl here
  · exact .inr here
  · exact absurd unowned owned

/-- Somebody can always take a step, until `main` is done. -/
theorem goesOn (kept : Kept n s) (notified : Notified n s) (running : s.main ≠ .done) :
    ∃ label t, label.isWake = false ∧ step n n s label = some t := by
  cases free : s.coutMtx with
  | some thread => exact kept.goesOn_of_writer free
  | none =>
    by_cases others : ∃ i w, s.workers[i]? = some w ∧ stepWorker n s i 0 w ≠ none
    · obtain ⟨i, w, there, goes⟩ := others
      obtain ⟨t, taken⟩ := Option.ne_none_iff_exists'.1 goes
      refine ⟨.worker i 0, t, rfl, ?_⟩
      simp only [step, there]
      exact taken
    · have stuck : ∀ (i : Nat) (w : Worker), s.workers[i]? = some w → stepWorker n s i 0 w = none := by
        intro i w there
        by_contra goes
        exact others ⟨i, w, there, goes⟩
      have waiting := kept.waiting_of_stuck free stuck
      refine ⟨.main, ?_⟩
      have created := kept.created
      cases point : s.main with
      | logStart | logEnd => exact ⟨_, rfl, by simp only [step, stepMain, point, Main.log, free]; rfl⟩
      | loggedStart | loggedEnd => exact ⟨_, rfl, by simp only [step, stepMain, point, Main.logged]; rfl⟩
      | create i => exact ⟨_, rfl, by simp only [step, stepMain, point]; rfl⟩
      | done => exact absurd point running
      | join i =>
        rw [point] at created
        obtain ⟨length, less⟩ := created
        obtain ⟨w, there⟩ : ∃ w, s.workers[i]? = some w := ⟨_, List.getElem?_eq_getElem (by omega)⟩
        have member := List.mem_of_getElem? there
        have ended : w.point = .ended := by
          refine (waiting w member).resolve_left fun asleep => ?_
          -- all have counted, so the one that sleeps was about to be notified
          have all : s.c = n := by
            rw [kept.counted, ← length, List.countP_eq_length]
            intro u inside
            rcases waiting u inside with here | here <;> rw [here] <;> rfl
          obtain ⟨u, inside, notify⟩ := notified all ⟨w, member, asleep⟩
          rcases waiting u inside with here | here <;> rw [here] at notify <;> cases notify
        exact ⟨_, rfl, by simp only [step, stepMain, point, there, Option.map_some, ended, if_true]; rfl⟩

end

/-! ## The steps that are left -/

/-- What a worker has in front of it among `n`; `notify_all` may put back all of them. -/
def Point.left (n : Nat) : Point → Nat
  | .start => 2 * n + 13
  | .logSleeping => 2 * n + 12
  | .loggedSleeping => 2 * n + 11
  | .lock => 2 * n + 10
  | .count => 2 * n + 9
  | .notify => 2 * n + 8
  | .logReached => 7
  | .loggedReached | .woken => 6
  | .test => 5
  | .waiting => 4
  | .unlock => 3
  | .logPassed => 2
  | .loggedPassed => 1
  | .ended => 0

/-- The steps `main` has left, with those of the workers it will create. -/
def Main.left (n : Nat) : Main → Nat
  | .logStart => n * (2 * n + 14) + n + 5
  | .loggedStart => n * (2 * n + 14) + n + 4
  | .create i => (n - i) * (2 * n + 14) + n + 3
  | .join i => n - i + 2
  | .logEnd => 2
  | .loggedEnd => 1
  | .done => 0

/-- The steps that are left of all threads. -/
def Program.left (n : Nat) (s : Program) : Nat := s.main.left n + (s.workers.map fun w => w.point.left n).sum

section
variable {n needed i rand : Nat} {s t : Program} {w v : Worker} {label : Label} {labels : List Label}

/-- Joining has no more steps left than workers. -/
theorem left_joining (i : Nat) : (Main.joining n i).left n ≤ n - i + 2 := by
  unfold Main.joining
  split_ifs with less
  · exact Nat.le_refl _
  · exact Nat.le_add_left 2 _

/-- Creating has the steps left of the workers to come. -/
theorem left_creating (i : Nat) : (Main.creating n i).left n ≤ (n - i) * (2 * n + 14) + n + 3 := by
  unfold Main.creating
  split_ifs with less
  · exact Nat.le_refl _
  · have joining := @left_joining n 0
    omega

/-- A worker that is woken has two steps more. -/
theorem sum_left_notified (workers : List Worker) :
    ((workers.map Worker.notified).map fun w => w.point.left n).sum ≤
      (workers.map fun w => w.point.left n).sum + 2 * workers.length := by
  induction workers with
  | nil => exact Nat.le_refl _
  | cons first workers ih =>
    have one : first.notified.point.left n ≤ first.point.left n + 2 := by
      obtain ⟨sec, point⟩ := first
      cases point <;> simp [Worker.notified, Point.left]
    simp only [List.map_cons, List.sum_cons, List.length_cons]
    omega

/-- A worker's step costs what its two points differ by. -/
theorem left_move (there : s.workers[i]? = some w) (workers : t.workers = s.workers.set i v) (main : t.main = s.main)
    {k : Nat} (less : v.point.left n + 1 ≤ w.point.left n + k) : t.left n + 1 ≤ s.left n + k := by
  have sums := sum_map_set (b := v) (fun w : Worker => w.point.left n) there
  rw [← workers] at sums
  unfold Program.left
  rw [main]
  omega

/-- A step of `main` takes one from the rank. -/
theorem left_main (workers : t.workers = s.workers) (less : t.main.left n + 1 ≤ s.main.left n) {k : Nat} :
    t.left n + 1 ≤ s.left n + k := by
  unfold Program.left
  rw [workers]
  omega

/-- Each step takes one from the rank; one that wakes by itself adds two. -/
theorem left_falls (kept : Kept n s) (taken : step n needed s label = some t) :
    t.left n + 1 ≤ s.left n + if label.isWake then 2 + 1 else 0 := by
  cases step_taken taken with
  | @mainLog line next here free =>
    refine left_main (by rfl) ?_
    cases point : s.main <;> rw [point] at here <;> cases here <;> exact Nat.le_refl _
  | @mainLogged next here =>
    refine left_main (by rfl) ?_
    cases point : s.main <;> rw [point] at here <;> cases here
    · exact Nat.succ_le_succ (left_creating 0)
    · exact Nat.le_refl _
  | @create i here =>
    have created := kept.created
    rw [here] at created
    obtain ⟨-, less⟩ := created
    have creating := @left_creating n (i + 1)
    have here' : s.main.left n = (n - (i + 1)) * (2 * n + 14) + (2 * n + 14) + n + 3 := by
      rw [here, ← Nat.succ_mul, Nat.succ_eq_add_one, show n - (i + 1) + 1 = n - i by omega]
      rfl
    show (Main.creating n (i + 1)).left n + ((s.workers ++ [(⟨0, .start⟩ : Worker)]).map _).sum + 1 ≤ s.left n + 0
    rw [List.map_append, List.sum_append, Program.left, here']
    show _ + (_ + (2 * n + 13)) + 1 ≤ _
    omega
  | @join i w here there ended =>
    have created := kept.created
    rw [here] at created
    obtain ⟨-, less⟩ := created
    refine left_main (by rfl) ?_
    rw [here]
    have joining := @left_joining n (i + 1)
    show (Main.joining n (i + 1)).left n + 1 ≤ n - i + 2
    omega
  | start there here | lock there here | count there here | pass there here | wait there here | relock there here
  | unlock there here | wake there here =>
    refine left_move there (by rfl) (by rfl) ?_
    rw [here]
    simp [Point.left, Label.isWake]
  | @log i rand w line next there here free =>
    obtain ⟨sec, point⟩ := w
    cases point <;> cases here <;> exact left_move there (by rfl) (by rfl) (Nat.le_refl _)
  | @logged i rand w next there here =>
    obtain ⟨sec, point⟩ := w
    cases point <;> cases here <;> exact left_move there (by rfl) (by rfl) (Nat.le_refl _)
  | @notify i rand w there here =>
    have woken := @sum_left_notified n s.workers
    have length := kept.length_le
    have before : s.notifyAll.left n ≤ s.left n + 2 * n := by
      show s.main.left n + ((s.workers.map Worker.notified).map _).sum ≤ _
      unfold Program.left
      omega
    obtain ⟨sec, point⟩ := w
    cases here
    have moved : (s.notifyAll.move i ⟨sec, .notify⟩ .logReached).left n + 1 + 2 * n ≤ s.notifyAll.left n := by
      have sums := sum_map_set (a := ⟨sec, .notify⟩) (b := ⟨sec, .logReached⟩) (fun w : Worker => w.point.left n)
        (notifyAll_there there)
      have drop : Point.left n .notify = Point.left n .logReached + 1 + 2 * n := by
        simp only [Point.left]
        omega
      show s.main.left n + ((s.notifyAll.workers.set i ⟨sec, .logReached⟩).map _).sum + 1 + 2 * n ≤
        s.main.left n + (s.notifyAll.workers.map _).sum
      simp only at sums
      omega
    show _ ≤ s.left n + 0
    omega

/-! ## Every run -/

/-- What a run has reached and can still do when as many are needed as there are workers. -/
structure Finishes (n : Nat) (labels : List Label) (s : Program) : Prop where
  bounded : labels.length ≤ n * (2 * n + 14) + n + 5 + 3 * labels.countP Label.isWake
  goesOn : s.main = .done ∨ ∃ label t, label.isWake = false ∧ step n n s label = some t

/-- What every step keeps. -/
theorem kept_step (inv : Kept n s ∧ Notified needed s) (taken : step n needed s label = some t) :
    Kept n t ∧ Notified needed t :=
  ⟨inv.1.step taken, inv.2.step taken⟩

/-- Before the first step nobody has to be notified. -/
theorem kept_initial : Kept n .initial ∧ Notified needed .initial := by
  refine ⟨Kept.initial, ?_⟩
  rintro - ⟨u, member, -⟩
  cases member

/-- **The program ends**: a run goes on until `main` is done, and is no longer than its waits that end early
make it. -/
theorem finishes (ran : run (step n n) .initial labels = some s) : Finishes n labels s where
  bounded := by
    have bound := run_length_add_rank_le (fun s => Kept n s ∧ Notified n s) (Program.left n) Label.isWake 2
      kept_step (fun inv taken => left_falls inv.1 taken) kept_initial ran
    have start : Program.left n .initial = n * (2 * n + 14) + n + 5 := rfl
    omega
  goesOn := by
    obtain ⟨kept, notified⟩ := run_invariant (fun s => Kept n s ∧ Notified n s) kept_step kept_initial ran
    by_cases done : s.main = .done
    · exact .inl done
    · exact .inr (goesOn kept notified done)

/-! ## Another number -/

/-- When all have counted, one of them is not past the wait. -/
def Stranded (n : Nat) (s : Program) : Prop :=
  s.c = n → ∃ w ∈ s.workers, w.point.counted = true ∧ w.point.past = false

/-- Nobody passes without having counted. -/
theorem past_counted {point : Point} (past : point.past = true) : point.counted = true := by
  cases point <;> first | rfl | cases past

/-- Waking is no passing. -/
theorem Stranded.notifyAll (stranded : Stranded n s) : Stranded n s.notifyAll := by
  intro all
  obtain ⟨w, member, counted, inside⟩ := stranded all
  exact ⟨w.notified, List.mem_map_of_mem member, by rw [notified_counted, counted], by rw [notified_past, inside]⟩

/-- `c` counts each worker once. -/
theorem Kept.c_le (kept : Kept n s) : s.c ≤ n := by
  have atMost : (s.workers.countP fun w => w.point.counted) ≤ s.workers.length := List.countP_le_length
  have counted := kept.counted
  have length := kept.length_le
  omega

/-- Nobody leaves the wait when all have counted, since `c` is not the number that is needed. -/
theorem Stranded.moves (stranded : Stranded n s) (kept : Kept n s) {new : List Line} (other : needed ≠ n)
    (moves : Moves needed s t i w v new) : Stranded n t := by
  intro all
  have atMost := kept.c_le
  have counts := moves.counts
  have mover : v ∈ t.workers := by
    rw [moves.workers]
    exact List.mem_of_getElem? (List.getElem?_set_self (List.getElem?_eq_some_iff.1 moves.there).1)
  -- the one that moves is past the wait only if it was
  have passes : s.c = n → w.point.past = false → v.point.past = false := by
    intro before inside
    rw [Bool.eq_false_iff]
    intro past
    rcases moves.passes past with already | ⟨-, enough⟩
    · rw [inside] at already
      cases already
    · exact other (enough.symm.trans before)
  by_cases before : s.c = n
  · obtain ⟨u, member, counted, inside⟩ := stranded before
    obtain ⟨j, there⟩ := List.mem_iff_getElem?.1 member
    by_cases same : i = j
    · subst same
      cases moves.there.symm.trans there
      refine ⟨v, mover, ?_, passes before inside⟩
      rw [counted] at counts
      cases after : v.point.counted
      · rw [after] at counts
        simp only [Bool.toNat_true, Bool.toNat_false] at counts
        omega
      · rfl
    · refine ⟨u, ?_, counted, inside⟩
      rw [moves.workers]
      exact List.mem_of_getElem? ((List.getElem?_set_ne same).trans there)
  · -- it has just counted itself
    have uncounted : w.point.counted = false ∧ v.point.counted = true := by
      cases first : w.point.counted <;> cases second : v.point.counted <;>
        simp only [first, second, Bool.toNat_true, Bool.toNat_false] at counts <;>
        first
        | exact ⟨rfl, rfl⟩
        | omega
    refine ⟨v, mover, uncounted.2, ?_⟩
    rw [Bool.eq_false_iff]
    intro past
    rcases moves.passes past with already | ⟨here, -⟩
    · rw [past_counted already] at uncounted
      cases uncounted.1
    · rw [here] at uncounted
      cases uncounted.1

/-- Every step keeps it. -/
theorem Stranded.step (stranded : Stranded n s) (kept : Kept n s) (other : needed ≠ n) (taken : step n needed s label = some t) :
    Stranded n t := by
  have effect := step_taken taken
  by_cases main : label = .main
  · subst main
    cases effect with
    | mainLog | mainLogged | join => exact stranded
    | create here =>
      intro all
      obtain ⟨w, member, inside⟩ := stranded all
      exact ⟨w, List.mem_append_left _ member, inside⟩
  · obtain ⟨s', i, w, v, new, rfl | rfl, moves⟩ := effect.moves main
    · exact stranded.moves kept other moves
    · exact stranded.notifyAll.moves kept.notifyAll other moves

/-- `main` waits for the one that is stranded. -/
theorem Kept.not_done (kept : Kept n s) (stranded : Stranded n s) : s.main ≠ .done := by
  intro done
  have created := kept.created
  have joined := kept.joined
  rw [done] at created joined
  have ended : ∀ w ∈ s.workers, w.point = .ended := by
    intro w member
    obtain ⟨j, there⟩ := List.mem_iff_getElem?.1 member
    obtain ⟨u, again, ended⟩ := joined j (created ▸ (List.getElem?_eq_some_iff.1 there).1)
    cases there.symm.trans again
    exact ended
  have all : s.c = n := by
    rw [kept.counted, ← show s.workers.length = n from created, List.countP_eq_length]
    intro w member
    rw [ended w member]
    rfl
  obtain ⟨w, member, -, inside⟩ := stranded all
  rw [ended w member] at inside
  cases inside

/-- It holds in every state that is reached with another number. -/
theorem stranded_run (other : needed ≠ n) (some : n ≠ 0) {labels : List Label} (ran : run (step n needed) .initial labels = .some t) :
    Kept n t ∧ Stranded n t := by
  have keep : ∀ {s t : Program} {label : Label}, Kept n s ∧ Stranded n s → step n needed s label = .some t →
      Kept n t ∧ Stranded n t := fun inv taken => ⟨inv.1.step taken, inv.2.step inv.1 other taken⟩
  have start : Stranded n .initial := fun all => absurd all.symm some
  exact run_invariant (fun s => Kept n s ∧ Stranded n s) keep ⟨Kept.initial, start⟩ ran

/-- **The number of workers has to be the number that is needed**: exactly then, or without workers, there
is a run to the end of `main`. With another number, whenever all workers have counted, one of them is not past
the wait. -/
theorem exists_done_iff :
    ((∃ labels t, run (step n needed) .initial labels = some t ∧ t.main = .done) ↔ needed = n ∨ n = 0) ∧
      (needed ≠ n → n ≠ 0 → ∀ labels t, run (step n needed) .initial labels = some t → Stranded n t) := by
  refine ⟨⟨?_, ?_⟩, fun other some labels t ran => (stranded_run other some ran).2⟩
  · rintro ⟨labels, t, ran, done⟩
    by_contra neither
    obtain ⟨other, some⟩ := not_or.1 neither
    obtain ⟨kept, stranded⟩ := stranded_run other some ran
    exact kept.not_done stranded done
  · rintro (rfl | rfl)
    · apply exists_run_of_rank (fun s => Kept needed s ∧ Notified needed s) _ (Program.left needed) kept_step _ kept_initial
      rintro s ⟨kept, notified⟩ running
      obtain ⟨label, t, awake, taken⟩ := goesOn kept notified running
      have falls := left_falls kept taken
      rw [awake] at falls
      exact ⟨label, t, taken, falls⟩
    · exact ⟨List.replicate 4 .main, _, rfl, rfl⟩

end

theorem finishes_twoWorkers : Finishes 2 twoWorkers ((run (step 2 2) .initial twoWorkers).getD .initial) := finishes rfl

end GtpLibrary.Barrier

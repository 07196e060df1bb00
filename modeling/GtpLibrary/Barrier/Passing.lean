import GtpLibrary.Barrier.Program
import GtpLibrary.Lib.Lists
import GtpLibrary.Lib.Logs

/-!
# Who passes the barrier

The point a worker has reached says all that the rest of the state has to know of it: whether it has
counted itself, which mutexes it holds and what it has printed. `Moves` says this of one step of a
worker, and `Kept` is what every step keeps because of it.
-/

namespace GtpLibrary.Barrier

open Function (update)
open Lib

/-! ## What a point says -/

/-- The worker has incremented `c`. -/
def Point.counted : Point → Bool
  | .start | .logSleeping | .loggedSleeping | .lock | .count => false
  | _ => true

/-- It is the owner of `shared_mtx`. -/
def Point.holds : Point → Bool
  | .count | .notify | .logReached | .loggedReached | .test | .unlock => true
  | _ => false

/-- It is the owner of `cout_mtx`. -/
def Point.logs : Point → Bool
  | .loggedSleeping | .loggedReached | .loggedPassed => true
  | _ => false

/-- The worker has printed its second line. -/
def Point.reached : Point → Bool
  | .loggedReached | .test | .waiting | .woken | .unlock | .logPassed | .loggedPassed | .ended => true
  | _ => false

/-- It is past the wait. -/
def Point.past : Point → Bool
  | .unlock | .logPassed | .loggedPassed | .ended => true
  | _ => false

/-- `main` holds the mutex of `cout`. -/
def Main.logs : Main → Bool
  | .loggedStart | .loggedEnd => true
  | _ => false

/-- What a worker has printed up to its point. -/
def Worker.lines (i : Nat) (w : Worker) : List Line :=
  match w.point with
  | .start | .logSleeping => []
  | .loggedSleeping | .lock | .count | .notify | .logReached => [.sleeping i w.sec]
  | .loggedReached | .test | .waiting | .woken | .unlock | .logPassed => [.sleeping i w.sec, .reached i]
  | .loggedPassed | .ended => [.sleeping i w.sec, .reached i, .passed i]

/-- What `main` has printed up to its point. -/
def Main.lines : Main → List Line
  | .logStart => []
  | .loggedStart | .create _ | .join _ | .logEnd => [.appStart]
  | .loggedEnd | .done => [.appStart, .appEnd]

/-- How many workers there are. -/
def Main.Created (n : Nat) : Main → Nat → Prop
  | .logStart, length | .loggedStart, length => length = 0
  | .create i, length => length = i ∧ i < n
  | .join i, length => length = n ∧ i < n
  | .logEnd, length | .loggedEnd, length | .done, length => length = n

/-- How many workers it has joined. -/
def Main.joined (n : Nat) : Main → Nat
  | .logStart | .loggedStart | .create _ => 0
  | .join i => i
  | .logEnd | .loggedEnd | .done => n

/-- A worker holds the mutex. -/
def Program.holds (s : Program) (i : Nat) : Bool := s.workers[i]?.elim false fun w => w.point.holds

/-- A thread holds the mutex of `cout`. -/
def Program.logs (s : Program) : Thread → Bool
  | .main => s.main.logs
  | .worker i => s.workers[i]?.elim false fun w => w.point.logs

/-- What a thread has printed. -/
def Program.lines (s : Program) : Thread → List Line
  | .main => s.main.lines
  | .worker i => s.workers[i]?.elim [] (Worker.lines i)

/-- The line of a worker that has reached the barrier. -/
def Line.isReached : Line → Bool
  | .reached _ => true
  | _ => false

/-- Who is past its start sleeps between one and four seconds. -/
def Worker.Drawn (w : Worker) : Prop := w.point = .start ∨ (1 ≤ w.sec ∧ w.sec ≤ 4)

/-! ## One step of a worker -/

/-- A worker goes on from `w` to `v` and prints the new lines. -/
structure Moves (needed : Nat) (s t : Program) (i : Nat) (w v : Worker) (new : List Line) : Prop where
  there : s.workers[i]? = some w
  workers : t.workers = s.workers.set i v
  main : t.main = s.main
  counts : t.c + w.point.counted.toNat = s.c + v.point.counted.toNat
  shared : t.sharedMtx = handover s.sharedMtx i w.point.holds v.point.holds
  sharedFree : w.point.holds = false → v.point.holds = true → s.sharedMtx = none
  cout : t.coutMtx = handover s.coutMtx (.worker i) w.point.logs v.point.logs
  coutFree : w.point.logs = false → v.point.logs = true → s.coutMtx = none
  printed : t.printed = s.printed ++ new
  lines : v.lines i = w.lines i ++ new
  reaches : new.countP Line.isReached + w.point.reached.toNat = v.point.reached.toNat
  passes : v.point.past = true → w.point.past = true ∨ (w.point = .test ∧ s.c = needed)
  draws : w.Drawn → v.Drawn
  unended : w.point ≠ .ended

section
variable {n needed i rand : Nat} {s t : Program} {w v : Worker} {new : List Line} {label : Label} {line : Line} {next : Point}

/-- Nobody draws again. -/
theorem Worker.Drawn.keep {point : Point} (away : w.point ≠ .start) (drawn : w.Drawn) : Worker.Drawn { w with point } := by
  rcases drawn with start | within
  · exact absurd start away
  · exact .inr within

/-- A `LOG` takes the mutex of `cout` and prints. -/
theorem moves_log (there : s.workers[i]? = some w) (here : w.log i = some (line, next)) (free : s.coutMtx = none) :
    Moves needed s { s.move i w next with coutMtx := some (.worker i), printed := s.printed ++ [line] } i w
      { w with point := next } [line] := by
  obtain ⟨sec, point⟩ := w
  cases point <;> cases here <;>
    exact ⟨there, rfl, rfl, rfl, rfl, nofun, rfl, fun _ _ => free, rfl, rfl, rfl, .inl, Worker.Drawn.keep nofun, nofun⟩

/-- Behind a `LOG` the mutex of `cout` is free. -/
theorem moves_logged (there : s.workers[i]? = some w) (here : w.point.logged = some next) :
    Moves needed s { s.move i w next with coutMtx := none } i w { w with point := next } [] := by
  obtain ⟨sec, point⟩ := w
  cases point <;> cases here <;>
    exact ⟨there, rfl, rfl, rfl, rfl, nofun, rfl, nofun, (List.append_nil _).symm, rfl, rfl, .inl, Worker.Drawn.keep nofun, nofun⟩

/-- `notify_all` leaves everybody where it is in the list. -/
theorem notifyAll_there (there : s.workers[i]? = some w) : s.notifyAll.workers[i]? = some w.notified := by
  rw [Program.notifyAll, List.getElem?_map, there]
  rfl

/-- Who does not wait is not changed by it. -/
theorem notified_of_ne (awake : w.point ≠ .waiting) : w.notified = w := by
  unfold Worker.notified
  split
  · rename_i asleep
    exact absurd asleep awake
  · rfl

/-- Every step of a worker is a move, the one of `notify_all` behind the waking of the others. -/
theorem Taken.moves (taken : Taken n needed s label t) (away : label ≠ .main) :
    ∃ s' i w v new, (s' = s ∨ s' = s.notifyAll) ∧ Moves needed s' t i w v new := by
  cases taken with
  | mainLog | mainLogged | create | join => exact absurd rfl away
  | @start i rand w there here =>
    obtain ⟨sec, point⟩ := w
    cases here
    have within : 1 ≤ 1 + rand % 4 ∧ 1 + rand % 4 ≤ 4 := by omega
    exact ⟨s, i, _, _, [], .inl rfl, there, rfl, rfl, rfl, rfl, nofun, rfl, nofun,
      (List.append_nil _).symm, rfl, rfl, .inl, fun _ => .inr within, nofun⟩
  | log there here free => exact ⟨s, _, _, _, _, .inl rfl, moves_log there here free⟩
  | logged there here => exact ⟨s, _, _, _, _, .inl rfl, moves_logged there here⟩
  | @notify i rand w there here =>
    obtain ⟨sec, point⟩ := w
    cases here
    exact ⟨s.notifyAll, i, _, _, [], .inr rfl, notifyAll_there there, rfl, rfl, rfl, rfl, nofun, rfl, nofun,
      (List.append_nil _).symm, rfl, rfl, .inl, Worker.Drawn.keep nofun, nofun⟩
  | @lock i rand w there here free | @relock i rand w there here free =>
    obtain ⟨sec, point⟩ := w
    cases here
    exact ⟨s, i, _, _, [], .inl rfl, there, rfl, rfl, rfl, rfl, fun _ _ => free, rfl, nofun,
      (List.append_nil _).symm, rfl, rfl, .inl, Worker.Drawn.keep nofun, nofun⟩
  | @pass i rand w there here enough =>
    obtain ⟨sec, point⟩ := w
    cases here
    exact ⟨s, i, _, _, [], .inl rfl, there, rfl, rfl, rfl, rfl, nofun, rfl, nofun,
      (List.append_nil _).symm, rfl, rfl, fun _ => .inr ⟨rfl, enough⟩, Worker.Drawn.keep nofun, nofun⟩
  | @count i rand w there here | @wait i rand w there here | @unlock i rand w there here | @wake i w there here =>
    obtain ⟨sec, point⟩ := w
    cases here
    exact ⟨s, i, _, _, [], .inl rfl, there, rfl, rfl, rfl, rfl, nofun, rfl, nofun,
      (List.append_nil _).symm, rfl, rfl, .inl, Worker.Drawn.keep nofun, nofun⟩

end

/-! ## What every step keeps -/

/-- What the threads' points say of the rest of the state. -/
structure Kept (n : Nat) (s : Program) : Prop where
  created : s.main.Created n s.workers.length
  joined : ∀ j < s.main.joined n, ∃ w, s.workers[j]? = some w ∧ w.point = .ended
  counted : s.c = s.workers.countP fun w => w.point.counted
  holder : Owned s.sharedMtx s.holds
  writer : Owned s.coutMtx s.logs
  printed : ∀ thread, (s.printed.filter fun line => line.thread = thread) = s.lines thread
  reached : s.printed.countP Line.isReached = s.workers.countP fun w => w.point.reached
  drawn : ∀ w ∈ s.workers, w.Drawn

section
variable {n needed i rand : Nat} {s t : Program} {w v : Worker} {new : List Line} {label : Label} {line : Line} {next : Point}

/-- It holds before the first step. -/
theorem Kept.initial : Kept n .initial where
  created := rfl
  joined := nofun
  counted := rfl
  holder _ := iff_of_false nofun nofun
  writer thread := by cases thread <;> exact iff_of_false nofun nofun
  printed thread := by cases thread <;> rfl
  reached := rfl
  drawn := nofun

/-- `notify_all` counts nobody. -/
@[simp] theorem notified_counted (w : Worker) : w.notified.point.counted = w.point.counted := by
  obtain ⟨sec, point⟩ := w
  cases point <;> rfl

@[simp] theorem notified_holds (w : Worker) : w.notified.point.holds = w.point.holds := by
  obtain ⟨sec, point⟩ := w
  cases point <;> rfl

@[simp] theorem notified_logs (w : Worker) : w.notified.point.logs = w.point.logs := by
  obtain ⟨sec, point⟩ := w
  cases point <;> rfl

@[simp] theorem notified_reached (w : Worker) : w.notified.point.reached = w.point.reached := by
  obtain ⟨sec, point⟩ := w
  cases point <;> rfl

@[simp] theorem notified_past (w : Worker) : w.notified.point.past = w.point.past := by
  obtain ⟨sec, point⟩ := w
  cases point <;> rfl

@[simp] theorem notified_lines (w : Worker) : w.notified.lines i = w.lines i := by
  obtain ⟨sec, point⟩ := w
  cases point <;> rfl

/-- `notify_all` draws nothing. -/
theorem Worker.Drawn.notified (drawn : w.Drawn) : w.notified.Drawn := by
  obtain ⟨sec, point⟩ := w
  cases point
  case waiting => exact .inr (drawn.resolve_left nofun)
  all_goals exact drawn

@[simp] theorem notifyAll_holds (s : Program) : s.notifyAll.holds = s.holds := by
  funext i
  show (s.workers.map Worker.notified)[i]?.elim _ _ = _
  rw [List.getElem?_map]
  cases there : s.workers[i]? <;> simp [Program.holds, there]

@[simp] theorem notifyAll_logs (s : Program) : s.notifyAll.logs = s.logs := by
  funext thread
  cases thread with
  | main => rfl
  | worker i =>
    show (s.workers.map Worker.notified)[i]?.elim _ _ = _
    rw [List.getElem?_map]
    cases there : s.workers[i]? <;> simp [Program.logs, there]

@[simp] theorem notifyAll_lines (s : Program) : s.notifyAll.lines = s.lines := by
  funext thread
  cases thread with
  | main => rfl
  | worker i =>
    show (s.workers.map Worker.notified)[i]?.elim _ _ = _
    rw [List.getElem?_map]
    cases there : s.workers[i]? <;> simp [Program.lines, there]

/-- What is kept does not tell a woken worker from a waiting one. -/
theorem Kept.notifyAll (kept : Kept n s) : Kept n s.notifyAll where
  created := by
    show s.main.Created n (s.workers.map Worker.notified).length
    rw [List.length_map]
    exact kept.created
  joined j less := by
    obtain ⟨w, there, ended⟩ := kept.joined j less
    refine ⟨w, ?_, ended⟩
    have awake : w.notified = w := notified_of_ne (by rw [ended]; nofun)
    exact awake ▸ notifyAll_there there
  counted := by
    show s.c = (s.workers.map Worker.notified).countP _
    rw [List.countP_map, kept.counted]
    simp [Function.comp_def]
  holder := by
    rw [notifyAll_holds]
    exact kept.holder
  writer := by
    rw [notifyAll_logs]
    exact kept.writer
  printed thread := by
    rw [notifyAll_lines]
    exact kept.printed thread
  reached := by
    show s.printed.countP _ = (s.workers.map Worker.notified).countP _
    rw [List.countP_map, kept.reached]
    simp [Function.comp_def]
  drawn w member := by
    obtain ⟨v, inside, rfl⟩ := List.mem_map.1 member
    exact (kept.drawn v inside).notified

/-- A value of each worker, where one worker is replaced. -/
theorem elim_set {Value : Type} (nothing : Value) (value : Worker → Value) (there : s.workers[i]? = some w) (j : Nat) :
    (s.workers.set i v)[j]?.elim nothing value = update (fun j => s.workers[j]?.elim nothing value) i (value v) j := by
  by_cases same : j = i
  · subst same
    rw [Function.update_self, List.getElem?_set_self (List.getElem?_eq_some_iff.1 there).1]
    rfl
  · rw [Function.update_of_ne same, List.getElem?_set_ne (Ne.symm same)]

/-- Only the worker that moves takes or leaves the mutex. -/
theorem Moves.holds (moves : Moves needed s t i w v new) : t.holds = update s.holds i v.point.holds := by
  funext j
  show t.workers[j]?.elim _ _ = _
  rw [moves.workers, elim_set _ _ moves.there]
  rfl

/-- Only the worker that moves takes or leaves the mutex of `cout`. -/
theorem Moves.logs (moves : Moves needed s t i w v new) : t.logs = update s.logs (.worker i) v.point.logs := by
  funext thread
  cases thread with
  | main =>
    rw [Function.update_of_ne (show Thread.main ≠ .worker i from nofun)]
    exact congrArg Main.logs moves.main
  | worker j =>
    show t.workers[j]?.elim _ _ = _
    rw [moves.workers, elim_set _ _ moves.there]
    by_cases same : j = i
    · subst same
      rw [Function.update_self, Function.update_self]
    · rw [Function.update_of_ne same, Function.update_of_ne fun equal => same (Thread.worker.inj equal)]
      rfl

/-- Read off the worker. -/
theorem worker_holds (there : s.workers[i]? = some w) : s.holds i = w.point.holds := by
  rw [Program.holds, there]
  rfl

theorem worker_logs (there : s.workers[i]? = some w) : s.logs (.worker i) = w.point.logs := by
  rw [Program.logs, there]
  rfl

theorem worker_lines (there : s.workers[i]? = some w) : s.lines (.worker i) = w.lines i := by
  rw [Program.lines, there]
  rfl

/-- A worker prints its own lines. -/
theorem thread_of_mem_lines (member : line ∈ w.lines i) : line.thread = .worker i := by
  obtain ⟨sec, point⟩ := w
  have all : ∀ line ∈ [Line.sleeping i sec, .reached i, .passed i], line.thread = .worker i := by
    simp [Line.thread]
  apply all
  cases point <;> simp only [Worker.lines, List.mem_cons, List.not_mem_nil, or_false] at member ⊢ <;>
    first
    | exact member.elim
    | exact .inl member
    | exact member.imp_right .inl
    | exact member

/-- The log is still, thread by thread, what each has printed. -/
theorem Moves.lines_eq (moves : Moves needed s t i w v new) (kept : Kept n s) (thread : Thread) :
    (t.printed.filter fun line => line.thread = thread) = t.lines thread := by
  have own : ∀ line ∈ new, line.thread = .worker i := by
    intro line member
    have inside : line ∈ v.lines i := by
      rw [moves.lines]
      exact List.mem_append_right _ member
    exact thread_of_mem_lines inside
  rw [moves.printed, List.filter_append, kept.printed]
  cases thread with
  | main =>
    have others : (new.filter fun line => line.thread = .main) = [] := by
      rw [List.filter_eq_nil_iff]
      intro line member
      simp [own line member]
    rw [others, List.append_nil]
    exact congrArg Main.lines moves.main.symm
  | worker j =>
    show _ = t.workers[j]?.elim _ _
    by_cases same : j = i
    · subst same
      have all : (new.filter fun line => line.thread = .worker j) = new := by
        rw [List.filter_eq_self]
        intro line member
        simp [own line member]
      rw [all, worker_lines moves.there, moves.workers,
        List.getElem?_set_self (List.getElem?_eq_some_iff.1 moves.there).1]
      exact moves.lines.symm
    · have others : (new.filter fun line => line.thread = .worker j) = [] := by
        rw [List.filter_eq_nil_iff]
        intro line member
        simp only [own line member, decide_eq_true_eq]
        exact fun equal => same (Thread.worker.inj equal).symm
      rw [others, List.append_nil, moves.workers, List.getElem?_set_ne (Ne.symm same)]
      rfl

/-- A step of a worker keeps it. -/
theorem Kept.moves (kept : Kept n s) (moves : Moves needed s t i w v new) : Kept n t where
  created := by
    rw [moves.main, moves.workers, List.length_set]
    exact kept.created
  joined j less := by
    rw [moves.main] at less
    obtain ⟨u, there, ended⟩ := kept.joined j less
    refine ⟨u, ?_, ended⟩
    have other : i ≠ j := by
      rintro rfl
      cases moves.there.symm.trans there
      exact moves.unended ended
    rw [moves.workers, List.getElem?_set_ne other]
    exact there
  counted := by
    have counts := moves.counts
    have after := countP_set (b := v) (fun w : Worker => w.point.counted) moves.there
    rw [← moves.workers] at after
    have before := kept.counted
    omega
  holder := by
    rw [moves.holds, moves.shared, ← worker_holds moves.there]
    apply kept.holder.handover
    rw [worker_holds moves.there]
    exact moves.sharedFree
  writer := by
    rw [moves.logs, moves.cout, ← worker_logs moves.there]
    apply kept.writer.handover
    rw [worker_logs moves.there]
    exact moves.coutFree
  printed := moves.lines_eq kept
  reached := by
    have reaches := moves.reaches
    have after := countP_set (b := v) (fun w : Worker => w.point.reached) moves.there
    rw [← moves.workers] at after
    rw [moves.printed, List.countP_append]
    have before := kept.reached
    omega
  drawn u member := by
    rw [moves.workers] at member
    rcases List.mem_or_eq_of_mem_set member with inside | rfl
    · exact kept.drawn u inside
    · exact moves.draws (kept.drawn w (List.mem_of_getElem? moves.there))

/-! ## One step of `main` -/

/-- A step of `main` prints for `main` only. -/
theorem main_lines (thread : Thread) (next : Main) :
    Program.lines { s with main := next } thread = if thread = .main then next.lines else s.lines thread := by
  cases thread <;> rfl

/-- A step of `main` takes or leaves the mutex of `cout` for `main` only. -/
theorem main_logs (next : Main) : Program.logs { s with main := next } = update s.logs .main next.logs := by
  funext thread
  cases thread with
  | main => rfl
  | worker i =>
    rw [Function.update_of_ne (show Thread.worker i ≠ .main from nofun)]
    rfl

/-- All are created when the first one is joined. -/
theorem joining_created {i : Nat} : (Main.joining n i).Created n n := by
  unfold Main.joining
  split_ifs with less
  · exact ⟨rfl, less⟩
  · rfl

/-- As many are created as the loop says. -/
theorem creating_created {i : Nat} (upTo : i ≤ n) : (Main.creating n i).Created n i := by
  unfold Main.creating
  split_ifs with less
  · exact ⟨rfl, less⟩
  · obtain rfl : i = n := by omega
    exact joining_created

/-- Those joined are the ones in front. -/
theorem joining_joined {i j : Nat} (less : j < (Main.joining n i).joined n) : j < i := by
  unfold Main.joining at less
  split_ifs at less
  · exact less
  · have within : j < n := less
    omega

/-- Nobody is joined while workers are created. -/
theorem creating_joined (i : Nat) : (Main.creating n i).joined n = 0 := by
  unfold Main.creating Main.joining
  split_ifs with less start
  · rfl
  · rfl
  · show n = 0
    omega

/-- `main` prints nothing while it joins. -/
theorem joining_lines (i : Nat) : (Main.joining n i).lines = [.appStart] := by
  unfold Main.joining
  split_ifs <;> rfl

/-- It prints nothing while it creates. -/
theorem creating_lines (i : Nat) : (Main.creating n i).lines = [.appStart] := by
  unfold Main.creating
  split_ifs
  · rfl
  · exact joining_lines 0

theorem joining_logs (i : Nat) : (Main.joining n i).logs = false := by
  unfold Main.joining
  split_ifs <;> rfl

theorem creating_logs (i : Nat) : (Main.creating n i).logs = false := by
  unfold Main.creating
  split_ifs
  · rfl
  · exact joining_logs 0

/-- A step of `main` that leaves the workers as they are. -/
theorem Kept.main (kept : Kept n s) (next : Main) (new : List Line)
    (created : next.Created n s.workers.length)
    (joined : ∀ j < next.joined n, ∃ w, s.workers[j]? = some w ∧ w.point = .ended)
    (cout : t = { s with
      main := next
      coutMtx := handover s.coutMtx .main s.main.logs next.logs
      printed := s.printed ++ new })
    (free : s.main.logs = false → next.logs = true → s.coutMtx = none)
    (own : ∀ line ∈ new, line.thread = .main ∧ line.isReached = false) (lines : next.lines = s.main.lines ++ new) :
    Kept n t := by
  subst cout
  refine ⟨created, joined, kept.counted, kept.holder, ?_, ?_, ?_, kept.drawn⟩
  · show Owned _ (Program.logs { s with main := next })
    rw [main_logs]
    exact Owned.handover (i := Thread.main) kept.writer free
  · intro thread
    show ((s.printed ++ new).filter _) = Program.lines { s with main := next } thread
    rw [main_lines, List.filter_append, kept.printed]
    split_ifs with same
    · subst same
      have all : (new.filter fun line => line.thread = .main) = new := by
        rw [List.filter_eq_self]
        intro line member
        simp [(own line member).1]
      rw [all, lines]
      rfl
    · have none : (new.filter fun line => line.thread = thread) = [] := by
        rw [List.filter_eq_nil_iff]
        intro line member
        simp only [(own line member).1, decide_eq_true_eq]
        exact Ne.symm same
      rw [none, List.append_nil]
  · show (s.printed ++ new).countP _ = _
    have none : new.countP Line.isReached = 0 := by
      rw [List.countP_eq_zero]
      intro line member
      simp [(own line member).2]
    rw [List.countP_append, none]
    exact kept.reached

/-- A worker that is created has done nothing yet. -/
theorem Kept.create (kept : Kept n s) {i : Nat} (here : s.main = .create i) :
    Kept n { s with workers := s.workers ++ [⟨0, .start⟩], main := .creating n (i + 1) } := by
  have created := kept.created
  rw [here] at created
  obtain ⟨length, less⟩ := created
  have there : ∀ j, (s.workers ++ [(⟨0, .start⟩ : Worker)])[j]? = if j = i then some ⟨0, .start⟩ else s.workers[j]? := by
    intro j
    rw [List.getElem?_append]
    split_ifs with inside same same
    · omega
    · rfl
    · simp [same, length]
    · rw [List.getElem?_eq_none (by rw [List.length_singleton]; omega), List.getElem?_eq_none (by omega)]
  have nothing : s.workers[i]? = none := List.getElem?_eq_none (by omega)
  have elims : ∀ {Value : Type} (value : Worker → Value) (j : Nat),
      (s.workers ++ [(⟨0, .start⟩ : Worker)])[j]?.elim (value ⟨0, .start⟩) value =
        s.workers[j]?.elim (value ⟨0, .start⟩) value := by
    intro Value value j
    rw [there]
    split_ifs with same
    · rw [same, nothing]
      rfl
    · rfl
  constructor
  · show (Main.creating n (i + 1)).Created n (s.workers ++ [(⟨0, .start⟩ : Worker)]).length
    rw [List.length_append, length]
    exact creating_created less
  · intro j inside
    rw [show Main.joined n _ = 0 from creating_joined (i + 1)] at inside
    exact absurd inside (Nat.not_lt_zero j)
  · show s.c = (s.workers ++ [(⟨0, .start⟩ : Worker)]).countP _
    rw [List.countP_append, kept.counted]
    rfl
  · intro j
    have same := elims (fun w => w.point.holds) j
    exact (kept.holder j).trans (iff_of_eq (congrArg (· = true) same.symm))
  · intro thread
    refine (kept.writer thread).trans ?_
    cases thread with
    | main =>
      show s.main.logs = true ↔ (Main.creating n (i + 1)).logs = true
      rw [creating_logs, here]
      rfl
    | worker j =>
      have same := elims (fun w => w.point.logs) j
      exact iff_of_eq (congrArg (· = true) same.symm)
  · intro thread
    refine (kept.printed thread).trans ?_
    cases thread with
    | main =>
      show s.main.lines = (Main.creating n (i + 1)).lines
      rw [creating_lines, here]
      rfl
    | worker j => exact (elims (Worker.lines j) j).symm
  · show s.printed.countP _ = (s.workers ++ [(⟨0, .start⟩ : Worker)]).countP _
    rw [List.countP_append, kept.reached]
    rfl
  · intro w member
    rcases List.mem_append.1 member with inside | last
    · exact kept.drawn w inside
    · rw [List.mem_singleton.1 last]
      exact .inl rfl

/-- Every step keeps it. -/
theorem Kept.step (kept : Kept n s) (taken : step n needed s label = some t) : Kept n t := by
  have effect := step_taken taken
  by_cases main : label = .main
  · subst main
    have created := kept.created
    have joined := kept.joined
    cases effect with
    | @mainLog line next here free =>
      cases point : s.main <;> rw [point] at here <;> cases here
      · rw [point] at created
        refine kept.main .loggedStart [.appStart] created nofun ?_ (fun _ _ => free) ?_ ?_
        · rw [point]
          rfl
        · simp [Line.thread, Line.isReached]
        · rw [point]
          rfl
      · rw [point] at created joined
        refine kept.main .loggedEnd [.appEnd] created joined ?_ (fun _ _ => free) ?_ ?_
        · rw [point]
          rfl
        · simp [Line.thread, Line.isReached]
        · rw [point]
          rfl
    | @mainLogged next here =>
      cases point : s.main <;> rw [point] at here <;> cases here
      · rw [point] at created
        have empty : s.workers.length = 0 := created
        refine kept.main (.creating n 0) [] ?_ ?_ ?_ ?_ nofun ?_
        · rw [empty]
          exact creating_created (Nat.zero_le n)
        · rw [creating_joined]
          exact nofun
        · rw [point, creating_logs, List.append_nil]
          rfl
        · rw [creating_logs]
          exact nofun
        · rw [point, creating_lines]
          rfl
      · rw [point] at created joined
        refine kept.main .done [] created joined ?_ nofun nofun ?_
        · rw [point, List.append_nil]
          rfl
        · rw [point]
          rfl
    | create here => exact kept.create here
    | @join i w here there ended =>
      rw [here] at created joined
      obtain ⟨length, less⟩ := created
      refine kept.main (.joining n (i + 1)) [] ?_ ?_ ?_ ?_ nofun ?_
      · rw [length]
        exact joining_created
      · intro j inside
        rcases Nat.lt_succ_iff_lt_or_eq.1 (joining_joined inside) with before | rfl
        · exact joined j before
        · exact ⟨w, there, ended⟩
      · rw [here, joining_logs, List.append_nil]
        rfl
      · rw [joining_logs]
        exact nofun
      · rw [here, joining_lines]
        rfl
  · obtain ⟨s', i, w, v, new, rfl | rfl, moves⟩ := effect.moves main
    · exact kept.moves moves
    · exact kept.notifyAll.moves moves

/-- There are never more workers than asked for. -/
theorem Kept.length_le (kept : Kept n s) : s.workers.length ≤ n := by
  have created := kept.created
  cases point : s.main <;> rw [point] at created <;> simp only [Main.Created] at created <;> omega

/-- No two workers are in the critical section. -/
theorem Kept.exclusive (kept : Kept n s) {j : Nat} {u : Worker} (first : s.workers[i]? = some w)
    (second : s.workers[j]? = some u) (holds : w.point.holds = true) (holds' : u.point.holds = true) : i = j := by
  apply kept.holder.exclusive
  · rw [worker_holds first]
    exact holds
  · rw [worker_holds second]
    exact holds'

/-- What a thread has printed is in the log. -/
theorem Kept.mem_printed (kept : Kept n s) (thread : Thread) (member : line ∈ s.lines thread) : line ∈ s.printed := by
  rw [← kept.printed thread] at member
  exact List.mem_of_mem_filter member

/-- What is in the log was printed by its thread. -/
theorem Kept.mem_lines (kept : Kept n s) (member : line ∈ s.printed) : line ∈ s.lines line.thread := by
  rw [← kept.printed line.thread]
  exact List.mem_filter.2 ⟨member, decide_eq_true rfl⟩

end

/-! ## What is printed -/

/-- A line may be printed behind the lines in front of it. -/
structure Permitted (n needed : Nat) (front : List Line) (line : Line) : Prop where
  running : .appEnd ∉ front
  once : line ∉ front
  first : front = [] ↔ line = .appStart
  sleeping : ∀ i sec, line = .sleeping i sec → i < n ∧ 1 ≤ sec ∧ sec ≤ 4 ∧ ∀ other, .sleeping i other ∉ front
  reached : ∀ i, line = .reached i → ∃ sec, .sleeping i sec ∈ front
  passed : ∀ i, line = .passed i → .reached i ∈ front ∧ needed ≤ front.countP Line.isReached
  barrier : ∀ i, line = .passed i → needed = n → ∀ j < n, .reached j ∈ front
  ended : line = .appEnd → ∀ j < n, .passed j ∈ front

/-- Whoever is past the wait saw enough workers reach it. -/
structure Inv (n needed : Nat) (s : Program) : Prop extends Kept n s where
  enough : ∀ w ∈ s.workers, w.point.past = true → needed ≤ s.workers.countP fun w => w.point.reached
  sentence : Sentence (Permitted n needed) s.printed

section
variable {n needed i rand : Nat} {s t : Program} {w v : Worker} {new : List Line} {label : Label} {line : Line} {next : Point}

/-- No worker is there before the first line. -/
theorem Kept.appStart (kept : Kept n s) (there : s.workers[i]? = some w) : .appStart ∈ s.printed := by
  apply kept.mem_printed .main
  have created := kept.created
  have inside := (List.getElem?_eq_some_iff.1 there).1
  show .appStart ∈ s.main.lines
  cases point : s.main <;> rw [point] at created <;> simp only [Main.Created] at created <;>
    first
    | omega
    | simp [Main.lines]

/-- The last line waits for all workers. -/
theorem Kept.running (kept : Kept n s) (there : s.workers[i]? = some w) (unended : w.point ≠ .ended) :
    .appEnd ∉ s.printed := by
  intro member
  have joined := kept.joined
  have inside : .appEnd ∈ s.main.lines := kept.mem_lines member
  have upTo : s.main.joined n = n := by
    cases point : s.main <;> rw [point] at inside <;> simp [Main.lines] at inside <;> rfl
  have less := Nat.lt_of_lt_of_le (List.getElem?_eq_some_iff.1 there).1 kept.length_le
  obtain ⟨u, again, ended⟩ := joined i (by rw [upTo]; exact less)
  cases there.symm.trans again
  exact unended ended

/-- The lines of a worker in the log are those up to its point. -/
theorem Kept.own_lines (kept : Kept n s) (there : s.workers[i]? = some w) (own : line.thread = .worker i)
    (member : line ∈ s.printed) : line ∈ w.lines i := by
  have inside := kept.mem_lines member
  rw [own, worker_lines there] at inside
  exact inside

/-- When as many have reached the wait as there are workers, all have. -/
theorem Inv.all_reached (inv : Inv n needed s) (member : w ∈ s.workers) (past : w.point.past = true) (same : needed = n)
    {j : Nat} (less : j < n) : .reached j ∈ s.printed := by
  have enough := inv.enough w member past
  have atMost : (s.workers.countP fun w => w.point.reached) ≤ s.workers.length := List.countP_le_length
  have length := inv.length_le
  have all : ∀ u ∈ s.workers, u.point.reached = true := List.countP_eq_length.1 (by omega)
  obtain ⟨u, there⟩ : ∃ u, s.workers[j]? = some u := ⟨_, List.getElem?_eq_getElem (by omega)⟩
  apply inv.mem_printed (.worker j)
  rw [worker_lines there]
  have reached := all u (List.mem_of_getElem? there)
  obtain ⟨sec, point⟩ := u
  cases point
  case start | logSleeping | loggedSleeping | lock | count | notify | logReached => cases reached
  all_goals simp [Worker.lines]

/-- A worker prints a line only behind those that belong in front of it. -/
theorem Inv.permitted (inv : Inv n needed s) (there : s.workers[i]? = some w) (here : w.log i = some (line, next)) :
    Permitted n needed s.printed line := by
  have member := List.mem_of_getElem? there
  have appStart := inv.appStart there
  have less := Nat.lt_of_lt_of_le (List.getElem?_eq_some_iff.1 there).1 inv.length_le
  have mine : ∀ line ∈ w.lines i, line ∈ s.printed := by
    intro line inside
    apply inv.mem_printed (.worker i)
    rw [worker_lines there]
    exact inside
  have own : ∀ line, line.thread = .worker i → line ∈ s.printed → line ∈ w.lines i := fun line => inv.own_lines there
  have drawn := inv.drawn w member
  have running := inv.running there
  obtain ⟨sec, point⟩ := w
  cases point <;> cases here
  case logSleeping =>
    refine ⟨running nofun, fun printed => ?_, ?_, ?_, nofun, nofun, nofun, nofun⟩
    · exact absurd (own _ rfl printed) List.not_mem_nil
    · refine iff_of_false ?_ nofun
      exact List.ne_nil_of_mem appStart
    · rintro j sec' ⟨⟩
      obtain ⟨low, high⟩ : 1 ≤ sec ∧ sec ≤ 4 := drawn.resolve_left nofun
      exact ⟨less, low, high, fun other printed => absurd (own _ rfl printed) List.not_mem_nil⟩
  case logReached =>
    refine ⟨running nofun, fun printed => ?_, ?_, nofun, ?_, nofun, nofun, nofun⟩
    · exact absurd (own _ rfl printed) (by simp [Worker.lines])
    · exact iff_of_false (List.ne_nil_of_mem appStart) nofun
    · rintro j ⟨⟩
      exact ⟨sec, mine _ (by simp [Worker.lines])⟩
  case logPassed =>
    refine ⟨running nofun, fun printed => ?_, ?_, nofun, nofun, ?_, ?_, nofun⟩
    · exact absurd (own _ rfl printed) (by simp [Worker.lines])
    · exact iff_of_false (List.ne_nil_of_mem appStart) nofun
    · rintro j ⟨⟩
      refine ⟨mine _ (by simp [Worker.lines]), ?_⟩
      rw [inv.reached]
      exact inv.enough _ member rfl
    · rintro j ⟨⟩ same k inside
      exact inv.all_reached member rfl same inside

/-- So does `main`. -/
theorem Kept.permitted_main (kept : Kept n s) {next : Main} (here : s.main.log = some (line, next)) :
    Permitted n needed s.printed line := by
  have created := kept.created
  have joined := kept.joined
  have mine : ∀ line ∈ s.main.lines, line ∈ s.printed := fun line => kept.mem_printed .main
  have running : s.main.lines = [] ∨ s.main.lines = [.appStart] → .appEnd ∉ s.printed := by
    intro lines member
    have inside : .appEnd ∈ s.main.lines := kept.mem_lines member
    rcases lines with empty | one
    · rw [empty] at inside
      cases inside
    · rw [one] at inside
      simp at inside
  cases point : s.main <;> rw [point] at here <;> cases here
  case logStart =>
    have nobody : s.workers = [] := by
      rw [point] at created
      exact List.eq_nil_of_length_eq_zero created
    have empty : s.printed = [] := by
      rw [List.eq_nil_iff_forall_not_mem]
      intro line member
      have inside := kept.mem_lines member
      cases thread : line.thread with
      | main =>
        rw [thread] at inside
        change line ∈ s.main.lines at inside
        rw [point] at inside
        cases inside
      | worker i =>
        rw [thread] at inside
        change line ∈ s.workers[i]?.elim [] (Worker.lines i) at inside
        rw [nobody] at inside
        cases inside
    rw [empty]
    exact ⟨nofun, nofun, iff_of_true rfl rfl, nofun, nofun, nofun, nofun, nofun⟩
  case logEnd =>
    have appEnd := running (.inr (by rw [point]; rfl))
    refine ⟨appEnd, appEnd, ?_, nofun, nofun, nofun, nofun, ?_⟩
    · refine iff_of_false (List.ne_nil_of_mem (mine .appStart ?_)) nofun
      show .appStart ∈ s.main.lines
      rw [point]
      exact List.mem_singleton_self _
    · rintro - j less
      rw [point] at joined
      obtain ⟨w, there, ended⟩ := joined j less
      apply kept.mem_printed (.worker j)
      rw [worker_lines there, Worker.lines, ended]
      simp

/-! ## Every run -/

/-- Nobody goes back behind its second line. -/
theorem Moves.reached_le (moves : Moves needed s t i w v new) :
    (s.workers.countP fun w => w.point.reached) ≤ t.workers.countP fun w => w.point.reached := by
  have after := countP_set (b := v) (fun w : Worker => w.point.reached) moves.there
  rw [← moves.workers] at after
  have reaches := moves.reaches
  omega

/-- Whoever holds the mutex and has its `LOG` behind it sees that all that have counted are past theirs. -/
theorem Kept.reached_eq_counted (kept : Kept n s) (there : s.workers[i]? = some w) (here : w.point = .test) :
    (s.workers.countP fun w => w.point.reached) = s.c := by
  rw [kept.counted]
  apply List.countP_congr
  intro u member
  obtain ⟨j, again⟩ := List.mem_iff_getElem?.1 member
  by_cases holds : u.point.holds = true
  · obtain rfl := kept.exclusive there again (by rw [here]; rfl) holds
    cases there.symm.trans again
    rw [here]
    exact Iff.rfl
  · obtain ⟨sec, point⟩ := u
    cases point <;> first | exact Iff.rfl | exact absurd rfl holds

/-- Who passes has seen enough of the others: here the condition of the wait is used. -/
theorem Inv.moves_enough (inv : Inv n needed s) (moves : Moves needed s t i w v new) :
    ∀ u ∈ t.workers, u.point.past = true → needed ≤ t.workers.countP fun w => w.point.reached := by
  intro u member past
  refine Nat.le_trans ?_ moves.reached_le
  rw [moves.workers] at member
  rcases List.mem_or_eq_of_mem_set member with inside | rfl
  · exact inv.enough u inside past
  · rcases moves.passes past with before | ⟨here, enough⟩
    · exact inv.enough w (List.mem_of_getElem? moves.there) before
    · rw [inv.reached_eq_counted moves.there here]
      exact Nat.le_of_eq enough.symm

/-- Waking is no passing. -/
theorem Inv.notifyAll (inv : Inv n needed s) : Inv n needed s.notifyAll where
  toKept := inv.toKept.notifyAll
  enough u member past := by
    obtain ⟨w, inside, rfl⟩ := List.mem_map.1 member
    rw [notified_past] at past
    show needed ≤ (s.workers.map Worker.notified).countP _
    rw [List.countP_map]
    simpa [Function.comp_def] using inv.enough w inside past
  sentence := inv.sentence

/-- The same for every step. -/
theorem Inv.step_enough (inv : Inv n needed s) (taken : step n needed s label = some t) :
    ∀ u ∈ t.workers, u.point.past = true → needed ≤ t.workers.countP fun w => w.point.reached := by
  have effect := step_taken taken
  by_cases main : label = .main
  · subst main
    cases effect with
    | mainLog here free => exact inv.enough
    | mainLogged here => exact inv.enough
    | join here there ended => exact inv.enough
    | create here =>
      intro u member past
      show needed ≤ (s.workers ++ [(⟨0, .start⟩ : Worker)]).countP _
      rw [List.countP_append]
      rcases List.mem_append.1 member with inside | last
      · exact Nat.le_trans (inv.enough u inside past) (Nat.le_add_right _ _)
      · rw [List.mem_singleton.1 last] at past
        cases past
  · obtain ⟨s', i, w, v, new, rfl | rfl, moves⟩ := effect.moves main
    · exact inv.moves_enough moves
    · exact inv.notifyAll.moves_enough moves

/-- Every step keeps the invariant. -/
theorem Inv.step (inv : Inv n needed s) (taken : step n needed s label = some t) : Inv n needed t where
  toKept := inv.toKept.step taken
  enough := inv.step_enough taken
  sentence := by
    cases step_taken taken with
    | mainLog here free => exact sentence_concat.2 ⟨inv.sentence, inv.permitted_main here⟩
    | log there here free => exact sentence_concat.2 ⟨inv.sentence, inv.permitted there here⟩
    | mainLogged | create | join | start | logged | lock | count | notify | pass | wait | relock | unlock | wake =>
      exact inv.sentence

/-- It holds in every state that is reached. -/
theorem inv_of_run {labels : List Label} (ran : run (step n needed) .initial labels = some t) : Inv n needed t := by
  have start : Inv n needed .initial := ⟨Kept.initial, nofun, Sentence.nil⟩
  exact run_invariant (Inv n needed) (fun inv taken => inv.step taken) start ran

/-- One worker at a time is in the critical section, no increment of `c` is lost, and each line that is
printed was permitted. -/
structure Synchronised (n needed : Nat) (s : Program) : Prop where
  exclusive : ∀ (i j : Nat) (v w : Worker), s.workers[i]? = some v → s.workers[j]? = some w → v.point.holds = true →
    w.point.holds = true → i = j
  counted : s.c = s.workers.countP fun w => w.point.counted
  sentence : Sentence (Permitted n needed) s.printed

/-- **The workers meet at the barrier**: in whatever order the threads take their steps and whatever waits
end early, "passed the barrier" is printed behind as many "reached barrier" as are needed. -/
theorem synchronised {labels : List Label} (ran : run (step n needed) .initial labels = some t) :
    Synchronised n needed t where
  exclusive _ _ _ _ first second := (inv_of_run ran).exclusive first second
  counted := (inv_of_run ran).counted
  sentence := (inv_of_run ran).sentence

end

/-- Two workers, of which the second one reaches the barrier last and passes it first. -/
def twoWorkers : List Label :=
  List.replicate 4 .main ++ List.replicate 3 (.worker 0 1) ++ List.replicate 3 (.worker 1 3) ++
    List.replicate 6 (.worker 0 0) ++ List.replicate 9 (.worker 1 0) ++ List.replicate 5 (.worker 0 0) ++
    List.replicate 4 .main

theorem synchronised_twoWorkers : ∃ t, run (step 2 2) .initial twoWorkers = some t ∧ Synchronised 2 2 t ∧
    t.printed = [.appStart, .sleeping 0 2, .sleeping 1 4, .reached 0, .reached 1, .passed 1, .passed 0, .appEnd] :=
  ⟨_, rfl, @synchronised 2 2 _ twoWorkers rfl, rfl⟩

end GtpLibrary.Barrier

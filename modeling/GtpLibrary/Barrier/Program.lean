import GtpLibrary.Lib.Mutex
import GtpLibrary.Lib.Runs

/-!
# `barrier_with_condition_variable.cpp`

`main` starts two workers and joins them; each worker counts itself under the shared mutex, notifies
all and waits until two have counted. Here `main` starts `n` workers and the condition of the wait
is `c == needed`. A label is one step of a thread up to the next point where another one may come
between: `LOG` locks and prints in one step and unlocks in another. A thread's time of sleep is the
steps of the others, and a wait may also end without a notification.
-/

namespace GtpLibrary.Barrier

open Lib

/-- `main` or one of the workers. -/
inductive Thread
  | main
  | worker (i : Nat)
  deriving DecidableEq

/-- What is printed, without the time in front. -/
inductive Line
  | appStart
  | sleeping (i sec : Nat)
  | reached (i : Nat)
  | passed (i : Nat)
  | appEnd
  deriving DecidableEq

/-- Who prints the line. -/
def Line.thread : Line → Thread
  | .appStart | .appEnd => .main
  | .sleeping i _ | .reached i | .passed i => .worker i

/-- The next step of a worker. -/
inductive Point
  | start
  | logSleeping
  | loggedSleeping
  | lock
  | count
  | notify
  | logReached
  | loggedReached
  | test
  | waiting
  | woken
  | unlock
  | logPassed
  | loggedPassed
  | ended
  deriving DecidableEq

/-- A worker, with the seconds it sleeps and the point it is at. -/
structure Worker where
  sec : Nat
  point : Point
  deriving DecidableEq

/-- The next step of `main`. -/
inductive Main
  | logStart
  | loggedStart
  | create (i : Nat)
  | join (i : Nat)
  | logEnd
  | loggedEnd
  | done
  deriving DecidableEq

/-- The three global variables, the threads and what was printed. -/
structure Program where
  c : Nat
  sharedMtx : Option Nat
  coutMtx : Option Thread
  main : Main
  workers : List Worker
  printed : List Line
  deriving DecidableEq

/-- Nothing has been printed and no thread but `main` is there. -/
def Program.initial : Program := ⟨0, none, none, .logStart, [], []⟩

/-- The `LOG` that a worker is in front of, and where it unlocks. -/
def Worker.log (i : Nat) (w : Worker) : Option (Line × Point) :=
  match w.point with
  | .logSleeping => some (.sleeping i w.sec, .loggedSleeping)
  | .logReached => some (.reached i, .loggedReached)
  | .logPassed => some (.passed i, .loggedPassed)
  | _ => none

/-- What comes behind the `LOG` that a worker unlocks. -/
def Point.logged : Point → Option Point
  | .loggedSleeping => some .lock
  | .loggedReached => some .test
  | .loggedPassed => some .ended
  | _ => none

/-- What `main` prints at a point, and the point behind the `LOG`. -/
def Main.log : Main → Option (Line × Main)
  | .logStart => some (.appStart, .loggedStart)
  | .logEnd => some (.appEnd, .loggedEnd)
  | _ => none

/-- The declaration of worker `i`, or what comes behind the last one. -/
def Main.joining (n i : Nat) : Main := if i < n then .join i else .logEnd

/-- The loop that creates the workers, in front of its next test. -/
def Main.creating (n i : Nat) : Main := if i < n then .create i else .joining n 0

/-- Where `main` goes on when it has left the mutex of `cout`. -/
def Main.logged (n : Nat) : Main → Option Main
  | .loggedStart => some (.creating n 0)
  | .loggedEnd => some .done
  | _ => none

/-- A worker goes to another point. -/
def Program.move (s : Program) (i : Nat) (w : Worker) (point : Point) : Program :=
  { s with workers := s.workers.set i { w with point } }

/-- `cv.notify_all()` -/
def Worker.notified (w : Worker) : Worker :=
  match w.point with
  | .waiting => { w with point := .woken }
  | _ => w

/-- All that wait are woken. -/
def Program.notifyAll (s : Program) : Program := { s with workers := s.workers.map Worker.notified }

/-- A worker's step; what `rand` returns is part of it. -/
inductive Label
  | main
  | worker (i rand : Nat)
  | wake (i : Nat)
  deriving DecidableEq

/-- A worker wakes up although nobody has notified it. -/
def Label.isWake : Label → Bool
  | .wake _ => true
  | .main | .worker .. => false

/-- The steps of `main`; without a value it is blocked or done. -/
def stepMain (n : Nat) (s : Program) : Option Program :=
  match s.main with
  | .logStart | .logEnd =>
    match s.main.log with
    | some (line, next) =>
      if s.coutMtx = none then
        some { s with coutMtx := some .main, printed := s.printed ++ [line], main := next }
      else none
    | none => none
  | .loggedStart | .loggedEnd =>
    match s.main.logged n with
    | some next => some { s with coutMtx := none, main := next }
    | none => none
  | .create i => some { s with workers := s.workers ++ [⟨0, .start⟩], main := .creating n (i + 1) }
  | .join i =>
    if s.workers[i]?.map Worker.point = some .ended then some { s with main := .joining n (i + 1) } else none
  | .done => none

/-- The steps of a worker; without a value it is blocked or has ended. -/
def stepWorker (needed : Nat) (s : Program) (i rand : Nat) (w : Worker) : Option Program :=
  match w.point with
  | .start => some (s.move i { w with sec := 1 + rand % 4 } .logSleeping)
  | .logSleeping | .logReached | .logPassed =>
    match w.log i with
    | some (line, next) =>
      if s.coutMtx = none then
        some { s.move i w next with coutMtx := some (.worker i), printed := s.printed ++ [line] }
      else none
    | none => none
  | .loggedSleeping | .loggedReached | .loggedPassed =>
    match w.point.logged with
    | some next => some { s.move i w next with coutMtx := none }
    | none => none
  | .lock => if s.sharedMtx = none then some { s.move i w .count with sharedMtx := some i } else none
  | .count => some { s.move i w .notify with c := s.c + 1 }
  | .notify => some (s.notifyAll.move i w .logReached)
  | .test =>
    if s.c = needed then some (s.move i w .unlock)
    -- the mutex is given back and the thread put to sleep at once
    else some { s.move i w .waiting with sharedMtx := none }
  | .waiting => none
  | .woken => if s.sharedMtx = none then some { s.move i w .test with sharedMtx := some i } else none
  | .unlock => some { s.move i w .logPassed with sharedMtx := none }
  | .ended => none

/-- One step of one thread. -/
def step (n needed : Nat) (s : Program) : Label → Option Program
  | .main => stepMain n s
  | .worker i rand =>
    match s.workers[i]? with
    | some w => stepWorker needed s i rand w
    | none => none
  | .wake i =>
    match s.workers[i]? with
    | some w => if w.point = .waiting then some (s.move i w .woken) else none
    | none => none

/-- What a label does. -/
inductive Taken (n needed : Nat) (s : Program) : Label → Program → Prop
  | mainLog {line : Line} {next : Main} (here : s.main.log = some (line, next)) (free : s.coutMtx = none) :
      Taken n needed s .main { s with coutMtx := some .main, printed := s.printed ++ [line], main := next }
  | mainLogged {next : Main} (here : s.main.logged n = some next) :
      Taken n needed s .main { s with coutMtx := none, main := next }
  | create {i : Nat} (here : s.main = .create i) :
      Taken n needed s .main { s with workers := s.workers ++ [⟨0, .start⟩], main := .creating n (i + 1) }
  | join {i : Nat} {w : Worker} (here : s.main = .join i) (there : s.workers[i]? = some w) (ended : w.point = .ended) :
      Taken n needed s .main { s with main := .joining n (i + 1) }
  | start {i rand : Nat} {w : Worker} (there : s.workers[i]? = some w) (here : w.point = .start) :
      Taken n needed s (.worker i rand) (s.move i { w with sec := 1 + rand % 4 } .logSleeping)
  | log {i rand : Nat} {w : Worker} {line : Line} {next : Point} (there : s.workers[i]? = some w)
      (here : w.log i = some (line, next)) (free : s.coutMtx = none) :
      Taken n needed s (.worker i rand)
        { s.move i w next with coutMtx := some (.worker i), printed := s.printed ++ [line] }
  | logged {i rand : Nat} {w : Worker} {next : Point} (there : s.workers[i]? = some w)
      (here : w.point.logged = some next) :
      Taken n needed s (.worker i rand) { s.move i w next with coutMtx := none }
  | lock {i rand : Nat} {w : Worker} (there : s.workers[i]? = some w) (here : w.point = .lock)
      (free : s.sharedMtx = none) :
      Taken n needed s (.worker i rand) { s.move i w .count with sharedMtx := some i }
  | count {i rand : Nat} {w : Worker} (there : s.workers[i]? = some w) (here : w.point = .count) :
      Taken n needed s (.worker i rand) { s.move i w .notify with c := s.c + 1 }
  | notify {i rand : Nat} {w : Worker} (there : s.workers[i]? = some w) (here : w.point = .notify) :
      Taken n needed s (.worker i rand) (s.notifyAll.move i w .logReached)
  | pass {i rand : Nat} {w : Worker} (there : s.workers[i]? = some w) (here : w.point = .test)
      (enough : s.c = needed) :
      Taken n needed s (.worker i rand) (s.move i w .unlock)
  | wait {i rand : Nat} {w : Worker} (there : s.workers[i]? = some w) (here : w.point = .test)
      (notEnough : s.c ≠ needed) :
      Taken n needed s (.worker i rand) { s.move i w .waiting with sharedMtx := none }
  | relock {i rand : Nat} {w : Worker} (there : s.workers[i]? = some w) (here : w.point = .woken)
      (free : s.sharedMtx = none) :
      Taken n needed s (.worker i rand) { s.move i w .test with sharedMtx := some i }
  | unlock {i rand : Nat} {w : Worker} (there : s.workers[i]? = some w) (here : w.point = .unlock) :
      Taken n needed s (.worker i rand) { s.move i w .logPassed with sharedMtx := none }
  | wake {i : Nat} {w : Worker} (there : s.workers[i]? = some w) (here : w.point = .waiting) :
      Taken n needed s (.wake i) (s.move i w .woken)

section
variable {n needed : Nat} {s t : Program} {label : Label}

/-- Every step of `main` is one of its kinds. -/
theorem stepMain_taken (taken : stepMain n s = some t) : Taken n needed s .main t := by
  unfold stepMain at taken
  split at taken
  case h_1 here | h_2 here =>
    rw [here] at taken
    simp only [Main.log, Option.ite_none_right_eq_some, Option.some.injEq] at taken
    obtain ⟨free, rfl⟩ := taken
    exact .mainLog (by rw [here]; rfl) free
  case h_3 here | h_4 here =>
    rw [here] at taken
    simp only [Main.logged, Option.some.injEq] at taken
    obtain rfl := taken
    exact .mainLogged (by rw [here]; rfl)
  case h_5 i here =>
    cases taken
    exact .create here
  case h_6 i here =>
    simp only [Option.ite_none_right_eq_some, Option.some.injEq, Option.map_eq_some_iff] at taken
    obtain ⟨⟨w, there, ended⟩, rfl⟩ := taken
    exact .join here there ended
  case h_7 => cases taken

/-- Every step of a worker is one of its kinds. -/
theorem stepWorker_taken {i rand : Nat} {w : Worker} (there : s.workers[i]? = some w)
    (taken : stepWorker needed s i rand w = some t) : Taken n needed s (.worker i rand) t := by
  obtain ⟨sec, point⟩ := w
  cases point <;>
    simp only [stepWorker, Worker.log, Point.logged, reduceCtorEq, Option.ite_none_right_eq_some,
      Option.some.injEq] at taken
  case start =>
    obtain rfl := taken
    exact .start there rfl
  case logSleeping | logReached | logPassed =>
    obtain ⟨free, rfl⟩ := taken
    exact .log there rfl free
  case loggedSleeping | loggedReached | loggedPassed =>
    obtain rfl := taken
    exact .logged there rfl
  case lock =>
    obtain ⟨free, rfl⟩ := taken
    exact .lock there rfl free
  case count =>
    obtain rfl := taken
    exact .count there rfl
  case notify =>
    obtain rfl := taken
    exact .notify there rfl
  case test =>
    split_ifs at taken with enough
    · cases taken
      exact .pass there rfl enough
    · cases taken
      exact .wait there rfl enough
  case woken =>
    obtain ⟨free, rfl⟩ := taken
    exact .relock there rfl free
  case unlock =>
    obtain rfl := taken
    exact .unlock there rfl

/-- Every step is of one of the kinds. -/
theorem step_taken (taken : step n needed s label = some t) : Taken n needed s label t := by
  cases label with
  | main => exact stepMain_taken taken
  | worker i rand =>
    simp only [step] at taken
    split at taken
    · rename_i w there
      exact stepWorker_taken there taken
    · cases taken
  | wake i =>
    simp only [step] at taken
    split at taken
    · rename_i w there
      split_ifs at taken with here
      cases taken
      exact .wake there here
    · cases taken

end

end GtpLibrary.Barrier

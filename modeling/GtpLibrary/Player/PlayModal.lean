import GtpLibrary.Lib.Ledger
import GtpLibrary.Lib.Numerals
import GtpLibrary.Lib.Runs
import GtpLibrary.Player.LogRun
import GtpLibrary.Player.RemoteList
import GtpLibrary.Player.Urlparse

/-!
# `_play_names`, `_play_one_modal` and `_kill_proc`

A player process with its terminal, from `openpty` to the end of the `finally`, for one track behind the
other. What the kernel and the user do stands in the labels: the descriptors, what a read gives, the keys,
whether a signal finds its process; a process ends between any two steps, by itself or because of a signal.
In the `try` of the main loop any step can raise. The drawing is left out.
-/

namespace GtpLibrary.Player.Modal

open Lib Lib.Numerals

/-- A player, as the kernel has it and as `proc` has it. -/
structure Process where
  name : Str
  exited : Option Int
  /-- What `poll` or `wait` has found. -/
  returncode : Option Int

/-- `poll`, and `wait` when its time is over. -/
def Process.poll (p : Process) : Process := { p with returncode := p.returncode.or p.exited }

/-- Who calls `_kill_proc`; the `finally` runs behind an exception or without one. -/
inductive Caller
  | escape
  | leaving (raising : Bool)

inductive Stage
  | check
  | term
  | waitTerm
  | kill
  | waitKill

inductive Phase
  /-- The head of the loop of `_play_names`. -/
  | next
  | opening
  | starting
  /-- The `getch` behind a start that failed. -/
  | notice
  | drain
  | key
  | poll
  | wait
  | finalDrain
  | closing (raising : Bool)
  | kill (caller : Caller) (stage : Stage)
  | done
  | raised

/-- What `select` and `os.read` give. -/
inductive Reads
  | notReady
  | data (bytes : List Byte)
  /-- No bytes, `EIO` or `EAGAIN`. -/
  | over
  | error

inductive Label
  | exits (process : Nat) (rc : Int)
  | go
  | opens (master slave : Nat)
  | starts
  | fails
  | reads (r : Reads)
  | key (ch : Int)
  /-- A signal that finds its process, by `killpg` or by the call that stands in for it, or neither. -/
  | signal (delivered : Bool)
  | raises

inductive End
  | master
  | slave
  deriving DecidableEq

structure Playing where
  phase : Phase
  name : Str
  queue : List Str
  /-- The last one is in front, `proc` while its call runs. -/
  processes : List Process
  descriptors : Ledger End Nat
  /-- How long `getch` waits, in milliseconds, -1 without an end. -/
  delay : Int
  feed : Feed
  stopped : Bool
  status : Str
  lastCmd : Str

section
variable (host remotePath : Str) (total : Nat)

/-- `cmd`, with `MPV_AO` and `MPV_TERM`. -/
def mpvCmd (name : Str) : List Str :=
  ["mpv".toList, "--ao=pulse".toList, "--terminal=yes".toList, "--term-osd=force".toList,
    "--term-status-msg=A: $\x7btime-pos\x7d / $\x7bduration\x7d ($\x7bpercent-pos\x7d%)".toList, "--".toList,
    "sftp://".toList ++ host ++ remotePath ++ name]

def shown (cmd : List Str) : Str := [' '].intercalate (cmd.map shlexQuote)

/-- The loop in front of its first track; without one there is nothing to do. -/
def Playing.start (names : List Str) : Playing where
  phase := if names = [] then .done else .next
  name := []
  queue := names
  processes := []
  descriptors := .empty
  delay := -1
  feed := .initial
  stopped := false
  status := if names = [] then "Nothing to play".toList else []
  lastCmd := []

namespace Playing

def returncode (s : Playing) : Option Int := s.processes.head?.bind Process.returncode

def polled (s : Playing) : Playing := { s with processes := s.processes.modifyHead Process.poll }

/-- `_play_one_modal` returns, and the loop goes on or breaks. -/
def returned (s : Playing) (rc : Int) : Playing :=
  if s.stopped then { s with phase := .done, status := "Stopped: ".toList ++ s.name }
  else { s with
    phase := .next
    status := if rc ≠ 0 then "mpv exited ".toList ++ signed rc ++ ": ".toList ++ s.name else "Finished: ".toList ++ s.name }

/-- `_kill_proc` returns. -/
def killed (s : Playing) : Caller → Playing
  | .escape =>
    { s with phase := .closing false, feed := { s.feed with lines := s.feed.lines ++ ["^ Esc — stopped".toList] } }
  | .leaving true => { s with delay := -1, phase := .raised }
  | .leaving false => { s with delay := -1 }.returned (s.returncode.getD 0)

/-- Behind a look at the process: `_kill_proc` returns when it has ended. -/
def orKilled (s : Playing) (caller : Caller) (stage : Stage) : Playing :=
  if s.returncode.isSome then s.killed caller else { s with phase := .kill caller stage }

/-- A descriptor is closed. -/
def close (s : Playing) (fd : End) : Playing :=
  { s with descriptors := (s.descriptors.held fd).elim s.descriptors (s.descriptors.release fd) }

def fed (s : Playing) (bytes : List Byte) : Playing :=
  { s with feed := feedOutput 500 s.feed (decodeReplace none bytes) }

/-- The steps of `_kill_proc`. -/
def stepKill (s : Playing) (caller : Caller) : Stage → Label → Option Playing
  | .check, .go => some (s.polled.orKilled caller .term)
  | .term, .signal delivered =>
    some (if delivered then { s with phase := .kill caller .waitTerm } else s.killed caller)
  | .waitTerm, .go => some (s.polled.orKilled caller .kill)
  | .kill, .signal _ => some { s with phase := .kill caller .waitKill }
  | .waitKill, .go => some (s.polled.killed caller)
  | _, _ => none

end Playing

/-- An exception leads to the `finally` from here. -/
def Phase.inTry : Phase → Bool
  | .drain | .key | .poll | .wait | .finalDrain | .kill .escape _ => true
  | _ => false

/-- The steps of the program. -/
def Playing.stepMain (s : Playing) (label : Label) : Option Playing :=
  match s.phase, label with
  | .next, .go =>
    match s.queue with
    | [] => some { s with phase := .done }
    | name :: queue => some { s with
        phase := .opening
        name
        queue
        stopped := false
        status := "Playing [".toList ++ numeral (total - queue.length) ++ '/' :: numeral total ++ "] ".toList ++ name
        lastCmd := shown (mpvCmd host remotePath name) }
  | .opening, .opens master slave =>
    if master = slave ∨ master ∈ s.descriptors.acquired ∨ slave ∈ s.descriptors.acquired then none
    else some { s with
      phase := .starting, descriptors := (s.descriptors.acquire .master master).acquire .slave slave }
  | .opening, .fails => some { s with phase := .raised }
  | .starting, .starts =>
    some { s.close .slave with
      phase := .drain, processes := ⟨s.name, none, none⟩ :: s.processes, feed := .initial, delay := 0 }
  | .starting, .fails => some { (s.close .master).close .slave with phase := .notice, delay := 1500 }
  | .notice, .key _ => some ({ s with delay := -1 }.returned 1)
  | .drain, .reads r =>
    match r with
    | .data bytes => some (s.fed bytes)
    | .notReady | .over => some { s with phase := .key }
    | .error => some { s with phase := .closing true }
  | .key, .key ch =>
    if ch = 27 then some { s with phase := .kill .escape .check, stopped := true } else some { s with phase := .poll }
  | .poll, .go => some { s.polled with phase := if s.polled.returncode.isSome then .finalDrain else .wait }
  | .wait, .go => some { s with phase := .drain }
  | .finalDrain, .reads r =>
    match r with
    | .data bytes => some (s.fed bytes)
    | .notReady | .over | .error => some { s with phase := .closing false, feed := finalDrain s.feed }
  -- the `finally`; the look of its `if` is the first one of `_kill_proc`
  | .closing raising, .go => some { s.close .master with phase := .kill (.leaving raising) .check }
  | .kill caller stage, label => s.stepKill caller stage label
  | _, _ => none

/-- The program goes on in `_kill_proc`. -/
theorem Playing.stepMain_kill {s : Playing} {caller : Caller} {stage : Stage} (here : s.phase = .kill caller stage)
    (label : Label) : s.stepMain host remotePath total label = s.stepKill caller stage label := by
  simp only [Playing.stepMain, here]

/-- Behind its end the program takes no step. -/
theorem Playing.stepMain_ended {s : Playing} (ended : s.phase = .done ∨ s.phase = .raised) (label : Label) :
    s.stepMain host remotePath total label = none := by
  rcases ended with ended | ended
  all_goals simp only [Playing.stepMain, ended]

def step (s : Playing) : Label → Option Playing
  | .exits i rc =>
    match s.processes[i]? with
    | some ⟨name, none, returncode⟩ => some { s with processes := s.processes.set i ⟨name, some rc, returncode⟩ }
    | _ => none
  | .raises => if s.phase.inTry then some { s with phase := .closing true } else none
  | label => s.stepMain host remotePath total label

end

end GtpLibrary.Player.Modal

import GtpLibrary.Player.PlayModal

/-!
# What a run of `_play_names` leaves behind

For its resources a step of the program is one of a few kinds (`Moves`), by the part of the call it is in.
Every step keeps the account of the descriptors, the delay of `getch` and the order of the tracks (`Kept`);
the steps that find their process and end it keep that there is one player at most (`Alone`).
-/

namespace GtpLibrary.Player.Modal

open Lib

/-! ## The parts of a call -/

/-- The parts of a call in which the same resources are held. -/
inductive Part
  | outside
  | opening
  | starting
  | notice
  /-- With a player and the master. -/
  | playing
  /-- With a player. -/
  | leaving
  deriving DecidableEq

/-- The part of the call that a phase belongs to. -/
def Phase.part : Phase → Part
  | .next | .done | .raised => .outside
  | .opening => .opening
  | .starting => .starting
  | .notice => .notice
  | .drain | .key | .poll | .wait | .finalDrain | .closing _ | .kill .escape _ => .playing
  | .kill (.leaving _) _ => .leaving

namespace Part

/-- Which ends of the terminal pair are open. -/
def holds : Part → End → Bool
  | .starting, _ => true
  | .playing, fd => fd = .master
  | _, _ => false

/-- The delay of `getch`; -1 is the one of the browser. -/
def delay : Part → Int
  | .notice => 1500
  | .playing | .leaving => 0
  | _ => -1

/-- Whether a player has been started. -/
def running (p : Part) : Bool := p = .playing || p = .leaving

/-- The track of the call. -/
def current (p : Part) (name : Str) : List Str := if p = .outside then [] else [name]

end Part

/-- The part of the call that a state is in. -/
def Playing.part (s : Playing) : Part := s.phase.part

/-- The track of the call, when its player was started. -/
def Part.begun (p : Part) (name : Str) : List Str := if p.running then [name] else []

/-! ## Kinds of steps -/

/-- The process is looked at, or not. -/
def Looked (s t : Playing) : Prop := t.processes = s.processes ∨ t.processes = s.processes.modifyHead Process.poll

/-- What a step inside a part leaves alone. -/
structure Framed (s t : Playing) : Prop where
  name : t.name = s.name
  queue : t.queue = s.queue
  descriptors : t.descriptors = s.descriptors
  delay : t.delay = s.delay

/-- A signal finds its process, and what was killed has ended before the last wait is over. -/
def Effective (s : Playing) : Label → Prop
  | .signal delivered => delivered = true
  | .go =>
    match s.phase with
    | .kill _ .waitKill => (s.processes.head?.bind Process.exited).isSome
    | _ => True
  | _ => True

/-- What a step does with the resources. -/
inductive Moves (s t : Playing) : Label → Prop
  | exits {i : Nat} {rc : Int} {p : Process} (there : s.processes[i]? = some p) (alive : p.exited = none)
      (eq : t = { s with processes := s.processes.set i { p with exited := some rc } }) : Moves s t (.exits i rc)
  | stays {label} (inside : s.part.running) (part : t.part = s.part) (framed : Framed s t) (looked : Looked s t) :
      Moves s t label
  | finishes {label} (outside : s.part = .outside) (part : t.part = .outside) (framed : Framed s t)
      (processes : t.processes = s.processes) : Moves s t label
  | begins {label} (outside : s.part = .outside) (part : t.part = .opening) (queue : s.queue = t.name :: t.queue)
      (descriptors : t.descriptors = s.descriptors) (delay : t.delay = s.delay) (processes : t.processes = s.processes) :
      Moves s t label
  | opens {master slave : Nat} (opening : s.part = .opening) (apart : master ≠ slave)
      (fresh : master ∉ s.descriptors.acquired) (fresh' : slave ∉ s.descriptors.acquired)
      (eq : t = { s with
        phase := .starting, descriptors := (s.descriptors.acquire .master master).acquire .slave slave }) :
      Moves s t (.opens master slave)
  | refused {label} (opening : s.part = .opening) (eq : t = { s with phase := .raised }) : Moves s t label
  | starts {label} (starting : s.part = .starting)
      (eq : t = { s.close .slave with
        phase := .drain, processes := ⟨s.name, none, none⟩ :: s.processes, feed := .initial, delay := 0 }) :
      Moves s t label
  | startFails {label} (starting : s.part = .starting)
      (eq : t = { (s.close .master).close .slave with phase := .notice, delay := 1500 }) : Moves s t label
  | noticed {label} (notice : s.part = .notice) (eq : t = { s with delay := -1 }.returned 1) : Moves s t label
  | closes {label} {raising : Bool} (playing : s.part = .playing)
      (eq : t = { s.close .master with phase := .kill (.leaving raising) .check }) : Moves s t label
  | leaves {label} (leaving : s.part = .leaving) (part : t.part = .outside) (name : t.name = s.name)
      (queue : t.queue = s.queue) (descriptors : t.descriptors = s.descriptors) (delay : t.delay = -1) (looked : Looked s t)
      (ended : Effective s label → t.returncode.isSome) : Moves s t label

section
variable {host remotePath : Str} {total : Nat} {s t : Playing} {label : Label} {caller : Caller} {rc : Int}

/-- A call that returns holds nothing any more. -/
theorem returned_part (s : Playing) (rc : Int) : (s.returned rc).part = .outside := by
  unfold Playing.returned
  split <;> rfl

/-- Returning touches no resource. -/
theorem returned_framed (s : Playing) (rc : Int) : Framed s (s.returned rc) := by
  unfold Playing.returned
  split <;> exact ⟨rfl, rfl, rfl, rfl⟩

/-- Returning starts no player. -/
theorem returned_processes (s : Playing) (rc : Int) : (s.returned rc).processes = s.processes := by
  unfold Playing.returned
  split <;> rfl

theorem Framed.refl (s : Playing) : Framed s s := ⟨rfl, rfl, rfl, rfl⟩

/-- The player is stopped only while it runs. -/
theorem kill_running (caller : Caller) (stage : Stage) : (Phase.kill caller stage).part.running := by
  cases caller <;> rfl

/-- `_kill_proc` goes on. -/
theorem Moves.killing {stage stage' : Stage} {u : Playing} (here : s.phase = .kill caller stage) (framed : Framed s u)
    (looked : Looked s u) : Moves s { u with phase := .kill caller stage' } label := by
  refine .stays ?_ ?_ ⟨framed.name, framed.queue, framed.descriptors, framed.delay⟩ looked
  · rw [Playing.part, here]
    exact kill_running caller stage
  · rw [Playing.part, Playing.part, here]
    cases caller <;> rfl

/-- `_kill_proc` returns. -/
theorem Moves.killed {stage : Stage} {u : Playing} (here : s.phase = .kill caller stage) (framed : Framed s u)
    (looked : Looked s u) (ended : Effective s label → u.returncode.isSome) : Moves s (u.killed caller) label := by
  have part : s.part = (Phase.kill caller stage).part := congrArg Phase.part here
  cases caller with
  | escape =>
    refine .stays (by rw [part]; rfl) (by rw [part]; rfl) ⟨framed.name, framed.queue, framed.descriptors, framed.delay⟩ looked
  | leaving raising =>
    cases raising with
    | true => exact .leaves part rfl framed.name framed.queue framed.descriptors rfl looked ended
    | false =>
      have same := returned_framed { u with delay := -1 } (u.returncode.getD 0)
      have processes := returned_processes { u with delay := -1 } (u.returncode.getD 0)
      refine .leaves part (returned_part _ _) (same.name.trans framed.name) (same.queue.trans framed.queue)
        (same.descriptors.trans framed.descriptors) same.delay ?_ ?_
      · rw [Looked, Playing.killed, processes]
        exact looked
      · rw [Playing.returncode, Playing.killed, processes]
        exact ended

/-- Looking at the process touches no other resource. -/
theorem framed_polled (s : Playing) : Framed s s.polled := ⟨rfl, rfl, rfl, rfl⟩

/-- `_kill_proc` looks at the process and returns or goes on. -/
theorem Moves.orKilled {stage stage' : Stage} (here : s.phase = .kill caller stage) :
    Moves s (s.polled.orKilled caller stage') label := by
  unfold Playing.orKilled
  split
  · rename_i ended
    exact .killed here (framed_polled s) (.inr rfl) fun _ => ended
  · exact .killing here (framed_polled s) (.inr rfl)

/-- The steps of `_kill_proc`. -/
theorem moves_of_stepKill {stage : Stage} (here : s.phase = .kill caller stage)
    (taken : s.stepKill caller stage label = some t) : Moves s t label := by
  cases stage with
  | check =>
    cases label with
    | go => cases taken; exact .orKilled here
    | _ => cases taken
  | term =>
    cases label with
    | signal delivered =>
      cases taken
      cases delivered with
      | true => exact .killing here (.refl s) (.inl rfl)
      | false => exact .killed here (.refl s) (.inl rfl) fun effective => nomatch effective
    | _ => cases taken
  | waitTerm =>
    cases label with
    | go => cases taken; exact .orKilled here
    | _ => cases taken
  | kill =>
    cases label with
    | signal delivered => cases taken; exact .killing here (.refl s) (.inl rfl)
    | _ => cases taken
  | waitKill =>
    cases label with
    | go =>
      cases taken
      refine .killed here (framed_polled s) (.inr rfl) fun effective => ?_
      rw [Effective, here] at effective
      simp only [Playing.returncode, Playing.polled]
      cases processes : s.processes with
      | nil => simp [processes] at effective
      | cons p rest =>
        rw [processes] at effective
        obtain ⟨rc, exited⟩ := Option.isSome_iff_exists.1 effective
        have exited : p.exited = some rc := exited
        cases found : p.returncode <;> simp [Process.poll, exited, found]
    | _ => cases taken

/-! ### The steps of the program, phase by phase -/

section
variable (taken : s.stepMain host remotePath total label = some t)
include taken

/-- The next name is taken, or there is none. -/
theorem moves_of_next (here : s.phase = .next) : Moves s t label := by
  have part : s.part = .outside := congrArg Phase.part here
  simp only [Playing.stepMain, here] at taken
  cases label with
  | go =>
    cases queue : s.queue with
    | nil =>
      rw [queue] at taken
      cases taken
      exact .finishes part rfl ⟨rfl, queue.symm ▸ rfl, rfl, rfl⟩ rfl
    | cons name rest =>
      rw [queue] at taken
      cases taken
      exact .begins part rfl queue rfl rfl rfl
  | _ => cases taken

/-- `pty.openpty()`. -/
theorem moves_of_opening (here : s.phase = .opening) : Moves s t label := by
  have part : s.part = .opening := congrArg Phase.part here
  simp only [Playing.stepMain, here] at taken
  cases label with
  | opens master slave =>
    obtain ⟨free, same⟩ := Option.ite_none_left_eq_some.1 taken
    cases same
    simp only [not_or] at free
    exact .opens part free.1 free.2.1 free.2.2 rfl
  | fails =>
    cases taken
    exact .refused part rfl
  | _ => cases taken

/-- `subprocess.Popen`, which may raise. -/
theorem moves_of_starting (here : s.phase = .starting) : Moves s t label := by
  have part : s.part = .starting := congrArg Phase.part here
  simp only [Playing.stepMain, here] at taken
  cases label with
  | starts =>
    cases taken
    exact .starts part rfl
  | fails =>
    cases taken
    exact .startFails part rfl
  | _ => cases taken

/-- The notice that no player could be started. -/
theorem moves_of_notice (here : s.phase = .notice) : Moves s t label := by
  have part : s.part = .notice := congrArg Phase.part here
  simp only [Playing.stepMain, here] at taken
  cases label with
  | key ch =>
    cases taken
    exact .noticed part rfl
  | _ => cases taken

/-- The output is read, while the player runs and behind its end. -/
theorem moves_of_drain (here : s.phase = .drain ∨ s.phase = .finalDrain) : Moves s t label := by
  have part : s.part = .playing := by rcases here with here | here <;> exact congrArg Phase.part here
  rcases here with here | here
  all_goals
    simp only [Playing.stepMain, here] at taken
    cases label with
    | reads r =>
      cases r <;> cases taken
      all_goals exact .stays (by rw [part]; rfl) (by rw [part]; first | rfl | exact part) ⟨rfl, rfl, rfl, rfl⟩ (.inl rfl)
    | _ => cases taken

/-- A key is read, or none. -/
theorem moves_of_key (here : s.phase = .key) : Moves s t label := by
  have part : s.part = .playing := congrArg Phase.part here
  simp only [Playing.stepMain, here] at taken
  cases label with
  | key ch =>
    simp only at taken
    split at taken
    all_goals
      cases taken
      exact .stays (by rw [part]; rfl) (by rw [part]; rfl) ⟨rfl, rfl, rfl, rfl⟩ (.inl rfl)
  | _ => cases taken

/-- The process is looked at. -/
theorem moves_of_poll (here : s.phase = .poll) : Moves s t label := by
  have part : s.part = .playing := congrArg Phase.part here
  simp only [Playing.stepMain, here] at taken
  cases label with
  | go =>
    cases taken
    refine .stays (by rw [part]; rfl) ?_ ⟨rfl, rfl, rfl, rfl⟩ (.inr rfl)
    rw [part, Playing.part]
    dsimp only
    split <;> rfl
  | _ => cases taken

/-- The turn is over, and reading goes on. -/
theorem moves_of_wait (here : s.phase = .wait) : Moves s t label := by
  have part : s.part = .playing := congrArg Phase.part here
  simp only [Playing.stepMain, here] at taken
  cases label with
  | go =>
    cases taken
    exact .stays (by rw [part]; rfl) (by rw [part]; rfl) ⟨rfl, rfl, rfl, rfl⟩ (.inl rfl)
  | _ => cases taken

/-- The `finally` closes the master. -/
theorem moves_of_closing {raising : Bool} (here : s.phase = .closing raising) : Moves s t label := by
  have part : s.part = .playing := congrArg Phase.part here
  simp only [Playing.stepMain, here] at taken
  cases label with
  | go =>
    cases taken
    exact .closes part rfl
  | _ => cases taken

/-- Every step of the program is of one of the kinds. -/
theorem moves_of_stepMain : Moves s t label := by
  cases here : s.phase with
  | next => exact moves_of_next taken here
  | opening => exact moves_of_opening taken here
  | starting => exact moves_of_starting taken here
  | notice => exact moves_of_notice taken here
  | drain => exact moves_of_drain taken (.inl here)
  | key => exact moves_of_key taken here
  | poll => exact moves_of_poll taken here
  | wait => exact moves_of_wait taken here
  | finalDrain => exact moves_of_drain taken (.inr here)
  | closing raising => exact moves_of_closing taken here
  | kill caller stage =>
    rw [Playing.stepMain_kill host remotePath total here] at taken
    exact moves_of_stepKill here taken
  | done =>
    rw [Playing.stepMain_ended host remotePath total (.inl here)] at taken
    cases taken
  | raised =>
    rw [Playing.stepMain_ended host remotePath total (.inr here)] at taken
    cases taken

end

/-- Every step, of the program or of a player, is of one of the kinds. -/
theorem moves_of_step (taken : step host remotePath total s label = some t) : Moves s t label := by
  cases label with
  | exits i rc =>
    simp only [step] at taken
    split at taken
    · rename_i name returncode there
      cases taken
      exact .exits there rfl rfl
    · cases taken
  | raises =>
    obtain ⟨inside, same⟩ := Option.ite_none_right_eq_some.1 taken
    cases same
    have part : s.part = .playing := by
      unfold Playing.part
      cases here : s.phase with
      | kill caller stage =>
        cases caller with
        | escape => rfl
        | leaving raising => rw [here] at inside; cases inside
      | drain | key | poll | wait | finalDrain => rfl
      | _ => rw [here] at inside; cases inside
    exact .stays (by rw [part]; rfl) (by rw [part]; rfl) ⟨rfl, rfl, rfl, rfl⟩ (.inl rfl)
  | _ => exact moves_of_stepMain taken

end

/-! ## Descriptors, `getch` and the order of the tracks -/

/-- What every step keeps. -/
structure Kept (names : List Str) (s : Playing) : Prop where
  accounted : s.descriptors.Accounted
  held : ∀ fd, (s.descriptors.held fd).isSome = s.part.holds fd
  delay : s.delay = s.part.delay
  order : ∃ played, names = played ++ (s.part.current s.name ++ s.queue) ∧
    (s.processes.map Process.name).reverse.Sublist (played ++ s.part.begun s.name)

section
variable {host remotePath : Str} {total : Nat} {names : List Str} {s t : Playing} {label : Label} {fd : End} {rc : Int}

/-- It holds in front of the first call. -/
theorem Kept.start (names : List Str) : Kept names (.start names) where
  accounted := .empty
  held fd := by
    unfold Playing.part Playing.start
    split <;> rfl
  delay := by
    unfold Playing.part Playing.start
    split <;> rfl
  order := by
    refine ⟨[], ?_, List.nil_sublist _⟩
    unfold Playing.part Playing.start
    split <;> rfl

/-- An end that is closed stays accounted for. -/
theorem close_accounted (accounted : s.descriptors.Accounted) (fd : End) : (s.close fd).descriptors.Accounted := by
  unfold Playing.close
  cases here : s.descriptors.held fd with
  | none => exact accounted
  | some n => exact accounted.release here

/-- A closed descriptor is held no more, and the other one is as it was. -/
theorem close_held (s : Playing) (fd other : End) :
    (s.close fd).descriptors.held other = if other = fd then none else s.descriptors.held other := by
  unfold Playing.close
  cases here : s.descriptors.held fd with
  | none =>
    split
    · rename_i same
      exact same ▸ here
    · rfl
  | some n =>
    show Function.update s.descriptors.held fd none other = _
    rw [Function.update_apply]

/-- Looking at a process changes no name. -/
theorem map_name_looked (looked : Looked s t) : t.processes.map Process.name = s.processes.map Process.name := by
  rcases looked with same | polled
  · rw [same]
  · rw [polled]
    cases s.processes <;> rfl

/-! ### One lemma for each kind of step -/

/-- A process ends. -/
theorem Kept.exits (kept : Kept names s) {i : Nat} {p : Process} (there : s.processes[i]? = some p) :
    Kept names { s with processes := s.processes.set i { p with exited := some rc } } := by
  obtain ⟨played, whole, begun⟩ := kept.order
  refine ⟨kept.accounted, kept.held, kept.delay, played, whole, ?_⟩
  have same : (s.processes.set i { p with exited := some rc }).map Process.name = s.processes.map Process.name := by
    obtain ⟨inside, rfl⟩ := List.getElem?_eq_some_iff.1 there
    rw [List.map_set]
    exact (congrArg _ (List.getElem_map ..).symm).trans (List.set_getElem_self (by simpa using inside))
  rw [same]
  exact begun

/-- A step inside a part, which looks at the process at most. -/
theorem Kept.stays (kept : Kept names s) (part : t.part = s.part) (framed : Framed s t) (looked : Looked s t) : Kept names t := by
  obtain ⟨played, whole, begun⟩ := kept.order
  refine ⟨framed.descriptors ▸ kept.accounted, ?_, ?_, played, ?_, ?_⟩
  · rw [part, framed.descriptors]
    exact kept.held
  · rw [part, framed.delay]
    exact kept.delay
  · rw [part, framed.name, framed.queue]
    exact whole
  · rw [part, framed.name, map_name_looked looked]
    exact begun

/-- The next call begins. -/
theorem Kept.begins (kept : Kept names s) (outside : s.part = .outside) (part : t.part = .opening)
    (queue : s.queue = t.name :: t.queue) (descriptors : t.descriptors = s.descriptors) (delay : t.delay = s.delay)
    (processes : t.processes = s.processes) : Kept names t := by
  obtain ⟨played, whole, begun⟩ := kept.order
  rw [outside] at whole begun
  refine ⟨descriptors ▸ kept.accounted, ?_, ?_, played, ?_, ?_⟩
  · intro fd
    rw [part, descriptors, kept.held, outside]
    rfl
  · rw [part, delay, kept.delay, outside]
    rfl
  · rw [whole, part, queue]
    rfl
  · rw [part, processes]
    exact begun

/-- `openpty` gives two descriptors that are new. -/
theorem Kept.opens (kept : Kept names s) {master slave : Nat} (opening : s.part = .opening) (apart : master ≠ slave)
    (fresh : master ∉ s.descriptors.acquired) (fresh' : slave ∉ s.descriptors.acquired) :
    Kept names { s with
      phase := .starting, descriptors := (s.descriptors.acquire .master master).acquire .slave slave } := by
  obtain ⟨played, whole, begun⟩ := kept.order
  rw [opening] at whole begun
  have free : ∀ fd, s.descriptors.held fd = none := fun fd =>
    Option.not_isSome_iff_eq_none.1 (by rw [kept.held, opening]; exact Bool.false_ne_true)
  refine ⟨?_, ?_, kept.delay.trans (by rw [opening]; rfl), played, whole, begun⟩
  · refine (kept.accounted.acquire (free .master) fresh).acquire ?_ ?_
    · show Function.update s.descriptors.held .master (some master) .slave = none
      rw [Function.update_of_ne (by decide), free]
    · exact fun member => (List.mem_cons.1 member).elim (Ne.symm apart) fresh'
  · intro fd
    cases fd <;> rfl

/-- `openpty` raises: the track is passed over. -/
theorem Kept.refused (kept : Kept names s) (opening : s.part = .opening) : Kept names { s with phase := .raised } := by
  obtain ⟨played, whole, begun⟩ := kept.order
  rw [opening] at whole begun
  refine ⟨kept.accounted, ?_, ?_, played ++ [s.name], ?_, ?_⟩
  · intro fd
    rw [kept.held, opening]
    rfl
  · exact kept.delay.trans (by rw [opening]; rfl)
  · rw [whole, List.append_assoc]
    rfl
  · exact begun.trans (by simp [Part.begun, Part.running])

/-- The player starts and has the slave. -/
theorem Kept.starts (kept : Kept names s) (starting : s.part = .starting) : Kept names { s.close .slave with
    phase := .drain, processes := ⟨s.name, none, none⟩ :: s.processes, feed := .initial, delay := 0 } := by
  obtain ⟨played, whole, begun⟩ := kept.order
  rw [starting] at whole begun
  refine ⟨close_accounted kept.accounted .slave, ?_, rfl, played, whole, ?_⟩
  · intro fd
    show ((s.close .slave).descriptors.held fd).isSome = _
    rw [close_held]
    cases fd with
    | master => exact (kept.held .master).trans (by rw [starting]; rfl)
    | slave => rfl
  · show ((⟨s.name, none, none⟩ :: s.processes).map Process.name).reverse.Sublist (played ++ [s.name])
    rw [List.map_cons, List.reverse_cons]
    exact (begun.trans (by simp [Part.begun, Part.running])).append (List.Sublist.refl _)

/-- `Popen` raises: both descriptors are closed. -/
theorem Kept.startFails (kept : Kept names s) (starting : s.part = .starting) :
    Kept names { (s.close .master).close .slave with phase := .notice, delay := 1500 } := by
  obtain ⟨played, whole, begun⟩ := kept.order
  rw [starting] at whole begun
  refine ⟨close_accounted (close_accounted kept.accounted .master) .slave, ?_, rfl, played, whole, begun⟩
  intro fd
  show (((s.close .master).close .slave).descriptors.held fd).isSome = _
  rw [close_held, close_held]
  cases fd <;> rfl

/-- The notice has been read. -/
theorem Kept.noticed (kept : Kept names s) (notice : s.part = .notice) : Kept names ({ s with delay := -1 }.returned 1) := by
  obtain ⟨played, whole, begun⟩ := kept.order
  rw [notice] at whole begun
  have same := returned_framed { s with delay := -1 } 1
  have part := returned_part { s with delay := -1 } 1
  refine ⟨by rw [same.descriptors]; exact kept.accounted, ?_, ?_, played ++ [s.name], ?_, ?_⟩
  · intro fd
    rw [part, same.descriptors]
    exact (kept.held fd).trans (by rw [notice]; rfl)
  · rw [part]
    exact same.delay
  · rw [part, same.queue, whole, List.append_assoc]
    rfl
  · rw [returned_processes]
    exact begun.trans (by simp [Part.begun, Part.running])

/-- The `finally` closes the master. -/
theorem Kept.closes (kept : Kept names s) {raising : Bool} (playing : s.part = .playing) :
    Kept names { s.close .master with phase := .kill (.leaving raising) .check } := by
  obtain ⟨played, whole, begun⟩ := kept.order
  rw [playing] at whole begun
  refine ⟨close_accounted kept.accounted .master, ?_, kept.delay.trans (by rw [playing]; rfl), played, whole, begun⟩
  intro fd
  show ((s.close .master).descriptors.held fd).isSome = _
  rw [close_held]
  cases fd with
  | master => rfl
  | slave => exact (kept.held .slave).trans (by rw [playing]; rfl)

/-- The call is over. -/
theorem Kept.leaves (kept : Kept names s) (leaving : s.part = .leaving) (part : t.part = .outside) (queue : t.queue = s.queue)
    (descriptors : t.descriptors = s.descriptors) (delay : t.delay = -1) (looked : Looked s t) : Kept names t := by
  obtain ⟨played, whole, begun⟩ := kept.order
  rw [leaving] at whole begun
  refine ⟨descriptors ▸ kept.accounted, ?_, ?_, played ++ [s.name], ?_, ?_⟩
  · intro fd
    rw [part, descriptors, kept.held, leaving]
    rfl
  · rw [part, delay]
    rfl
  · rw [part, queue, whole, List.append_assoc]
    rfl
  · rw [map_name_looked looked]
    exact begun.trans (by simp [part, Part.begun, Part.running])

/-- Every kind of step keeps it. -/
theorem Kept.step (kept : Kept names s) (moves : Moves s t label) : Kept names t := by
  cases moves with
  | exits there alive eq => exact eq ▸ kept.exits there
  | stays inside part framed looked => exact kept.stays part framed looked
  | finishes outside part framed processes => exact kept.stays (part.trans outside.symm) framed (.inl processes)
  | begins outside part queue descriptors delay processes => exact kept.begins outside part queue descriptors delay processes
  | opens opening apart fresh fresh' eq => exact eq ▸ kept.opens opening apart fresh fresh'
  | refused opening eq => exact eq ▸ kept.refused opening
  | starts starting eq => exact eq ▸ kept.starts starting
  | startFails starting eq => exact eq ▸ kept.startFails starting
  | noticed notice eq => exact eq ▸ kept.noticed notice
  | closes playing eq => exact eq ▸ kept.closes playing
  | leaves leaving part name queue descriptors delay looked ended => exact kept.leaves leaving part queue descriptors delay looked

/-- It is kept by every run. -/
theorem Kept.run {labels : List Label} (ran : run (Modal.step host remotePath total) (.start names) labels = some s) :
    Kept names s :=
  run_invariant (Kept names) (fun kept taken => kept.step (moves_of_step taken)) (.start names) ran

/-- **What is open is closed.** Whatever the players, the reads, the keys and the exceptions do, each
descriptor is closed at most once; and when no call runs, because one has returned or raised, each has been
closed, `getch` waits as it did before, and the players were those of the tracks in front, in their order
and each once at most. -/
theorem leaves_clean {labels : List Label}
    (ran : run (Modal.step host remotePath total) (.start names) labels = some s) :
    (∀ fd ∈ s.descriptors.acquired, s.descriptors.released.count fd ≤ 1) ∧
      (s.part = .outside → (∀ fd ∈ s.descriptors.acquired, s.descriptors.released.count fd = 1) ∧ s.delay = -1 ∧
        ∃ played, names = played ++ s.queue ∧ (s.processes.map Process.name).reverse.Sublist played) := by
  have kept := Kept.run ran
  refine ⟨fun fd member => kept.accounted.count_le_one member, fun outside => ⟨?_, ?_, ?_⟩⟩
  · apply kept.accounted.settled
    intro fd
    exact Option.not_isSome_iff_eq_none.1 (by rw [kept.held, outside]; exact Bool.false_ne_true)
  · exact kept.delay.trans (by rw [outside]; rfl)
  · obtain ⟨played, whole, begun⟩ := kept.order
    rw [outside] at whole begun
    exact ⟨played, whole, begun.trans (by simp [Part.begun, Part.running])⟩

/-! ## Players -/

/-- The program has seen that the process ended. -/
def Process.ended (p : Process) : Prop := p.returncode.isSome

/-- All players were waited for, but for the one of the call. -/
structure Alone (s : Playing) : Prop where
  known : ∀ p ∈ s.processes, p.ended → p.exited.isSome
  before : ∀ p ∈ s.processes.tail, p.ended
  outside : s.part.running = false → ∀ p ∈ s.processes, p.ended

/-- Outside the players' part nothing changes for them. -/
theorem Alone.same (alone : Alone s) (idle : s.part.running = false) (processes : t.processes = s.processes) : Alone t where
  known := processes ▸ alone.known
  before p member := alone.outside idle p (List.mem_of_mem_tail (processes ▸ member))
  outside _ := processes ▸ alone.outside idle

/-- It is kept when the process is looked at. -/
theorem Alone.looked (alone : Alone s) (looked : Looked s t) :
    (∀ p ∈ t.processes, p.ended → p.exited.isSome) ∧ ∀ p ∈ t.processes.tail, p.ended := by
  rcases looked with same | polled
  · exact same ▸ ⟨alone.known, alone.before⟩
  rw [polled]
  have known := alone.known
  have before := alone.before
  cases processes : s.processes with
  | nil => exact ⟨fun p member => (nomatch member), fun p member => (nomatch member)⟩
  | cons first rest =>
    rw [processes] at known before
    refine ⟨?_, before⟩
    intro p member ended
    rcases List.mem_cons.1 member with rfl | later
    · cases found : first.returncode with
      | none => simpa [Process.ended, Process.poll, found] using ended
      | some rc => exact known first List.mem_cons_self (by simp [Process.ended, found])
    · exact known p (List.mem_cons_of_mem _ later) ended

/-- It is kept by every step whose signals find their process. -/
theorem Alone.step (alone : Alone s) (effective : Effective s label) (moves : Moves s t label) : Alone t := by
  cases moves with
  | @exits i rc p there alive eq =>
    subst eq
    have waiting : ¬ p.ended := by
      intro ended
      have exited := alone.known p (List.mem_of_getElem? there) ended
      rw [alive] at exited
      cases exited
    have other : ∀ q ∈ s.processes.set i { p with exited := some rc }, q.ended → q ∈ s.processes := by
      intro q member ended
      rcases List.mem_or_eq_of_mem_set member with before | rfl
      · exact before
      · exact absurd ended waiting
    refine ⟨?_, ?_, ?_⟩
    · intro q member ended
      exact alone.known q (other q member ended) ended
    · intro q member
      cases processes : s.processes with
      | nil => rw [processes] at there; cases there
      | cons first rest =>
        have before := alone.before
        rw [processes] at there before member
        cases i with
        | zero => exact before q member
        | succ i => exact absurd (before p (List.mem_of_getElem? there)) waiting
    · intro idle
      exact absurd (alone.outside idle p (List.mem_of_getElem? there)) waiting
  | stays inside part framed looked =>
    obtain ⟨known, before⟩ := alone.looked looked
    refine ⟨known, before, fun idle => ?_⟩
    rw [part, inside] at idle
    cases idle
  | finishes outside part framed processes => exact alone.same (by rw [outside]; rfl) processes
  | begins outside part queue descriptors delay processes => exact alone.same (by rw [outside]; rfl) processes
  | opens opening apart fresh fresh' eq => exact alone.same (by rw [opening]; rfl) (by rw [eq])
  | refused opening eq => exact alone.same (by rw [opening]; rfl) (by rw [eq])
  | startFails starting eq => exact alone.same (by rw [starting]; rfl) (by rw [eq]; rfl)
  | noticed notice eq => exact alone.same (by rw [notice]; rfl) (by rw [eq, returned_processes])
  | starts starting eq =>
    subst eq
    refine ⟨?_, alone.outside (by rw [starting]; rfl), fun idle => nomatch idle⟩
    intro p member ended
    rcases List.mem_cons.1 member with rfl | before
    · cases ended
    · exact alone.known p before ended
  | closes playing eq =>
    subst eq
    refine ⟨alone.known, alone.before, fun idle => nomatch idle⟩
  | leaves leaving part name queue descriptors delay looked ended =>
    obtain ⟨known, before⟩ := alone.looked looked
    refine ⟨known, before, fun _ p member => ?_⟩
    have last := ended effective
    cases processes : t.processes with
    | nil => rw [processes] at member; cases member
    | cons first rest =>
      rw [processes] at member before
      rw [Playing.returncode, processes] at last
      rcases List.mem_cons.1 member with rfl | later
      · exact last
      · exact before p later

/-- The process has not exited. -/
def Process.running (p : Process) : Bool := p.exited.isNone

/-- **One player.** Where signals find their process and a killed one ends within the second that it is waited
for, there is never more than one player running, and none when no call runs, however the calls have ended. -/
theorem one_player {labels : List Label}
    (along : Along (Modal.step host remotePath total) Effective (.start names) labels)
    (ran : run (Modal.step host remotePath total) (.start names) labels = some s) :
    s.processes.countP Process.running ≤ 1 ∧ (s.part = .outside → s.processes.countP Process.running = 0) := by
  have initial : Alone (.start names) := ⟨fun _ member => (nomatch member), fun _ member => (nomatch member),
    fun _ _ member => (nomatch member)⟩
  have alone : Alone s := along.invariant (fun alone effective taken => alone.step effective (moves_of_step taken)) initial ran
  have idle : ∀ p ∈ s.processes, p.ended → ¬ p.running = true := by
    intro p member ended running
    have exited := alone.known p member ended
    rw [Process.running, Option.isNone_iff_eq_none] at running
    rw [running] at exited
    cases exited
  constructor
  · have before := alone.before
    cases processes : s.processes with
    | nil => exact Nat.zero_le _
    | cons first rest =>
      rw [processes] at before idle
      have none : rest.countP Process.running = 0 :=
        List.countP_eq_zero.2 fun p member => idle p (List.mem_cons_of_mem _ member) (before p member)
      rw [List.countP_cons, none]
      split <;> omega
  · intro outside
    exact List.countP_eq_zero.2 fun p member => idle p member (alone.outside (by rw [outside]; rfl) p member)

end

/-! ## A track that is stopped -/

/-- Two names that have been marked. -/
def twoTracks : List Str := ["a.mp3".toList, "b.mp3".toList]

/-- The first track is stopped with the escape key, and its player needs the second signal. -/
def stoppedRun : List Label := [.go, .opens 5 6, .starts, .reads (.data [0x41, 0x0a]), .reads .notReady, .key 27, .go,
  .signal true, .go, .signal true, .exits 0 (-9), .go, .go, .go]

/-- The first of two tracks is stopped with a key. -/
theorem leaves_clean_stopped : ∃ s, run (step "host".toList "/".toList 2) (.start twoTracks) stoppedRun = some s ∧
    s.status = "Stopped: a.mp3".toList ∧ s.descriptors.acquired = [6, 5] ∧
      ∀ fd ∈ s.descriptors.acquired, s.descriptors.released.count fd ≤ 1 :=
  ⟨_, rfl, rfl, rfl, (leaves_clean (show run (step "host".toList "/".toList 2) (.start twoTracks) stoppedRun = some _
    from rfl)).1⟩

instance (s : Playing) (label : Label) : Decidable (Effective s label) := by
  unfold Effective
  split
  · infer_instance
  · split <;> infer_instance
  · infer_instance

/-- In that run one player was started, so at most one runs. -/
theorem one_player_stopped : ∃ s, run (step "host".toList "/".toList 2) (.start twoTracks) stoppedRun = some s ∧
    s.processes.length = 1 ∧ s.processes.countP Process.running ≤ 1 :=
  ⟨_, rfl, rfl, (one_player (show Along (step "host".toList "/".toList 2) Effective (.start twoTracks) stoppedRun by
    decide) rfl).1⟩

end GtpLibrary.Player.Modal

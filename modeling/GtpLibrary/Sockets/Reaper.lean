import GtpLibrary.Sockets.AcceptDiscipline

/-!
# `ServerSocketSignalChildHandler`

The children of `acceptClient` are zombies from their exit until the parent has waited for them. The
kernel marks SIGCHLD as pending when a child exits; a mark that is there already is not made again, so
one run of the handler has to wait for all there are. The handler comes between any two steps of the
parent, which takes no step of its own meanwhile; the children go on.
-/

namespace GtpLibrary.Sockets.Reaper

open Lib
open Accept (Server Child Phase)

/-- The server, the children that were waited for, the pending SIGCHLD and whether the handler is
running. -/
structure System where
  server : Server
  reaped : List Nat
  pending : Bool
  handling : Bool

def System.initial (others : Nat → Bool) : System := ⟨.initial others, [], false, false⟩

/-- `waitpid` would return this child. -/
def System.zombie (s : System) (child : Nat) : Bool :=
  (s.server.children[child]?.elim false fun child => child.phase = .exited) && !s.reaped.contains child

/-- A step of the server, the call of the handler, and what its `waitpid` returns. -/
inductive Label
  | server (label : Accept.Label)
  | deliver
  | reap (child : Nat)
  | waitEnds
  deriving DecidableEq

def byParent : Accept.Label → Bool
  | .accept .. | .acceptFails | .fork | .forkFails | .close => true
  | .handle _ | .exit _ => false

def isExit : Accept.Label → Bool
  | .exit _ => true
  | _ => false

def step (s : System) : Label → Option System
  | .server label =>
    if s.handling && byParent label then none
    else (Accept.step s.server label).map fun server => { s with server, pending := s.pending || isExit label }
  | .deliver => if s.pending && !s.handling then some { s with pending := false, handling := true } else none
  | .reap child => if s.handling && s.zombie child then some { s with reaped := child :: s.reaped } else none
  | .waitEnds =>
    if s.handling && (List.range s.server.children.length).all fun child => !s.zombie child then
      some { s with handling := false }
    else none

/-- What a label does. -/
inductive Taken (s : System) : Label → System → Prop
  | server {label : Accept.Label} {server : Server} (allowed : s.handling = true → byParent label = false)
      (taken : Accept.step s.server label = some server) :
      Taken s (.server label) { s with server, pending := s.pending || isExit label }
  | deliver (pending : s.pending = true) (outside : s.handling = false) :
      Taken s .deliver { s with pending := false, handling := true }
  | reap {child : Nat} (handling : s.handling = true) (zombie : s.zombie child = true) :
      Taken s (.reap child) { s with reaped := child :: s.reaped }
  | waitEnds (handling : s.handling = true) (none : ∀ child < s.server.children.length, s.zombie child = false) :
      Taken s .waitEnds { s with handling := false }

section
variable {s t : System} {label : Label} {child : Nat}

theorem step_taken (taken : step s label = some t) : Taken s label t := by
  cases label with
  | server label =>
    simp only [step, Option.ite_none_left_eq_some, Option.map_eq_some_iff, Bool.and_eq_true, not_and, Bool.not_eq_true]
      at taken
    obtain ⟨allowed, server, taken, rfl⟩ := taken
    exact .server allowed taken
  | deliver =>
    simp only [step, Option.ite_none_right_eq_some, Option.some.injEq, Bool.and_eq_true, Bool.not_eq_true'] at taken
    obtain ⟨⟨pending, outside⟩, rfl⟩ := taken
    exact .deliver pending outside
  | reap child =>
    simp only [step, Option.ite_none_right_eq_some, Option.some.injEq, Bool.and_eq_true] at taken
    obtain ⟨⟨handling, zombie⟩, rfl⟩ := taken
    exact .reap handling zombie
  | waitEnds =>
    simp only [step, Option.ite_none_right_eq_some, Option.some.injEq, Bool.and_eq_true, List.all_eq_true,
      List.mem_range, Bool.not_eq_true'] at taken
    obtain ⟨⟨handling, none⟩, rfl⟩ := taken
    exact .waitEnds handling none

/-! ## Zombies -/

def Exited (server : Server) (i : Nat) : Prop := ∃ child, server.children[i]? = some child ∧ child.phase = .exited

theorem zombie_iff : s.zombie child = true ↔ Exited s.server child ∧ child ∉ s.reaped := by
  unfold System.zombie Exited
  cases there : s.server.children[child]? with
  | none => simp
  | some c => simp

theorem lt_of_exited {server : Server} (exited : Exited server child) : child < server.children.length := by
  obtain ⟨c, there, -⟩ := exited
  exact (List.getElem?_eq_some_iff.1 there).1

/-- Who has exited stays so. -/
theorem exited_step {server after : Server} {label : Accept.Label} (taken : Accept.step server label = some after)
    (exited : Exited server child) : Exited after child := by
  obtain ⟨c, there, phase⟩ := exited
  have other : ∀ {i : Nat} {born next : Child}, server.children[i]? = some born → born.phase ≠ .exited →
      Exited { server with children := server.children.set i next } child := by
    intro i born next here alive
    have ne : i ≠ child := by
      rintro rfl
      cases here.symm.trans there
      exact alive phase
    exact ⟨c, (List.getElem?_set_ne ne).trans there, phase⟩
  cases Accept.step_taken taken with
  | accept | acceptFails | forkFails | close => exact ⟨c, there, phase⟩
  | fork here => exact ⟨c, (List.getElem?_append_left (List.getElem?_eq_some_iff.1 there).1).trans there, phase⟩
  | handle here => exact other here nofun
  | exit here => exact other here nofun

/-- Only its own exit makes a child a zombie. -/
theorem exited_of_step {server after : Server} {label : Accept.Label} (taken : Accept.step server label = some after)
    (exited : Exited after child) : Exited server child ∨ isExit label = true := by
  obtain ⟨c, there, phase⟩ := exited
  cases Accept.step_taken taken with
  | accept | acceptFails | forkFails | close => exact .inl ⟨c, there, phase⟩
  | fork here =>
    left
    by_cases before : child < server.children.length
    · exact ⟨c, (List.getElem?_append_left before).symm.trans there, phase⟩
    · have last := (List.getElem?_append_right (Nat.le_of_not_lt before)).symm.trans there
      rw [List.mem_singleton.1 (List.mem_of_getElem? last)] at phase
      cases phase
  | @handle i fd descriptors here =>
    left
    by_cases same : i = child
    · subst same
      rw [List.getElem?_set_self (List.getElem?_eq_some_iff.1 here).1] at there
      cases there
      cases phase
    · exact ⟨c, (List.getElem?_set_ne same).symm.trans there, phase⟩
  | exit => exact .inr rfl

/-! ## What every step keeps -/

/-- No child is waited for twice or before its exit, and a zombie is announced. -/
structure Inv (s : System) : Prop where
  once : s.reaped.Nodup
  dead : ∀ child ∈ s.reaped, Exited s.server child
  announced : ∀ child, s.zombie child = true → s.pending = true ∨ s.handling = true

theorem Inv.initial (others : Nat → Bool) : Inv (.initial others) where
  once := List.nodup_nil
  dead := nofun
  announced child zombie := by
    obtain ⟨⟨c, there, -⟩, -⟩ := zombie_iff.1 zombie
    cases there

theorem Inv.step (inv : Inv s) (taken : step s label = some t) : Inv t := by
  cases step_taken taken with
  | @server label server allowed served =>
    refine ⟨inv.once, fun child member => exited_step served (inv.dead child member), ?_⟩
    intro child zombie
    obtain ⟨exited, unreaped⟩ := zombie_iff.1 zombie
    rcases exited_of_step served exited with before | exits
    · refine (inv.announced child (zombie_iff.2 ⟨before, unreaped⟩)).imp_left fun pending => ?_
      show (s.pending || isExit label) = true
      rw [pending, Bool.true_or]
    · left
      show (s.pending || isExit label) = true
      rw [exits, Bool.or_true]
  | deliver => exact ⟨inv.once, inv.dead, fun _ _ => .inr rfl⟩
  | @reap child handling zombie =>
    obtain ⟨exited, unreaped⟩ := zombie_iff.1 zombie
    exact ⟨List.nodup_cons.2 ⟨unreaped, inv.once⟩, List.forall_mem_cons.2 ⟨exited, inv.dead⟩, fun _ _ => .inr handling⟩
  | waitEnds handling none =>
    refine ⟨inv.once, inv.dead, fun child zombie => ?_⟩
    have nothing := none child (lt_of_exited (zombie_iff.1 zombie).1)
    exact absurd zombie (Bool.eq_false_iff.1 nothing)

/-- Without a signal that is pending or being handled, all the dead have been waited for. -/
theorem Inv.settled (inv : Inv s) (quiet : s.pending = false) (outside : s.handling = false)
    (exited : Exited s.server child) : child ∈ s.reaped := by
  by_contra unreaped
  rcases inv.announced child (zombie_iff.2 ⟨exited, unreaped⟩) with pending | handling
  · rw [quiet] at pending
    cases pending
  · rw [outside] at handling
    cases handling

theorem Inv.reaped_le (inv : Inv s) : s.reaped.length ≤ s.server.children.length := by
  have subset : s.reaped ⊆ List.range s.server.children.length :=
    fun child member => List.mem_range.2 (lt_of_exited (inv.dead child member))
  simpa using (List.subperm_of_subset inv.once subset).length_le

/-! ## The server in it -/

/-- The steps of the server itself. -/
def Label.served : Label → Option Accept.Label
  | .server label => some label
  | .deliver | .reap _ | .waitEnds => none

/-- The handler changes nothing of what the server does. -/
theorem run_served {labels : List Label} (ran : run step s labels = some t) :
    run Accept.step s.server (labels.filterMap Label.served) = some t.server := by
  induction labels generalizing s with
  | nil =>
    cases ran
    rfl
  | cons label labels ih =>
    obtain ⟨next, taken, ran⟩ := run_cons_eq_some.1 ran
    have rest := ih ran
    cases step_taken taken with
    | server allowed served => exact run_cons_eq_some.2 ⟨_, served, rest⟩
    | deliver | reap | waitEnds => exact rest

/-! ## The parent comes back -/

/-- The steps until the parent is back at `accept`: those of its call and of its children, and one `waitpid` for
each child and two for a signal. -/
def System.left (s : System) : Nat :=
  (match s.server.point with
    | .accept => 0
    | .fork _ => 11
    | .close _ => 1) + 4 * (s.server.children.map Accept.Child.left).sum +
    (s.server.children.length - s.reaped.length) + 2 * s.pending.toNat + s.handling.toNat

/-- The parent is in front of its next `accept`. -/
def Idle (s : System) : Prop := s.server.point = .accept ∧ s.handling = false

theorem left_child {after : Server} {i : Nat} {child next : Child} {pending : Bool}
    (there : s.server.children[i]? = some child) (children : after.children = s.server.children.set i next)
    (point : after.point = s.server.point) (less : next.left + 1 ≤ child.left) :
    System.left { s with server := after, pending := s.pending || pending } < s.left := by
  have sums := sum_map_set (b := next) Accept.Child.left there
  have length : after.children.length = s.server.children.length := by
    rw [children, List.length_set]
  rw [← children] at sums
  have signal : (s.pending || pending).toNat ≤ s.pending.toNat + 1 := by
    cases s.pending <;> cases pending <;> decide
  simp only [System.left, point, length]
  omega

theorem left_falls (inv : Inv s) (busy : ¬ Idle s) (taken : step s label = some t) : t.left < s.left := by
  have atMost := inv.reaped_le
  cases step_taken taken with
  | @server label server allowed served =>
    cases Accept.step_taken served with
    | accept here | acceptFails here =>
      refine absurd ⟨here, ?_⟩ busy
      rw [Bool.eq_false_iff]
      intro handling
      cases allowed handling
    | fork here =>
      simp only [System.left, here, List.map_append, List.sum_append, List.map_singleton, List.sum_singleton,
        Accept.Child.left, List.length_append, List.length_singleton, isExit, Bool.or_false]
      omega
    | forkFails here | close here =>
      simp only [System.left, here, isExit, Bool.or_false]
      omega
    | handle there | exit there => exact left_child there rfl rfl (Nat.le_refl _)
  | deliver pending outside =>
    simp only [System.left, pending, outside, Bool.toNat_true, Bool.toNat_false]
    omega
  | @reap child handling zombie =>
    have less := (inv.step taken).reaped_le
    simp only [List.length_cons] at less
    simp only [System.left, List.length_cons]
    omega
  | waitEnds handling none =>
    simp only [System.left, handling, Bool.toNat_true, Bool.toNat_false]
    omega

/-! ## Every run -/

/-- What a run keeps: each child is waited for once and not before it has exited, none stays a zombie once
the signals are handled, the server is where it would be without the handler, the connections are handled as
they should be, and where the run goes on for ever, the parent is always back at `accept`. -/
structure Reaps (others : Nat → Bool) (labels : Stream'.Seq Label) : Prop where
  once : ∀ n t, run step (.initial others) (labels.take n) = some t → t.reaped.Nodup
  dead : ∀ n t, run step (.initial others) (labels.take n) = some t → ∀ child ∈ t.reaped, Exited t.server child
  settled : ∀ n t, run step (.initial others) (labels.take n) = some t → t.pending = false → t.handling = false →
    ∀ child, Exited t.server child → child ∈ t.reaped
  served : ∀ n t, run step (.initial others) (labels.take n) = some t →
    run Accept.step (.initial others) ((labels.take n).filterMap Label.served) = some t.server
  disciplined : (.server .acceptFails) ∉ labels →
    ∀ n t, run step (.initial others) (labels.take n) = some t → Accept.Disciplined t.server
  returns : ¬ labels.Terminates →
    ∀ n, ∃ m ≥ n, ∃ t, run step (.initial others) (labels.take m) = some t ∧ Idle t

/-- **No child stays a zombie**, although signals that come together are only one: in every run, in whatever
order children exit and the handler is called. -/
theorem reaps (others : Nat → Bool) (labels : Stream'.Seq Label) (enabled : Enabled step (.initial others) labels) :
    Reaps others labels := by
  have inv : ∀ {taken : List Label} {t : System}, run step (.initial others) taken = some t → Inv t :=
    fun ran => run_invariant Inv (fun inv taken => inv.step taken) (Inv.initial others) ran
  refine ⟨fun n t ran => (inv ran).once, fun n t ran => (inv ran).dead,
    fun n t ran quiet outside child => (inv ran).settled quiet outside, fun n t ran => run_served ran, ?_, ?_⟩
  · intro accepts n t ran
    refine Accept.disciplined_of_accepts ?_ (run_served ran)
    intro member
    obtain ⟨label, inside, served⟩ := List.mem_filterMap.1 member
    cases label with
    | server label =>
      cases served
      exact accepts (mem_of_mem_take inside)
    | deliver | reap | waitEnds => cases served
  · intro infinite n
    have falls : ∀ {s t : System} {label : Label}, ¬ (Idle s ∨ ¬ Inv s) → step s label = some t →
        (Idle t ∨ ¬ Inv t) ∨ t.left < s.left := by
      intro s t label neither taken
      obtain ⟨busy, kept⟩ := not_or.1 neither
      exact .inr (left_falls (not_not.1 kept) busy taken)
    obtain ⟨m, after, t, ran, idle⟩ := exists_goal_of_rank System.left falls infinite enabled n
    exact ⟨m, after, t, ran, idle.resolve_right (not_not.2 (inv ran))⟩

end

/-- Two children whose signals are one. -/
theorem reaps_two : Reaps (fun fd => fd < 4) (Stream'.Seq.ofList
    [.server (.accept 4 0), .server .fork, .server .close, .server (.accept 4 1), .server .fork, .server (.handle 1),
      .server (.handle 0), .server (.exit 1), .server (.exit 0), .deliver, .reap 0, .reap 1, .waitEnds,
      .server .close]) := by
  apply reaps
  exact enabled_ofList rfl

end GtpLibrary.Sockets.Reaper

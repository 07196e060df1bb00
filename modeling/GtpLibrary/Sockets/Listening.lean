import GtpLibrary.Sockets.AcceptDiscipline

/-!
# The constructor of `ServerSocket`

`server` of `server.c` does the same. What the calls for an address return comes with the address;
`socket` returns a descriptor that is free. What the constructor leaves behind is where the runs of
`acceptClient` start.
-/

namespace GtpLibrary.Sockets.Listening

open Function (update)
open Lib
open Accept (Descriptors Server Target)

/-- One of the results of `getaddrinfo`, with what `socket`, `setsockopt` and `bind` return for it. -/
structure Address where
  socket : Option Nat
  setsockopt : Bool
  bind : Bool
  deriving DecidableEq

/-- What the other calls return; `getaddrinfo` may fail. -/
structure Environment where
  getaddrinfo : Option (List Address)
  listen : Bool
  sigaction : Bool

/-- The process while the constructor runs. -/
structure Process where
  descriptors : Descriptors
  socketFileDescriptor : Int
  freed : Nat
  listening : Bool
  handler : Bool
  reported : List String

def Process.report (s : Process) (message : String) : Process := { s with reported := s.reported ++ [message] }

/-- `socket` has returned. -/
def Process.opened (s : Process) (fd : Nat) : Process :=
  { s with socketFileDescriptor := fd, descriptors := update s.descriptors fd .other }

def Process.closed (s : Process) : Process :=
  { s with descriptors := s.descriptors.close s.socketFileDescriptor }

/-- The loop ends with `exit(1)`, at the address that is bound or at the end of the list. -/
inductive Loop
  | exits
  | breaks
  | ends
  deriving DecidableEq

/-- Bind to the first address we can. -/
def bindFirst (s : Process) : List Address → Process × Loop
  | [] => (s, .ends)
  | p :: rest =>
    match p.socket with
    | none =>
      let s := { s with socketFileDescriptor := -1 }
      bindFirst (s.report "server: Can not call socket() on that interface") rest
    | some fd =>
      let s := s.opened fd
      if p.setsockopt then
        if p.bind then (s, .breaks)
        else bindFirst (s.closed.report "server: Can not call bind() on that interface") rest
      else (s.report "Can not call setsockopt() on that interface", .exits)

/-- The process and the status with which the constructor ends it, if it does. `socketFileDescriptor` has no value
before. -/
def serverSocket (others : Nat → Bool) (garbage : Int) (environment : Environment) : Process × Option Nat :=
  let s : Process := ⟨(Server.initial others).descriptors, garbage, 0, false, false, []⟩
  match environment.getaddrinfo with
  | none => (s.report "getaddrinfo: %s\n", some 1)
  | some servinfo =>
    match bindFirst s servinfo with
    | (s, .exits) => (s, some 1)
    | (s, .ends) => (s.report "server: failed to bind\n", some 2)
    | (s, .breaks) =>
      let s := { s with freed := s.freed + 1 }
      if environment.listen then
        let s := { s with listening := true }
        if environment.sigaction then ({ s with handler := true }, none) else (s.report "sigaction", some 1)
      else (s.report "Can not listen() on that socket", some 1)

/-! ## The first address -/

/-- The loop goes on behind it. -/
def Address.Fails (p : Address) : Prop := p.socket = none ∨ (p.setsockopt = true ∧ p.bind = false)

def Address.Binds (p : Address) (fd : Nat) : Prop := p.socket = some fd ∧ p.setsockopt = true ∧ p.bind = true

/-- Behind addresses that `socket` or `bind` refuse comes one that is bound. -/
def FirstBinds (servinfo : List Address) (fd : Nat) : Prop :=
  ∃ front p back, servinfo = front ++ p :: back ∧ (∀ q ∈ front, q.Fails) ∧ p.Binds fd

/-- Or one of which an option cannot be set. -/
def FirstUnset (servinfo : List Address) : Prop :=
  ∃ front p back fd, servinfo = front ++ p :: back ∧ (∀ q ∈ front, q.Fails) ∧ p.socket = some fd ∧ p.setsockopt = false

section
variable {others : Nat → Bool} {s t : Process} {servinfo front rest : List Address} {p : Address} {fd : Nat}

theorem initial_update (others : Nat → Bool) (fd : Nat) :
    update (Server.initial others).descriptors fd .other = (Server.initial (update others fd true)).descriptors := by
  funext d
  by_cases same : d = fd
  · subst same
    simp [Server.initial]
  · simp [Server.initial, Function.update_of_ne same]

/-- A descriptor that was opened and closed is free again. -/
theorem close_open (free : others fd = false) :
    Descriptors.close (update (Server.initial others).descriptors fd .other) fd = (Server.initial others).descriptors := by
  have nothing : (Server.initial others).descriptors fd = .nothing := by
    simp [Server.initial, free]
  show (if 0 ≤ (fd : Int) then _ else _) = _
  rw [if_pos (Int.natCast_nonneg fd), Int.toNat_natCast, Function.update_idem, ← nothing, Function.update_eq_self]

/-- An address that fails leaves no descriptor open. -/
theorem bindFirst_fails (start : s.descriptors = (Server.initial others).descriptors)
    (free : ∀ fd ∈ p.socket, others fd = false) (fails : p.Fails) :
    ∃ t : Process, bindFirst s (p :: rest) = bindFirst t rest ∧ t.descriptors = s.descriptors ∧ t.freed = s.freed := by
  cases socket : p.socket with
  | none =>
    let t := Process.report { s with socketFileDescriptor := -1 } "server: Can not call socket() on that interface"
    have loop : bindFirst s (p :: rest) = bindFirst t rest := by
      rw [bindFirst, socket]
    exact ⟨t, loop, rfl, rfl⟩
  | some fd =>
    obtain ⟨set, unbound⟩ := fails.resolve_left (by rw [socket]; nofun)
    let t := (s.opened fd).closed.report "server: Can not call bind() on that interface"
    have loop : bindFirst s (p :: rest) = bindFirst t rest := by
      rw [bindFirst, socket]
      simp only [set, unbound, if_true, Bool.false_eq_true, if_false]
      rfl
    refine ⟨t, loop, ?_, rfl⟩
    show Descriptors.close (update s.descriptors fd .other) fd = s.descriptors
    rw [start]
    exact close_open (free fd (by rw [socket]; rfl))

theorem bindFirst_append (start : s.descriptors = (Server.initial others).descriptors)
    (free : ∀ p ∈ front, ∀ fd ∈ p.socket, others fd = false) (fails : ∀ p ∈ front, p.Fails) :
    ∃ t : Process, bindFirst s (front ++ rest) = bindFirst t rest ∧ t.descriptors = s.descriptors ∧ t.freed = s.freed := by
  induction front generalizing s with
  | nil => exact ⟨s, rfl, rfl, rfl⟩
  | cons p front ih =>
    obtain ⟨freeHere, freeLater⟩ := List.forall_mem_cons.1 free
    obtain ⟨failsHere, failsLater⟩ := List.forall_mem_cons.1 fails
    obtain ⟨u, first, same, freed⟩ := @bindFirst_fails others s (front ++ rest) p start freeHere failsHere
    obtain ⟨t, later, same', freed'⟩ := ih (same.trans start) freeLater failsLater
    exact ⟨t, first.trans later, same'.trans same, freed'.trans freed⟩

theorem fails_or_first (servinfo : List Address) :
    (∀ p ∈ servinfo, p.Fails) ∨ (∃ fd, FirstBinds servinfo fd) ∨ FirstUnset servinfo := by
  induction servinfo with
  | nil => exact .inl nofun
  | cons p rest ih =>
    by_cases fails : p.Fails
    · rcases ih with all | ⟨fd, front, q, back, rfl, before, binds⟩ | ⟨front, q, back, fd, rfl, before, socket, unset⟩
      · exact .inl (List.forall_mem_cons.2 ⟨fails, all⟩)
      · exact .inr (.inl ⟨fd, p :: front, q, back, rfl, List.forall_mem_cons.2 ⟨fails, before⟩, binds⟩)
      · exact .inr (.inr ⟨p :: front, q, back, fd, rfl, List.forall_mem_cons.2 ⟨fails, before⟩, socket, unset⟩)
    · right
      obtain ⟨fd, socket⟩ : ∃ fd, p.socket = some fd := Option.ne_none_iff_exists'.1 fun none => fails (.inl none)
      cases set : p.setsockopt
      · exact .inr ⟨[], p, rest, fd, rfl, nofun, socket, set⟩
      · have bound : p.bind = true := by
          rw [← Bool.not_eq_false]
          exact fun unbound => fails (.inr ⟨set, unbound⟩)
        exact .inl ⟨fd, [], p, rest, rfl, nofun, socket, set, bound⟩

theorem bindFirst_ends (start : s.descriptors = (Server.initial others).descriptors)
    (free : ∀ p ∈ servinfo, ∀ fd ∈ p.socket, others fd = false) (all : ∀ p ∈ servinfo, p.Fails) :
    ∃ t : Process, bindFirst s servinfo = (t, .ends) ∧ t.descriptors = s.descriptors := by
  obtain ⟨t, loop, same, -⟩ := @bindFirst_append others s servinfo [] start free all
  rw [List.append_nil] at loop
  exact ⟨t, loop, same⟩

theorem bindFirst_breaks (start : s.descriptors = (Server.initial others).descriptors)
    (free : ∀ p ∈ servinfo, ∀ fd ∈ p.socket, others fd = false) (first : FirstBinds servinfo fd) :
    ∃ t : Process, bindFirst s servinfo = (t, .breaks) ∧ t.socketFileDescriptor = fd ∧
      t.descriptors = (Server.initial (update others fd true)).descriptors ∧ t.freed = s.freed := by
  obtain ⟨front, p, back, rfl, before, socket, set, bound⟩ := first
  obtain ⟨freeFront, -⟩ := List.forall_mem_append.1 free
  obtain ⟨t, loop, same, freed⟩ := @bindFirst_append others s front (p :: back) start freeFront before
  refine ⟨t.opened fd, ?_, rfl, ?_, freed⟩
  · rw [loop, bindFirst, socket]
    simp only [set, bound, if_true]
  · show update t.descriptors fd .other = _
    rw [same, start]
    exact initial_update others fd

theorem bindFirst_exits (start : s.descriptors = (Server.initial others).descriptors)
    (free : ∀ p ∈ servinfo, ∀ fd ∈ p.socket, others fd = false) (first : FirstUnset servinfo) :
    ∃ t : Process, bindFirst s servinfo = (t, .exits) := by
  obtain ⟨front, p, back, fd, rfl, before, socket, unset⟩ := first
  obtain ⟨freeFront, -⟩ := List.forall_mem_append.1 free
  obtain ⟨t, loop, -, -⟩ := @bindFirst_append others s front (p :: back) start freeFront before
  refine ⟨(t.opened fd).report "Can not call setsockopt() on that interface", ?_⟩
  rw [loop, bindFirst, socket]
  simp only [unset, Bool.false_eq_true, if_false]

end

/-! ## The constructor and the server -/

/-- Where the runs of `acceptClient` start behind the constructor. -/
def Process.server (s : Process) : Server := { Server.initial (fun _ => false) with descriptors := s.descriptors }

/-- The constructor returns exactly when there is a first address to be bound and neither `listen` nor `sigaction`
fails. Then one descriptor is new, the socket's, which listens, and the list was freed once; and whatever
`acceptClient` does afterwards, the socket is never closed. It ends the process with 2 exactly when no
address could be bound, and then it has left no descriptor open. -/
structure Serves (others : Nat → Bool) (environment : Environment) (result : Process × Option Nat) : Prop where
  returns : result.2 = none ↔ (∃ servinfo fd, environment.getaddrinfo = some servinfo ∧ FirstBinds servinfo fd) ∧
    environment.listen = true ∧ environment.sigaction = true
  listens : ∀ servinfo fd, environment.getaddrinfo = some servinfo → FirstBinds servinfo fd → result.2 = none →
    result.1.socketFileDescriptor = fd ∧
    result.1.descriptors = (Server.initial (update others fd true)).descriptors ∧
    result.1.freed = 1 ∧ result.1.listening = true ∧ result.1.handler = true
  stays : result.2 = none → ∀ labels t, run Accept.step result.1.server labels = some t →
    t.descriptors.target result.1.socketFileDescriptor = .other ∧ .other ∉ t.closed
  refused : result.2 = some 2 ↔ ∃ servinfo, environment.getaddrinfo = some servinfo ∧ ∀ p ∈ servinfo, p.Fails
  closed : result.2 = some 2 → result.1.descriptors = (Server.initial others).descriptors

section
variable {others : Nat → Bool} {s t : Server} {label : Accept.Label} {fd : Nat}

/-- What is under way is a connection or -1. -/
structure Stays (fd : Nat) (s : Server) : Prop where
  there : s.descriptors fd = .other
  underWay : ∀ d, s.point.descriptor = some d → d = -1 ∨ ∃ e c, d = Int.ofNat e ∧ s.descriptors e = .connection c
  unclosed : .other ∉ s.closed

theorem Stays.step (stays : Stays fd s) (taken : Accept.step s label = some t) : Stays fd t := by
  cases Accept.step_taken taken with
  | @accept d c here free fresh =>
    refine ⟨?_, ?_, stays.unclosed⟩
    · have other : fd ≠ d := by
        rintro rfl
        cases free.symm.trans stays.there
      exact (Function.update_of_ne other _ _).trans stays.there
    · rintro e ⟨⟩
      exact .inr ⟨d, c, rfl, Function.update_self ..⟩
  | acceptFails here =>
    refine ⟨stays.there, ?_, stays.unclosed⟩
    rintro e ⟨⟩
    exact .inl rfl
  | fork here | forkFails here =>
    refine ⟨stays.there, ?_, stays.unclosed⟩
    rintro _ ⟨⟩
    exact stays.underWay _ (by rw [here]; rfl)
  | @close d here =>
    rcases stays.underWay d (by rw [here]; rfl) with rfl | ⟨e, c, rfl, there⟩
    · refine ⟨stays.there, nofun, ?_⟩
      exact List.not_mem_cons_of_ne_of_not_mem nofun stays.unclosed
    · refine ⟨?_, nofun, ?_⟩
      · have other : fd ≠ e := by
          intro same
          rw [← same] at there
          cases there.symm.trans stays.there
        show s.descriptors.close (Int.ofNat e) fd = .other
        rw [Accept.close_ofNat, Function.update_of_ne other]
        exact stays.there
      · refine List.not_mem_cons_of_ne_of_not_mem ?_ stays.unclosed
        rw [Accept.target_ofNat, there]
        nofun
  | handle | exit => exact ⟨stays.there, stays.underWay, stays.unclosed⟩

theorem stays_of_run {p : Process} {labels : List Accept.Label} (number : p.socketFileDescriptor = fd)
    (descriptors : p.descriptors = (Server.initial (update others fd true)).descriptors)
    (ran : run Accept.step p.server labels = some t) :
    t.descriptors.target p.socketFileDescriptor = .other ∧ .other ∉ t.closed := by
  have start : Stays fd p.server := by
    refine ⟨?_, nofun, List.not_mem_nil⟩
    show p.descriptors fd = .other
    rw [descriptors]
    simp [Server.initial]
  have stays := run_invariant (Stays fd) (fun stays taken => stays.step taken) start ran
  refine ⟨?_, stays.unclosed⟩
  rw [number]
  exact stays.there

end

section
variable {others : Nat → Bool} {environment : Environment} {p : Process} {servinfo : List Address} {fd : Nat}

theorem FirstBinds.not_all (first : FirstBinds servinfo fd) : ¬ ∀ p ∈ servinfo, p.Fails := by
  obtain ⟨front, p, back, rfl, -, socket, set, bound⟩ := first
  intro all
  rcases all p (by simp) with none | ⟨-, unbound⟩
  · cases socket.symm.trans none
  · cases bound.symm.trans unbound

theorem exists_bound_iff (found : environment.getaddrinfo = some servinfo) :
    (∃ servinfo fd, environment.getaddrinfo = some servinfo ∧ FirstBinds servinfo fd) ↔ ∃ fd, FirstBinds servinfo fd := by
  simp [found]

theorem exists_failing_iff (found : environment.getaddrinfo = some servinfo) :
    (∃ servinfo, environment.getaddrinfo = some servinfo ∧ ∀ p ∈ servinfo, p.Fails) ↔ ∀ p ∈ servinfo, p.Fails := by
  simp [found]

/-- The process ends with 1. -/
theorem serves_of_one
    (failed : ¬ ((∃ servinfo fd, environment.getaddrinfo = some servinfo ∧ FirstBinds servinfo fd) ∧
      environment.listen = true ∧ environment.sigaction = true))
    (other : ¬ ∃ servinfo, environment.getaddrinfo = some servinfo ∧ ∀ p ∈ servinfo, p.Fails) :
    Serves others environment (p, some 1) where
  returns := iff_of_false nofun failed
  listens _ _ _ _ := nofun
  stays := nofun
  refused := iff_of_false nofun other
  closed := nofun

/-- No address could be bound. -/
theorem serves_of_two (found : environment.getaddrinfo = some servinfo) (all : ∀ p ∈ servinfo, p.Fails)
    (closed : p.descriptors = (Server.initial others).descriptors) : Serves others environment (p, some 2) where
  returns := by
    refine iff_of_false nofun ?_
    rintro ⟨bound, -⟩
    obtain ⟨fd, first⟩ := (exists_bound_iff found).1 bound
    exact first.not_all all
  listens _ _ _ _ := nofun
  stays := nofun
  refused := iff_of_true rfl ((exists_failing_iff found).2 all)
  closed _ := closed

/-- The constructor returns. -/
theorem serves_of_returns (found : environment.getaddrinfo = some servinfo) (first : FirstBinds servinfo fd)
    (made : ∀ fd, FirstBinds servinfo fd → p.socketFileDescriptor = fd ∧
      p.descriptors = (Server.initial (update others fd true)).descriptors ∧ p.freed = 1)
    (listen : environment.listen = true ∧ p.listening = true) (sigaction : environment.sigaction = true ∧ p.handler = true) :
    Serves others environment (p, none) where
  returns := iff_of_true rfl ⟨(exists_bound_iff found).2 ⟨fd, first⟩, listen.1, sigaction.1⟩
  listens other fd' again first' _ := by
    cases found.symm.trans again
    obtain ⟨number, descriptors, freed⟩ := made fd' first'
    exact ⟨number, descriptors, freed, listen.2, sigaction.2⟩
  stays _ labels t ran := by
    obtain ⟨number, descriptors, -⟩ := made fd first
    exact stays_of_run number descriptors ran
  refused := iff_of_false nofun fun failing => first.not_all ((exists_failing_iff found).1 failing)
  closed := nofun

end

/-- **The constructor leaves one listening socket or ends the process**, for every list of addresses and whatever the
calls for each of them return. -/
theorem serves (others : Nat → Bool) (garbage : Int) (environment : Environment)
    (free : ∀ servinfo ∈ environment.getaddrinfo, ∀ p ∈ servinfo, ∀ fd ∈ p.socket, others fd = false) :
    Serves others environment (serverSocket others garbage environment) := by
  let s : Process := ⟨(Server.initial others).descriptors, garbage, 0, false, false, []⟩
  have start : s.descriptors = (Server.initial others).descriptors := rfl
  rw [serverSocket]
  cases found : environment.getaddrinfo with
  | none => exact serves_of_one (by simp [found]) (by simp [found])
  | some servinfo =>
    have free := free servinfo found
    dsimp only
    rcases fails_or_first servinfo with all | ⟨fd, first⟩ | unset
    · obtain ⟨t, loop, same⟩ := bindFirst_ends start free all
      simp only [s] at loop
      simp only [loop]
      exact serves_of_two found all same
    · obtain ⟨t, loop, -⟩ := bindFirst_breaks start free first
      have notAll := fun failing => first.not_all ((exists_failing_iff found).1 failing)
      -- the loop has stopped at the first address, so that no other one is the first
      have made : ∀ fd, FirstBinds servinfo fd → t.socketFileDescriptor = fd ∧
          t.descriptors = (Server.initial (update others fd true)).descriptors ∧ t.freed + 1 = 1 := by
        intro fd' first'
        obtain ⟨t', loop', number', descriptors', freed'⟩ := bindFirst_breaks start free first'
        cases loop.symm.trans loop'
        exact ⟨number', descriptors', congrArg (· + 1) freed'⟩
      simp only [s] at loop
      simp only [loop]
      cases listen : environment.listen
      · exact serves_of_one (fun returns => absurd (listen.symm.trans returns.2.1) nofun) notAll
      · cases sigaction : environment.sigaction
        · exact serves_of_one (fun returns => absurd (sigaction.symm.trans returns.2.2) nofun) notAll
        · exact serves_of_returns found first made ⟨listen, rfl⟩ ⟨sigaction, rfl⟩
    · obtain ⟨t, loop⟩ := bindFirst_exits start free unset
      have notBound : ¬ ∃ fd, FirstBinds servinfo fd := by
        rintro ⟨fd, first⟩
        obtain ⟨u, breaks, -⟩ := bindFirst_breaks start free first
        cases loop.symm.trans breaks
      have notAll : ¬ ∀ p ∈ servinfo, p.Fails := by
        intro all
        obtain ⟨u, ends, -⟩ := bindFirst_ends start free all
        cases loop.symm.trans ends
      simp only [s] at loop
      simp only [loop]
      exact serves_of_one (fun returns => notBound ((exists_bound_iff found).1 returns.1))
        (fun failing => notAll ((exists_failing_iff found).1 failing))

/-- The second address is bound, with the number that the first one had. -/
theorem serves_second : Serves (fun fd => fd < 3) ⟨some [⟨some 3, true, false⟩, ⟨none, true, true⟩, ⟨some 3, true, true⟩], true, true⟩
    (serverSocket (fun fd => fd < 3) 0 ⟨some [⟨some 3, true, false⟩, ⟨none, true, true⟩, ⟨some 3, true, true⟩], true, true⟩) := by
  apply serves
  decide

end GtpLibrary.Sockets.Listening

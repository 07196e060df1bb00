import GtpLibrary.Lib.InfiniteRuns
import GtpLibrary.Lib.Ledger
import GtpLibrary.Lib.Lists
import GtpLibrary.Sockets.AcceptClient

/-!
# Who has a connection

The parent and each child that is still to call the handler have a connection. `Orderly` keeps the
two accounts of them: the parent's descriptors, which `accept` gives and `close` takes, and the
children, to whom `fork` gives what their handler takes. It holds as long as `accept` does not fail;
behind a failure `fork` and `close` go on with -1.
-/

namespace GtpLibrary.Sockets.Accept

open Function (update)
open Lib

/-! ## The property -/

/-- `connectionFileDescriptor` in a call that is under way. -/
def Point.descriptor : Point → Option Int
  | .accept => none
  | .fork fd | .close fd => some fd

/-- What the call under way has to close. -/
def Server.current (s : Server) : Target := s.point.descriptor.elim .nothing s.descriptors.target

/-- The handler is called with accepted connections, once with each at most, and the parent closes
these, each once, but for the one of the call that is under way. -/
structure Disciplined (s : Server) : Prop where
  handled : ∀ target ∈ s.handled, ∃ c ∈ s.accepted, target = .connection c
  handledOnce : ∀ c, s.handled.count (.connection c) ≤ 1
  closed : ∀ target ∈ s.closed, ∃ c ∈ s.accepted, target = .connection c
  closedOnce : ∀ c ∈ s.accepted, s.closed.count (.connection c) = if s.current = .connection c then 0 else 1

/-- A run keeps this, and where it goes on for ever, no call is under way for ever. -/
structure KeepsDiscipline (others : Nat → Bool) (labels : Stream'.Seq Label) : Prop where
  always : ∀ n t, run step (.initial others) (labels.take n) = some t → Disciplined t
  returns : ¬ labels.Terminates →
    ∀ n, ∃ m ≥ n, ∃ t, run step (.initial others) (labels.take m) = some t ∧ t.point = .accept

/-! ## The accounts -/

/-- The connection of a descriptor. -/
def Target.held : Target → Option Target
  | .connection c => some (.connection c)
  | .nothing | .other => none

/-- What the handler of a child will be called with, or was. -/
def Child.target (child : Child) : Target := child.descriptors.target child.fd

/-- What the handler is still to be called with. -/
def Child.waiting (child : Child) : Option Target :=
  match child.phase with
  | .forked => some child.target
  | .handling | .exited => none

/-- The connections of the parent: held in a descriptor, accepted, closed. -/
def Server.parentLedger (s : Server) : Ledger Nat Target where
  held fd := (s.descriptors fd).held
  acquired := s.accepted.map .connection
  released := s.closed

/-- The account of the children, with what `fork` has given them. -/
def Server.childLedger (s : Server) (given : List Target) : Ledger Nat Target where
  held child := s.children[child]?.bind Child.waiting
  acquired := given
  released := s.handled

/-- The accounts are right, and the parent has the connection of the call under way, which no child
has before the `fork`. -/
structure Orderly (s : Server) (given : List Target) : Prop where
  parent : s.parentLedger.Accounted
  children : (s.childLedger given).Accounted
  begun : ∀ target ∈ given, target ∈ s.accepted.map .connection
  unforked : ∀ fd, s.point = .fork fd → s.descriptors.target fd ∉ given
  underWay : ∀ fd ∈ s.point.descriptor, ∃ d c, fd = Int.ofNat d ∧ s.descriptors d = .connection c
  rest : ∀ d c, s.descriptors d = .connection c → s.point.descriptor = some (Int.ofNat d)

section
variable {s t : Server} {given : List Target} {label : Label} {c : Connection} {d : Nat}

/-- A descriptor that is not negative is looked up. -/
@[simp] theorem target_ofNat (descriptors : Descriptors) (d : Nat) : descriptors.target (Int.ofNat d) = descriptors d :=
  if_pos (Int.natCast_nonneg d)

/-- A descriptor that is not negative is closed. -/
@[simp] theorem close_ofNat (descriptors : Descriptors) (d : Nat) :
    descriptors.close (Int.ofNat d) = update descriptors d .nothing := if_pos (Int.natCast_nonneg d)

/-! ## The accounts step by step -/

/-- One descriptor has changed. -/
theorem held_update {target : Target} (descriptors : t.descriptors = update s.descriptors d target) :
    t.parentLedger.held = update s.parentLedger.held d target.held := by
  show (fun fd => (t.descriptors fd).held) = _
  rw [descriptors]
  exact Function.comp_update Target.held s.descriptors d target

/-- A new connection is held in a descriptor that was free. -/
theorem parent_accept (parent : s.parentLedger.Accounted) (free : s.descriptors d = .nothing)
    (fresh : .connection c ∉ s.accepted.map Target.connection)
    (descriptors : t.descriptors = update s.descriptors d (.connection c)) (accepted : t.accepted = c :: s.accepted)
    (closed : t.closed = s.closed) : t.parentLedger.Accounted := by
  have acquired : t.parentLedger = s.parentLedger.acquire d (.connection c) := by
    show Ledger.mk t.parentLedger.held (t.accepted.map _) t.closed = _
    rw [held_update descriptors, accepted, closed]
    rfl
  rw [acquired]
  refine parent.acquire ?_ fresh
  show (s.descriptors d).held = none
  rw [free]
  rfl

/-- The connection that is closed was held. -/
theorem parent_close (parent : s.parentLedger.Accounted) (there : s.descriptors d = .connection c)
    (descriptors : t.descriptors = update s.descriptors d .nothing) (accepted : t.accepted = s.accepted)
    (closed : t.closed = .connection c :: s.closed) : t.parentLedger.Accounted := by
  have released : t.parentLedger = s.parentLedger.release d (.connection c) := by
    show Ledger.mk t.parentLedger.held (t.accepted.map _) t.closed = _
    rw [held_update descriptors, accepted, closed]
    rfl
  rw [released]
  apply parent.release
  show (s.descriptors d).held = some (.connection c)
  rw [there]
  rfl

/-- A child takes the place of another one. -/
theorem waiting_set {i : Nat} {child : Child} (there : i < s.children.length)
    (children : t.children = s.children.set i child) :
    (t.childLedger given).held = update (s.childLedger given).held i child.waiting := by
  funext j
  show t.children[j]?.bind Child.waiting = _
  by_cases same : j = i
  · rw [same, Function.update_self, children, List.getElem?_set_self there]
    rfl
  · rw [Function.update_of_ne same, children, List.getElem?_set_ne (Ne.symm same)]
    rfl

/-- A child is born. -/
theorem waiting_append {child : Child} (children : t.children = s.children ++ [child]) :
    (t.childLedger given).held = update (s.childLedger given).held s.children.length child.waiting := by
  funext j
  show t.children[j]?.bind Child.waiting = _
  by_cases same : j = s.children.length
  · rw [same, Function.update_self, children, List.getElem?_concat_length]
    rfl
  · rw [Function.update_of_ne same, children, List.getElem?_append]
    split_ifs with before
    · rfl
    · have behind : 1 ≤ j - s.children.length := by omega
      have none : s.children[j]? = none := List.getElem?_eq_none (by omega)
      show _ = s.children[j]?.bind Child.waiting
      rw [List.getElem?_eq_none (by simpa using behind), none]

/-- The child holds the connection it was born with. -/
theorem children_fork {child : Child} (accounted : (s.childLedger given).Accounted) (fresh : child.target ∉ given)
    (born : child.phase = .forked) (children : t.children = s.children ++ [child]) (handled : t.handled = s.handled) :
    (t.childLedger (child.target :: given)).Accounted := by
  have waiting : child.waiting = some child.target := by
    rw [Child.waiting, born]
  have acquired : t.childLedger (child.target :: given) =
      (s.childLedger given).acquire s.children.length child.target := by
    show Ledger.mk (t.childLedger given).held (child.target :: given) t.handled = _
    rw [waiting_append children, handled, waiting]
    rfl
  rw [acquired]
  refine accounted.acquire ?_ fresh
  show s.children[s.children.length]?.bind Child.waiting = none
  rw [List.getElem?_eq_none le_rfl]
  rfl

/-- The child hands the connection to the service. -/
theorem children_handle {i : Nat} {child : Child} (accounted : (s.childLedger given).Accounted)
    (there : s.children[i]? = some child) (born : child.phase = .forked)
    (children : t.children = s.children.set i { child with phase := .handling })
    (handled : t.handled = child.target :: s.handled) : (t.childLedger given).Accounted := by
  have waiting : child.waiting = some child.target := by
    rw [Child.waiting, born]
  have released : t.childLedger given = (s.childLedger given).release i child.target := by
    show Ledger.mk (t.childLedger given).held given t.handled = _
    rw [waiting_set (List.getElem?_eq_some_iff.1 there).1 children, handled]
    rfl
  rw [released]
  apply accounted.release
  show s.children[i]?.bind Child.waiting = some child.target
  rw [there, Option.bind_some, waiting]

/-- A child that ends has handed its connection over. -/
theorem children_exit {i : Nat} {child : Child} (accounted : (s.childLedger given).Accounted)
    (there : s.children[i]? = some child) (handling : child.phase = .handling)
    (children : t.children = s.children.set i { child with phase := .exited }) (handled : t.handled = s.handled) :
    (t.childLedger given).Accounted := by
  have nothing : s.children[i]?.bind Child.waiting = none := by
    rw [there, Option.bind_some, Child.waiting, handling]
  have kept : t.childLedger given = s.childLedger given := by
    show Ledger.mk (t.childLedger given).held given t.handled = _
    rw [waiting_set (List.getElem?_eq_some_iff.1 there).1 children, handled]
    show Ledger.mk (update (s.childLedger given).held i none) given s.handled = _
    rw [← nothing]
    exact congrArg (fun held => Ledger.mk held given s.handled) (Function.update_eq_self i (s.childLedger given).held)
  rw [kept]
  exact accounted

/-! ## One step -/

/-- `accept` returns. -/
theorem Orderly.accept (orderly : Orderly s given) (here : s.point = .accept) (free : s.descriptors d = .nothing)
    (fresh : c ∉ s.accepted) :
    Orderly { s with
      point := .fork d
      descriptors := update s.descriptors d (.connection c)
      accepted := c :: s.accepted } given := by
  have unknown : Target.connection c ∉ s.accepted.map .connection := by
    intro known
    obtain ⟨e, member, same⟩ := List.mem_map.1 known
    cases same
    exact fresh member
  constructor
  · exact parent_accept orderly.parent free unknown rfl rfl rfl
  · exact orderly.children
  · intro target member
    exact List.mem_cons_of_mem _ (orderly.begun target member)
  · rintro fd ⟨⟩ member
    have begun := orderly.begun _ member
    have new : Descriptors.target (update s.descriptors d (.connection c)) (Int.ofNat d) = .connection c := by
      rw [target_ofNat, Function.update_self]
    exact unknown (new ▸ begun)
  · rintro fd ⟨⟩
    exact ⟨d, c, rfl, Function.update_self ..⟩
  · intro e c' there
    by_cases same : e = d
    · rw [same]
      rfl
    · have before := orderly.rest e c' ((Function.update_of_ne same ..).symm.trans there)
      rw [here] at before
      cases before

/-- Between `fork` and `close` the parent has what it had. -/
theorem Orderly.descriptor_close {fd : Int} (here : s.point = .fork fd) :
    (Point.close fd).descriptor = s.point.descriptor := by
  rw [here]
  rfl

/-- `fork` returns to both. -/
theorem Orderly.fork (orderly : Orderly s given) {fd : Int} (here : s.point = .fork fd) :
    Orderly { s with point := .close fd, children := s.children ++ [⟨fd, s.descriptors, .forked⟩] }
      (s.descriptors.target fd :: given) := by
  have kept := Orderly.descriptor_close here
  constructor
  · exact orderly.parent
  · have fresh : (Child.mk fd s.descriptors .forked).target ∉ given := orderly.unforked fd here
    exact children_fork orderly.children fresh rfl rfl rfl
  · refine List.forall_mem_cons.2 ⟨?_, orderly.begun⟩
    obtain ⟨d, c, rfl, there⟩ := orderly.underWay fd (kept ▸ rfl)
    refine orderly.parent.owned (x := d) ?_
    show (s.descriptors d).held = some (s.descriptors.target (Int.ofNat d))
    rw [target_ofNat, there]
    rfl
  · rintro fd' ⟨⟩
  · exact fun fd' point => orderly.underWay fd' (kept ▸ point)
  · exact fun e c' there => kept.trans (orderly.rest e c' there)

/-- `fork` fails. -/
theorem Orderly.forkFails (orderly : Orderly s given) {fd : Int} (here : s.point = .fork fd) :
    Orderly { s with point := .close fd } given := by
  have kept := Orderly.descriptor_close here
  refine ⟨orderly.parent, orderly.children, orderly.begun, ?_, ?_, ?_⟩
  · rintro fd' ⟨⟩
  · exact fun fd' point => orderly.underWay fd' (kept ▸ point)
  · exact fun e c' there => kept.trans (orderly.rest e c' there)

/-- The parent closes its descriptor. -/
theorem Orderly.close (orderly : Orderly s given) {fd : Int} (here : s.point = .close fd) :
    Orderly { s with
      point := .accept
      descriptors := s.descriptors.close fd
      closed := s.descriptors.target fd :: s.closed } given := by
  obtain ⟨d, c, rfl, there⟩ := orderly.underWay fd (by rw [here]; rfl)
  rw [close_ofNat, target_ofNat, there]
  constructor
  · exact parent_close orderly.parent there rfl rfl rfl
  · exact orderly.children
  · exact orderly.begun
  · rintro fd' ⟨⟩
  · rintro fd' ⟨⟩
  · intro e c' there'
    by_cases same : e = d
    · have gone : update s.descriptors d .nothing e = .nothing := same ▸ Function.update_self ..
      cases gone.symm.trans there'
    · have before := orderly.rest e c' ((Function.update_of_ne same ..).symm.trans there')
      rw [here] at before
      cases before
      exact absurd rfl same

/-- Every step is orderly, but for an `accept` that fails. -/
theorem Orderly.step (orderly : Orderly s given) (succeeds : label ≠ .acceptFails) (taken : step s label = some t) :
    ∃ given', Orderly t given' := by
  cases step_taken taken with
  | accept here free fresh => exact ⟨_, orderly.accept here free fresh⟩
  | acceptFails here => exact absurd rfl succeeds
  | fork here => exact ⟨_, orderly.fork here⟩
  | forkFails here => exact ⟨_, orderly.forkFails here⟩
  | close here => exact ⟨_, orderly.close here⟩
  | handle there =>
    exact ⟨given, orderly.parent, children_handle orderly.children there rfl rfl rfl, orderly.begun, orderly.unforked,
      orderly.underWay, orderly.rest⟩
  | exit there =>
    exact ⟨given, orderly.parent, children_exit orderly.children there rfl rfl rfl, orderly.begun, orderly.unforked,
      orderly.underWay, orderly.rest⟩

/-! ## The run -/

/-- Nothing has been accepted. -/
theorem Orderly.initial (others : Nat → Bool) : Orderly (.initial others) [] where
  parent := by
    have nothing : (Server.initial others).parentLedger = .empty := by
      show Ledger.mk (fun fd => Target.held (if others fd then .other else .nothing)) [] [] = .empty
      congr 1
      funext fd
      cases others fd <;> rfl
    rw [nothing]
    exact Ledger.Accounted.empty
  children := Ledger.Accounted.empty
  begun _ member := absurd member List.not_mem_nil
  unforked _ := nofun
  underWay _ := nofun
  rest fd c there := by
    cases other : others fd with
    | true | false => simp [Server.initial, other] at there

/-- Only a connection is held. -/
theorem held_eq_some {target : Target} (held : target.held = some (.connection c)) : target = .connection c := by
  cases target with
  | connection e =>
    cases held
    rfl
  | nothing | other => cases held

/-- The parent holds a connection exactly between `accept` and `close`. -/
theorem Orderly.current_eq_iff (orderly : Orderly s given) :
    s.current = .connection c ↔ ∃ d, s.descriptors d = .connection c := by
  constructor
  · intro current
    cases point : s.point.descriptor with
    | none =>
      rw [Server.current, point] at current
      cases current
    | some fd =>
      obtain ⟨d, e, rfl, there⟩ := orderly.underWay fd point
      rw [Server.current, point, Option.elim_some, target_ofNat] at current
      exact ⟨d, current⟩
  · rintro ⟨d, there⟩
    rw [Server.current, orderly.rest d c there, Option.elim_some, target_ofNat]
    exact there

/-- An orderly server is disciplined. -/
theorem Orderly.disciplined (orderly : Orderly s given) : Disciplined s where
  handled target member := by
    obtain ⟨c, accepted, rfl⟩ := List.mem_map.1 (orderly.begun target (orderly.children.known target member))
    exact ⟨c, accepted, rfl⟩
  handledOnce c := by
    by_cases member : Target.connection c ∈ given
    · exact orderly.children.count_le_one member
    · have never : Target.connection c ∉ s.handled := fun handled => member (orderly.children.known _ handled)
      rw [List.count_eq_zero.2 never]
      exact Nat.zero_le 1
  closed target member := by
    obtain ⟨c, accepted, rfl⟩ := List.mem_map.1 (orderly.parent.known target member)
    exact ⟨c, accepted, rfl⟩
  closedOnce c accepted := by
    rcases orderly.parent.once _ (List.mem_map_of_mem accepted) with ⟨⟨d, held⟩, unclosed⟩ | ⟨unheld, closed⟩
    · rw [if_pos (orderly.current_eq_iff.2 ⟨d, held_eq_some held⟩)]
      exact unclosed
    · have elsewhere : ¬ s.current = .connection c := by
        intro current
        obtain ⟨d, there⟩ := orderly.current_eq_iff.1 current
        apply unheld d
        show (s.descriptors d).held = some (.connection c)
        rw [there]
        rfl
      rw [if_neg elsewhere]
      exact closed

/-- As long as `accept` returns connections. -/
theorem disciplined_of_accepts {others : Nat → Bool} {labels : List Label} (accepts : .acceptFails ∉ labels)
    (ran : run step (.initial others) labels = some t) : Disciplined t := by
  have along : Along step (fun _ label => label ≠ .acceptFails) (.initial others) labels := by
    apply Along.of_labels
    rintro label member rfl
    exact accepts member
  have keep : ∀ {s t label}, (∃ given, Orderly s given) → label ≠ .acceptFails → step s label = some t →
      ∃ given, Orderly t given := fun ⟨_, orderly⟩ succeeds taken => orderly.step succeeds taken
  obtain ⟨given, orderly⟩ := along.invariant keep ⟨[], .initial others⟩ ran
  exact orderly.disciplined

/-! ## The parent comes back -/

/-- The steps that a child has left. -/
def Child.left (child : Child) : Nat :=
  match child.phase with
  | .forked => 2
  | .handling => 1
  | .exited => 0

/-- A `fork` adds less than the parent's call has left. -/
def Server.rank (s : Server) : Nat :=
  (match s.point with
    | .accept => 0
    | .fork _ => 4
    | .close _ => 1) + (s.children.map Child.left).sum

/-- A step of a child lowers the rank. -/
theorem rank_lt_of_child {i : Nat} {child after : Child} (there : s.children[i]? = some child)
    (children : t.children = s.children.set i after) (point : t.point = s.point) (less : after.left < child.left) :
    t.rank < s.rank := by
  have sums := sum_map_set (b := after) Child.left there
  rw [← children] at sums
  unfold Server.rank
  rw [point]
  omega

/-- Away from `accept` every step lowers the rank. -/
theorem rank_falls (away : s.point ≠ .accept) (taken : step s label = some t) :
    t.point = .accept ∨ t.rank < s.rank := by
  cases step_taken taken with
  | accept here | acceptFails here => exact absurd here away
  | fork here =>
    right
    simp only [Server.rank, here, List.map_append, List.sum_append, List.map_singleton, List.sum_singleton, Child.left]
    omega
  | forkFails here =>
    right
    simp only [Server.rank, here]
    omega
  | close here => exact .inl rfl
  | handle there | exit there => exact .inr (rank_lt_of_child there rfl rfl (Nat.lt_succ_self _))

/-- **Every run without a failure of `accept` keeps the discipline**, whatever `fork` does and in
whatever order the parent and the children take their steps. -/
theorem keepsDiscipline (others : Nat → Bool) (labels : Stream'.Seq Label)
    (enabled : Enabled step (.initial others) labels) (accepts : .acceptFails ∉ labels) :
    KeepsDiscipline others labels where
  always _ _ ran := disciplined_of_accepts (fun member => accepts (mem_of_mem_take member)) ran
  returns infinite n := exists_goal_of_rank Server.rank rank_falls infinite enabled n

end

/-- One connection without a child, and another one that is handled. -/
theorem keepsDiscipline_two : KeepsDiscipline (fun fd => fd < 4) (Stream'.Seq.ofList
    [.accept 4 0, .forkFails, .close, .accept 4 1, .fork, .handle 0, .close, .exit 0]) := by
  apply keepsDiscipline
  · exact enabled_ofList rfl
  · intro fails
    obtain ⟨i, there⟩ := Stream'.Seq.mem_iff_exists_get?.1 fails
    rw [Stream'.Seq.ofList_get?] at there
    exact absurd (List.mem_of_getElem? there.symm) (by decide)

/-- The handler is called with -1. -/
theorem not_keepsDiscipline_failure :
    ∃ labels, Enabled step (.initial fun fd => fd < 4) labels ∧ ¬ KeepsDiscipline (fun fd => fd < 4) labels := by
  refine ⟨Stream'.Seq.ofList [.acceptFails, .fork, .handle 0, .close], enabled_ofList rfl, fun keeps => ?_⟩
  have disciplined := keeps.always 4 _ rfl
  obtain ⟨c, accepted, -⟩ := disciplined.handled .nothing List.mem_cons_self
  cases accepted

/-! ## Behind a failure -/

section
variable {s t : Server} {label : Label} {labels : List Label}

/-- The parent has closed -1, or is about to. -/
def Failed (s : Server) : Prop := .nothing ∈ s.closed ∨ s.point.descriptor = some (-1)

/-- After an `accept` that failed every further step repeats the failure. -/
theorem Failed.step (failed : Failed s) (taken : step s label = some t) : Failed t := by
  have notHere : s.point = .accept → Target.nothing ∈ s.closed := by
    intro here
    rcases failed with closed | point
    · exact closed
    · rw [here] at point
      cases point
  cases step_taken taken with
  | accept here | acceptFails here => exact .inl (notHere here)
  | fork here | forkFails here => exact failed.imp_right (Orderly.descriptor_close here).trans
  | close here =>
    rcases failed with closed | point
    · exact .inl (List.mem_cons_of_mem _ closed)
    · rw [here] at point
      cases point
      exact .inl List.mem_cons_self
  | handle there | exit there => exact failed

/-- Between two calls the discipline was kept exactly where no `accept` has failed. -/
theorem disciplined_iff_accepts {others : Nat → Bool} (ran : run step (.initial others) labels = some t)
    (returned : t.point = .accept) : Disciplined t ↔ .acceptFails ∉ labels := by
  constructor
  · intro disciplined fails
    obtain ⟨front, back, rfl⟩ := List.append_of_mem fails
    rw [run_append] at ran
    obtain ⟨s, -, later⟩ := Option.bind_eq_some_iff.1 ran
    obtain ⟨u, taken, rest⟩ := run_cons_eq_some.1 later
    have begun : Failed u := by
      cases step_taken taken with
      | acceptFails here => exact .inr rfl
    have failed : Failed t := run_invariant Failed (fun failed taken => failed.step taken) begun rest
    rcases failed with closed | point
    · obtain ⟨c, -, same⟩ := disciplined.closed _ closed
      cases same
    · rw [returned] at point
      cases point
  · exact fun accepts => disciplined_of_accepts accepts ran

end

end GtpLibrary.Sockets.Accept

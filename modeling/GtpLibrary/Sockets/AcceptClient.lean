import Mathlib.Logic.Function.Basic
import GtpLibrary.Lib.Runs

/-!
# `acceptClient`

`ServerSocket.cpp` and `server.c` have the function in the same words. A run is the parent calling
it again and again, and its children; a label is one system call with its outcome, or a step of a
child. What is printed, the address of the client for one, is left out.
-/

namespace GtpLibrary.Sockets.Accept

open Function (update)

/-- A connection is known by a number that is never given twice. -/
abbrev Connection := Nat

/-- What a descriptor stands for. -/
inductive Target
  | nothing
  | other
  | connection (c : Connection)
  deriving DecidableEq

/-- The descriptors of a process. -/
abbrev Descriptors := Nat → Target

/-- What an `int` stands for that is used as a descriptor. -/
def Descriptors.target (descriptors : Descriptors) (fd : Int) : Target :=
  if 0 ≤ fd then descriptors fd.toNat else .nothing

def Descriptors.close (descriptors : Descriptors) (fd : Int) : Descriptors :=
  if 0 ≤ fd then update descriptors fd.toNat .nothing else descriptors

/-- The next system call of the parent, with `clientSocket.connectionFileDescriptor`. -/
inductive Point
  | accept
  | fork (fd : Int)
  | close (fd : Int)
  deriving DecidableEq

inductive Phase
  | forked
  | handling
  | exited
  deriving DecidableEq

/-- A child has copies of `clientSocket` and of the parent's descriptors. -/
structure Child where
  fd : Int
  descriptors : Descriptors
  phase : Phase

/-- The parent, its children in the order of their births, the connections that `accept` has
returned, what the handler was called with and what the parent has closed. -/
structure Server where
  point : Point
  descriptors : Descriptors
  children : List Child
  accepted : List Connection
  handled : List Target
  closed : List Target

/-- The first call, with descriptors for other things. -/
def Server.initial (others : Nat → Bool) : Server where
  point := .accept
  descriptors fd := if others fd then .other else .nothing
  children := []
  accepted := []
  handled := []
  closed := []

/-- A failure is an error or an interruption; the function returns -1. -/
inductive Label
  | accept (fd : Nat) (connection : Connection)
  | acceptFails
  | fork
  | forkFails
  | close
  | handle (child : Nat)
  | exit (child : Nat)
  deriving DecidableEq

def step (s : Server) : Label → Option Server
  | .accept fd connection =>
    if s.point = .accept ∧ s.descriptors fd = .nothing ∧ connection ∉ s.accepted then
      some { s with
        point := .fork fd
        descriptors := update s.descriptors fd (.connection connection)
        accepted := connection :: s.accepted }
    else none
  -- the failure is only reported
  | .acceptFails => if s.point = .accept then some { s with point := .fork (-1) } else none
  | .fork =>
    match s.point with
    | .fork fd => some { s with point := .close fd, children := s.children ++ [⟨fd, s.descriptors, .forked⟩] }
    | _ => none
  | .forkFails =>
    match s.point with
    | .fork fd => some { s with point := .close fd }
    | _ => none
  | .close =>
    match s.point with
    | .close fd => some { s with
        point := .accept
        descriptors := s.descriptors.close fd
        closed := s.descriptors.target fd :: s.closed }
    | _ => none
  | .handle child =>
    match s.children[child]? with
    | some ⟨fd, descriptors, .forked⟩ => some { s with
        children := s.children.set child ⟨fd, descriptors, .handling⟩
        handled := descriptors.target fd :: s.handled }
    | _ => none
  | .exit child =>
    match s.children[child]? with
    | some ⟨fd, descriptors, .handling⟩ => some { s with
        children := s.children.set child ⟨fd, descriptors, .exited⟩ }
    | _ => none

/-- What a label does. -/
inductive Taken (s : Server) : Label → Server → Prop
  | accept {fd : Nat} {connection : Connection} (here : s.point = .accept) (free : s.descriptors fd = .nothing)
      (fresh : connection ∉ s.accepted) :
      Taken s (.accept fd connection)
        { s with
          point := .fork fd
          descriptors := update s.descriptors fd (.connection connection)
          accepted := connection :: s.accepted }
  | acceptFails (here : s.point = .accept) : Taken s .acceptFails { s with point := .fork (-1) }
  | fork {fd : Int} (here : s.point = .fork fd) :
      Taken s .fork { s with point := .close fd, children := s.children ++ [⟨fd, s.descriptors, .forked⟩] }
  | forkFails {fd : Int} (here : s.point = .fork fd) : Taken s .forkFails { s with point := .close fd }
  | close {fd : Int} (here : s.point = .close fd) :
      Taken s .close
        { s with
          point := .accept
          descriptors := s.descriptors.close fd
          closed := s.descriptors.target fd :: s.closed }
  | handle {child : Nat} {fd : Int} {descriptors : Descriptors}
      (there : s.children[child]? = some ⟨fd, descriptors, .forked⟩) :
      Taken s (.handle child)
        { s with
          children := s.children.set child ⟨fd, descriptors, .handling⟩
          handled := descriptors.target fd :: s.handled }
  | exit {child : Nat} {fd : Int} {descriptors : Descriptors}
      (there : s.children[child]? = some ⟨fd, descriptors, .handling⟩) :
      Taken s (.exit child) { s with children := s.children.set child ⟨fd, descriptors, .exited⟩ }

theorem step_taken {s t : Server} {label : Label} (taken : step s label = some t) : Taken s label t := by
  cases label with
  | accept fd connection =>
    simp only [step, Option.ite_none_right_eq_some, Option.some.injEq] at taken
    obtain ⟨⟨here, free, fresh⟩, rfl⟩ := taken
    exact .accept here free fresh
  | acceptFails =>
    simp only [step, Option.ite_none_right_eq_some, Option.some.injEq] at taken
    obtain ⟨here, rfl⟩ := taken
    exact .acceptFails here
  | fork =>
    simp only [step] at taken
    split at taken
    · rename_i fd here
      cases taken
      exact .fork here
    · cases taken
  | forkFails =>
    simp only [step] at taken
    split at taken
    · rename_i fd here
      cases taken
      exact .forkFails here
    · cases taken
  | close =>
    simp only [step] at taken
    split at taken
    · rename_i fd here
      cases taken
      exact .close here
    · cases taken
  | handle child =>
    simp only [step] at taken
    split at taken
    · rename_i fd descriptors there
      cases taken
      exact .handle there
    · cases taken
  | exit child =>
    simp only [step] at taken
    split at taken
    · rename_i fd descriptors there
      cases taken
      exact .exit there
    · cases taken

end GtpLibrary.Sockets.Accept

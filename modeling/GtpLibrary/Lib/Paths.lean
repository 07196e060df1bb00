import Mathlib.Data.List.Basic

/-!
# Paths in a directory tree

A tree without links, and the two readings of a path in it. `walk` is that of the
system: every segment is looked up in the directory reached so far, and `..` in the root
stays there. `lexical` only counts segments. Where a walk arrives, it arrives at the
lexical reading (`lexical_of_walk`).
-/

namespace GtpLibrary.Lib

inductive Node (Name Content : Type)
  | file (content : Content)
  | directory (entries : List (Name × Node Name Content))

/-- A segment of a path: `.` or nothing, `..`, or a name. -/
inductive Segment (Name : Type)
  | stay
  | up
  | down (name : Name)
  deriving DecidableEq

section
variable {Name Content : Type}

/-- What stands at the end of a list of names, from the root on. -/
def Node.at [DecidableEq Name] : Node Name Content → List Name → Option (Node Name Content)
  | node, [] => some node
  | .directory entries, name :: names => (entries.lookup name).bind fun child => child.at names
  | .file _, _ :: _ => none

/-- The place a segment leads to from a directory. -/
def Segment.from (here : List Name) : Segment Name → List Name
  | .stay => here
  | .up => here.dropLast
  | .down name => here ++ [name]

/-- The names behind the segments, without a look at the tree. -/
def lexical (here : List Name) (segments : List (Segment Name)) : List Name := segments.foldl Segment.from here

/-- The names that the system finds behind the segments. -/
def Node.walk [DecidableEq Name] (root : Node Name Content) (here : List Name) :
    List (Segment Name) → Option (List Name)
  | [] => some here
  | segment :: segments =>
    match root.at here with
    | some (.directory _) =>
      if (root.at (segment.from here)).isSome then root.walk (segment.from here) segments else none
    | _ => none

variable {here there : List Name} {segments : List (Segment Name)}

theorem lexical_of_walk [DecidableEq Name] {root : Node Name Content}
    (walked : root.walk here segments = some there) : there = lexical here segments := by
  induction segments generalizing here with
  | nil => exact (Option.some.inj walked).symm
  | cons segment segments ih =>
    simp only [Node.walk] at walked
    split at walked
    · split at walked
      · exact ih walked
      · cases walked
    · cases walked

/-- Without `..` a path leads further in. -/
theorem prefix_lexical (straight : .up ∉ segments) : here <+: lexical here segments := by
  induction segments generalizing here with
  | nil => exact List.prefix_refl here
  | cons segment segments ih =>
    rw [List.mem_cons, not_or] at straight
    have further : here <+: segment.from here := by
      cases segment with
      | stay => exact List.prefix_refl here
      | up => exact absurd rfl straight.1
      | down name => exact List.prefix_append ..
    exact further.trans (ih straight.2)

end

end GtpLibrary.Lib

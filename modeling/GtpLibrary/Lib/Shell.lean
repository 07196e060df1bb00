import Mathlib.Data.List.DropRight
import Mathlib.Tactic.Common
import GtpLibrary.Lib.Bytes

/-!
# Bytes through the shell

What a program prints comes into a variable without its NUL bytes and without the line
breaks at its end; a here-string and `echo` put one line break behind the value.
-/

namespace GtpLibrary.Lib.Shell

def newline : Byte := byte '\n'

/-- The value of `$( … )` for what the command prints. -/
def substitution (output : List Byte) : List Byte := (output.filter (· ≠ 0)).rdropWhile (· = newline)

/-- What is read from `<<<"${value}"`. -/
def hereString (value : List Byte) : List Byte := value ++ [newline]

/-- What `echo "${value}"` prints. -/
def echo (value : List Byte) : List Byte := value ++ [newline]

/-- The first line of an input. -/
def firstLine (input : List Byte) : List Byte := input.takeWhile (· ≠ newline)

/-- A value that a variable can have got from a command. -/
structure Held (value : List Byte) : Prop where
  noNul : 0 ∉ value
  noBreak : ∀ c ∈ value.getLast?, c ≠ newline

section
variable {value output : List Byte}

theorem held_substitution (output : List Byte) : Held (substitution output) where
  noNul := by
    intro member
    have kept := (List.rdropWhile_prefix _ _).subset member
    simp at kept
  noBreak := by
    intro c last same
    have filled : substitution output ≠ [] := by
      intro none
      rw [none] at last
      cases last
    rw [List.getLast?_eq_some_getLast filled, Option.mem_some_iff] at last
    exact List.rdropWhile_last_not _ _ filled (decide_eq_true (last.trans same))

/-- The line break behind a held value is taken away again. -/
theorem Held.substitution_break (held : Held value) : substitution (value ++ [newline]) = value := by
  have kept : (value ++ [newline]).filter (· ≠ 0) = value ++ [newline] := by
    rw [List.filter_eq_self]
    intro c member
    rcases List.mem_append.1 member with inside | last
    · exact decide_eq_true fun zero => held.noNul (zero ▸ inside)
    · rw [List.mem_singleton.1 last]
      decide
  unfold substitution
  rw [kept, List.rdropWhile_concat_pos _ _ _ (by decide), List.rdropWhile_eq_self_iff]
  intro filled same
  exact held.noBreak _ (List.getLast?_eq_some_getLast filled) (of_decide_eq_true same)

theorem firstLine_append_break (value rest : List Byte) : firstLine (value ++ newline :: rest) = firstLine value := by
  unfold firstLine
  induction value with
  | nil => simp
  | cons c value ih =>
    simp only [List.cons_append, List.takeWhile_cons, ih]

/-- Line breaks at the end are behind the first line. -/
theorem firstLine_rdropWhile (l : List Byte) : firstLine (l.rdropWhile (· = newline)) = firstLine l := by
  induction l using List.reverseRecOn with
  | nil => rfl
  | append_singleton l c ih =>
    by_cases isBreak : c = newline
    · subst isBreak
      rw [List.rdropWhile_concat_pos _ _ _ (by decide), ih, firstLine_append_break]
    · rw [List.rdropWhile_concat_neg _ _ _ (by simpa using isBreak)]

/-- What is left of an output in the first line of its value. -/
theorem firstLine_hereString (output : List Byte) :
    firstLine (hereString (substitution output)) = firstLine (output.filter (· ≠ 0)) := by
  unfold hereString substitution
  rw [firstLine_append_break, firstLine_rdropWhile]

end

end GtpLibrary.Lib.Shell

import Mathlib.Algebra.Order.Ring.Int
import Mathlib.Tactic.Common
import Mathlib.Tactic.Linarith
import Mathlib.Tactic.Ring

/-!
# Text on a screen

A text is written from a cell on, one cell for each character. Behind the last cell of a line it
goes on in the next line, where a line break goes at once, and behind the last line it fails: so
does a text that fills the last cell, since the cursor has no cell behind it.
-/

namespace GtpLibrary.Lib

structure Screen where
  h : Int
  w : Int

/-- A line and a column. -/
abbrev Cell := Int × Int

namespace Screen

variable (screen : Screen)

/-- There is such a cell. -/
def has (cell : Cell) : Bool := 0 ≤ cell.1 && cell.1 < screen.h && 0 ≤ cell.2 && cell.2 < screen.w

/-- Where the cursor is behind a character. -/
def advance (cell : Cell) (c : Char) : Option Cell :=
  if c ≠ '\n' ∧ cell.2 + 1 < screen.w then some (cell.1, cell.2 + 1)
  else if cell.1 + 1 < screen.h then some (cell.1 + 1, 0)
  else none

/-- The cells that are written, up to the one where it fails. -/
def cells (cell : Cell) : List Char → List Cell
  | [] => []
  | c :: rest => (if c = '\n' then [] else [cell]) ++ (screen.advance cell c).elim [] fun next => cells next rest

/-- It does not fail. -/
def takes (cell : Cell) : List Char → Bool
  | [] => true
  | c :: rest => (screen.advance cell c).elim false fun next => takes next rest

end Screen

section
variable {screen : Screen} {x y : Int} {c : Char} {text : List Char} {cell : Cell}

/-! ## One character -/

theorem advance_right (one : c ≠ '\n') (inside : x + 1 < screen.w) : screen.advance (y, x) c = some (y, x + 1) :=
  if_pos ⟨one, inside⟩

theorem advance_down (last : screen.w ≤ x + 1) (below : y + 1 < screen.h) : screen.advance (y, x) c = some (y + 1, 0) := by
  rw [Screen.advance, if_neg (by omega), if_pos below]

theorem cells_cons (one : c ≠ '\n') {next : Cell} (advanced : screen.advance cell c = some next) :
    screen.cells cell (c :: text) = cell :: screen.cells next text := by
  rw [Screen.cells, if_neg one, advanced]
  rfl

theorem takes_cons {next : Cell} (advanced : screen.advance cell c = some next) :
    screen.takes cell (c :: text) = screen.takes next text := by
  rw [Screen.takes, advanced]
  rfl

theorem le_of_advance {next : Cell} (advanced : screen.advance cell c = some next) : cell.1 ≤ next.1 := by
  unfold Screen.advance at advanced
  split_ifs at advanced <;> cases advanced <;> dsimp only <;> omega

/-! ## Lines -/

/-- A text is written downwards. -/
theorem le_of_mem_cells {written : Cell} (member : written ∈ screen.cells cell text) : cell.1 ≤ written.1 := by
  induction text generalizing cell with
  | nil => cases member
  | cons c rest ih =>
    rw [Screen.cells] at member
    rcases List.mem_append.1 member with here | later
    · split_ifs at here
      · cases here
      · rw [List.mem_singleton.1 here]
    · cases advanced : screen.advance cell c with
      | none =>
        rw [advanced] at later
        cases later
      | some next =>
        rw [advanced] at later
        exact (le_of_advance advanced).trans (ih later)

/-- A text without line breaks stays on its line and the `k` next ones if it has no more characters than these
have cells. -/
theorem cells_le_iff (plain : '\n' ∉ text) (first : 0 ≤ x) (inside : x < screen.w) (k : Nat) (below : y + k + 1 < screen.h) :
    (∀ cell ∈ screen.cells (y, x) text, cell.1 ≤ y + k) ↔ x + text.length ≤ (k + 1) * screen.w := by
  induction text generalizing x y k with
  | nil =>
    have lines : 0 ≤ k * screen.w := Int.mul_nonneg (Int.natCast_nonneg k) (by omega)
    refine iff_of_true nofun ?_
    rw [List.length_nil]
    push_cast
    linarith
  | cons c rest ih =>
    rw [List.mem_cons, not_or] at plain
    have one : c ≠ '\n' := Ne.symm plain.1
    by_cases goes : x + 1 < screen.w
    · rw [cells_cons one (advance_right one goes), List.forall_mem_cons, ih plain.2 (by omega) goes k below,
        and_iff_right (by dsimp only; omega), List.length_cons]
      push_cast
      constructor <;> intro le <;> linarith
    · have last : x + 1 = screen.w := by omega
      rw [cells_cons one (advance_down (by omega) (by omega)), List.forall_mem_cons, and_iff_right (by dsimp only; omega),
        List.length_cons]
      cases k with
      | zero =>
        -- the rest would begin on the next line
        cases rest with
        | nil =>
          refine iff_of_true nofun ?_
          rw [List.length_nil]
          push_cast
          linarith
        | cons d rest =>
          have other : d ≠ '\n' := fun same => plain.2 (same ▸ List.mem_cons_self)
          refine iff_of_false (fun all => ?_) ?_
          · have start : ((y + 1, 0) : Cell) ∈ screen.cells (y + 1, 0) (d :: rest) := by
              rw [Screen.cells, if_neg other]
              exact List.mem_append_left _ (List.mem_singleton_self _)
            have high := all _ start
            dsimp only at high
            omega
          · rw [List.length_cons]
            push_cast
            intro le
            linarith
      | succ k =>
        have same : y + 1 + (k : Int) = y + ((k + 1 : Nat) : Int) := by push_cast; ring
        have step := ih (y := y + 1) (x := 0) plain.2 le_rfl (by omega) k (by push_cast at below ⊢; omega)
        rw [same] at step
        rw [step]
        push_cast
        constructor <;> intro le <;> linarith

/-- A text without line breaks does not fail if it leaves a cell. -/
theorem takes_of_lt (plain : '\n' ∉ text) (first : 0 ≤ x) (inside : x < screen.w) (k : Nat) (lines : screen.h = y + k + 1)
    (short : x + text.length < (k + 1) * screen.w) : screen.takes (y, x) text = true := by
  induction text generalizing x y k with
  | nil => rfl
  | cons c rest ih =>
    rw [List.mem_cons, not_or] at plain
    rw [List.length_cons] at short
    push_cast at short
    by_cases goes : x + 1 < screen.w
    · rw [takes_cons (advance_right (Ne.symm plain.1) goes)]
      exact ih plain.2 (by omega) goes k lines (by linarith)
    · cases k with
      | zero =>
        push_cast at short
        exfalso
        have rest_nonneg : (0 : Int) ≤ rest.length := Int.natCast_nonneg _
        linarith
      | succ k =>
        push_cast at short lines
        rw [takes_cons (advance_down (by omega) (by omega))]
        exact ih plain.2 le_rfl (by omega) k (by omega) (by linarith)

end

end GtpLibrary.Lib

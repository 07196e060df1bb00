import GtpLibrary.Player.FeedOutput

/-!
# What a stream says

The meaning of a whole stream, character by character: a newline completes the text
behind the last line break, a carriage return discards it. `foldl_append` makes this
reading indifferent to cuts, so it is what runs of `_feed_output` are compared with.
-/

namespace GtpLibrary.Player

/-- The text behind the last line break, the log lines, and the last status completed. -/
structure Reading where
  cur : Str
  lines : List Str
  live : Str

/-- One character of the stream. -/
def absorb (maxLines : Nat) (a : Reading) (c : Char) : Reading :=
  if c = '\n' then
    let (lines, live) := takeLine maxLines a.cur a.lines a.live
    ⟨[], lines, live⟩
  else if c = '\r' then { a with cur := [] }
  else { a with cur := a.cur ++ [c] }

def read (maxLines : Nat) (a : Reading) (w : Str) : Reading := w.foldl (absorb maxLines) a

/-- A status line is completed while `w` is read behind the text `cur`. -/
def completesStatus : Str → Str → Bool
  | _, [] => false
  | cur, c :: w =>
    if c = '\n' then isStatus (lineText cur) || completesStatus [] w
    else if c = '\r' then completesStatus [] w
    else completesStatus (cur ++ [c]) w

/-- Neither line break occurs. -/
def Plain (w : Str) : Prop := '\n' ∉ w ∧ '\r' ∉ w

section
variable {maxLines : Nat}

@[simp] theorem read_nil (a : Reading) : read maxLines a [] = a := rfl

@[simp] theorem read_cons (a : Reading) (c : Char) (w : Str) :
    read maxLines a (c :: w) = read maxLines (absorb maxLines a c) w := rfl

theorem read_append (a : Reading) (v w : Str) :
    read maxLines a (v ++ w) = read maxLines (read maxLines a v) w := List.foldl_append

theorem read_plain {w : Str} (plain : Plain w) (a : Reading) :
    read maxLines a w = { a with cur := a.cur ++ w } := by
  induction w generalizing a with
  | nil => simp
  | cons c w ih =>
    obtain ⟨nl, cr⟩ := plain
    rw [List.mem_cons, not_or] at nl cr
    rw [read_cons, ih ⟨nl.2, cr.2⟩, absorb, if_neg (Ne.symm nl.1), if_neg (Ne.symm cr.1)]
    simp

/-- Without a newline only the text behind the last carriage return is left. -/
theorem read_return {w : Str} (noLine : '\n' ∉ w) (a : Reading) :
    read maxLines a (w ++ ['\r']) = { a with cur := [] } := by
  induction w generalizing a with
  | nil => rfl
  | cons c w ih =>
    rw [List.mem_cons, not_or] at noLine
    rw [List.cons_append, read_cons, ih noLine.2, absorb, if_neg (Ne.symm noLine.1)]
    split <;> rfl

/-- The log lines and the unterminated text do not depend on the live text. -/
theorem takeLine_lines (raw : Str) (lines : List Str) (x y : Str) :
    (takeLine maxLines raw lines x).1 = (takeLine maxLines raw lines y).1 := by
  simp only [takeLine]
  split
  · rfl
  · split <;> rfl

theorem takeLine_live (raw : Str) (lines : List Str) (x : Str) :
    (takeLine maxLines raw lines x).2 = if isStatus (lineText raw) then lineText raw else x := by
  simp only [takeLine]
  split
  · rename_i empty
    rw [empty, isStatus_nil]
    rfl
  · split <;> rfl

theorem read_lines_cur (cur : Str) (lines : List Str) (w x y : Str) :
    (read maxLines ⟨cur, lines, x⟩ w).lines = (read maxLines ⟨cur, lines, y⟩ w).lines ∧
      (read maxLines ⟨cur, lines, x⟩ w).cur = (read maxLines ⟨cur, lines, y⟩ w).cur := by
  induction w generalizing cur lines x y with
  | nil => exact ⟨rfl, rfl⟩
  | cons c w ih =>
    simp only [read_cons, absorb]
    split
    · rw [takeLine_lines cur lines x y]
      exact ih _ _ _ _
    · split
      · exact ih _ _ _ _
      · exact ih _ _ _ _

/-- The live text is that of the last completed status, or what it was. -/
theorem read_live (cur : Str) (lines lines' : List Str) (w x y : Str) :
    (read maxLines ⟨cur, lines, x⟩ w).live =
      if completesStatus cur w then (read maxLines ⟨cur, lines', y⟩ w).live else x := by
  induction w generalizing cur lines lines' x y with
  | nil => rfl
  | cons c w ih =>
    simp only [read_cons, absorb, completesStatus]
    split
    · have step := ih [] (takeLine maxLines cur lines x).1 (takeLine maxLines cur lines' y).1
        (takeLine maxLines cur lines x).2 (takeLine maxLines cur lines' y).2
      have step' := ih [] (takeLine maxLines cur lines' y).1 (takeLine maxLines cur lines' y).1
        (takeLine maxLines cur lines' y).2 (takeLine maxLines cur lines' y).2
      simp only [takeLine_live] at step step' ⊢
      cases now : isStatus (lineText cur) <;> cases later : completesStatus [] w <;>
        simp [now, later] at step step' ⊢ <;> simp [step, step']
    · split
      · exact ih _ _ _ _ _
      · exact ih _ _ _ _ _

theorem read_live_of_completes (lines lines' : List Str) (w x y : Str)
    (completes : completesStatus [] w = true) :
    (read maxLines ⟨[], lines, x⟩ w).live = (read maxLines ⟨[], lines', y⟩ w).live := by
  rw [read_live [] lines lines' w x y, if_pos completes]

variable (maxLines) in
theorem completesStatus_append (a : Reading) (v w : Str) :
    completesStatus a.cur (v ++ w) =
      (completesStatus a.cur v || completesStatus (read maxLines a v).cur w) := by
  induction v generalizing a with
  | nil => simp [completesStatus]
  | cons c v ih =>
    simp only [List.cons_append, completesStatus, read_cons, absorb]
    split
    · simp only [Bool.or_assoc]
      rw [← ih ⟨[], (takeLine maxLines a.cur a.lines a.live).1, (takeLine maxLines a.cur a.lines a.live).2⟩]
    · split
      · rw [← ih { a with cur := [] }]
      · rw [← ih { a with cur := a.cur ++ [c] }]

/-- What is completed behind a line break is completed. -/
theorem completesStatus_behind {c : Char} (stop : c = '\n' ∨ c = '\r') (v : Str) {w : Str}
    (completes : completesStatus [] w = true) : completesStatus [] (v ++ c :: w) = true := by
  rw [completesStatus_append 0 ⟨[], [], []⟩, completesStatus]
  rcases stop with rfl | rfl <;> simp [completes]

/-- Without a newline no line is completed. -/
theorem read_noLine {w : Str} (noLine : '\n' ∉ w) (a : Reading) : (read maxLines a w).lines = a.lines := by
  induction w generalizing a with
  | nil => rfl
  | cons c w ih =>
    rw [List.mem_cons, not_or] at noLine
    rw [read_cons, ih noLine.2, absorb, if_neg (Ne.symm noLine.1)]
    split <;> rfl

theorem completesStatus_noLine {w : Str} (noLine : '\n' ∉ w) (cur : Str) : completesStatus cur w = false := by
  induction w generalizing cur with
  | nil => rfl
  | cons c w ih =>
    rw [List.mem_cons, not_or] at noLine
    rw [completesStatus, if_neg (Ne.symm noLine.1), ih noLine.2, ih noLine.2, ite_self]

end

end GtpLibrary.Player

import Mathlib.Data.Finset.Sort
import Mathlib.Data.Int.Order.Basic
import GtpLibrary.Lib.Runs
import GtpLibrary.Player.PyText

/-!
# `PlayerUI.run`

The list of tracks with its cursor, its marks and the first row on the screen. One turn of
the loop draws, reads a key and handles it; an `IndexError` is no result. What the turn
meets outside (the size of the terminal at each draw, the key, what `reload_fn` does) is
its label. The texts of the status line are only shown, and left out.
-/

namespace GtpLibrary.Player

structure PlayerUI where
  files : List Str
  cursor : Int
  offset : Int
  marked : Finset Int

def PlayerUI.initial (files : List Str) : PlayerUI := ⟨files, 0, 0, ∅⟩

/-- `stdscr.getmaxyx()`. -/
structure Size where
  h : Nat
  w : Nat

/-- `_layout`: the rows between header and footer. -/
def Size.body (size : Size) : Nat := max 1 (size.h - 2 - 2)

/-- `_ensure_visible`. -/
def PlayerUI.ensureVisible (ui : PlayerUI) (body : Nat) : PlayerUI :=
  if ui.cursor < ui.offset then { ui with offset := ui.cursor }
  else if ui.cursor ≥ ui.offset + body then { ui with offset := ui.cursor - body + 1 }
  else ui

/-- `l[i]`; a negative index counts from the end. -/
def pyIndex {α : Type} (l : List α) (i : Int) : Option α :=
  let i := if i < 0 then i + l.length else i
  if i < 0 then none else l[i.toNat]?

/-- `_clip`. -/
def clip (text : Str) (width : Nat) : Str :=
  if text.length ≤ width then text
  else if width ≤ 1 then text.take width
  else text.take (width - 1) ++ ['…']

/-- `{n:3d}`. -/
def threeWide (n : Int) : Str :=
  let digits := (toString n).toList
  List.replicate (3 - digits.length) ' ' ++ digits

/-- `text.ljust(width)`. -/
def ljust (text : Str) (width : Nat) : Str := text ++ List.replicate (width - text.length) ' '

/-- A row of the list on the screen. -/
structure Row where
  y : Nat
  line : Str
  reverse : Bool

/-- The screen as `draw` leaves it: the state it shows, and the rows of the list. -/
structure Frame where
  ui : PlayerUI
  body : Nat
  rows : List Row

/-- One turn of the row loop. -/
def PlayerUI.row (ui : PlayerUI) (w row : Nat) : Option Row :=
  let idx := ui.offset + row
  (pyIndex ui.files idx).map fun name =>
    let mark := if idx ∈ ui.marked then '*' else ' '
    let focus := if idx = ui.cursor then '>' else ' '
    let line := clip ([' ', focus, mark, ' '] ++ threeWide (idx + 1) ++ ['.', ' '] ++ name) (w - 1)
    ⟨2 + row, if idx = ui.cursor then ljust line (w - 1) else line, idx = ui.cursor⟩

/-- `draw`. -/
def PlayerUI.draw (ui : PlayerUI) (size : Size) : Option Frame :=
  let ui := ui.ensureVisible size.body
  let inside := (List.range size.body).takeWhile fun row : Nat => ui.offset + row < ui.files.length
  (inside.mapM (ui.row size.w)).map fun rows => ⟨ui, size.body, rows⟩

/-- The draws behind the windows that `_play_one_modal` shows. -/
def PlayerUI.drawAll (ui : PlayerUI) : List Size → Option (PlayerUI × List Frame)
  | [] => some (ui, [])
  | size :: sizes => do
    let frame ← ui.draw size
    let (ui, frames) ← frame.ui.drawAll sizes
    return (ui, frame :: frames)

/-- What `reload_fn` does. -/
inductive Reload
  | names (files : List Str)
  | systemExit
  | osError

/-- What one turn of the loop meets. -/
structure Turn where
  drawn : Size
  ch : Int
  /-- The size that `_layout` finds behind `getch`. -/
  layout : Size
  playing : List Size
  refreshing : Size
  reload : Reload

/-- What one turn leaves behind: the frames it drew, the tracks it played, and whether the
loop ends. -/
structure Turned where
  ui : PlayerUI
  frames : List Frame
  played : List Str
  quit : Bool

/-- `_play_names`. -/
def PlayerUI.playNames (ui : PlayerUI) (names : List Str) (playing : List Size) : Option Turned :=
  if names = [] then some ⟨ui, [], [], false⟩
  else (ui.drawAll playing).map fun (ui, frames) => ⟨ui, frames, names, false⟩

/-- The branches of `run`. -/
inductive Key
  | quit
  | up
  | down
  | pageUp
  | pageDown
  | home
  | last
  | space
  | play
  | playMarked
  | refresh
  | other
  deriving DecidableEq

def ord (c : Char) : Int := c.toNat

/-- The conditions of `run` in their order, with the key codes of curses. -/
def keyOf (ch : Int) : Key :=
  if ch ∈ [ord 'q', ord 'Q'] then .quit
  else if ch ∈ [259, ord 'k'] then .up
  else if ch ∈ [258, ord 'j'] then .down
  else if ch = 339 then .pageUp
  else if ch = 338 then .pageDown
  else if ch = 262 then .home
  else if ch = 360 then .last
  else if ch = ord ' ' then .space
  else if ch ∈ [343, 10, 13, ord 'p', ord 'P'] then .play
  else if ch ∈ [ord 'a', ord 'A'] then .playMarked
  else if ch ∈ [ord 'r', ord 'R'] then .refresh
  else .other

def PlayerUI.setCursor (ui : PlayerUI) (cursor : Int) : PlayerUI := { ui with cursor := cursor }

/-- `if self.files: self.cursor = …`. -/
def PlayerUI.setCursorOfSome (ui : PlayerUI) (cursor : Int) : PlayerUI :=
  if ui.files ≠ [] then ui.setCursor cursor else ui

/-- The space bar: the mark is turned over, and the cursor moves on. -/
def PlayerUI.toggleMark (ui : PlayerUI) : PlayerUI :=
  if ui.files ≠ [] then
    { ui with
      marked := if ui.cursor ∈ ui.marked then ui.marked.erase ui.cursor else insert ui.cursor ui.marked
      cursor := min (ui.files.length - 1) (ui.cursor + 1) }
  else ui

/-- The `try` of the refresh. -/
def PlayerUI.reloaded (ui : PlayerUI) : Reload → PlayerUI
  | .names files => ⟨files, min ui.cursor (max 0 (files.length - 1)), 0, ∅⟩
  | .systemExit | .osError => ui

/-- What a turn does behind `getch`. -/
def PlayerUI.handle (ui : PlayerUI) (t : Turn) : Option Turned :=
  let still (ui : PlayerUI) : Option Turned := some ⟨ui, [], [], false⟩
  match keyOf t.ch with
  | .quit => some ⟨ui, [], [], true⟩
  | .up => still (ui.setCursorOfSome (max 0 (ui.cursor - 1)))
  | .down => still (ui.setCursorOfSome (min (ui.files.length - 1) (ui.cursor + 1)))
  | .pageUp => still (ui.setCursor (max 0 (ui.cursor - t.layout.body)))
  | .pageDown => still (ui.setCursorOfSome (min (ui.files.length - 1) (ui.cursor + t.layout.body)))
  | .home => still (ui.setCursor 0)
  | .last => still (ui.setCursorOfSome (ui.files.length - 1))
  | .space => still ui.toggleMark
  | .play =>
    if ui.files ≠ [] then
      (pyIndex ui.files ui.cursor).bind fun name => ui.playNames [name] t.playing
    else still ui
  | .playMarked =>
    if ui.marked ≠ ∅ then
      (ui.marked.sort.mapM (pyIndex ui.files)).bind fun names => ui.playNames names t.playing
    else ui.playNames ui.files t.playing
  | .refresh => (ui.draw t.refreshing).map fun frame => ⟨frame.ui.reloaded t.reload, [frame], [], false⟩
  | .other => still ui

/-- One turn of the loop. -/
def PlayerUI.turn (ui : PlayerUI) (t : Turn) : Option Turned := do
  let first ← ui.draw t.drawn
  let turned ← first.ui.handle t
  return { turned with frames := first :: turned.frames }

/-- The state behind a turn that does not end the loop. -/
def step (ui : PlayerUI) (t : Turn) : Option PlayerUI :=
  (ui.turn t).bind fun turned => if turned.quit then none else some turned.ui

end GtpLibrary.Player

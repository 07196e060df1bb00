import GtpLibrary.Lib.Numerals
import GtpLibrary.Lib.Runs
import GtpLibrary.Lib.Terminal
import GtpLibrary.Lib.Viewport
import GtpLibrary.Player.TrackBrowser

/-!
# `draw_menu` of the image cleaner

A turn of the loop draws the menu, reads a key and acts on it. The windows, the keys, what
the removals return and what the container engine lists are the turn's. A draw is the list of
its `addstr` calls, up to the first that raises: that one ends `draw_menu`. A character of a
text takes one cell of the window.
-/

namespace GtpLibrary.ImageCleaner

open Lib Lib.Numerals Player

/-- A row of the list. -/
structure Image where
  checked : Bool
  text : Str
  imgId : Str
  deriving DecidableEq

/-- The attributes of a write. -/
inductive Attr
  | normal
  | bold
  | underline
  | pair (n : Nat)
  | boldPair (n : Nat)
  deriving DecidableEq

/-- A call of `stdscr.addstr`. -/
structure AddStr where
  y : Int
  x : Int
  text : Str
  attr : Attr
  deriving DecidableEq

/-- `CONTAINER_CMD`. -/
inductive Engine
  | podman
  | docker
  deriving DecidableEq

/-- The program that is called. -/
def Engine.cmd : Engine → Str
  | .podman => "podman".toList
  | .docker => "docker".toList

/-! ## `get_images` -/

/-- `s.split(" | ")`. -/
def splitBars : Str → List Str
  | ' ' :: '|' :: ' ' :: rest => [] :: splitBars rest
  | c :: rest =>
    match splitBars rest with
    | [] => [[c]]
    | part :: parts => (c :: part) :: parts
  | [] => [[]]

/-- A line of the listing as a row. -/
def imageOf (line : Str) : Image :=
  let parts := splitBars line
  let repoTag := parts.headD []
  let imgId := parts.getD 1 repoTag
  let size := parts.getD 2 []
  ⟨false, ljust repoTag 45 ++ " | ".toList ++ ljust (imgId.take 12) 15 ++ " | ".toList ++ size, imgId⟩

/-- `get_images` on the output of the engine. -/
def getImages (stdout : Str) : List Image :=
  (((strip stdout).splitOn '\n').filter fun line => line ≠ []).map imageOf

/-! ## The menu -/

/-- The list, the row of the cursor and the first row on the screen. -/
structure State where
  images : List Image
  currentRow : Int
  scrollTop : Int
  deriving DecidableEq

/-- A listing that has just been read. -/
def State.loaded (stdout : Str) : State := ⟨getImages stdout, 0, 0⟩

/-- `stdscr.getmaxyx()`. -/
abbrev Window := Screen

/-- The cells that a call writes. -/
def AddStr.cells (call : AddStr) (window : Window) : List Cell :=
  if window.has (call.y, call.x) then window.cells (call.y, call.x) call.text else []

/-- `addstr` does not raise. -/
def AddStr.taken (call : AddStr) (window : Window) : Bool :=
  window.has (call.y, call.x) && window.takes (call.y, call.x) call.text

/-- The calls up to the first that raises, and whether none does. A call without a value is one for which already the
text raises. -/
def performed (window : Window) : List (Option AddStr) → List AddStr × Bool
  | [] => ([], true)
  | none :: _ => ([], false)
  | some call :: rest =>
    if call.taken window then (call :: (performed window rest).1, (performed window rest).2) else ([call], false)

/-- Without the headers and the footer. -/
def Window.maxVisibleItems (window : Window) : Int := window.h - 6

/-- A bound of a slice of `n` elements. -/
def sliceBound (n : Nat) (i : Int) : Nat := (if i < 0 then i + n else min i n).toNat

/-- `l[i:j]`. -/
def slice {α : Type} (l : List α) (i j : Int) : List α :=
  (l.take (sliceBound l.length j)).drop (sliceBound l.length i)

/-- The screen follows the cursor. -/
def State.adjusted (s : State) (window : Window) : State :=
  { s with scrollTop := follow s.scrollTop s.currentRow window.maxVisibleItems }

/-- `images[scroll_top : scroll_top + max_visible_items]`. -/
def State.visibleSubset (s : State) (window : Window) : List Image :=
  slice s.images s.scrollTop (s.scrollTop + window.maxVisibleItems)

/-- The two lines at the top. -/
def header (engine : Engine) : List AddStr :=
  [⟨0, 0, "--- ".toList ++ engine.cmd.map Char.toUpper ++ " Image Manager (ncurses) ---".toList, .bold⟩,
    ⟨1, 0, "Controls: [Arrows] Navigate | [Space] Select | [Enter] Delete | [Q] Quit".toList, .normal⟩,
    ⟨3, 0, "   ".toList ++ ljust "Repository:Tag".toList 45 ++ " | ".toList ++ ljust "Image ID".toList 15 ++
      " | Size".toList, .underline⟩]

/-- The mark in front of a row. -/
def bracket (checked : Bool) : Str := if checked then "[X]".toList else "[ ]".toList

/-- The row of an element of the subset. `f"{text:<{w-7}}"` raises for a width below 0. -/
def State.row (s : State) (window : Window) (item : Image) (idx : Nat) : Option AddStr :=
  if s.scrollTop + idx = s.currentRow then
    if window.w < 7 then none
    else some ⟨4 + idx, 0, bracket item.checked ++ ' ' :: ljust item.text (window.w - 7).toNat, .pair 1⟩
  else some ⟨4 + idx, 0, bracket item.checked ++ ' ' :: item.text, if item.checked then .pair 2 else .normal⟩

/-- The calls of a draw, as far as it gets. -/
structure Frame where
  header : List AddStr
  rows : List AddStr
  track : List AddStr
  thumb : List AddStr
  raised : Bool

/-- There are more rows than the screen has room for. -/
def State.showsBar (s : State) (window : Window) : Prop := s.images.length > window.maxVisibleItems

instance (s : State) (window : Window) : Decidable (s.showsBar window) := inferInstanceAs (Decidable (_ > _))

/-- The track of the scroll bar. -/
def State.track (s : State) (window : Window) : List AddStr :=
  if s.showsBar window then
    (List.range (min window.maxVisibleItems s.images.length).toNat).map fun i : Nat =>
      ⟨4 + i, min (window.w - 2) 79, ['│'], .pair 3⟩
  else []

/-- The active part of the bar. -/
def State.thumb (s : State) (window : Window) : List AddStr :=
  if s.showsBar window then
    let bar := slider window.maxVisibleItems s.images.length s.scrollTop
    let barStart := bar.1
    let barHeight := bar.2
    (List.range barHeight.toNat).map fun i : Nat =>
      ⟨4 + barStart + i, min (window.w - 2) 79, ['█'], .boldPair 3⟩
  else []

/-- What is written in front of the rows. -/
def State.headerCalls (s : State) (engine : Engine) : List AddStr :=
  header engine ++ if s.images = [] then [⟨5, 4, "No local container images found.".toList, .normal⟩] else []

/-- The rows on the screen. -/
def State.rowCalls (s : State) (window : Window) : List (Option AddStr) :=
  (s.visibleSubset window).zipIdx.map fun (item, idx) => s.row window item idx

/-- What is drawn if nothing in front of it has raised. -/
def performedBehind (window : Window) (before : Bool) (calls : List (Option AddStr)) : List AddStr × Bool :=
  if before then performed window calls else ([], false)

/-- What one turn of the loop draws in front of `getch`, for the adjusted state. -/
def State.draw (s : State) (engine : Engine) (window : Window) : Frame :=
  let header := performed window ((s.headerCalls engine).map some)
  let rows := performedBehind window header.2 (s.rowCalls window)
  let track := performedBehind window rows.2 ((s.track window).map some)
  let thumb := performedBehind window track.2 ((s.thumb window).map some)
  ⟨header.1, rows.1, track.1, thumb.1, !thumb.2⟩

/-! ## Keys -/

/-- `curses.KEY_UP`. -/
def keyUp : Int := 259

/-- `curses.KEY_DOWN`. -/
def keyDown : Int := 258

/-- `curses.KEY_ENTER`. -/
def keyEnter : Int := 343

/-- What `rmi` returns. -/
structure Removal where
  returncode : Int
  stderr : Str

/-- What one turn of the loop meets: the window, the key, and behind the enter key the answer,
the results of the removals and the new list, without one where the engine fails. A resize comes
as a key, so that the window is one up to the summary. -/
structure Turn where
  window : Window
  key : Int
  confKey : Int
  /-- By the number of the image among the selected ones. -/
  removals : Nat → Removal
  reload : Option Str

/-- What one turn does behind its draw; there is no next state where `draw_menu` ends, which it does
with an exception or without. -/
structure Acted where
  screens : List (List AddStr)
  commands : List (List Str)
  raised : Bool
  next : Option State

/-- What one turn does. -/
structure Turned where
  frame : Frame
  screens : List (List AddStr)
  commands : List (List Str)
  raised : Bool
  next : Option State

/-- `images[current_row][0] = not images[current_row][0]`. -/
def State.toggle (s : State) : Option State :=
  if s.images = [] then some s
  else (pyIndex s.images s.currentRow).map fun _ =>
    let i := if s.currentRow < 0 then s.currentRow + s.images.length else s.currentRow
    { s with images := s.images.modify i.toNat fun image => { image with checked := !image.checked } }

/-- The rows that are marked. -/
def State.selectedItems (s : State) : List Image := s.images.filter Image.checked

/-- The question in front of a removal. -/
def confirmScreen (selected : List Image) : List AddStr :=
  [⟨0, 0, "Are you sure you want to remove ".toList ++ numeral selected.length ++ " selected images? (y/n)".toList, .bold⟩]

/-- The id as the messages show it. -/
def shortId (image : Image) : Str := image.imgId.take 12

/-- The screen while an image is being removed. -/
def progressScreen (total : Nat) (item : Image) (currentCount : Nat) : List AddStr :=
  [⟨0, 0, "Removing Images...".toList, .bold⟩,
    ⟨2, 0, "Progress: [".toList ++ numeral currentCount ++ '/' :: numeral total ++ "] processing ID ".toList ++
      shortId item ++ "...".toList, .normal⟩]

/-- The errors that fit, and the line behind them. -/
def errorLines (h : Int) : Int → List Str → List AddStr × Int
  | rowOffset, [] => ([], rowOffset)
  | rowOffset, err :: errors =>
    if rowOffset < h - 2 then
      let (lines, last) := errorLines h (rowOffset + 1) errors
      (⟨rowOffset, 2, '-' :: ' ' :: err, .normal⟩ :: lines, last)
    else errorLines h rowOffset errors

/-- The screen behind the removals. -/
def summaryScreen (h : Int) (success errors : List Str) : List AddStr :=
  let removed : List AddStr :=
    if success = [] then []
    else [⟨2, 0, "Successfully removed: ".toList ++ ", ".toList.intercalate success, .normal⟩]
  let rowOffset : Int := if success = [] then 2 else 4
  let (failed, rowOffset) : List AddStr × Int :=
    if errors = [] then ([], rowOffset)
    else
      let (lines, last) := errorLines h (rowOffset + 1) errors
      (⟨rowOffset, 0, "Errors encountered:".toList, .normal⟩ :: lines, last)
  ⟨0, 0, "--- REMOVAL SUMMARY ---".toList, .bold⟩ :: removed ++ failed ++
    [⟨rowOffset + 1, 0, "Press any key to reload image inventory...".toList, .normal⟩]

/-- `rmi` for one image after the other, each behind its progress screen: the screens, the commands and whether
no `addstr` raises. -/
def removeAll (engine : Engine) (window : Window) (total : Nat) : List (Image × Nat) →
    List (List AddStr) × List (List Str) × Bool
  | [] => ([], [], true)
  | (item, currentCount) :: rest =>
    let screen := performed window ((progressScreen total item currentCount).map some)
    if screen.2 then
      let (screens, commands, done) := removeAll engine window total rest
      (screen.1 :: screens, [engine.cmd, "rmi".toList, item.imgId] :: commands, done)
    else ([screen.1], [], false)

/-- The short ids of the images that were removed, and what `rmi` said about the others. -/
def outcomes (selected : List Image) (removals : Nat → Removal) : List Str × List Str :=
  let results := selected.zipIdx.map fun (item, k) => (item, removals k)
  ((results.filter fun (_, res) => res.returncode = 0).map fun (item, _) => shortId item,
    (results.filter fun (_, res) => res.returncode ≠ 0).map fun (item, res) =>
      shortId item ++ ": ".toList ++ strip res.stderr)

/-- The deletions that are confirmed, with their summary and the new list. -/
def removal (engine : Engine) (t : Turn) (selected : List Image) : Acted :=
  let (screens, commands, done) := removeAll engine t.window selected.length (selected.zipIdx 1)
  if done then
    let (success, errors) := outcomes selected t.removals
    let summary := performed t.window ((summaryScreen t.window.h success errors).map some)
    -- without a list the program exits
    ⟨screens ++ [summary.1], commands, !summary.2, if summary.2 then t.reload.map State.loaded else none⟩
  else ⟨screens, commands, true, none⟩

/-- What is done for the key. -/
def State.act (s : State) (engine : Engine) (t : Turn) : Acted :=
  if t.key = keyUp ∧ s.currentRow > 0 then ⟨[], [], false, some { s with currentRow := s.currentRow - 1 }⟩
  else if t.key = keyDown ∧ s.currentRow < s.images.length - 1 then
    ⟨[], [], false, some { s with currentRow := s.currentRow + 1 }⟩
  else if t.key = ord ' ' then ⟨[], [], s.toggle.isNone, s.toggle⟩
  else if t.key = ord '\n' ∨ t.key = keyEnter then
    let selected := s.selectedItems
    if selected = [] then ⟨[], [], false, some s⟩
    else
      let confirm := performed t.window ((confirmScreen selected).map some)
      if confirm.2 then
        if t.confKey = ord 'y' ∨ t.confKey = ord 'Y' then
          let removed := removal engine t selected
          { removed with screens := confirm.1 :: removed.screens }
        else ⟨[confirm.1], [], false, some s⟩
      else ⟨[confirm.1], [], true, none⟩
  else if t.key = ord 'q' ∨ t.key = ord 'Q' then ⟨[], [], false, none⟩
  else ⟨[], [], false, some s⟩

/-- One turn of the loop. -/
def State.turn (s : State) (engine : Engine) (t : Turn) : Turned :=
  let s := s.adjusted t.window
  let frame := s.draw engine t.window
  if frame.raised then ⟨frame, [], [], true, none⟩
  else
    let acted := s.act engine t
    ⟨frame, acted.screens, acted.commands, acted.raised, acted.next⟩

/-- One turn of the loop; without a value the program has ended. -/
def step (engine : Engine) (s : State) (t : Turn) : Option State := (s.turn engine t).next

end GtpLibrary.ImageCleaner

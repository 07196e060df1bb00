import Mathlib.Data.Finset.Basic
import GtpLibrary.Lib.Bytes
import GtpLibrary.Lib.Runs

/-!
# The windows of `meniu.pas`

The program keeps a counter, a set of numbers and the enabled commands next to the desktop.
A closed window is taken from the desktop by `twindow.close`, and its number can still be
read then.
-/

namespace GtpLibrary.Meniu
open GtpLibrary.Lib

/-- An `integer` has 16 bits and a sign. -/
abbrev Integer := BitVec 16

def notitle : List Byte := text "tedi"

def maxWindows : Nat := 255

def wnNoNumber : Integer := 0

/-- The commands that the program enables and disables. -/
inductive Command where
  | cmopen | cmtile | cmcascade
  deriving DecidableEq

/-- `trect`. -/
structure Rect where
  a : Integer × Integer
  b : Integer × Integer

structure Fereastra where
  bounds : Rect
  title : List Byte
  number : Integer
  /-- `oftileable` in `options`. -/
  tileable : Bool

structure State where
  nrFereastra : Integer := 0
  winN : Finset Nat := ∅
  disabled : Finset Command := ∅
  /-- The last window that was inserted is the first. -/
  desktop : List Fereastra := []

namespace State

def enableCommands (s : State) (commands : Finset Command) : State := { s with disabled := s.disabled \ commands }

def disableCommands (s : State) (commands : Finset Command) : State := { s with disabled := s.disabled ∪ commands }

end State

/-- `fereastra.getwindownumber`, with the `winN` it leaves. -/
def getWindowNumber (winN : Finset Nat) : Integer × Finset Nat :=
  match (List.range' 1 maxWindows).find? fun i => i ∉ winN with
  | some i => (BitVec.ofNat 16 i, insert i winN)
  | none => (wnNoNumber, winN)

/-- `fereastra.putwindownumber`. -/
def putWindowNumber (winN : Finset Nat) (number : Integer) : Finset Nat :=
  if (1 : Integer).sle number && number.sle (BitVec.ofNat 16 maxWindows) then winN.erase number.toNat else winN

section
variable (extent : Rect)

/-- `fereastra.init`: the window and what is left of the globals. -/
def init (s : State) (wtitle : List Byte) : Fereastra × State :=
  let r : Rect := { extent with a := (s.nrFereastra, s.nrFereastra) }
  let s := { s with nrFereastra := s.nrFereastra + 1 }
  let (number, winN) := getWindowNumber s.winN
  let s := { s with winN }
  let s := if (BitVec.ofNat 16 maxWindows).sle s.nrFereastra then s.disableCommands {.cmopen} else s
  (⟨r, wtitle, number, true⟩, s)

/-- `ex.openwindow`. -/
def openWindow (s : State) (wtitle : List Byte) : State :=
  let (w, s) := init extent s wtitle
  { s with desktop := w :: s.desktop }

/-- `fereastra.close` of the window that is number `k` on the desktop. -/
def close (s : State) (k : Nat) (w : Fereastra) : State :=
  let s := { s with desktop := s.desktop.eraseIdx k }
  let s := { s with winN := putWindowNumber s.winN w.number }
  let s := { s with nrFereastra := s.nrFereastra - 1 }
  s.enableCommands {.cmopen}

/-- `ex.idle`. -/
def idle (s : State) : State :=
  if s.desktop.any Fereastra.tileable then s.enableCommands {.cmtile, .cmcascade}
  else s.disableCommands {.cmtile, .cmcascade}

/-- What the event loop calls. -/
inductive Call where
  | openWindow (wtitle : List Byte)
  | close (k : Nat)
  | idle

/-- `openwindow` is called while `cmopen` is enabled, `close` on a window of the desktop. -/
def step (s : State) : Call → Option State
  | .openWindow wtitle => if .cmopen ∈ s.disabled then none else some (openWindow extent s wtitle)
  | .close k => s.desktop[k]?.map (close s k)
  | .idle => some (idle s)

end

end GtpLibrary.Meniu

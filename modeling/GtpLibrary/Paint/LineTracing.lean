import GtpLibrary.Lib.Canvas
import GtpLibrary.Lib.Runs
import GtpLibrary.Paint.Legend

/-!
# `paintfro`: tracing a line

The segment follows the mouse by being drawn twice in exclusive or. It starts where `x0`
and `y0` were set, which is not where the button was pressed; it is erased again at every
poll outside the drawing area; and `setcolor` at the end is told the combined colour. The
drag is as meant exactly where none of this shows (`rubberBand_iff`).
-/

namespace GtpLibrary.Paint

open Lib

inductive WriteMode
  | copyput
  | xorput
  deriving DecidableEq

/-- The graphics unit. -/
structure Graphics where
  canvas : Canvas 16
  writeMode : WriteMode
  drawColor : BitVec 16

/-- `line`, in the mode and colour in force. -/
def Graphics.line (g : Graphics) (r : Raster) (p q : Point) : Graphics :=
  match g.writeMode with
  | .copyput => { g with canvas := fun x => if r.segment p q x then g.drawColor else g.canvas x }
  | .xorput => { g with canvas := toggle g.drawColor (r.segment p q) g.canvas }

/-- What the branch reads of the globals: the limits of the legend and the ground. -/
structure Area where
  limy : Int
  limx : Int
  bkcol : Int

def Screen.area (s : Screen) : Area := ⟨s.limy, s.limx, s.bkcol⟩

/-- `(v<=limy) or (h>=limx)`. -/
def Area.Has (a : Area) (m : Point) : Prop := m.2 ≤ a.limy ∨ m.1 ≥ a.limx

instance (a : Area) : DecidablePred a.Has := fun _ => inferInstanceAs (Decidable (_ ∨ _))

/-- `color xor bkcol`. -/
def Area.mixed (a : Area) (color : Int) : BitVec 16 := BitVec.ofInt 16 color ^^^ BitVec.ofInt 16 a.bkcol

/-- The graphics unit and the ends of the segment. -/
structure Trace where
  g : Graphics
  x0 : Int
  y0 : Int
  x1 : Int
  y1 : Int

/-- `x1:=h; y1:=v`. -/
def Trace.stopAt (t : Trace) (m : Point) : Trace := { t with x1 := m.1, y1 := m.2 }

/-- `line(x0,y0,x1,y1)`; the mouse cursor is hidden meanwhile. -/
def Trace.line (t : Trace) (r : Raster) : Trace := { t with g := t.g.line r (t.x0, t.y0) (t.x1, t.y1) }

section
variable (r : Raster) (a : Area) (color : Int)

/-- The statements in front of the loop, for a button pressed at `(h, v)`. -/
def startTrace (g : Graphics) (h v : Int) : Trace :=
  let g := { g with writeMode := .xorput, drawColor := a.mixed color }
  let t : Trace := { g := g, x0 := h, x1 := v, y0 := h, y1 := v }
  t.line r

/-- One turn of the loop, with the mouse at `m`. -/
def turn (t : Trace) (m : Point) : Trace :=
  if m.1 ≠ t.x1 ∨ m.2 ≠ t.y1 then
    let t := t.line r
    if a.Has m then (t.stopAt m).line r else t
  else t

/-- The statements behind the loop. -/
def finish (t : Trace) : Graphics := { t.g with writeMode := .copyput, drawColor := a.mixed color }

/-- The traces at the head of the loop. The first turn is at the place of the press, and
each poll with the button down leads to one more. -/
def heads (g : Graphics) (press : Point) (moves : List Point) : List Trace :=
  (press :: moves).scanl (turn r a) (startTrace r a color g press.1 press.2)

/-- The trace when the button is up. -/
def endTrace (g : Graphics) (press : Point) (moves : List Point) : Trace :=
  (press :: moves).foldl (turn r a) (startTrace r a color g press.1 press.2)

/-- The branch `linetracing`. -/
def lineTracing (g : Graphics) (press : Point) (moves : List Point) : Graphics :=
  finish a color (endTrace r a color g press moves)

/-! ## The drag as it is meant -/

/-- The last position in the drawing area, from a press in it on. -/
def lastInside (press : Point) (moves : List Point) : Point :=
  moves.foldl (fun last m => if a.Has m then m else last) press

/-- One segment at every moment, in the end from the press to the last position in the
drawing area, and the settings as they were. -/
structure RubberBand (g : Graphics) (press : Point) (moves : List Point) : Prop where
  result : (lineTracing r a color g press moves).canvas =
    toggle (a.mixed color) (r.segment press (lastInside a press moves)) g.canvas
  moments : ∀ t ∈ heads r a color g press moves, ∃ p q, t.g.canvas = toggle (a.mixed color) (r.segment p q) g.canvas
  drawColor : (lineTracing r a color g press moves).drawColor = g.drawColor
  writeMode : (lineTracing r a color g press moves).writeMode = g.writeMode

end

/-- The trace shows one segment, from `p` to its second end. -/
structure Banded (r : Raster) (mask : BitVec 16) (canvas : Canvas 16) (p : Point) (t : Trace) : Prop where
  writeMode : t.g.writeMode = .xorput
  drawColor : t.g.drawColor = mask
  start : (t.x0, t.y0) = p
  shown : t.g.canvas = toggle mask (r.segment p (t.x1, t.y1)) canvas

section
variable {r : Raster} {a : Area} {color : Int} {g : Graphics} {t : Trace} {m p press : Point} {moves : List Point}
  {mask : BitVec 16} {canvas : Canvas 16}

/-- The trace with another canvas. -/
def Trace.paint (t : Trace) (canvas : Canvas 16) : Trace := { t with g := { t.g with canvas := canvas } }

/-- Drawing in exclusive or touches the canvas alone. -/
theorem line_xor (xor : t.g.writeMode = .xorput) :
    t.line r = t.paint (toggle t.g.drawColor (r.segment (t.x0, t.y0) (t.x1, t.y1)) t.g.canvas) := by
  obtain ⟨⟨canvas, mode, drawColor⟩, x0, y0, x1, y1⟩ := t
  cases xor
  rfl

/-- The second line in the same place erases the first. -/
theorem Banded.erase (banded : Banded r mask canvas p t) : t.line r = t.paint canvas := by
  rw [line_xor banded.writeMode, banded.drawColor, banded.start, banded.shown, toggle_toggle]

theorem startTrace_banded (r : Raster) (a : Area) (color : Int) (g : Graphics) (h v : Int) :
    Banded r (a.mixed color) g.canvas (h, h) (startTrace r a color g h v) := by
  unfold startTrace
  dsimp only
  rw [line_xor rfl]
  exact ⟨rfl, rfl, rfl, rfl⟩

theorem stay_of_eq (same : m = (t.x1, t.y1)) : turn r a t m = t := by
  subst same
  simp [turn]

theorem turn_of_ne (moved : m ≠ (t.x1, t.y1)) : turn r a t m =
    if a.Has m then ((t.line r).stopAt m).line r else t.line r := by
  have differs : m.1 ≠ t.x1 ∨ m.2 ≠ t.y1 := by
    by_contra both
    simp only [not_or, not_not] at both
    exact moved (Prod.ext both.1 both.2)
  unfold turn
  rw [if_pos differs]

/-- In the drawing area the segment is drawn to the new position. -/
theorem Banded.turn_inside (banded : Banded r mask canvas p t) (inside : a.Has m) :
    Banded r mask canvas p (turn r a t m) ∧ ((turn r a t m).x1, (turn r a t m).y1) = m := by
  by_cases moved : m = (t.x1, t.y1)
  · rw [stay_of_eq moved]
    exact ⟨banded, moved.symm⟩
  · have drawn : turn r a t m =
        ((t.paint canvas).stopAt m).paint (toggle t.g.drawColor (r.segment (t.x0, t.y0) m) canvas) := by
      rw [turn_of_ne moved, if_pos inside, banded.erase]
      exact line_xor banded.writeMode
    rw [drawn, banded.drawColor, banded.start]
    exact ⟨⟨banded.writeMode, banded.drawColor, banded.start, rfl⟩, rfl⟩

/-- Outside it is erased, and nothing is drawn. -/
theorem Banded.turn_outside (banded : Banded r mask canvas p t) (place : a.Has (t.x1, t.y1)) (outside : ¬ a.Has m) :
    (turn r a t m).g.canvas = canvas := by
  have moved : m ≠ (t.x1, t.y1) := by
    intro same
    exact outside (same ▸ place)
  rw [turn_of_ne moved, if_neg outside, banded.erase]
  rfl

/-- With an invisible mask every turn leaves things as they are. -/
theorem Banded.turn_dark (banded : Banded r 0 canvas p t) : Banded r 0 canvas p (turn r a t m) := by
  by_cases inside : a.Has m
  · exact (banded.turn_inside inside).1
  · by_cases moved : m = (t.x1, t.y1)
    · rw [stay_of_eq moved]
      exact banded
    · rw [turn_of_ne moved, if_neg inside, banded.erase]
      exact ⟨banded.writeMode, banded.drawColor, banded.start, toggle_zero.symm⟩

/-- The second end follows the mouse. -/
theorem Banded.stop_eq (banded : Banded r mask canvas p t) (inside : ∀ m ∈ moves, a.Has m) :
    ((moves.foldl (turn r a) t).x1, (moves.foldl (turn r a) t).y1) = lastInside a (t.x1, t.y1) moves := by
  induction moves generalizing t with
  | nil => rfl
  | cons m moves ih =>
    obtain ⟨here, later⟩ := List.forall_mem_cons.1 inside
    obtain ⟨banded', stop⟩ := banded.turn_inside here
    rw [List.foldl_cons, ih banded' later, stop]
    unfold lastInside
    rw [List.foldl_cons, if_pos here]

/-- A drag that leaves the drawing area erases its segment. -/
theorem Banded.erased (banded : Banded r mask canvas p t) (place : a.Has (t.x1, t.y1)) (left : ∃ m ∈ moves, ¬ a.Has m) :
    ∃ u ∈ moves.scanl (turn r a) t, u.g.canvas = canvas := by
  induction moves generalizing t with
  | nil =>
    obtain ⟨m, member, -⟩ := left
    cases member
  | cons m moves ih =>
    rw [List.scanl_cons]
    by_cases here : a.Has m
    · obtain ⟨banded', stop⟩ := banded.turn_inside here
      have later : ∃ m' ∈ moves, ¬ a.Has m' := by
        obtain ⟨m', member, outside⟩ := left
        rcases List.mem_cons.1 member with rfl | later
        · exact absurd here outside
        · exact ⟨m', later, outside⟩
      obtain ⟨u, member, erased⟩ := ih banded' (by rwa [stop]) later
      exact ⟨u, List.mem_cons_of_mem _ member, erased⟩
    · have next : turn r a t m ∈ moves.scanl (turn r a) (turn r a t m) := by
        cases moves <;> simp
      exact ⟨_, List.mem_cons_of_mem _ next, banded.turn_outside place here⟩

theorem endTrace_mem_heads : endTrace r a color g press moves ∈ heads r a color g press moves := foldl_mem_scanl ..

/-- A drag in the drawing area shows one segment throughout, from the diagonal on. -/
theorem heads_banded (inside : ∀ m ∈ press :: moves, a.Has m) :
    ∀ t ∈ heads r a color g press moves, Banded r (a.mixed color) g.canvas (press.1, press.1) t :=
  scanl_invariant (fun _ m member banded => (banded.turn_inside (inside m member)).1) (startTrace_banded r a color g ..)

/-- So does one with an invisible colour, wherever it goes. -/
theorem heads_dark (dark : a.mixed color = 0) :
    ∀ t ∈ heads r a color g press moves, Banded r 0 g.canvas (press.1, press.1) t := by
  have start := startTrace_banded r a color g press.1 press.2
  rw [dark] at start
  exact scanl_invariant (fun _ _ _ banded => banded.turn_dark) start

/-- In the end the segment stops at the last position. -/
theorem canvas_of_inside (here : a.Has press) (inside : ∀ m ∈ moves, a.Has m) :
    (lineTracing r a color g press moves).canvas =
      toggle (a.mixed color) (r.segment (press.1, press.1) (lastInside a press moves)) g.canvas := by
  have all : ∀ m ∈ press :: moves, a.Has m := List.forall_mem_cons.2 ⟨here, inside⟩
  have stop := (startTrace_banded r a color g press.1 press.2).stop_eq all
  have first : ∀ q, lastInside a q (press :: moves) = lastInside a press moves := by
    intro q
    unfold lastInside
    rw [List.foldl_cons, if_pos here]
  have last : ((endTrace r a color g press moves).x1, (endTrace r a color g press moves).y1) = lastInside a press moves :=
    stop.trans (first _)
  rw [← last]
  exact (heads_banded all _ endTrace_mem_heads).shown

/-- A drag that leaves the drawing area shows nothing at some moment. -/
theorem exists_erased (here : a.Has press) (left : ∃ m ∈ moves, ¬ a.Has m) :
    ∃ t ∈ heads r a color g press moves, t.g.canvas = g.canvas := by
  obtain ⟨banded, stop⟩ := (startTrace_banded r a color g press.1 press.2).turn_inside here
  obtain ⟨t, member, erased⟩ := banded.erased (by rwa [stop]) left
  refine ⟨t, ?_, erased⟩
  unfold heads
  rw [List.scanl_cons]
  exact List.mem_cons_of_mem _ member

/-- **Rubber band.** The drag is as meant where the settings in force are those it leaves
behind, and either nothing of it is visible, or the press is on the diagonal and no poll is
outside the drawing area. -/
theorem rubberBand_iff (r : Raster) (a : Area) (color : Int) (g : Graphics) (press : Point) (moves : List Point)
    (here : a.Has press) : RubberBand r a color g press moves ↔
      g.writeMode = .copyput ∧ g.drawColor = a.mixed color ∧
        (a.mixed color = 0 ∨ press.1 = press.2 ∧ ∀ m ∈ moves, a.Has m) := by
  constructor
  · intro band
    refine ⟨band.writeMode.symm, band.drawColor.symm, ?_⟩
    by_cases visible : a.mixed color = 0
    · exact .inl visible
    · have inside : ∀ m ∈ moves, a.Has m := by
        by_contra some_out
        simp only [not_forall] at some_out
        obtain ⟨m, member, outside⟩ := some_out
        obtain ⟨t, moment, erased⟩ := exists_erased here ⟨m, member, outside⟩
        obtain ⟨p, q, shown⟩ := band.moments t moment
        -- the segment that should be shown has at least its first end
        exact (mem_iff_toggle_ne _ visible p).1 (r.first p q) (congrFun (shown.symm.trans erased) p)
      have same := toggle_injective visible ((canvas_of_inside here inside).symm.trans band.result)
      exact .inr ⟨congrArg Prod.snd (r.start_unique same), inside⟩
  · rintro ⟨mode, drawColor, fine⟩
    rcases fine with dark | ⟨diagonal, inside⟩
    · refine ⟨?_, fun t moment => ?_, drawColor.symm, mode.symm⟩
      · have last := (heads_dark dark (endTrace r a color g press moves) endTrace_mem_heads).shown
        rw [toggle_zero] at last
        rw [dark, toggle_zero]
        exact last
      · have shown := (heads_dark dark t moment).shown
        rw [← dark] at shown
        exact ⟨_, _, shown⟩
    · have all : ∀ m ∈ press :: moves, a.Has m := List.forall_mem_cons.2 ⟨here, inside⟩
      have start : (press.1, press.1) = press := Prod.ext rfl diagonal
      refine ⟨?_, fun t moment => ⟨_, _, (heads_banded all t moment).shown⟩, drawColor.symm, mode.symm⟩
      rw [canvas_of_inside here inside, start]

end

/-- The ground, behind a click on colour 4. -/
def ground (drawColor : BitVec 16) : Graphics := ⟨fun _ => 7, .copyput, drawColor⟩

theorem rubberBand_diagonal : RubberBand digital vga.area 4 (ground 3) (50, 50) [(60, 50), (60, 55)] :=
  (rubberBand_iff digital vga.area 4 (ground 3) (50, 50) [(60, 50), (60, 55)] (by decide)).2
    ⟨rfl, by decide, .inr ⟨rfl, by decide⟩⟩

/-- A press without a move: the segment starts on the diagonal, and the colour is another. -/
theorem press_draws_from_diagonal :
    vga.area.Has (100, 50) ∧ ¬ RubberBand digital vga.area 4 (ground 4) (100, 50) [] ∧
      (lineTracing digital vga.area 4 (ground 4) (100, 50) []).canvas (100, 75) ≠ (ground 4).canvas (100, 75) ∧
      (lineTracing digital vga.area 4 (ground 4) (100, 50) []).drawColor = 3 := by
  refine ⟨by decide, ?_, by decide, by decide⟩
  intro band
  exact absurd band.drawColor (by decide)

end GtpLibrary.Paint

import Mathlib.Tactic.Common
import Mathlib.Algebra.Order.Ring.Int

/-!
# `paintfro`: the screen and its legend

The numbers of the program are 16 bits wide, signed in an `integer` and unsigned in a
`word`; sums and products of the two are computed in more bits and cut when they are stored
or passed. A `Screen` is a graphics mode whose legend fits: then only `limy` can wrap.
-/

namespace GtpLibrary.Paint

/-- Storing in an `integer`. -/
def integer (x : Int) : Int := x.bmod (2 ^ 16)

/-- Storing in a `word`. -/
def word (x : Int) : Int := x % 2 ^ 16

/-- `div`. -/
def div (a b : Int) : Int := a.tdiv b

/-- An `integer` that fits. -/
theorem integer_eq_self {x : Int} (low : -2 ^ 15 ≤ x) (high : x < 2 ^ 15) : integer x = x := by
  unfold integer
  exact Int.bmod_eq_of_le (by omega) (by omega)

/-- A `word` that fits. -/
theorem word_eq_self {x : Int} (low : 0 ≤ x) (high : x < 2 ^ 16) : word x = x := Int.emod_eq_of_lt low high

/-- A wrapped `word` comes out right in an `integer` sum. -/
theorem integer_word_add (x k : Int) : integer (word x + k) = integer (x + k) := Int.emod_add_bmod x (2 ^ 16)

/-- `div` rounds towards zero. -/
theorem div_eq {a : Int} (nonneg : 0 ≤ a) (b : Int) : div a b = a / b := Int.tdiv_eq_ediv_of_nonneg nonneg

/-- The height of a cell. -/
def cheight : Int := 20

/-- The width of a colour. -/
def cwidth : Int := 40

/-- The width of a size. -/
def dwidth : Int := word (div cwidth 2)

/-- A graphics mode, by what the graphics unit tells of it: an even number of colours, whose
legend fits on the screen. -/
structure Screen where
  getmaxx : Nat
  getmaxy : Nat
  getmaxcolor : Nat
  half : Nat
  even : getmaxcolor + 1 = 2 * half
  wide : (half + 5) * cwidth ≤ getmaxx + 1
  tall : 2 * cheight ≤ getmaxy + 1
  smallx : getmaxx < 2 ^ 15
  smally : getmaxy < 2 ^ 15

namespace Screen
variable (s : Screen)

/-- The last column of the screen. -/
def maxx : Int := word s.getmaxx

/-- The last row of the screen. -/
def maxy : Int := word s.getmaxy

/-- Half the number of colours. -/
def halfc : Int := word (div (s.getmaxcolor + 1) 2)

/-- The last colour of the upper row. -/
def bkcol : Int := integer (s.halfc - 1)

/-- Where the fonts begin. -/
def limfx : Int := word (s.halfc * cwidth)

/-- Where the legend begins. -/
def limy : Int := word (s.maxy - 2 * cheight)

/-- Where the lower row of the legend begins. -/
def limfy : Int := word (s.maxy - cheight)

/-- Where the tools begin. -/
def limcx : Int := word ((s.halfc + 4) * cwidth)

/-- Where the legend ends. -/
def limx : Int := word ((s.halfc + 5) * cwidth)

end Screen

/-! ## The drawn legend -/

/-- The corners of a rectangle, as the graphics unit takes them. -/
structure Rect where
  x1 : Int
  y1 : Int
  x2 : Int
  y2 : Int
  deriving DecidableEq

/-- A rectangle, as its corners are passed. -/
def rect (x1 y1 x2 y2 : Int) : Rect := ⟨integer x1, integer y1, integer x2, integer y2⟩

/-- The point is in the rectangle, edges included. -/
def Rect.Has (r : Rect) (h v : Int) : Prop := r.x1 ≤ h ∧ h ≤ r.x2 ∧ r.y1 ≤ v ∧ v ≤ r.y2

instance (r : Rect) (h v : Int) : Decidable (r.Has h v) := inferInstanceAs (Decidable (_ ∧ _ ∧ _ ∧ _))

/-- The calls that draw, with the styles in force. -/
inductive Shape
  | bar3d (corners : Rect) (fill : Int)
  | rectangle (corners : Rect)
  | line (ends : Rect)
  | outtextxy (x y : Int) (text : Char) (font size : Int)
  | arc (x y stangle endangle radius : Int)
  deriving DecidableEq

/-- The font that is drawn in a larger size. -/
def smallfont : Int := 2

/-- A cell of the legend: the swatch of a colour, the boxes of the fonts and sizes from 1 on,
and the boxes of the two tracings. -/
inductive Cell (s : Screen)
  | colour (i : Fin (s.getmaxcolor + 1))
  | font (i : Fin 4)
  | size (i : Fin 8)
  | curve
  | line

namespace Screen
variable (s : Screen)

/-- The left edge of a colour. -/
def aa (i : Int) : Int := integer (i % s.halfc * cwidth)

/-- The upper edge of a colour. -/
def bb (i : Int) : Int := integer (s.maxy - 2 * cheight + div i s.halfc * cheight)

/-- The bar of a colour. -/
def drawSwatch (i : Int) : List Shape :=
  [.bar3d (rect (s.aa i) (s.bb i + 1) (s.aa i + cwidth - 1) (s.bb i + cheight)) i]

/-- The cell of a font. -/
def drawFont (i : Int) : List Shape :=
  let size := if i = smallfont then 4 else 2
  [.rectangle (rect (s.limfx + (i - 1) * cwidth) (s.limy + 1) (s.limfx + i * cwidth - 1) (s.limy + cheight)),
    .outtextxy (s.limfx + (i - 1) * cwidth + div cwidth 2) (s.limy + div cheight 2) 'A' i size]

/-- The cell of a size. -/
def drawSize (i : Int) : List Shape :=
  [.outtextxy (s.limfx + (i - 1) * dwidth + div dwidth 2) (s.limfy + div cheight 2 - 1)
      (Char.ofNat ('0'.toNat + i.toNat)) smallfont 4,
    .line (rect (s.limfx + i * dwidth - 1) s.limfy (s.limfx + i * dwidth - 1) s.maxy)]

/-- The drawing calls of the setup, from the ground on. -/
def drawLegend : List Shape :=
  [.bar3d (rect 0 0 s.maxx s.maxy) s.bkcol] ++
    ((List.range (s.getmaxcolor + 1)).flatMap fun (i : Nat) => s.drawSwatch i) ++
    ((List.range' 1 4).flatMap fun (i : Nat) => s.drawFont i) ++
    ((List.range' 1 8).flatMap fun (i : Nat) => s.drawSize i) ++
    [.line (rect s.limfx s.maxy (s.limfx + 4 * cwidth - 1) s.maxy),
      .rectangle (rect s.limcx (s.limy + 1) (s.limx - 1) s.limfy),
      .rectangle (rect s.limcx (s.limfy + 1) (s.limx - 1) s.maxy),
      .arc (s.limcx + cwidth + div cwidth 2) s.limfy 30 150 (div cheight 2),
      .line (rect (s.limcx + 2) (s.maxy - 4) (s.limx - 3) (s.limfy + 5))]

end Screen

end GtpLibrary.Paint

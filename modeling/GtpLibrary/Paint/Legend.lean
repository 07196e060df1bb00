import GtpLibrary.Paint.Screen

/-!
# `paintfro`: clicks in the legend

The hit test divides by the sizes that the drawing multiplied with. They agree on every
pixel of every cell but the bottom rows of the colour swatches: the rows are counted from
`limy` on, and the first one painted is the one below it (`leftClick_iff`).
-/

namespace GtpLibrary.Paint

/-- What a click in the drawing does. -/
inductive Action
  | noaction
  | textoutput
  | linetracing
  | curvetracing
  deriving DecidableEq

/-- The variables that a click in the legend sets, with what `setcolor` and `settextstyle`
were told last. -/
structure Tool where
  color : Int
  font : Int
  size : Int
  action : Action
  posset : Bool
  drawColor : Int
  textStyle : Int × Int
  deriving DecidableEq

/-- A colour is chosen. -/
def Tool.setColor (t : Tool) (color : Int) : Tool := { t with color := color, drawColor := color }

/-- A font is chosen, and with it writing. -/
def Tool.setFont (t : Tool) (font : Int) : Tool :=
  { t with font := font, textStyle := (font, t.size), action := .textoutput, posset := false }

/-- A size is chosen. -/
def Tool.setSize (t : Tool) (size : Int) : Tool := { t with size := size, textStyle := (t.font, size) }

/-- A tool is chosen. -/
def Tool.setAction (t : Tool) (action : Action) : Tool := { t with action := action }

/-- What a left click leads to: another tool, or the action of the present one. -/
inductive Reaction
  | legend (t : Tool)
  | drawing (action : Action)
  deriving DecidableEq

namespace Screen
variable (s : Screen)

/-- The branch of a left click in the legend. -/
def legendClick (t : Tool) (h v : Int) : Tool :=
  if h < s.limfx then t.setColor (integer (div h cwidth + div (v - s.limy) cheight * s.halfc))
  else if h < s.limcx then
    if v ≤ s.limfy then t.setFont (integer (div (h - s.limfx) cwidth + 1))
    else t.setSize (word (div (h - s.limfx) dwidth + 1))
  else if v ≤ s.limfy then t.setAction .curvetracing
  else t.setAction .linetracing

/-- A left click. -/
def leftClick (t : Tool) (h v : Int) : Reaction :=
  if v > s.limy ∧ h < s.limx then .legend (s.legendClick t h v) else .drawing t.action

end Screen

namespace Cell
variable {s : Screen}

/-- The pixels of a cell, its frame with them. -/
def rect : Cell s → Rect
  | .colour i => Paint.rect (s.aa i) (s.bb i + 1) (s.aa i + cwidth - 1) (s.bb i + cheight)
  | .font i => Paint.rect (s.limfx + i * cwidth) (s.limy + 1) (s.limfx + (i + 1) * cwidth - 1) (s.limy + cheight)
  | .size i => Paint.rect (s.limfx + i * dwidth) (s.limfy + 1) (s.limfx + (i + 1) * dwidth - 1) s.maxy
  | .curve => Paint.rect s.limcx (s.limy + 1) (s.limx - 1) s.limfy
  | .line => Paint.rect s.limcx (s.limfy + 1) (s.limx - 1) s.maxy

/-- The calls that show the cell: the bar of a swatch, the frame of a box, for a size the
lines on its right and below it. -/
def Drawn : Cell s → Prop
  | .colour i => .bar3d (Cell.colour i).rect i ∈ s.drawLegend
  | .font i => .rectangle (Cell.font i : Cell s).rect ∈ s.drawLegend
  | .size i =>
    .line (Paint.rect (s.limfx + (i + 1) * dwidth - 1) s.limfy (s.limfx + (i + 1) * dwidth - 1) s.maxy) ∈ s.drawLegend ∧
      .line (Paint.rect s.limfx s.maxy (s.limfx + 4 * cwidth - 1) s.maxy) ∈ s.drawLegend
  | .curve => .rectangle (Cell.curve : Cell s).rect ∈ s.drawLegend
  | .line => .rectangle (Cell.line : Cell s).rect ∈ s.drawLegend

/-- What a click in the cell is meant to do. -/
def select (t : Tool) : Cell s → Tool
  | .colour i => t.setColor i
  | .font i => t.setFont (i + 1)
  | .size i => t.setSize (i + 1)
  | .curve => t.setAction .curvetracing
  | .line => t.setAction .linetracing

/-- The cell is a swatch, and the row its last one. -/
def BottomRow (v : Int) : Cell s → Prop
  | .colour i => v = s.bb i + cheight
  | _ => False

end Cell

section
variable {s : Screen} {t : Tool} {cell : Cell s} {h v : Int}

/-! ## The limits -/

/-- The legend fits the width, and the numbers fit their types. -/
theorem Screen.bounds (s : Screen) : ((s.half : Int) + 5) * 40 ≤ s.getmaxx + 1 ∧ (39 : Int) ≤ s.getmaxy ∧
    (s.getmaxx : Int) < 2 ^ 15 ∧ (s.getmaxy : Int) < 2 ^ 15 := by
  obtain ⟨wide, tall, smallx, smally⟩ := And.intro s.wide (And.intro s.tall (And.intro s.smallx s.smally))
  unfold cwidth at wide
  unfold cheight at tall
  omega

/-- Half the number of colours fits a word. -/
theorem halfc_eq : s.halfc = s.half := by
  have even := s.even
  have bounds := s.bounds
  unfold Screen.halfc
  rw [div_eq (by omega), show ((s.getmaxcolor : Int) + 1) / 2 = s.half by omega]
  exact word_eq_self (by omega) (by omega)

/-- The last row fits a word. -/
theorem maxy_eq : s.maxy = s.getmaxy := word_eq_self (by omega) (by have := s.bounds; omega)

/-- The left edge of the fonts. -/
theorem limfx_eq : s.limfx = s.half * 40 := by
  have bounds := s.bounds
  unfold Screen.limfx cwidth
  rw [halfc_eq]
  exact word_eq_self (by omega) (by omega)

/-- The left edge of the tools. -/
theorem limcx_eq : s.limcx = (s.half + 4) * 40 := by
  have bounds := s.bounds
  unfold Screen.limcx cwidth
  rw [halfc_eq]
  exact word_eq_self (by omega) (by omega)

/-- The right edge of the legend. -/
theorem limx_eq : s.limx = (s.half + 5) * 40 := by
  have bounds := s.bounds
  unfold Screen.limx cwidth
  rw [halfc_eq]
  exact word_eq_self (by omega) (by omega)

/-- The middle of the legend. -/
theorem limfy_eq : s.limfy = s.getmaxy - 20 := by
  have bounds := s.bounds
  unfold Screen.limfy cheight
  rw [maxy_eq]
  exact word_eq_self (by omega) (by omega)

/-- The upper edge of the legend, on a screen that is high enough. -/
theorem limy_eq (tall : 40 ≤ s.getmaxy) : s.limy = s.getmaxy - 40 := by
  have bounds := s.bounds
  unfold Screen.limy cheight
  rw [maxy_eq]
  exact word_eq_self (by omega) (by omega)

/-- `limy` wraps where the legend takes the whole screen. -/
theorem limy_wraps (low : ¬ 40 ≤ s.getmaxy) : s.limy = 65535 := by
  have bounds := s.bounds
  unfold Screen.limy word cheight
  rw [maxy_eq]
  omega

/-- As a coordinate it is the row above the legend in both cases. -/
theorem integer_limy {k : Int} (from1 : 1 ≤ k) (to20 : k ≤ 20) : integer (s.limy + k) = s.getmaxy - 40 + k := by
  have bounds := s.bounds
  unfold Screen.limy cheight
  rw [integer_word_add, maxy_eq]
  exact integer_eq_self (by omega) (by omega)

/-- A size is half as wide as a colour. -/
theorem dwidth_eq : dwidth = 20 := by decide

/-! ## The cells -/

/-- Column and row of a swatch. -/
theorem swatch_place (i : Fin (s.getmaxcolor + 1)) : ∃ column row : Nat, i.val = row * s.half + column ∧ column < s.half ∧
    row < 2 ∧ s.aa i = column * 40 ∧ s.bb i = s.getmaxy - 40 + row * 20 := by
  have bounds := s.bounds
  have even := s.even
  have short := i.isLt
  have some : 0 < s.half := by omega
  have column := Nat.mod_lt i.val some
  have row : i.val / s.half < 2 := Nat.div_lt_of_lt_mul (by omega)
  refine ⟨i.val % s.half, i.val / s.half, (Nat.div_add_mod' ..).symm, column, row, ?_, ?_⟩
  · unfold Screen.aa cwidth
    rw [halfc_eq, ← Int.natCast_emod]
    exact integer_eq_self (by omega) (by omega)
  · unfold Screen.bb cheight
    rw [halfc_eq, maxy_eq, div_eq (by omega), ← Int.natCast_ediv]
    generalize i.val / s.half = row at row
    exact integer_eq_self (by omega) (by omega)

/-- The rectangle of a font. -/
theorem has_font {i : Fin 4} : (Cell.font i : Cell s).rect.Has h v ↔
    s.half * 40 + i * 40 ≤ h ∧ h ≤ s.half * 40 + i * 40 + 39 ∧ s.getmaxy - 39 ≤ v ∧ v ≤ s.getmaxy - 20 := by
  have bounds := s.bounds
  have few := i.isLt
  unfold Cell.rect Paint.rect Rect.Has cwidth cheight
  dsimp only
  rw [limfx_eq, integer_limy (by omega) (by omega), integer_limy (by omega) (by omega),
    integer_eq_self (by omega) (by omega),
    integer_eq_self (by omega) (by omega)]
  omega

/-- The rectangle of a size. -/
theorem has_size {i : Fin 8} : (Cell.size i : Cell s).rect.Has h v ↔
    s.half * 40 + i * 20 ≤ h ∧ h ≤ s.half * 40 + i * 20 + 19 ∧ s.getmaxy - 19 ≤ v ∧ v ≤ s.getmaxy := by
  have bounds := s.bounds
  have few := i.isLt
  unfold Cell.rect Paint.rect Rect.Has
  dsimp only
  rw [limfx_eq, limfy_eq, maxy_eq, dwidth_eq, integer_eq_self (by omega) (by omega), integer_eq_self (by omega) (by omega),
    integer_eq_self (by omega) (by omega), integer_eq_self (by omega) (by omega)]
  omega

/-- The rectangle of the curve. -/
theorem has_curve : (Cell.curve : Cell s).rect.Has h v ↔
    s.half * 40 + 160 ≤ h ∧ h ≤ s.half * 40 + 199 ∧ s.getmaxy - 39 ≤ v ∧ v ≤ s.getmaxy - 20 := by
  have bounds := s.bounds
  unfold Cell.rect Paint.rect Rect.Has
  dsimp only
  rw [limcx_eq, limx_eq, limfy_eq, integer_limy (by omega) (by omega), integer_eq_self (by omega) (by omega),
    integer_eq_self (by omega) (by omega), integer_eq_self (by omega) (by omega)]
  omega

/-- The rectangle of the line. -/
theorem has_line : (Cell.line : Cell s).rect.Has h v ↔
    s.half * 40 + 160 ≤ h ∧ h ≤ s.half * 40 + 199 ∧ s.getmaxy - 19 ≤ v ∧ v ≤ s.getmaxy := by
  have bounds := s.bounds
  unfold Cell.rect Paint.rect Rect.Has
  dsimp only
  rw [limcx_eq, limx_eq, limfy_eq, maxy_eq, integer_eq_self (by omega) (by omega), integer_eq_self (by omega) (by omega),
    integer_eq_self (by omega) (by omega), integer_eq_self (by omega) (by omega)]
  omega

/-- The rectangle of the colour in a column and a row of the legend. -/
theorem has_colour {i : Fin (s.getmaxcolor + 1)} {column row : Nat} (left : column < s.half) (few : row < 2)
    (aa : s.aa i = column * 40) (bb : s.bb i = s.getmaxy - 40 + row * 20) : (Cell.colour i).rect.Has h v ↔
    column * 40 ≤ h ∧ h ≤ column * 40 + 39 ∧ s.getmaxy - 39 + row * 20 ≤ v ∧ v ≤ s.getmaxy - 20 + row * 20 := by
  have bounds := s.bounds
  unfold Cell.rect Paint.rect Rect.Has cwidth cheight
  dsimp only
  rw [aa, bb, integer_eq_self (by omega) (by omega), integer_eq_self (by omega) (by omega),
    integer_eq_self (by omega) (by omega), integer_eq_self (by omega) (by omega)]
  omega

/-- The rectangle of every cell is among what is drawn. -/
theorem cell_drawn (cell : Cell s) : cell.Drawn := by
  cases cell with
  | colour i =>
    have drawn : Shape.bar3d (Cell.colour i).rect i ∈
        (List.range (s.getmaxcolor + 1)).flatMap fun (i : Nat) => s.drawSwatch i :=
      List.mem_flatMap.2 ⟨i, List.mem_range.2 i.isLt, List.mem_singleton.2 rfl⟩
    simp [Cell.Drawn, Screen.drawLegend, drawn]
  | font i =>
    have few := i.isLt
    have drawn : Shape.rectangle (Cell.font i : Cell s).rect ∈ (List.range' 1 4).flatMap fun (i : Nat) => s.drawFont i := by
      refine List.mem_flatMap.2 ⟨i + 1, List.mem_range'_1.2 (by omega), ?_⟩
      simp [Cell.rect, Screen.drawFont]
    simp [Cell.Drawn, Screen.drawLegend, drawn]
  | size i =>
    have few := i.isLt
    have drawn : Shape.line (rect (s.limfx + (i + 1) * dwidth - 1) s.limfy (s.limfx + (i + 1) * dwidth - 1) s.maxy) ∈
        (List.range' 1 8).flatMap fun (i : Nat) => s.drawSize i := by
      refine List.mem_flatMap.2 ⟨i + 1, List.mem_range'_1.2 (by omega), ?_⟩
      simp [Screen.drawSize]
    simp [Cell.Drawn, Screen.drawLegend, drawn]
  | curve => simp [Cell.Drawn, Cell.rect, Screen.drawLegend]
  | line => simp [Cell.Drawn, Cell.rect, Screen.drawLegend]

/-! ## Clicks -/

/-- The legend is the lower left part of the screen. -/
theorem legend_of_has (inside : cell.rect.Has h v) :
    0 ≤ h ∧ h < s.limx ∧ (s.getmaxy : Int) - 40 < v ∧ v ≤ s.getmaxy := by
  rw [limx_eq]
  cases cell with
  | colour i =>
    obtain ⟨column, row, -, left, few, aa, bb⟩ := swatch_place i
    rw [has_colour left few aa bb] at inside
    omega
  | font i =>
    rw [has_font] at inside
    omega
  | size i =>
    rw [has_size] at inside
    omega
  | curve =>
    rw [has_curve] at inside
    omega
  | line =>
    rw [has_line] at inside
    omega

/-- A click on a colour chooses it; in its bottom row, the colour below it. -/
theorem click_colour {i : Fin (s.getmaxcolor + 1)} (tall : 40 ≤ s.getmaxy) (inside : (Cell.colour i).rect.Has h v) :
    s.legendClick t h v = t.setColor (if v = s.bb i + 20 then i + s.half else i) := by
  have bounds := s.bounds
  obtain ⟨column, row, number, left, few, aa, bb⟩ := swatch_place i
  rw [has_colour left few aa bb] at inside
  have column_eq : h / 40 = column := by omega
  have span : row * s.half ≤ s.half := by
    have step := Nat.mul_le_mul_right s.half (show row ≤ 1 by omega)
    rwa [Nat.one_mul] at step
  unfold Screen.legendClick cwidth cheight
  rw [limfx_eq, limy_eq tall, halfc_eq, if_pos (by omega), div_eq (by omega), div_eq (by omega), column_eq, bb, number]
  by_cases bottom : v = s.getmaxy - 40 + row * 20 + 20
  · -- counted from `limy` on, it is a row of the swatch below
    have row_eq : (v - (s.getmaxy - 40)) / 20 = row + 1 := by omega
    rw [if_pos bottom, row_eq, Int.add_mul, Int.one_mul, ← Int.natCast_mul, integer_eq_self (by omega) (by omega)]
    apply congrArg
    push_cast
    omega
  · have row_eq : (v - (s.getmaxy - 40)) / 20 = row := by omega
    rw [if_neg bottom, row_eq, ← Int.natCast_mul, integer_eq_self (by omega) (by omega)]
    apply congrArg
    push_cast
    omega

/-- A click on another cell chooses what is drawn there. -/
theorem click_other (inside : cell.rect.Has h v) (other : ∀ i, cell ≠ .colour i) :
    s.legendClick t h v = cell.select t := by
  have bounds := s.bounds
  unfold Screen.legendClick Cell.select
  rw [limfx_eq, limcx_eq, limfy_eq]
  cases cell with
  | colour i => exact absurd rfl (other i)
  | font i =>
    have few := i.isLt
    rw [has_font] at inside
    have place : (h - s.half * 40) / 40 = i := by omega
    rw [if_neg (by omega), if_pos (by omega), if_pos (by omega), cwidth, div_eq (by omega), place,
      integer_eq_self (by omega) (by omega)]
  | size i =>
    have few := i.isLt
    rw [has_size] at inside
    have place : (h - s.half * 40) / 20 = i := by omega
    rw [if_neg (by omega), if_pos (by omega), if_neg (by omega), dwidth_eq, div_eq (by omega), place,
      word_eq_self (by omega) (by omega)]
  | curve =>
    rw [has_curve] at inside
    rw [if_neg (by omega), if_neg (by omega), if_pos (by omega)]
  | line =>
    rw [has_line] at inside
    rw [if_neg (by omega), if_neg (by omega), if_neg (by omega)]

/-- On a screen that is high enough a click in a cell goes to the legend. -/
theorem leftClick_tall (tall : 40 ≤ s.getmaxy) (inside : cell.rect.Has h v) :
    s.leftClick t h v = .legend (s.legendClick t h v) := by
  obtain ⟨-, left, below, -⟩ := legend_of_has inside
  apply if_pos
  rw [limy_eq tall]
  exact ⟨below, left⟩

/-- On a lower one `limy` wraps around, and the click goes to the drawing. -/
theorem leftClick_low (low : ¬ 40 ≤ s.getmaxy) (inside : cell.rect.Has h v) : s.leftClick t h v = .drawing t.action := by
  have bounds := s.bounds
  obtain ⟨-, -, -, above⟩ := legend_of_has inside
  apply if_neg
  rw [limy_wraps low]
  omega

/-- **Hit test.** A click in a cell selects it where the screen has a row above the legend
and the pixel is not in the bottom row of a swatch, and nowhere else. -/
theorem leftClick_iff (s : Screen) (t : Tool) (cell : Cell s) (h v : Int) (inside : cell.rect.Has h v) :
    s.leftClick t h v = .legend (cell.select t) ↔ 2 * cheight ≤ s.getmaxy ∧ ¬ cell.BottomRow v := by
  have height : 2 * cheight ≤ s.getmaxy ↔ 40 ≤ s.getmaxy := by
    unfold cheight
    omega
  rw [height]
  by_cases tall : 40 ≤ s.getmaxy
  · rw [leftClick_tall tall inside, Reaction.legend.injEq]
    cases cell with
    | colour i =>
      have even := s.even
      have short := i.isLt
      have other : (i : Int) + s.half ≠ i := by omega
      rw [click_colour tall inside]
      show t.setColor _ = t.setColor i ↔ _ ∧ ¬ v = s.bb i + 20
      by_cases bottom : v = s.bb i + 20
      · simp [bottom, Tool.setColor, other]
      · simp [bottom, tall]
    | _ =>
      rw [click_other inside fun i same => by cases same]
      simp [tall, Cell.BottomRow]
  · rw [leftClick_low tall inside]
    simp [tall]

/-- A swatch gives a colour that the mode does not have in the last row of the screen alone,
which the area set for the mouse leaves out. -/
theorem colour_le_iff {i : Fin (s.getmaxcolor + 1)} (tall : 40 ≤ s.getmaxy) (inside : (Cell.colour i).rect.Has h v) :
    (s.legendClick t h v).color ≤ s.getmaxcolor ↔ v < s.getmaxy := by
  have even := s.even
  have short := i.isLt
  obtain ⟨column, row, number, left, few, aa, bb⟩ := swatch_place i
  rw [click_colour tall inside, bb]
  rw [has_colour left few aa bb] at inside
  have colour : ∀ color, (t.setColor color).color = color := fun _ => rfl
  rw [colour]
  obtain rfl | rfl : row = 0 ∨ row = 1 := by omega
  · split <;> omega
  · split <;> omega

end

/-- The mode of 640 columns, 480 rows and 16 colours. -/
def vga : Screen := ⟨639, 479, 15, 8, by decide, by decide, by decide, by decide, by decide⟩

/-- The variables at the start of the loop. -/
def startTool : Tool := ⟨0, 0, 1, .noaction, false, 15, (2, 4)⟩

/-- A click on the first colour of a VGA screen. -/
theorem leftClick_iff_vga : vga.leftClick startTool 0 440 = .legend ((Cell.colour 0 : Cell vga).select startTool) :=
  (leftClick_iff vga startTool (.colour 0) 0 440 (by decide)).2 ⟨by decide, by unfold Cell.BottomRow; decide⟩

/-- The last row of the first swatch selects the colour of the swatch below it. -/
theorem bottom_row_selects_below : (Cell.colour 0 : Cell vga).rect.Has 0 459 ∧
    vga.leftClick startTool 0 459 = .legend ((Cell.colour 8 : Cell vga).select startTool) ∧
    vga.leftClick startTool 0 459 ≠ .legend ((Cell.colour 0 : Cell vga).select startTool) := by
  exact ⟨by decide, by decide, by decide⟩

end GtpLibrary.Paint

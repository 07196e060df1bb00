import GtpLibrary.ImageCleaner.DrawMenu
import GtpLibrary.Lib.Lists
import GtpLibrary.Player.BrowserInvariant
import Mathlib.Tactic.Common
import Mathlib.Tactic.Linarith

/-!
# The window and the bar of the image cleaner

The cursor is on the list, or on its first line, in every state a run reaches, whatever the
windows were (`State.Valid`). The first row is repaired by each draw, so that the cursor's row is in the
slice and all calls below the header begin on the lines of the list. What they write stays on these
lines exactly where no row is too long for the lines left to it (`fits_iff`).
-/

namespace GtpLibrary.ImageCleaner

open Lib Player

/-- The text of an image is a line with its columns. -/
def Image.Columned (image : Image) : Prop := '\n' ∉ image.text ∧ 66 ≤ image.text.length

/-- The cursor is on the list. -/
structure State.Valid (s : State) : Prop where
  row_nonneg : 0 ≤ s.currentRow
  row_lt : s.currentRow < max 1 (s.images.length : Int)
  top_nonneg : 0 ≤ s.scrollTop
  columned : ∀ image ∈ s.images, image.Columned

/-- The calls write on the lines between header and footer. -/
def Inside (window : Window) (calls : List AddStr) : Prop :=
  ∀ call ∈ calls, ∀ cell ∈ call.cells window, 4 ≤ cell.1 ∧ cell.1 ≤ window.h - 3

/-- The row of the cursor, with the element it marks. -/
def State.HasCursor (s : State) (window : Window) (rows : List AddStr) : Prop :=
  ∃ image, pyIndex s.images s.currentRow = some image ∧
    rows[(s.currentRow - s.scrollTop).toNat]? = some ⟨4 + (s.currentRow - s.scrollTop), 0,
      bracket image.checked ++ ' ' :: ljust image.text (window.w - 7).toNat, .pair 1⟩

/-- The draw of a state, with its first row repaired, stays on the lines of the list. -/
structure State.Fits (s : State) (window : Window) (frame : Frame) : Prop where
  top_le : s.scrollTop ≤ s.currentRow
  row_lt : s.currentRow < s.scrollTop + window.maxVisibleItems
  cursor : s.images ≠ [] → s.HasCursor window frame.rows
  rows : Inside window frame.rows
  track : Inside window frame.track
  thumb : Inside window frame.thumb
  thumb_ne : s.showsBar window → frame.thumb ≠ []

/-- There is no row, or the window has seven columns and each row of the slice fits into the lines from its own to
the last one of the list. -/
def State.Roomy (s : State) (window : Window) : Prop :=
  s.images = [] ∨ (7 ≤ window.w ∧ ∀ (idx : Nat) (image : Image), (s.visibleSubset window)[idx]? = some image →
    4 + (image.text.length : Int) ≤ (window.maxVisibleItems - idx) * window.w)

section
variable {s : State} {window : Window} {engine : Engine} {t : Turn} {call : AddStr} {calls : List (Option AddStr)}
  {image : Image} {idx k : Nat}

/-! ## The slice -/

/-- A slice with bounds that are not negative. -/
theorem slice_eq {α : Type} {l : List α} {i n : Int} (first : 0 ≤ i) (size : 0 ≤ n) :
    slice l i (i + n) = (l.drop i.toNat).take n.toNat := by
  unfold slice sliceBound
  rw [if_neg (Int.not_lt.2 first), if_neg (by omega), List.drop_take]
  rcases Int.le_total i l.length with inside | behind
  · rw [Int.min_eq_left inside, List.take_eq_take_iff, List.length_drop]
    omega
  · rw [Int.min_eq_right behind, List.drop_eq_nil_of_le (by omega), List.drop_eq_nil_of_le (by omega)]
    rw [List.take_nil, List.take_nil]

/-- The rows on the screen. -/
theorem visibleSubset_eq (top : 0 ≤ s.scrollTop) (size : 0 ≤ window.maxVisibleItems) :
    s.visibleSubset window = (s.images.drop s.scrollTop.toNat).take window.maxVisibleItems.toNat :=
  slice_eq top size

/-! ## Calls in turn -/

/-- The calls are made to the end if each has a text and does not raise. -/
theorem performed_all (all : ∀ call ∈ calls, ∃ made, call = some made ∧ made.taken window = true) :
    (performed window calls).1.map some = calls ∧ (performed window calls).2 = true := by
  induction calls with
  | nil => exact ⟨rfl, rfl⟩
  | cons call rest ih =>
    obtain ⟨⟨made, rfl, taken⟩, later⟩ := List.forall_mem_cons.1 all
    rw [performed, if_pos taken, List.map_cons, (ih later).1]
    exact ⟨rfl, (ih later).2⟩

/-- Where every call is taken, all are performed. -/
theorem performed_map_some {calls : List AddStr} (taken : ∀ call ∈ calls, call.taken window = true) :
    performed window (calls.map some) = (calls, true) := by
  induction calls with
  | nil => rfl
  | cons call rest ih =>
    obtain ⟨here, later⟩ := List.forall_mem_cons.1 taken
    rw [List.map_cons, performed, if_pos here, ih later]

/-- What was called stands in the list. -/
theorem getElem?_performed (made : (performed window calls).1[k]? = some call) : calls[k]? = some (some call) := by
  induction calls generalizing k with
  | nil => cases made
  | cons first rest ih =>
    cases first with
    | none => cases made
    | some first =>
      rw [performed] at made
      cases k with
      | zero =>
        split_ifs at made <;> exact congrArg some made
      | succ k =>
        split_ifs at made
        · exact ih made
        · cases made

/-- The calls are made to the end already if what is made does not raise. -/
theorem performed_of_made (texts : none ∉ calls) (taken : ∀ call ∈ (performed window calls).1, call.taken window = true) :
    (performed window calls).1.map some = calls := by
  induction calls with
  | nil => rfl
  | cons first rest ih =>
    cases first with
    | none => exact absurd List.mem_cons_self texts
    | some first =>
      rw [List.mem_cons, not_or] at texts
      have here : first.taken window = true := by
        apply taken
        rw [performed]
        split_ifs <;> exact List.mem_cons_self
      rw [performed, if_pos here] at taken ⊢
      rw [List.map_cons, ih texts.2 fun call member => taken call (List.mem_cons_of_mem _ member)]

/-- A call that was performed was made. -/
theorem mem_performed (made : call ∈ (performed window calls).1) : some call ∈ calls := by
  obtain ⟨k, there⟩ := List.mem_iff_getElem?.1 made
  exact List.mem_of_getElem? (getElem?_performed there)

/-! ## Rows -/

/-- A row on the screen is one of the images. -/
theorem mem_visibleSubset (member : image ∈ s.visibleSubset window) : image ∈ s.images :=
  List.mem_of_mem_take (List.mem_of_mem_drop member)

/-- A row on the screen stands above the last lines. -/
theorem visible_lt (valid : s.Valid) (size : 0 < window.maxVisibleItems)
    (there : (s.visibleSubset window)[idx]? = some image) : (idx : Int) < window.maxVisibleItems := by
  obtain ⟨lt, -⟩ := List.getElem?_eq_some_iff.1 there
  rw [visibleSubset_eq valid.top_nonneg size.le, List.length_take] at lt
  omega

/-- The call for a row. -/
theorem getElem?_rowCalls : (s.rowCalls window)[idx]? = (s.visibleSubset window)[idx]?.map fun image => s.row window image idx := by
  unfold State.rowCalls
  rw [List.getElem?_map, List.getElem?_zipIdx]
  cases (s.visibleSubset window)[idx]? with
  | none => rfl
  | some image =>
    rw [Option.map_some, Option.map_some, Option.map_some, Nat.zero_add]

/-- A row is a call on its line, of the text with four characters in front, filled up inside the window. -/
theorem row_call (wide : 7 ≤ window.w) (columned : image.Columned) : ∃ text attr,
    s.row window image idx = some ⟨4 + idx, 0, text, attr⟩ ∧ '\n' ∉ text ∧
      ((text.length : Int) = 4 + image.text.length ∨ ((text.length : Int) = window.w - 3 ∧ 4 + image.text.length ≤ text.length)) := by
  have brackets : ∀ checked, (bracket checked).length = 3 ∧ '\n' ∉ bracket checked := by decide
  obtain ⟨three, plain⟩ := brackets image.checked
  unfold State.row
  by_cases here : s.scrollTop + idx = s.currentRow
  · rw [if_pos here, if_neg (by omega)]
    refine ⟨_, _, rfl, ?_, ?_⟩
    · simp [plain, ljust, columned.1]
    · simp only [List.length_append, List.length_cons, ljust, List.length_replicate, three]
      omega
  · rw [if_neg here]
    refine ⟨_, _, rfl, ?_, ?_⟩
    · simp [plain, columned.1]
    · simp only [List.length_append, List.length_cons, three]
      omega

/-- What a row writes stays on the lines of the list exactly when it is not too long. -/
theorem row_inside_iff (wide : 7 ≤ window.w) (below : (idx : Int) < window.maxVisibleItems) (columned : image.Columned)
    (row : s.row window image idx = some call) : (∀ cell ∈ call.cells window, 4 ≤ cell.1 ∧ cell.1 ≤ window.h - 3) ↔
      4 + (image.text.length : Int) ≤ (window.maxVisibleItems - idx) * window.w := by
  obtain ⟨text, attr, eq, plain, length⟩ := @row_call s window image idx wide columned
  rw [row] at eq
  cases eq
  unfold Window.maxVisibleItems at below ⊢
  obtain ⟨k, lines⟩ := Int.eq_ofNat_of_zero_le (show 0 ≤ window.h - 6 - idx - 1 by omega)
  have start : window.has (4 + (idx : Int), 0) = true := by simp [Screen.has]; omega
  have last : (4 + idx : Int) + k = window.h - 3 := by omega
  have fits := cells_le_iff plain le_rfl (show (0 : Int) < window.w by omega) k (show (4 + idx : Int) + k + 1 < window.h by omega)
  have room : (window.h - 6 - idx) * window.w = (k + 1) * window.w := by
    congr 1
    omega
  have one : window.w ≤ (k + 1) * window.w := by nlinarith [Int.natCast_nonneg k]
  unfold AddStr.cells
  rw [if_pos start, room]
  rw [last] at fits
  constructor
  · intro inside
    have short := fits.1 fun cell member => (inside cell member).2
    rcases length with same | ⟨same, shorter⟩ <;> omega
  · intro short cell member
    refine ⟨?_, fits.2 (by rcases length with same | ⟨same, shorter⟩ <;> omega) cell member⟩
    have downwards := le_of_mem_cells member
    dsimp only at downwards
    omega

/-- A row that fits its columns is taken. -/
theorem row_taken (wide : 7 ≤ window.w) (below : (idx : Int) < window.maxVisibleItems) (columned : image.Columned)
    (row : s.row window image idx = some call)
    (fits : 4 + (image.text.length : Int) ≤ (window.maxVisibleItems - idx) * window.w) : call.taken window = true := by
  obtain ⟨text, attr, eq, plain, length⟩ := @row_call s window image idx wide columned
  rw [row] at eq
  cases eq
  unfold Window.maxVisibleItems at below fits
  obtain ⟨k, lines⟩ := Int.eq_ofNat_of_zero_le (show 0 ≤ window.h - (4 + idx) - 1 by omega)
  have start : window.has (4 + (idx : Int), 0) = true := by simp [Screen.has]; omega
  have room : (k + 1 : Int) * window.w = (window.h - 6 - idx) * window.w + 2 * window.w := by
    have lines : (k + 1 : Int) = window.h - 6 - idx + 2 := by omega
    rw [lines]
    ring
  have one : window.w ≤ (window.h - 6 - idx) * window.w := by nlinarith
  unfold AddStr.taken
  rw [start, Bool.true_and]
  apply takes_of_lt plain le_rfl (show (0 : Int) < window.w by omega) k (show window.h = (4 + idx : Int) + k + 1 by omega)
  rw [room]
  rcases length with same | ⟨same, shorter⟩ <;> omega

/-- The header is drawn in a window that has room for a row. -/
theorem header_taken (wide : 7 ≤ window.w) (room : 70 ≤ (window.h - 6) * window.w) (tall : 7 ≤ window.h) :
    ∀ call ∈ header engine, call.taken window = true := by
  have lines : ∀ (y : Int) (k : Nat) text, 0 ≤ y → '\n' ∉ text → window.h = y + k + 1 →
      (text.length : Int) < (k + 1) * window.w → (window.has (y, 0) && window.takes (y, 0) text) = true := by
    intro y k text first plain last short
    have start : window.has (y, 0) = true := by simp [Screen.has]; omega
    rw [start, Bool.true_and]
    exact takes_of_lt plain le_rfl (by omega) k last (by omega)
  have texts : ∀ engine, ∀ call ∈ header engine, '\n' ∉ call.text ∧ call.text.length ≤ 73 ∧
      (call.y = 0 ∨ call.y = 1 ∨ call.y = 3) ∧ call.x = 0 := by
    intro engine
    cases engine <;> decide
  intro call member
  obtain ⟨plain, short, y, x⟩ := texts engine call member
  unfold AddStr.taken
  rw [x]
  obtain ⟨k, behind⟩ := Int.eq_ofNat_of_zero_le (show 0 ≤ window.h - call.y - 1 by omega)
  refine lines call.y k call.text (by omega) plain (by omega) ?_
  have more : 3 ≤ 6 - call.y := by omega
  have cells : (k + 1 : Int) * window.w = (window.h - 6) * window.w + (6 - call.y) * window.w := by
    have count : (k + 1 : Int) = (window.h - 6) + (6 - call.y) := by omega
    rw [count]
    ring
  rw [cells]
  nlinarith

/-! ## The bar -/

/-- A character of the bar is written into one cell. -/
theorem bar_cell {c : Char} {attr : Attr} {y x : Int} {cell : Cell} (one : c ≠ '\n')
    (member : cell ∈ (⟨y, x, [c], attr⟩ : AddStr).cells window) : cell = (y, x) := by
  unfold AddStr.cells at member
  split_ifs at member
  · rw [Screen.cells, if_neg one] at member
    rcases List.mem_append.1 member with here | later
    · exact List.mem_singleton.1 here
    · cases advanced : window.advance (y, x) c with
      | none =>
        rw [advanced] at later
        cases later
      | some next =>
        rw [advanced] at later
        cases later
  · cases member

/-- A character of the bar is taken. -/
theorem bar_taken {c : Char} {attr : Attr} {y : Int} (one : c ≠ '\n') (wide : 7 ≤ window.w) (first : 0 ≤ y)
    (inside : y < window.h) : (⟨y, min (window.w - 2) 79, [c], attr⟩ : AddStr).taken window = true := by
  have start : window.has (y, min (window.w - 2) 79) = true := by simp [Screen.has]; omega
  unfold AddStr.taken
  rw [start, Bool.true_and, takes_cons (advance_right one (show min (window.w - 2) 79 + 1 < window.w by omega))]
  rfl

/-- Where the track is drawn. -/
theorem mem_track (member : call ∈ s.track window) : ∃ y, call = ⟨y, min (window.w - 2) 79, ['│'], .pair 3⟩ ∧
    4 ≤ y ∧ y ≤ window.h - 3 := by
  unfold State.track at member
  split_ifs at member with bar
  · obtain ⟨i, lt, rfl⟩ := List.mem_map.1 member
    have lt := List.mem_range.1 lt
    unfold Window.maxVisibleItems at lt
    exact ⟨_, rfl, by omega, by omega⟩
  · cases member

/-- Where the thumb is drawn. -/
theorem mem_thumb (valid : s.Valid) (size : 0 < window.maxVisibleItems) (member : call ∈ s.thumb window) :
    ∃ y, call = ⟨y, min (window.w - 2) 79, ['█'], .boldPair 3⟩ ∧ 4 ≤ y ∧ y ≤ window.h - 3 := by
  unfold State.thumb at member
  split_ifs at member with bar
  · obtain ⟨i, lt, rfl⟩ := List.mem_map.1 member
    have lt := List.mem_range.1 lt
    obtain ⟨first, -, last⟩ := slider_mem size bar valid.top_nonneg
    unfold Window.maxVisibleItems at *
    exact ⟨_, rfl, by omega, by dsimp only at *; omega⟩
  · cases member

/-- A bar that is drawn has a cell in its active part. -/
theorem thumb_ne_nil (valid : s.Valid) (size : 0 < window.maxVisibleItems) (bar : s.showsBar window) :
    s.thumb window ≠ [] := by
  obtain ⟨-, height, -⟩ := slider_mem size bar valid.top_nonneg
  unfold State.thumb
  rw [if_pos bar]
  intro empty
  have none := List.map_eq_nil_iff.1 empty
  rw [List.range_eq_nil] at none
  omega

/-! ## Draws -/

/-- Scrolling keeps the state valid. -/
theorem adjusted_valid (valid : s.Valid) (window : Window) : (s.adjusted window).Valid :=
  ⟨valid.row_nonneg, valid.row_lt, follow_nonneg valid.row_nonneg valid.top_nonneg, valid.columned⟩

/-- The element under the cursor is in the slice. -/
theorem cursor_visible (valid : s.Valid) (low : s.scrollTop ≤ s.currentRow)
    (high : s.currentRow < s.scrollTop + window.maxVisibleItems) (nonempty : s.images ≠ []) :
    ∃ image, pyIndex s.images s.currentRow = some image ∧
      (s.visibleSubset window)[(s.currentRow - s.scrollTop).toNat]? = some image := by
  have first := valid.row_nonneg
  have top := valid.top_nonneg
  have last := valid.row_lt
  have positive := List.length_pos_iff.2 nonempty
  obtain ⟨image, found⟩ := pyIndex_of_lt first (show s.currentRow < s.images.length by omega)
  refine ⟨image, found, ?_⟩
  have element : s.images[s.currentRow.toNat]? = some image := by
    unfold pyIndex at found
    rw [if_neg (Int.not_lt.2 first)] at found
    dsimp only at found
    rwa [if_neg (Int.not_lt.2 first)] at found
  rw [visibleSubset_eq top (by omega), List.getElem?_take_of_lt (by omega), List.getElem?_drop, ← element]
  congr 1
  omega

/-- Each row is a call that does not raise. -/
theorem rows_taken (valid : s.Valid) (size : 0 < window.maxVisibleItems) (wide : 7 ≤ window.w)
    (short : ∀ (idx : Nat) (image : Image), (s.visibleSubset window)[idx]? = some image →
      4 + (image.text.length : Int) ≤ (window.maxVisibleItems - idx) * window.w) :
    ∀ call ∈ s.rowCalls window, ∃ made, call = some made ∧ made.taken window = true := by
  intro call member
  obtain ⟨idx, there⟩ := List.mem_iff_getElem?.1 member
  rw [getElem?_rowCalls] at there
  obtain ⟨image, place, rfl⟩ := Option.map_eq_some_iff.1 there
  have columned := valid.columned image (mem_visibleSubset (List.mem_of_getElem? place))
  obtain ⟨text, attr, row, -⟩ := @row_call s window image idx wide columned
  exact ⟨_, row, row_taken wide (visible_lt valid size place) columned row (short idx image place)⟩

/-- What of the rows is made is a row of the slice. -/
theorem mem_rows (made : call ∈ (performed window (s.rowCalls window)).1) : ∃ (idx : Nat) (image : Image),
    (s.visibleSubset window)[idx]? = some image ∧ s.row window image idx = some call := by
  obtain ⟨idx, there⟩ := List.mem_iff_getElem?.1 (mem_performed made)
  rw [getElem?_rowCalls] at there
  obtain ⟨image, place, row⟩ := Option.map_eq_some_iff.1 there
  exact ⟨idx, image, place, row⟩

/-- The track is taken. -/
theorem track_taken (wide : 7 ≤ window.w) : ∀ call ∈ s.track window, call.taken window = true := by
  intro call member
  obtain ⟨y, rfl, first, last⟩ := mem_track member
  exact bar_taken (by decide) wide (by omega) (by omega)

/-- The thumb is taken. -/
theorem thumb_taken (valid : s.Valid) (size : 0 < window.maxVisibleItems) (wide : 7 ≤ window.w) :
    ∀ call ∈ s.thumb window, call.taken window = true := by
  intro call member
  obtain ⟨y, rfl, first, last⟩ := mem_thumb valid size member
  exact bar_taken (by decide) wide (by omega) (by omega)

/-- In a roomy window nothing raises. -/
theorem draw_roomy (valid : s.Valid) (low : s.scrollTop ≤ s.currentRow)
    (high : s.currentRow < s.scrollTop + window.maxVisibleItems) (nonempty : s.images ≠ []) (wide : 7 ≤ window.w)
    (short : ∀ (idx : Nat) (image : Image), (s.visibleSubset window)[idx]? = some image →
      4 + (image.text.length : Int) ≤ (window.maxVisibleItems - idx) * window.w) :
    (s.draw engine window).rows.map some = s.rowCalls window ∧ (s.draw engine window).track = s.track window ∧
      (s.draw engine window).thumb = s.thumb window ∧ (s.draw engine window).raised = false := by
  have size : 0 < window.maxVisibleItems := by omega
  have header : performed window ((s.headerCalls engine).map some) = (header engine, true) := by
    obtain ⟨image, -, place⟩ := cursor_visible valid low high nonempty
    have columns := (valid.columned image (mem_visibleSubset (List.mem_of_getElem? place))).2
    have fits := short _ image place
    have lines : (window.maxVisibleItems - ((s.currentRow - s.scrollTop).toNat : Int)) * window.w ≤
        window.maxVisibleItems * window.w := by
      apply Int.mul_le_mul_of_nonneg_right <;> omega
    unfold State.headerCalls
    rw [if_neg nonempty, List.append_nil]
    unfold Window.maxVisibleItems at *
    exact performed_map_some (header_taken wide (by omega) (by omega))
  obtain ⟨rows, done⟩ := performed_all (rows_taken valid size wide short)
  have track := performed_map_some (track_taken (s := s) wide)
  have thumb := performed_map_some (thumb_taken valid size wide)
  unfold State.draw performedBehind
  simp only [header, if_true, done, track, thumb]
  exact ⟨rows, trivial, trivial, rfl⟩

/-- What is made of the bar stays on the lines of the list. -/
theorem bar_inside {c : Char} {attr : Attr} {calls : List AddStr} {before : Bool} (one : c ≠ '\n')
    (bar : ∀ call ∈ calls, ∃ y, call = ⟨y, min (window.w - 2) 79, [c], attr⟩ ∧ 4 ≤ y ∧ y ≤ window.h - 3) :
    Inside window (performedBehind window before (calls.map some)).1 := by
  intro call made cell member
  cases before with
  | false => cases made
  | true =>
    obtain ⟨_, called, same⟩ := List.mem_map.1 (mem_performed made)
    cases same
    obtain ⟨y, rfl, first, last⟩ := bar call called
    rw [bar_cell one member]
    exact ⟨first, last⟩

/-- The track stays inside, whatever was drawn in front of it. -/
theorem track_inside {before : Bool} : Inside window (performedBehind window before ((s.track window).map some)).1 :=
  bar_inside (by decide) fun _ => mem_track

/-- The thumb stays inside, whatever was drawn in front of it. -/
theorem thumb_inside (valid : s.Valid) (size : 0 < window.maxVisibleItems) {before : Bool} :
    Inside window (performedBehind window before ((s.thumb window).map some)).1 :=
  bar_inside (by decide) fun _ => mem_thumb valid size

/-- A list without images has no rows and no bar. -/
theorem fits_of_empty (low : s.scrollTop ≤ s.currentRow) (high : s.currentRow < s.scrollTop + window.maxVisibleItems)
    (valid : s.Valid) (empty : s.images = []) : s.Fits window (s.draw engine window) := by
  have size : 0 < window.maxVisibleItems := by omega
  have noBar : ¬ s.showsBar window := by
    unfold State.showsBar
    rw [empty, List.length_nil]
    omega
  have noRows : s.rowCalls window = [] := by
    unfold State.rowCalls State.visibleSubset slice
    rw [empty, List.take_nil, List.drop_nil, List.zipIdx_nil, List.map_nil]
  refine ⟨low, high, fun nonempty => absurd empty nonempty, ?_, track_inside, thumb_inside valid size,
    fun bar => absurd bar noBar⟩
  intro call made
  unfold State.draw performedBehind at made
  rw [noRows] at made
  dsimp only [performed] at made
  split_ifs at made <;> cases made

/-- The rows are begun where one of them is made. -/
theorem rows_eq (there : (s.draw engine window).rows[k]? = some call) :
    (s.draw engine window).rows = (performed window (s.rowCalls window)).1 := by
  unfold State.draw performedBehind at there ⊢
  dsimp only at there ⊢
  split_ifs at there ⊢
  · rfl
  · cases there

/-- The row of the cursor has no text in a window of less than seven columns. -/
theorem wide_of_cursor (low : s.scrollTop ≤ s.currentRow)
    (there : (s.rowCalls window)[(s.currentRow - s.scrollTop).toNat]? = some (some call)) : 7 ≤ window.w := by
  rw [getElem?_rowCalls] at there
  obtain ⟨_, -, row⟩ := Option.map_eq_some_iff.1 there
  rw [State.row, if_pos (by omega)] at row
  split_ifs at row
  omega

/-- Rows that stay on the lines of the list are made to the last one. -/
theorem rows_all (valid : s.Valid) (size : 0 < window.maxVisibleItems) (wide : 7 ≤ window.w)
    (inside : Inside window (performed window (s.rowCalls window)).1) :
    (performed window (s.rowCalls window)).1.map some = s.rowCalls window := by
  apply performed_of_made
  · intro without
    obtain ⟨idx, called⟩ := List.mem_iff_getElem?.1 without
    rw [getElem?_rowCalls] at called
    obtain ⟨image, place, row⟩ := Option.map_eq_some_iff.1 called
    obtain ⟨text, attr, some, -⟩ := @row_call s window image idx wide
      (valid.columned image (mem_visibleSubset (List.mem_of_getElem? place)))
    cases row.symm.trans some
  · intro call made
    obtain ⟨idx, image, place, row⟩ := mem_rows made
    have columned := valid.columned image (mem_visibleSubset (List.mem_of_getElem? place))
    have below := visible_lt valid size place
    exact row_taken wide below columned row ((row_inside_iff wide below columned row).1 (inside call made))

/-- What fits needs its room. -/
theorem roomy_of_fits (valid : s.Valid) (fits : s.Fits window (s.draw engine window)) : s.Roomy window := by
  by_cases empty : s.images = []
  · exact .inl empty
  have size : 0 < window.maxVisibleItems := by
    have low := fits.top_le
    have high := fits.row_lt
    omega
  obtain ⟨image, -, there⟩ := fits.cursor empty
  have rows := rows_eq there
  rw [rows] at there
  have wide : 7 ≤ window.w := wide_of_cursor fits.top_le (getElem?_performed there)
  have inside : Inside window (performed window (s.rowCalls window)).1 := rows ▸ fits.rows
  refine .inr ⟨wide, fun idx image place => ?_⟩
  have columned := valid.columned image (mem_visibleSubset (List.mem_of_getElem? place))
  obtain ⟨text, attr, row, -⟩ := @row_call s window image idx wide columned
  have called : s.row window image idx ∈ s.rowCalls window := by
    apply List.mem_of_getElem? (i := idx)
    rw [getElem?_rowCalls, place, Option.map_some]
  rw [← rows_all valid size wide inside, row] at called
  obtain ⟨_, made, same⟩ := List.mem_map.1 called
  cases same
  exact (row_inside_iff wide (visible_lt valid size place) columned row).1 (inside _ made)

/-- With that room it fits. -/
theorem fits_of_roomy (valid : s.Valid) (low : s.scrollTop ≤ s.currentRow)
    (high : s.currentRow < s.scrollTop + window.maxVisibleItems) (roomy : s.Roomy window) :
    s.Fits window (s.draw engine window) := by
  by_cases empty : s.images = []
  · exact fits_of_empty low high valid empty
  have size : 0 < window.maxVisibleItems := by omega
  obtain ⟨wide, short⟩ := roomy.resolve_left empty
  obtain ⟨rows, -, thumb, -⟩ := @draw_roomy s window engine valid low high empty wide short
  constructor
  · exact low
  · exact high
  · intro _
    obtain ⟨image, found, place⟩ := cursor_visible valid low high empty
    refine ⟨image, found, ?_⟩
    have here : s.scrollTop + ((s.currentRow - s.scrollTop).toNat : Int) = s.currentRow := by omega
    have called : (s.rowCalls window)[(s.currentRow - s.scrollTop).toNat]? =
        some (some ⟨4 + (s.currentRow - s.scrollTop), 0,
          bracket image.checked ++ ' ' :: ljust image.text (window.w - 7).toNat, .pair 1⟩) := by
      rw [getElem?_rowCalls, place, Option.map_some, State.row, if_pos here, if_neg (Int.not_lt.2 wide),
        Int.toNat_of_nonneg (Int.sub_nonneg_of_le low)]
    rw [← rows, List.getElem?_map] at called
    obtain ⟨_, made, same⟩ := Option.map_eq_some_iff.1 called
    cases same
    exact made
  · intro call made
    have called : some call ∈ s.rowCalls window := rows ▸ List.mem_map_of_mem made
    obtain ⟨idx, there⟩ := List.mem_iff_getElem?.1 called
    rw [getElem?_rowCalls] at there
    obtain ⟨image, place, row⟩ := Option.map_eq_some_iff.1 there
    have columned := valid.columned image (mem_visibleSubset (List.mem_of_getElem? place))
    exact (row_inside_iff wide (visible_lt valid size place) columned row).2 (short idx image place)
  · exact track_inside
  · exact thumb_inside valid size
  · intro bar
    rw [thumb]
    exact thumb_ne_nil valid size bar

/-- A draw stays on the lines of the list exactly when there is room. -/
theorem fits_iff (valid : s.Valid) (low : s.scrollTop ≤ s.currentRow)
    (high : s.currentRow < s.scrollTop + window.maxVisibleItems) :
    s.Fits window (s.draw engine window) ↔ s.Roomy window :=
  ⟨roomy_of_fits valid, fits_of_roomy valid low high⟩

/-! ## The engine's list -/

/-- The parts of a line hold no other characters. -/
theorem mem_splitBars {line part : Str} (member : part ∈ splitBars line) : ∀ c ∈ part, c ∈ line := by
  induction line using splitBars.induct generalizing part with
  | case1 rest ih =>
    rw [splitBars] at member
    rcases List.mem_cons.1 member with rfl | later
    · exact nofun
    · exact fun c inside => by simp [ih later c inside]
  | case2 c rest other empty ih =>
    rw [splitBars, empty, List.mem_singleton] at member
    · rw [member]
      simp
    · exact other
  | case3 c rest other first parts split ih =>
    rw [splitBars, split] at member
    · rw [split] at ih
      rcases List.mem_cons.1 member with rfl | later
      · intro d inside
        rcases List.mem_cons.1 inside with rfl | further
        · exact List.mem_cons_self
        · exact List.mem_cons_of_mem _ (ih List.mem_cons_self d further)
      · exact fun d inside => List.mem_cons_of_mem _ (ih (List.mem_cons_of_mem _ later) d inside)
    · exact other
  | case4 =>
    rw [splitBars, List.mem_singleton] at member
    rw [member]
    exact nofun

/-- The columns of a line stand in it. -/
theorem columned_imageOf {line : Str} (one : '\n' ∉ line) : (imageOf line).Columned := by
  have column : ∀ (i : Nat) (missing : Str), '\n' ∉ missing → '\n' ∉ (splitBars line).getD i missing := by
    intro i missing plain inside
    rw [List.getD_eq_getElem?_getD] at inside
    cases found : (splitBars line)[i]? with
    | none =>
      rw [found] at inside
      exact plain inside
    | some part =>
      rw [found] at inside
      exact one (mem_splitBars (List.mem_of_getElem? found) _ inside)
  have repoTag : '\n' ∉ (splitBars line).headD [] := by
    have first := column 0 [] List.not_mem_nil
    rwa [List.getD_eq_getElem?_getD, ← List.head?_eq_getElem?, ← List.headD_eq_head?_getD] at first
  have imgId := column 1 _ repoTag
  have size := column 2 [] List.not_mem_nil
  constructor
  · simp only [imageOf, ljust, List.mem_append, not_or]
    refine ⟨⟨⟨⟨⟨repoTag, ?_⟩, by decide⟩, fun inside => imgId (List.mem_of_mem_take inside), ?_⟩, by decide⟩, size⟩
    · exact fun inside => absurd (List.eq_of_mem_replicate inside) (by decide)
    · exact fun inside => absurd (List.eq_of_mem_replicate inside) (by decide)
  · simp only [imageOf, ljust, List.length_append, List.length_replicate]
    have bars : " | ".toList.length = 3 := rfl
    omega

/-! ## Turns -/

/-- A listing that was just read is valid. -/
theorem loaded_valid (stdout : Str) : (State.loaded stdout).Valid := by
  refine ⟨le_rfl, ?_, le_rfl, ?_⟩
  · exact lt_max_of_lt_left Int.one_pos
  · intro image member
    obtain ⟨line, inside, rfl⟩ := List.mem_map.1 member
    exact columned_imageOf (not_mem_of_mem_splitOn (List.mem_of_mem_filter inside))

/-- The space bar keeps the state valid. -/
theorem toggle_valid {next : State} (valid : s.Valid) (toggled : s.toggle = some next) : next.Valid := by
  unfold State.toggle at toggled
  split at toggled
  · cases toggled
    exact valid
  · obtain ⟨_, -, rfl⟩ := Option.map_eq_some_iff.1 toggled
    refine ⟨valid.row_nonneg, ?_, valid.top_nonneg, ?_⟩
    · dsimp only
      rw [List.length_modify]
      exact valid.row_lt
    · intro image member
      obtain ⟨k, there⟩ := List.mem_iff_getElem?.1 member
      dsimp only at there
      rw [List.getElem?_modify] at there
      obtain ⟨before, place, same⟩ := Option.map_eq_some_iff.1 there
      have columned := valid.columned before (List.mem_of_getElem? place)
      rw [← same]
      split_ifs <;> exact columned

/-- A listing that was read again is valid. -/
theorem removal_valid {next : State} {selected : List Image} (taken : (removal engine t selected).next = some next) :
    next.Valid := by
  unfold removal at taken
  dsimp only at taken
  split_ifs at taken
  obtain ⟨stdout, -, rfl⟩ := Option.map_eq_some_iff.1 taken
  exact loaded_valid stdout

/-- Every key keeps the state valid. -/
theorem act_valid {next : State} (valid : s.Valid) (taken : (s.act engine t).next = some next) : next.Valid := by
  have first := valid.row_nonneg
  have last := valid.row_lt
  unfold State.act at taken
  dsimp only at taken
  split_ifs at taken with up down space enter none asked yes quit
  · cases taken
    refine ⟨?_, ?_, valid.top_nonneg, valid.columned⟩ <;> dsimp only <;> omega
  · cases taken
    refine ⟨?_, ?_, valid.top_nonneg, valid.columned⟩ <;> dsimp only <;> omega
  · exact toggle_valid valid taken
  · cases taken
    exact valid
  · exact removal_valid taken
  · cases taken
    exact valid
  · cases taken
    exact valid

/-- A turn keeps the cursor on the list, whatever its window is. -/
theorem step_valid {next : State} (valid : s.Valid) (taken : step engine s t = some next) : next.Valid := by
  unfold step State.turn at taken
  dsimp only at taken
  split_ifs at taken
  exact act_valid (adjusted_valid valid t.window) taken

/-- A turn draws before it waits for a key. -/
theorem turn_frame : (s.turn engine t).frame = (s.adjusted t.window).draw engine t.window := by
  unfold State.turn
  dsimp only
  split_ifs <;> rfl

/-- In every state that a run reaches the cursor is on the list, and the draw of the next turn in a window of
at least seven lines stays on the lines of the list exactly when no row of the slice is too long for the lines
left to it. -/
theorem geometry_iff (engine : Engine) (stdout : Str) (turns : List Turn)
    (ran : run (step engine) (State.loaded stdout) turns = some s) :
    (0 ≤ s.currentRow ∧ s.currentRow < max 1 (s.images.length : Int)) ∧
      ∀ t : Turn, 7 ≤ t.window.h →
        ((s.adjusted t.window).Fits t.window (s.turn engine t).frame ↔ (s.adjusted t.window).Roomy t.window) := by
  have valid : s.Valid := by
    apply run_invariant State.Valid step_valid (loaded_valid stdout) ran
  refine ⟨⟨valid.row_nonneg, valid.row_lt⟩, ?_⟩
  intro t tall
  have size : 0 < t.window.maxVisibleItems := by
    unfold Window.maxVisibleItems
    omega
  rw [turn_frame]
  exact fits_iff (adjusted_valid valid t.window) (follow_le size) (lt_follow_add size)

/-- Two images, the cursor moved to the second, and one line left for the list. -/
theorem geometry_iff_one_line :
    ((⟨[imageOf "a:1 | 12".toList, imageOf "b:2 | 34".toList], 1, 0⟩ : State).adjusted ⟨7, 80⟩).Fits ⟨7, 80⟩
    (((⟨[imageOf "a:1 | 12".toList, imageOf "b:2 | 34".toList], 1, 0⟩ : State).turn .podman
      ⟨⟨7, 80⟩, keyUp, 0, fun _ => ⟨0, []⟩, none⟩).frame) := by
  have ran : run (step .podman) (State.loaded "a:1 | 12\nb:2 | 34\n".toList)
      [⟨⟨24, 80⟩, keyDown, 0, fun _ => ⟨0, []⟩, none⟩] =
      some ⟨[imageOf "a:1 | 12".toList, imageOf "b:2 | 34".toList], 1, 0⟩ := by decide
  have exactly := (geometry_iff .podman "a:1 | 12\nb:2 | 34\n".toList _ ran).2
    ⟨⟨7, 80⟩, keyUp, 0, fun _ => ⟨0, []⟩, none⟩ le_rfl
  refine exactly.2 (.inr ⟨by decide, fun idx image place => ?_⟩)
  have one : (((⟨[imageOf "a:1 | 12".toList, imageOf "b:2 | 34".toList], 1, 0⟩ : State).adjusted ⟨7, 80⟩).visibleSubset
      ⟨7, 80⟩) = [imageOf "b:2 | 34".toList] := by decide
  rw [one] at place
  cases idx with
  | zero =>
    cases place
    decide
  | succ idx => cases place

/-- One image, in a window of 60 columns: its row of 70 characters goes on in the line behind the list. -/
theorem row_wraps : run (step .podman) (State.loaded "a:1 | 12\n".toList) [] = some ⟨[imageOf "a:1 | 12".toList], 0, 0⟩ ∧
    ¬ ((⟨[imageOf "a:1 | 12".toList], 0, 0⟩ : State).adjusted ⟨7, 60⟩).Fits ⟨7, 60⟩
      (((⟨[imageOf "a:1 | 12".toList], 0, 0⟩ : State).turn .podman ⟨⟨7, 60⟩, keyUp, 0, fun _ => ⟨0, []⟩, none⟩).frame) := by
  refine ⟨by decide, fun fits => ?_⟩
  have behind := fits.rows
    ⟨4, 0, "[ ] ".toList ++ ljust (imageOf "a:1 | 12".toList).text 53, .pair 1⟩ (by decide) (5, 0) (by decide)
  exact absurd behind.2 (by decide)

end

end GtpLibrary.ImageCleaner

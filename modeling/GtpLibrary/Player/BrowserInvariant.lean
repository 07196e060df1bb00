import Mathlib.Data.List.TakeWhile
import Mathlib.Tactic.Common
import GtpLibrary.Lib.Checks
import GtpLibrary.Lib.Viewport
import GtpLibrary.Player.TrackBrowser

/-!
# The cursor stays on a track, and the row of the cursor on the screen

`PlayerUI.Valid` holds at the start and is kept by every turn, and in a valid state no
index is out of range. A draw moves the first row so that the cursor is shown, which is
`Frame.Shows`; it changes nothing else.
-/

namespace GtpLibrary.Player

open Lib

/-- The cursor and the marks are on the list. -/
structure PlayerUI.Valid (ui : PlayerUI) : Prop where
  cursor_nonneg : 0 ≤ ui.cursor
  cursor_lt : ui.cursor < max 1 (ui.files.length : Int)
  offset_nonneg : 0 ≤ ui.offset
  marked : ∀ i ∈ ui.marked, 0 ≤ i ∧ i < ui.files.length

/-- The cursor row is between header and footer, and the state is valid. -/
structure Frame.Shows (frame : Frame) : Prop where
  valid : frame.ui.Valid
  offset_le : frame.ui.offset ≤ frame.ui.cursor
  lt_end : frame.ui.cursor < frame.ui.offset + frame.body

/-- Only the first row on the screen may differ. -/
def PlayerUI.SameList (ui other : PlayerUI) : Prop :=
  ui.files = other.files ∧ ui.marked = other.marked ∧ ui.cursor = other.cursor

section
variable {ui : PlayerUI}

theorem Size.body_pos (size : Size) : 0 < size.body := by
  unfold Size.body
  omega

theorem PlayerUI.Valid.initial (files : List Str) : (PlayerUI.initial files).Valid where
  cursor_nonneg := le_rfl
  cursor_lt := by simp [PlayerUI.initial]
  offset_nonneg := le_rfl
  marked i member := by cases member

/-- The rows follow the cursor. -/
theorem ensureVisible_eq (body : Nat) :
    ui.ensureVisible body = { ui with offset := follow ui.offset ui.cursor body } := by
  unfold PlayerUI.ensureVisible follow
  split
  · rfl
  · split <;> rfl

theorem ensureVisible_sameList (body : Nat) : (ui.ensureVisible body).SameList ui := by
  rw [ensureVisible_eq]
  exact ⟨rfl, rfl, rfl⟩

/-- A state with the same list is valid where its first row is not negative. -/
theorem PlayerUI.Valid.congr {other : PlayerUI} (valid : ui.Valid) (same : other.SameList ui)
    (nonneg : 0 ≤ other.offset) : other.Valid := by
  obtain ⟨files, marked, cursor⟩ := same
  refine ⟨cursor ▸ valid.cursor_nonneg, ?_, nonneg, ?_⟩
  · rw [files, cursor]
    exact valid.cursor_lt
  · rw [files, marked]
    exact valid.marked

theorem PlayerUI.Valid.ensureVisible (valid : ui.Valid) (size : Size) :
    (ui.ensureVisible size.body).Valid ∧
      (ui.ensureVisible size.body).offset ≤ (ui.ensureVisible size.body).cursor ∧
      (ui.ensureVisible size.body).cursor < (ui.ensureVisible size.body).offset + size.body := by
  have positive : (0 : Int) < size.body := Int.natCast_pos.2 size.body_pos
  have same : (ui.ensureVisible size.body).SameList ui := ensureVisible_sameList size.body
  rw [ensureVisible_eq] at same ⊢
  refine ⟨valid.congr same ?_, follow_le positive, lt_follow_add positive⟩
  exact follow_nonneg valid.cursor_nonneg valid.offset_nonneg

theorem pyIndex_of_lt {α : Type} {l : List α} {i : Int} (nonneg : 0 ≤ i) (inside : i < l.length) :
    ∃ a, pyIndex l i = some a := by
  have bound : i.toNat < l.length := by omega
  refine ⟨l[i.toNat], ?_⟩
  simp only [pyIndex]
  rw [if_neg (by omega), if_neg (by omega), List.getElem?_eq_getElem bound]

/-- A loop without an `IndexError`. -/
theorem exists_mapM {α β : Type} {f : α → Option β} {l : List α} (all : ∀ a ∈ l, ∃ b, f a = some b) :
    ∃ bs, l.mapM f = some bs ∧ ∀ a ∈ l, ∃ b ∈ bs, f a = some b := by
  have both : ∀ a ∈ l, ∃ b, f a = some b ∧ f a = some b := by
    intro a member
    obtain ⟨b, eq⟩ := all a member
    exact ⟨b, eq, eq⟩
  obtain ⟨bs, each, -⟩ := exists_results_iff.2 both
  exact ⟨bs, mapM_eq_some_iff.2 each, fun a member => exists_of_mem each member⟩

theorem mem_takeWhile_range {p : Nat → Bool} {n k : Nat} (inside : k < n) (all : ∀ j ≤ k, p j = true) :
    k ∈ (List.range n).takeWhile p := by
  obtain ⟨rest, rfl⟩ := Nat.exists_eq_add_of_lt inside
  have front : ∀ j ∈ List.range (k + 1), p j = true := by
    intro j member
    exact all j (Nat.lt_succ_iff.1 (List.mem_range.1 member))
  rw [show k + rest + 1 = k + 1 + rest by omega, List.range_add, List.takeWhile_append_of_pos front]
  exact List.mem_append_left _ (List.mem_range.2 (Nat.lt_succ_self k))

/-- A draw meets no `IndexError`, shows the cursor row and highlights it. -/
theorem PlayerUI.Valid.draw (valid : ui.Valid) (size : Size) :
    ∃ frame, ui.draw size = some frame ∧ frame.Shows ∧ frame.ui.SameList ui ∧
      (ui.files ≠ [] → ∃ row ∈ frame.rows, row.reverse = true) := by
  obtain ⟨valid', low, high⟩ := valid.ensureVisible size
  have rows : ∀ row ∈ (List.range size.body).takeWhile
      fun row : Nat => (ui.ensureVisible size.body).offset + row < (ui.ensureVisible size.body).files.length,
      ∃ r, (ui.ensureVisible size.body).row size.w row = some r := by
    intro row member
    have inside := List.mem_takeWhile_imp member
    rw [decide_eq_true_eq] at inside
    have first := valid'.offset_nonneg
    obtain ⟨name, found⟩ := pyIndex_of_lt (i := (ui.ensureVisible size.body).offset + row) (by omega) inside
    exact ⟨_, Option.map_eq_some_iff.2 ⟨name, found, rfl⟩⟩
  obtain ⟨drawn, eq, each⟩ := exists_mapM rows
  refine ⟨⟨ui.ensureVisible size.body, size.body, drawn⟩, ?_, ⟨valid', low, high⟩, ensureVisible_sameList _, ?_⟩
  · simp only [PlayerUI.draw, eq, Option.map_some]
  · intro some
    have positive := List.length_pos_iff.2 some
    have bound := valid'.cursor_lt
    rw [← (show (ui.ensureVisible size.body).files = ui.files from (ensureVisible_sameList _).1)] at positive
    obtain ⟨k, at_k⟩ := Int.eq_ofNat_of_zero_le (Int.sub_nonneg_of_le low)
    have focus : k ∈ (List.range size.body).takeWhile
        fun row : Nat => (ui.ensureVisible size.body).offset + row < (ui.ensureVisible size.body).files.length := by
      apply mem_takeWhile_range (by omega)
      intro j le
      rw [decide_eq_true_eq]
      omega
    obtain ⟨row, there, found⟩ := each k focus
    refine ⟨row, there, ?_⟩
    obtain ⟨name, -, rfl⟩ := Option.map_eq_some_iff.1 found
    rw [decide_eq_true_eq]
    omega

theorem PlayerUI.SameList.trans {first second third : PlayerUI} (left : first.SameList second)
    (right : second.SameList third) : first.SameList third :=
  ⟨left.1.trans right.1, left.2.1.trans right.2.1, left.2.2.trans right.2.2⟩

theorem PlayerUI.Valid.drawAll (valid : ui.Valid) (sizes : List Size) :
    ∃ final frames, ui.drawAll sizes = some (final, frames) ∧ final.Valid ∧ final.SameList ui ∧
      ∀ frame ∈ frames, frame.Shows := by
  induction sizes generalizing ui with
  | nil => exact ⟨ui, [], rfl, valid, ⟨rfl, rfl, rfl⟩, nofun⟩
  | cons size sizes ih =>
    obtain ⟨frame, drawn, shows, same, -⟩ := valid.draw size
    obtain ⟨final, frames, eq, valid', same', all⟩ := ih shows.valid
    refine ⟨final, frame :: frames, by simp [PlayerUI.drawAll, drawn, eq], valid', same'.trans same, ?_⟩
    exact List.forall_mem_cons.2 ⟨shows, all⟩

/-- What a turn must leave behind: a valid state, and frames that show the cursor. -/
structure Turned.Good (turned : Turned) : Prop where
  valid : turned.ui.Valid
  shows : ∀ frame ∈ turned.frames, frame.Shows

theorem PlayerUI.Valid.playNames (valid : ui.Valid) (names : List Str) (playing : List Size) :
    ∃ turned, ui.playNames names playing = some turned ∧ turned.Good := by
  unfold PlayerUI.playNames
  split
  · exact ⟨_, rfl, valid, nofun⟩
  · obtain ⟨final, frames, eq, valid', -, all⟩ := valid.drawAll playing
    exact ⟨_, by rw [eq]; rfl, valid', all⟩

theorem PlayerUI.Valid.setCursor {cursor : Int} (valid : ui.Valid) (low : 0 ≤ cursor)
    (high : cursor < max 1 (ui.files.length : Int)) : (ui.setCursor cursor).Valid :=
  ⟨low, high, valid.offset_nonneg, valid.marked⟩

theorem PlayerUI.Valid.setCursorOfSome {cursor : Int} (valid : ui.Valid)
    (inside : 0 < ui.files.length → 0 ≤ cursor ∧ cursor < max 1 (ui.files.length : Int)) :
    (ui.setCursorOfSome cursor).Valid := by
  unfold PlayerUI.setCursorOfSome
  split
  · rename_i some
    obtain ⟨low, high⟩ := inside (List.length_pos_iff.2 some)
    exact valid.setCursor low high
  · exact valid

theorem PlayerUI.Valid.toggleMark (valid : ui.Valid) : ui.toggleMark.Valid := by
  have low := valid.cursor_nonneg
  have high := valid.cursor_lt
  unfold PlayerUI.toggleMark
  split
  · rename_i some
    have positive := List.length_pos_iff.2 some
    refine ⟨?_, ?_, valid.offset_nonneg, ?_⟩
    · dsimp only
      omega
    · dsimp only
      omega
    · intro i member
      dsimp only at member ⊢
      split at member
      · exact valid.marked i (Finset.mem_of_mem_erase member)
      · rcases Finset.mem_insert.1 member with rfl | member
        · omega
        · exact valid.marked i member
  · exact valid

theorem PlayerUI.Valid.reloaded (valid : ui.Valid) (reload : Reload) : (ui.reloaded reload).Valid := by
  have low := valid.cursor_nonneg
  cases reload with
  | names files =>
    refine ⟨?_, ?_, le_rfl, nofun⟩
    · show 0 ≤ min ui.cursor (max 0 ((files.length : Int) - 1))
      omega
    · show min ui.cursor (max 0 ((files.length : Int) - 1)) < max 1 (files.length : Int)
      omega
  | systemExit | osError => exact valid

/-- Every key is handled without an `IndexError`. -/
theorem PlayerUI.Valid.handle (valid : ui.Valid) (t : Turn) : ∃ turned, ui.handle t = some turned ∧ turned.Good := by
  have low := valid.cursor_nonneg
  have high := valid.cursor_lt
  have body := t.layout.body_pos
  unfold PlayerUI.handle
  cases keyOf t.ch with
  | quit | other => exact ⟨_, rfl, valid, nofun⟩
  | up => exact ⟨_, rfl, valid.setCursorOfSome (fun some => by omega), nofun⟩
  | down => exact ⟨_, rfl, valid.setCursorOfSome (fun some => by omega), nofun⟩
  | pageUp => exact ⟨_, rfl, valid.setCursor (by omega) (by omega), nofun⟩
  | pageDown => exact ⟨_, rfl, valid.setCursorOfSome (fun some => by omega), nofun⟩
  | home => exact ⟨_, rfl, valid.setCursor le_rfl (by omega), nofun⟩
  | last => exact ⟨_, rfl, valid.setCursorOfSome (fun some => by omega), nofun⟩
  | space => exact ⟨_, rfl, valid.toggleMark, nofun⟩
  | play =>
    dsimp only
    split
    · rename_i some
      have positive := List.length_pos_iff.2 some
      obtain ⟨name, found⟩ := pyIndex_of_lt (l := ui.files) low (by omega)
      rw [found]
      exact valid.playNames [name] t.playing
    · exact ⟨_, rfl, valid, nofun⟩
  | playMarked =>
    dsimp only
    split
    · have all : ∀ i ∈ ui.marked.sort, ∃ name, pyIndex ui.files i = some name := by
        intro i member
        obtain ⟨nonneg, inside⟩ := valid.marked i ((Finset.mem_sort _).1 member)
        exact pyIndex_of_lt nonneg inside
      obtain ⟨names, eq, -⟩ := exists_mapM all
      rw [eq]
      exact valid.playNames names t.playing
    · exact valid.playNames ui.files t.playing
  | refresh =>
    obtain ⟨frame, drawn, shows, -⟩ := valid.draw t.refreshing
    refine ⟨_, by dsimp only; rw [drawn]; rfl, shows.valid.reloaded t.reload, ?_⟩
    exact List.forall_mem_singleton.2 shows

/-- Where `reload_fn` fails, a refresh leaves the list as it was. -/
theorem PlayerUI.Valid.handle_refresh {t : Turn} {turned : Turned} (valid : ui.Valid) (refresh : keyOf t.ch = .refresh)
    (failed : ∀ names, t.reload ≠ .names names) (handled : ui.handle t = some turned) :
    turned.ui.SameList ui := by
  obtain ⟨frame, drawn, -, same, -⟩ := valid.draw t.refreshing
  simp only [PlayerUI.handle, refresh, drawn, Option.map_some, Option.some.injEq] at handled
  subst handled
  cases reload : t.reload with
  | names files => exact absurd reload (failed files)
  | systemExit | osError => exact same

/-- One turn of the loop. -/
theorem PlayerUI.Valid.turn (valid : ui.Valid) (t : Turn) :
    ∃ turned, ui.turn t = some turned ∧ turned.Good ∧
      (keyOf t.ch = .refresh → (∀ names, t.reload ≠ .names names) → turned.ui.SameList ui) := by
  obtain ⟨first, drawn, shows, same, -⟩ := valid.draw t.drawn
  obtain ⟨turned, handled, good⟩ := shows.valid.handle t
  refine ⟨{ turned with frames := first :: turned.frames }, by simp [PlayerUI.turn, drawn, handled],
    ⟨good.valid, List.forall_mem_cons.2 ⟨shows, good.shows⟩⟩, ?_⟩
  intro refresh failed
  exact (shows.valid.handle_refresh refresh failed handled).trans same

theorem PlayerUI.Valid.step {next : PlayerUI} {t : Turn} (valid : ui.Valid) (taken : step ui t = some next) :
    next.Valid := by
  obtain ⟨turned, eq, good, -⟩ := valid.turn t
  simp only [Player.step, eq, Option.bind_some] at taken
  split at taken
  · cases taken
  · cases taken
    exact good.valid

/-- **The browser.** Behind any turns the state is valid; the next turn meets no
`IndexError`, every draw of it shows the cursor row, and a failed refresh leaves files,
marks and cursor alone. -/
theorem browser_invariant {files : List Str} {turns : List Turn}
    (ran : run step (.initial files) turns = some ui) (t : Turn) :
    ui.Valid ∧ ∃ turned, ui.turn t = some turned ∧ turned.ui.Valid ∧ (∀ frame ∈ turned.frames, frame.Shows) ∧
      (keyOf t.ch = .refresh → (∀ names, t.reload ≠ .names names) → turned.ui.SameList ui) := by
  have valid : ui.Valid := run_invariant PlayerUI.Valid (fun valid taken => valid.step taken)
    (PlayerUI.Valid.initial files) ran
  obtain ⟨turned, eq, good, failed⟩ := valid.turn t
  exact ⟨valid, turned, eq, good.valid, good.shows, failed⟩

end

/-- Space marks the first of two tracks, and `a` plays it. -/
theorem browser_invariant_space :
    ∃ ui, run step (.initial ["one".toList, "two".toList])
        [⟨⟨24, 80⟩, ord ' ', ⟨24, 80⟩, [], ⟨24, 80⟩, .osError⟩] = some ui ∧
      ui.Valid ∧ ∃ turned, ui.turn ⟨⟨5, 80⟩, ord 'a', ⟨5, 80⟩, [⟨5, 80⟩], ⟨5, 80⟩, .osError⟩ = some turned ∧
        turned.played = ["one".toList] := by
  obtain ⟨ui, ran, marked⟩ : ∃ ui, run step (.initial ["one".toList, "two".toList])
      [⟨⟨24, 80⟩, ord ' ', ⟨24, 80⟩, [], ⟨24, 80⟩, .osError⟩] = some ui ∧
        (ui.turn ⟨⟨5, 80⟩, ord 'a', ⟨5, 80⟩, [⟨5, 80⟩], ⟨5, 80⟩, .osError⟩).map Turned.played =
          some ["one".toList] := ⟨_, rfl, by decide +kernel⟩
  obtain ⟨valid, turned, eq, -⟩ := browser_invariant ran
    ⟨⟨5, 80⟩, ord 'a', ⟨5, 80⟩, [⟨5, 80⟩], ⟨5, 80⟩, .osError⟩
  rw [eq] at marked
  exact ⟨ui, ran, valid, turned, eq, Option.some.inj marked⟩

end GtpLibrary.Player

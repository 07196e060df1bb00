import GtpLibrary.Lib.Components
import GtpLibrary.Lib.Toggles
import GtpLibrary.Player.BrowserInvariant
import GtpLibrary.Player.OnePlayer

/-!
# What is played

A listener knows the tracks of the list, where the cursor is, and at which rows the space bar was
pressed since the list came. The browser goes step by step with this, and hands the tracks to
`_play_names` whose rows were pressed an odd number of times.
-/

namespace GtpLibrary.Player

open Lib

/-- What the listener sees: the files, the row of the cursor, and the presses of the space bar. -/
structure Listener where
  files : List Str
  cursor : Nat
  presses : List Nat

namespace Listener

/-- A list that has just been read. -/
def start (files : List Str) : Listener := ⟨files, 0, []⟩

/-- The rows with a mark, from the top. -/
def marked (l : Listener) : List Nat := toggledRows l.presses l.files.length

/-- What a key plays; without a mark these are all tracks. -/
def names (l : Listener) : Key → List Str
  | .play => l.files[l.cursor]?.toList
  | .playMarked => if l.marked = [] then l.files else l.marked.filterMap fun row => l.files[row]?
  | _ => []

/-- The cursor goes to a row, and no further than the last one. -/
def go (l : Listener) (row : Nat) : Listener := { l with cursor := min row (l.files.length - 1) }

/-- The space bar marks the row, and the cursor goes down. -/
def press (l : Listener) : Listener :=
  if l.files = [] then l else { l with presses := l.presses ++ [l.cursor] }.go (l.cursor + 1)

/-- A list that was read again has no marks. -/
def reloaded (l : Listener) : Reload → Listener
  | .names files => { files, cursor := l.cursor, presses := [] : Listener }.go l.cursor
  | .systemExit | .osError => l

/-- What a key does for the listener; `q` ends the session. -/
def step (l : Listener) (t : Turn) : Option Listener :=
  match keyOf t.ch with
  | .quit => none
  | .up => some (l.go (l.cursor - 1))
  | .down => some (l.go (l.cursor + 1))
  | .pageUp => some (l.go (l.cursor - t.layout.body))
  | .pageDown => some (l.go (l.cursor + t.layout.body))
  | .home => some (l.go 0)
  | .last => some (l.go (l.files.length - 1))
  | .space => some l.press
  | .refresh => some (l.reloaded t.reload)
  | .play | .playMarked | .other => some l

end Listener

/-- The browser of a listener. -/
structure Corresponds (ui : PlayerUI) (l : Listener) : Prop where
  valid : ui.Valid
  files : ui.files = l.files
  cursor : ui.cursor = l.cursor
  marked : ∀ i, i ∈ ui.marked ↔ ∃ row : Nat, i = row ∧ row < l.files.length ∧ toggled l.presses row = true

section
variable {ui other : PlayerUI} {l : Listener} {t : Turn}

/-- A list that has just been read has no marks. -/
theorem Corresponds.start (files : List Str) : Corresponds (.initial files) (.start files) where
  valid := .initial files
  files := rfl
  cursor := rfl
  marked i := by
    constructor
    · exact fun member => absurd member (Finset.notMem_empty i)
    · rintro ⟨row, -, -, on⟩
      exact absurd on (by simp [toggled, Listener.start])

/-- Scrolling and resizing change nothing for the listener. -/
theorem Corresponds.congr (same : Corresponds ui l) (valid : other.Valid) (list : other.SameList ui) : Corresponds other l where
  valid := valid
  files := list.1.trans same.files
  cursor := list.2.2.trans same.cursor
  marked := list.2.1 ▸ same.marked

/-- The cursor is on a row. -/
theorem Corresponds.inside (same : Corresponds ui l) : l.cursor < max 1 l.files.length := by
  have high := same.valid.cursor_lt
  rw [same.cursor, same.files] at high
  omega

/-- The browser moves its cursor, where there are tracks, and the listener does. -/
theorem Corresponds.go (same : Corresponds ui l) {cursor : Int} {row : Nat} (valid : (ui.setCursor cursor).Valid)
    (here : cursor = (min row (l.files.length - 1) : Nat)) : Corresponds (ui.setCursor cursor) (l.go row) :=
  ⟨valid, same.files, here, same.marked⟩

/-- The cursor goes to the same row in both. -/
theorem Corresponds.goOfSome (same : Corresponds ui l) {cursor : Int} {row : Nat} (valid : (ui.setCursorOfSome cursor).Valid)
    (here : 0 < l.files.length → cursor = (min row (l.files.length - 1) : Nat)) :
    Corresponds (ui.setCursorOfSome cursor) (l.go row) := by
  unfold PlayerUI.setCursorOfSome at valid ⊢
  by_cases some : ui.files ≠ []
  · rw [if_pos some] at valid ⊢
    exact same.go valid (here (List.length_pos_iff.2 (same.files ▸ some)))
  · rw [if_neg some]
    have empty : l.files.length = 0 := List.length_eq_zero_iff.2 (same.files ▸ not_not.1 some)
    have inside := same.inside
    have cursor := same.cursor
    refine ⟨same.valid, same.files, ?_, same.marked⟩
    show ui.cursor = (min row (l.files.length - 1) : Nat)
    omega

/-- A mark is turned over in both. -/
theorem Corresponds.press (same : Corresponds ui l) (valid : ui.toggleMark.Valid) : Corresponds ui.toggleMark l.press := by
  unfold PlayerUI.toggleMark Listener.press at *
  by_cases none : l.files = []
  · rw [if_neg (not_not.2 (same.files.trans none)), if_pos none]
    exact same
  · rw [if_pos (same.files ▸ none)] at valid ⊢
    rw [if_neg none]
    have inside := same.inside
    have cursor := same.cursor
    have filled := List.length_pos_iff.2 none
    refine ⟨valid, same.files, ?_, ?_⟩
    · show min ((ui.files.length : Int) - 1) (ui.cursor + 1) = (min (l.cursor + 1) (l.files.length - 1) : Nat)
      rw [same.files]
      omega
    · intro i
      show (i ∈ if ui.cursor ∈ ui.marked then ui.marked.erase ui.cursor else insert ui.cursor ui.marked) ↔
        ∃ row : Nat, i = row ∧ row < l.files.length ∧ toggled (l.presses ++ [l.cursor]) row = true
      rw [mem_turnedOver]
      by_cases here : i = ui.cursor
      · rw [if_pos here, same.marked]
        constructor
        · intro off
          refine ⟨l.cursor, here.trans cursor, by omega, ?_⟩
          rw [toggled_concat, if_pos rfl, Bool.not_eq_true', ← Bool.not_eq_true]
          exact fun on => off ⟨l.cursor, cursor, by omega, on⟩
        · rintro ⟨row, at_, -, on⟩ ⟨other, at_', -, on'⟩
          have row_eq : row = l.cursor := by omega
          have other_eq : other = l.cursor := by omega
          subst row_eq other_eq
          rw [toggled_concat, if_pos rfl, on'] at on
          cases on
      · rw [if_neg here, same.marked]
        refine exists_congr fun row => and_congr_right fun at_ => and_congr_right fun _ => ?_
        have apart : row ≠ l.cursor := by omega
        rw [toggled_concat, if_neg apart]

/-- A list is read again in both. -/
theorem Corresponds.reloaded (same : Corresponds ui l) {reload : Reload} (valid : (ui.reloaded reload).Valid) :
    Corresponds (ui.reloaded reload) (l.reloaded reload) := by
  cases reload with
  | names files =>
    have cursor := same.cursor
    refine ⟨valid, rfl, ?_, fun i => ?_⟩
    · show min ui.cursor (max 0 ((files.length : Int) - 1)) = (min l.cursor (files.length - 1) : Nat)
      omega
    · constructor
      · exact fun member => absurd member (Finset.notMem_empty i)
      · rintro ⟨row, -, -, on⟩
        exact absurd on (by simp [toggled, Listener.reloaded, Listener.go])
  | systemExit | osError => exact same

/-! ## What is handed on -/

/-- An index that is not negative. -/
theorem pyIndex_natCast (files : List Str) (row : Nat) : pyIndex files (row : Int) = files[row]? := by
  unfold pyIndex
  dsimp only
  rw [if_neg (Int.not_lt.2 (Int.natCast_nonneg _)), if_neg (Int.not_lt.2 (Int.natCast_nonneg _)), Int.toNat_natCast]

/-- The names of rows that are there. -/
theorem mapM_pyIndex {files : List Str} {rows : List Nat} (inside : ∀ row ∈ rows, row < files.length) :
    (rows.map (Nat.cast : Nat → Int)).mapM (pyIndex files) = some (rows.filterMap fun row => files[row]?) := by
  induction rows with
  | nil => rfl
  | cons row rows ih =>
    obtain ⟨here, later⟩ := List.forall_mem_cons.1 inside
    have there := List.getElem?_eq_getElem here
    rw [List.map_cons, List.mapM_cons, pyIndex_natCast, there, ih later, List.filterMap_cons_some there]
    rfl

/-- `_play_names` is called with the names, and leaves the list alone. -/
theorem PlayerUI.Valid.plays (valid : ui.Valid) (names : List Str) (playing : List Size) :
    ∃ turned, ui.playNames names playing = some turned ∧ turned.played = names ∧ turned.quit = false ∧
      turned.ui.SameList ui := by
  unfold PlayerUI.playNames
  split
  · rename_i none
    exact ⟨_, rfl, none.symm, rfl, rfl, rfl, rfl⟩
  · obtain ⟨final, frames, eq, -, same, -⟩ := valid.drawAll playing
    exact ⟨_, by rw [eq]; rfl, rfl, rfl, same⟩

/-- What the browser does behind `getch`, and what the listener expects. -/
structure Agrees (turned : Turned) (l : Listener) (t : Turn) : Prop where
  played : turned.played = l.names (keyOf t.ch)
  next : Option.Rel Corresponds (if turned.quit then none else some turned.ui) (l.step t)

/-- A key that plays nothing. -/
theorem agrees_of_moves {next : Listener} {key : Key} (kind : keyOf t.ch = key) (same : Corresponds other next)
    (silent : l.names key = []) (moved : l.step t = some next) :
    ∃ turned, some ⟨other, [], [], false⟩ = some turned ∧ Agrees turned l t :=
  ⟨_, rfl, kind ▸ silent.symm, moved ▸ .some same⟩

/-- A key that plays tracks. -/
theorem Corresponds.plays (same : Corresponds ui l) {names : List Str} (named : l.names (keyOf t.ch) = names)
    (stays : l.step t = some l) : ∃ turned, ui.playNames names t.playing = some turned ∧ Agrees turned l t := by
  obtain ⟨turned, called, played, goes, list⟩ := same.valid.plays names t.playing
  obtain ⟨turned', called', good⟩ := same.valid.playNames names t.playing
  cases called.symm.trans called'
  refine ⟨turned, called, played.trans named.symm, ?_⟩
  rw [goes, stays]
  exact .some (same.congr good.valid list)

/-! ### The keys -/

section
variable (same : Corresponds ui l)
include same

/-- The keys that move the cursor towards the front. -/
theorem Corresponds.handle_front (kind : keyOf t.ch = .up ∨ keyOf t.ch = .pageUp ∨ keyOf t.ch = .home) :
    ∃ turned, ui.handle t = some turned ∧ Agrees turned l t := by
  obtain ⟨turned, handled, good⟩ := same.valid.handle t
  have valid := good.valid
  have cursor := same.cursor
  have inside := same.inside
  unfold PlayerUI.handle at handled ⊢
  rcases kind with kind | kind | kind
  all_goals
    rw [kind] at handled ⊢
    cases handled
  · have moved : l.step t = some (l.go (l.cursor - 1)) := by rw [Listener.step, kind]
    exact agrees_of_moves kind (same.goOfSome valid fun some => by omega) rfl moved
  · have moved : l.step t = some (l.go (l.cursor - t.layout.body)) := by rw [Listener.step, kind]
    exact agrees_of_moves kind (same.go valid (by omega)) rfl moved
  · have moved : l.step t = some (l.go 0) := by rw [Listener.step, kind]
    exact agrees_of_moves kind (same.go valid (by omega)) rfl moved

/-- The keys that move it towards the end. -/
theorem Corresponds.handle_end (kind : keyOf t.ch = .down ∨ keyOf t.ch = .pageDown ∨ keyOf t.ch = .last) :
    ∃ turned, ui.handle t = some turned ∧ Agrees turned l t := by
  obtain ⟨turned, handled, good⟩ := same.valid.handle t
  have valid := good.valid
  have cursor := same.cursor
  have inside := same.inside
  have files := congrArg List.length same.files
  unfold PlayerUI.handle at handled ⊢
  rcases kind with kind | kind | kind
  all_goals
    rw [kind] at handled ⊢
    cases handled
  · have moved : l.step t = some (l.go (l.cursor + 1)) := by rw [Listener.step, kind]
    exact agrees_of_moves kind (same.goOfSome valid fun some => by omega) rfl moved
  · have moved : l.step t = some (l.go (l.cursor + t.layout.body)) := by rw [Listener.step, kind]
    exact agrees_of_moves kind (same.goOfSome valid fun some => by omega) rfl moved
  · have moved : l.step t = some (l.go (l.files.length - 1)) := by rw [Listener.step, kind]
    exact agrees_of_moves kind (same.goOfSome valid fun some => by omega) rfl moved

/-- The space bar. -/
theorem Corresponds.handle_space (kind : keyOf t.ch = .space) : ∃ turned, ui.handle t = some turned ∧ Agrees turned l t := by
  obtain ⟨turned, handled, good⟩ := same.valid.handle t
  have moved : l.step t = some l.press := by rw [Listener.step, kind]
  unfold PlayerUI.handle at handled ⊢
  rw [kind] at handled
  cases handled
  rw [kind]
  exact agrees_of_moves kind (same.press good.valid) rfl moved

/-- The track under the cursor. -/
theorem Corresponds.handle_play (kind : keyOf t.ch = .play) : ∃ turned, ui.handle t = some turned ∧ Agrees turned l t := by
  have inside := same.inside
  have stays : l.step t = some l := by rw [Listener.step, kind]
  unfold PlayerUI.handle
  rw [kind]
  dsimp only
  by_cases some : ui.files ≠ []
  · have files := congrArg List.length same.files
    have there : l.cursor < l.files.length := by
      have filled := List.length_pos_iff.2 some
      omega
    have name : pyIndex ui.files ui.cursor = Option.some l.files[l.cursor] := by
      rw [same.files, same.cursor, pyIndex_natCast, List.getElem?_eq_getElem there]
    rw [if_pos some, name, Option.bind_some]
    refine same.plays ?_ stays
    rw [kind, Listener.names, List.getElem?_eq_getElem there, Option.toList_some]
  · have empty : l.files = [] := same.files ▸ not_not.1 some
    rw [if_neg some]
    refine agrees_of_moves kind same ?_ stays
    rw [Listener.names, empty]
    rfl

/-- The marked rows in the order of the list, or all. -/
theorem Corresponds.handle_playMarked (kind : keyOf t.ch = .playMarked) :
    ∃ turned, ui.handle t = some turned ∧ Agrees turned l t := by
  have stays : l.step t = some l := by rw [Listener.step, kind]
  have rows : ui.marked.sort = l.marked.map (Nat.cast : Nat → Int) := by
    refine eq_toggledRows (Finset.sortedLT_sort ui.marked).pairwise fun i => ?_
    rw [Finset.mem_sort, same.marked]
  unfold PlayerUI.handle
  rw [kind]
  dsimp only
  by_cases marks : ui.marked ≠ ∅
  · have some : l.marked ≠ [] := by
      intro none
      rw [none, List.map_nil] at rows
      exact marks (by simpa using congrArg List.toFinset rows)
    have there : ∀ row ∈ l.marked, row < l.files.length := fun row member => (mem_toggledRows.1 member).1
    have named := mapM_pyIndex there
    rw [if_pos marks, rows, same.files, named, Option.bind_some]
    refine same.plays ?_ stays
    rw [kind, Listener.names, if_neg some]
  · have none : l.marked = [] := by
      rw [not_not.1 marks, Finset.sort_empty] at rows
      exact List.map_eq_nil_iff.1 rows.symm
    rw [if_neg marks, same.files]
    refine same.plays ?_ stays
    rw [kind, Listener.names, if_pos none]

/-- The list is loaded again. -/
theorem Corresponds.handle_refresh (kind : keyOf t.ch = .refresh) : ∃ turned, ui.handle t = some turned ∧ Agrees turned l t := by
  obtain ⟨frame, drawn, shows, list, -⟩ := same.valid.draw t.refreshing
  have here := same.congr shows.valid list
  unfold PlayerUI.handle
  rw [kind]
  dsimp only
  rw [drawn]
  refine ⟨_, rfl, by rw [kind]; rfl, ?_⟩
  rw [Listener.step, kind]
  exact .some (here.reloaded (shows.valid.reloaded t.reload))

/-- Every key does the same in both. -/
theorem Corresponds.handle (t : Turn) : ∃ turned, ui.handle t = some turned ∧ Agrees turned l t := by
  cases kind : keyOf t.ch with
  | up => exact same.handle_front (.inl kind)
  | pageUp => exact same.handle_front (.inr (.inl kind))
  | home => exact same.handle_front (.inr (.inr kind))
  | down => exact same.handle_end (.inl kind)
  | pageDown => exact same.handle_end (.inr (.inl kind))
  | last => exact same.handle_end (.inr (.inr kind))
  | space => exact same.handle_space kind
  | play => exact same.handle_play kind
  | playMarked => exact same.handle_playMarked kind
  | refresh => exact same.handle_refresh kind
  | quit =>
    unfold PlayerUI.handle
    rw [kind]
    refine ⟨_, rfl, by rw [kind]; rfl, ?_⟩
    rw [Listener.step, kind]
    exact .none
  | other =>
    unfold PlayerUI.handle
    rw [kind]
    exact agrees_of_moves kind same rfl (by rw [Listener.step, kind])

end

/-- One turn of the loop. -/
theorem Corresponds.turn (same : Corresponds ui l) (t : Turn) : ∃ turned, ui.turn t = some turned ∧ Agrees turned l t := by
  obtain ⟨first, drawn, shows, list, -⟩ := same.valid.draw t.drawn
  obtain ⟨turned, handled, agrees⟩ := (same.congr shows.valid list).handle t
  exact ⟨{ turned with frames := first :: turned.frames }, by simp [PlayerUI.turn, drawn, handled], agrees.played, agrees.next⟩

/-- Every turn does the same in both. -/
theorem Corresponds.step (same : Corresponds ui l) (t : Turn) : Option.Rel Corresponds (step ui t) (l.step t) := by
  obtain ⟨turned, eq, agrees⟩ := same.turn t
  rw [Player.step, eq]
  exact agrees.next

/-! ## The players -/

/-- The tracks whose players were started stand in front of the list, in its order. -/
theorem Modal.started_front {host remotePath : Str} {total : Nat} {names : List Str} {labels : List Modal.Label}
    {s : Modal.Playing} (ran : run (Modal.step host remotePath total) (.start names) labels = some s) :
    ∃ played, played <+: names ∧ (s.processes.map Modal.Process.name).reverse.Sublist played := by
  obtain ⟨played, whole, begun⟩ := (Modal.Kept.run ran).order
  refine ⟨played ++ s.part.current s.name, ⟨s.queue, by rw [whole, List.append_assoc]⟩, begun.trans ?_⟩
  refine List.Sublist.append_left ?_ played
  unfold Modal.Part.begun Modal.Part.current Modal.Part.running
  cases s.part <;> simp

/-- **What was marked is played.** Along every run the browser and the listener go on and stop together; in
every state reached a turn hands the tracks to `_play_names` that the listener expects, and whatever happens
there, players are started for tracks in front of these only, in their order. -/
theorem plays_marked (files : List Str) (turns : List Turn) :
    Option.Rel (fun ui l => Corresponds ui l ∧ ∀ t : Turn, ∃ turned, ui.turn t = some turned ∧
        turned.played = l.names (keyOf t.ch) ∧
        ∀ host remotePath labels s, run (Modal.step host remotePath turned.played.length) (.start turned.played) labels = some s →
          ∃ played, played <+: l.names (keyOf t.ch) ∧ (s.processes.map Modal.Process.name).reverse.Sublist played)
      (run step (.initial files) turns) (run Listener.step (.start files) turns) := by
  have related : Option.Rel Corresponds (run step (.initial files) turns) (run Listener.step (.start files) turns) :=
    run_rel (fun _ _ t same => same.step t) (.start files) turns
  refine rel_imp (fun {ui l} same => ⟨same, fun t => ?_⟩) related
  obtain ⟨turned, eq, agrees⟩ := same.turn t
  refine ⟨turned, eq, agrees.played, fun host remotePath labels s ran => ?_⟩
  rw [← agrees.played]
  exact Modal.started_front ran

end

/-- The space bar and then `a`, on the first of two tracks. -/
theorem plays_marked_space : ∃ ui turned,
    run step (.initial Modal.twoTracks) [⟨⟨24, 80⟩, ord ' ', ⟨24, 80⟩, [], ⟨24, 80⟩, .osError⟩] = some ui ∧
      ui.turn ⟨⟨24, 80⟩, ord 'a', ⟨24, 80⟩, [], ⟨24, 80⟩, .osError⟩ = some turned ∧
      turned.played = ["a.mp3".toList] := by
  have related := plays_marked Modal.twoTracks [⟨⟨24, 80⟩, ord ' ', ⟨24, 80⟩, [], ⟨24, 80⟩, .osError⟩]
  have pressed : run Listener.step (.start Modal.twoTracks) [⟨⟨24, 80⟩, ord ' ', ⟨24, 80⟩, [], ⟨24, 80⟩, .osError⟩] =
      some ⟨Modal.twoTracks, 1, [0]⟩ := rfl
  rw [pressed] at related
  generalize run step (.initial Modal.twoTracks) _ = reached at related ⊢
  cases related with
  | some same =>
    obtain ⟨turned, eq, played, -⟩ := same.2 ⟨⟨24, 80⟩, ord 'a', ⟨24, 80⟩, [], ⟨24, 80⟩, .osError⟩
    exact ⟨_, turned, rfl, eq, played.trans rfl⟩

end GtpLibrary.Player

import GtpLibrary.ImageCleaner.Geometry
import GtpLibrary.Lib.Components
import GtpLibrary.Lib.Toggles

/-!
# What the image cleaner removes

What a user has done since the list came: where the cursor is and on which rows the space bar was
pressed. The menu goes step by step with this, so that the images an answer of `y` removes are those
whose rows were pressed an odd number of times, each once and in the order of the list, under the
identifiers the engine has listed.
-/

namespace GtpLibrary.ImageCleaner

open Lib Lib.Numerals Player

/-! ## The engine's list -/

/-- A character of a column does not end it. -/
def plain (c : Char) : Prop := c ≠ '|' ∧ c ≠ '\n'

/-- An image as the engine lists it. -/
structure Listed where
  repoTag : Str
  imgId : Str
  size : Str
  plain_repoTag : ∀ c ∈ repoTag, plain c
  plain_imgId : ∀ c ∈ imgId, plain c
  plain_size : ∀ c ∈ size, plain c
  begins : ∃ c ∈ repoTag.head?, isSpace c = false
  ends : ∃ c ∈ size.getLast?, isSpace c = false

namespace Listed

/-- `--format`, for one image. -/
def printed (l : Listed) : Str := l.repoTag ++ " | ".toList ++ l.imgId ++ " | ".toList ++ l.size

/-- The columns of the row, as they are padded. -/
def display (l : Listed) : Str :=
  ljust l.repoTag 45 ++ " | ".toList ++ ljust (l.imgId.take 12) 15 ++ " | ".toList ++ l.size

/-- The row of an image that is listed. -/
def image (l : Listed) (checked : Bool) : Image := ⟨checked, l.display, l.imgId⟩

end Listed

/-- What the engine prints. -/
def printed (listing : List Listed) : Str := listing.flatMap fun l => l.printed ++ ['\n']

/-! ## What the user does -/

/-- What the session comes to: the images listed, the row of the cursor, and the presses. -/
structure Session where
  listing : List Listed
  cursor : Nat
  /-- The rows on which the space bar was pressed. -/
  presses : List Nat

namespace Session

/-- A listing that has just been read. -/
def start (listing : List Listed) : Session := ⟨listing, 0, []⟩

/-- A row is marked after an odd number of presses. -/
def marked (s : Session) (row : Nat) : Bool := s.presses.count row % 2 = 1

/-- The images of the marked rows, in order. -/
def chosen (s : Session) : List Listed := (s.listing.zipIdx.filter fun (_, row) => s.marked row).map Prod.fst

end Session

/-- A turn, with the list that the engine prints behind the removals. -/
structure Input where
  window : Window
  key : Int
  confKey : Int
  removals : Nat → Removal
  reload : Option (List Listed)

/-- The turn that the program sees. -/
abbrev Input.turn (i : Input) : Turn := ⟨i.window, i.key, i.confKey, i.removals, i.reload.map printed⟩

namespace Session

/-- The key is Enter, and the answer is yes. -/
def confirms (i : Input) : Prop := (i.key = ord '\n' ∨ i.key = keyEnter) ∧ (i.confKey = ord 'y' ∨ i.confKey = ord 'Y')

instance (i : Input) : Decidable (confirms i) := inferInstanceAs (Decidable (_ ∧ _))

/-- The images that are removed. -/
def removed (s : Session) (i : Input) : List Listed := if confirms i then s.chosen else []

/-- What a turn does to the session. -/
def step (s : Session) (i : Input) : Option Session :=
  if i.key = keyUp then some { s with cursor := s.cursor - 1 }
  else if i.key = keyDown then some { s with cursor := min (s.cursor + 1) (s.listing.length - 1) }
  else if i.key = ord ' ' then
    some (if s.listing = [] then s else { s with presses := s.presses ++ [s.cursor] })
  else if confirms i ∧ s.chosen ≠ [] then i.reload.map start
  else if i.key = ord 'q' ∨ i.key = ord 'Q' then none
  else some s

end Session

/-! ## Reading the list -/

section
variable {l : Listed} {listing : List Listed} {part rest : Str}

/-- A column without a bar is one part. -/
theorem splitBars_plain (clean : ∀ c ∈ part, plain c) : splitBars part = [part] := by
  induction part with
  | nil => rfl
  | cons c part ih =>
    obtain ⟨-, later⟩ := List.forall_mem_cons.1 clean
    have apart : ∀ rest, c = ' ' → part = '|' :: ' ' :: rest → False := by
      rintro rest - rfl
      exact (later '|' List.mem_cons_self).1 rfl
    rw [splitBars, ih later]
    exact apart

/-- A column ends at the first bar. -/
theorem splitBars_append (clean : ∀ c ∈ part, plain c) (rest : Str) :
    splitBars (part ++ " | ".toList ++ rest) = part :: splitBars rest := by
  induction part with
  | nil => rfl
  | cons c part ih =>
    obtain ⟨-, later⟩ := List.forall_mem_cons.1 clean
    have apart : ∀ more, c = ' ' → part ++ " | ".toList ++ rest = '|' :: ' ' :: more → False := by
      intro more _ same
      cases part with
      | nil => cases same
      | cons d part =>
        rw [List.cons_append, List.cons_append, List.cons.injEq] at same
        exact (later d List.mem_cons_self).1 same.1
    rw [List.cons_append, List.cons_append, splitBars, ih later]
    exact apart

/-- A printed row is read as the image it was printed for. -/
theorem imageOf_printed (l : Listed) : imageOf l.printed = l.image false := by
  have parts : splitBars l.printed = [l.repoTag, l.imgId, l.size] := by
    have columns : l.printed = l.repoTag ++ " | ".toList ++ (l.imgId ++ " | ".toList ++ l.size) := by
      simp only [Listed.printed, List.append_assoc]
    rw [columns, splitBars_append l.plain_repoTag, splitBars_append l.plain_imgId, splitBars_plain l.plain_size]
  unfold imageOf
  rw [parts]
  rfl

/-- A printed row is one line. -/
theorem Listed.newline_not_mem (l : Listed) : '\n' ∉ l.printed := by
  have columns : ∀ c ∈ l.printed, c ≠ '\n' := by
    simp only [Listed.printed, List.forall_mem_append]
    have bars : ∀ c ∈ " | ".toList, c ≠ '\n' := by simp
    exact ⟨⟨⟨⟨fun c member => (l.plain_repoTag c member).2, bars⟩, fun c member => (l.plain_imgId c member).2⟩, bars⟩,
      fun c member => (l.plain_size c member).2⟩
  exact fun member => columns _ member rfl

/-- `strip` takes nothing off the front of a row. -/
theorem Listed.printed_begins (l : Listed) (rest : Str) : ∃ c ∈ (l.printed ++ rest).head?, isSpace c = false := by
  obtain ⟨c, first, dark⟩ := l.begins
  refine ⟨c, ?_, dark⟩
  simp only [Listed.printed, List.append_assoc]
  exact List.mem_head?_append_of_mem_head? first

/-- `strip` takes nothing off the end of a row. -/
theorem Listed.printed_ends (l : Listed) : ∃ c ∈ l.printed.getLast?, isSpace c = false := by
  obtain ⟨c, last, dark⟩ := l.ends
  exact ⟨c, List.mem_getLast?_append_of_mem_getLast? last, dark⟩

/-- The lines of a list, without the last line break. -/
theorem exists_lines (l : Listed) (listing : List Listed) : ∃ lines, printed (l :: listing) = lines ++ ['\n'] ∧
    lines.splitOn '\n' = (l :: listing).map Listed.printed ∧ (∃ c ∈ lines.head?, isSpace c = false) ∧
      ∃ c ∈ lines.getLast?, isSpace c = false := by
  induction listing generalizing l with
  | nil =>
    refine ⟨l.printed, by simp [printed], ?_, by simpa using l.printed_begins [], l.printed_ends⟩
    exact List.splitOn_eq_singleton l.newline_not_mem
  | cons next listing ih =>
    obtain ⟨lines, eq, split, -, c, last, dark⟩ := ih next
    refine ⟨l.printed ++ '\n' :: lines, ?_, ?_, l.printed_begins _, c, ?_, dark⟩
    · rw [printed, List.flatMap_cons, ← printed, eq]
      simp
    · rw [List.splitOn_append_cons_self_of_not_mem l.newline_not_mem, split]
      rfl
    · have behind : c ∈ (['\n'] ++ lines).getLast? := List.mem_getLast?_append_of_mem_getLast? last
      exact List.mem_getLast?_append_of_mem_getLast? behind

/-- `strip` takes the last line break, and no more. -/
theorem strip_lines {lines : Str} (begins : ∃ c ∈ lines.head?, isSpace c = false)
    (ends : ∃ c ∈ lines.getLast?, isSpace c = false) : strip (lines ++ ['\n']) = lines := by
  obtain ⟨first, front, dark⟩ := begins
  obtain ⟨last, back, dark'⟩ := ends
  have whole : (lines ++ ['\n']).dropWhile isSpace = lines ++ ['\n'] := by
    cases lines with
    | nil => cases front
    | cons c lines =>
      cases front
      rw [List.cons_append, List.dropWhile_cons_of_neg (by simp [dark])]
  have kept : lines.reverse.dropWhile isSpace = lines.reverse := by
    rw [← List.head?_reverse] at back
    cases reversed : lines.reverse with
    | nil => rfl
    | cons c rest =>
      rw [reversed] at back
      cases back
      rw [List.dropWhile_cons_of_neg (by simp [dark'])]
  rw [strip, whole, rstrip, List.reverse_append, List.reverse_singleton, List.singleton_append,
    List.dropWhile_cons_of_pos (by decide), kept, List.reverse_reverse]

/-- The list comes back as it was printed. -/
theorem getImages_printed (listing : List Listed) : getImages (printed listing) = listing.map fun l => l.image false := by
  cases listing with
  | nil => decide
  | cons l listing =>
    obtain ⟨lines, eq, split, begins, ends⟩ := exists_lines l listing
    have some : ∀ line ∈ (l :: listing).map Listed.printed, decide (line ≠ []) = true := by
      intro line member
      obtain ⟨m, -, rfl⟩ := List.mem_map.1 member
      obtain ⟨c, last, -⟩ := m.printed_ends
      refine decide_eq_true fun none => ?_
      rw [none] at last
      cases last
    rw [getImages, eq, strip_lines begins ends, split, List.filter_eq_self.2 some, List.map_map]
    exact List.map_congr_left fun m _ => imageOf_printed m

end

/-! ## Step by step -/

/-- The menu of a session. -/
structure Corresponds (s : State) (o : Session) : Prop where
  images : s.images = o.listing.zipIdx.map fun (l, row) => l.image (o.marked row)
  cursor : s.currentRow = o.cursor
  inside : o.cursor < max 1 o.listing.length

section
variable {s : State} {o : Session} {i : Input} {engine : Engine}

/-- A listing is read as it was printed. -/
theorem Corresponds.start (listing : List Listed) : Corresponds (.loaded (printed listing)) (.start listing) where
  images := by
    have plain : (listing.zipIdx.map fun (l, row) => l.image ((Session.start listing).marked row)) =
        (listing.zipIdx.map Prod.fst).map fun l => l.image false := by
      rw [List.map_map]
      rfl
    rw [List.zipIdx_map_fst] at plain
    exact (getImages_printed listing).trans plain.symm
  cursor := rfl
  inside := Nat.lt_of_lt_of_le Nat.one_pos (Nat.le_max_left ..)

/-- There are as many rows as images listed. -/
theorem Corresponds.length (same : Corresponds s o) : s.images.length = o.listing.length := by
  rw [same.images, List.length_map, List.length_zipIdx]

/-- Scrolling marks nothing. -/
theorem Corresponds.adjusted (same : Corresponds s o) (window : Window) : Corresponds (s.adjusted window) o :=
  ⟨same.images, same.cursor, same.inside⟩

/-- The checked images are those whose rows were pressed an odd number of times. -/
theorem Corresponds.selected (same : Corresponds s o) : s.selectedItems = o.chosen.map fun l => l.image true := by
  rw [State.selectedItems, same.images, List.filter_map, Session.chosen, List.map_map]
  refine List.map_congr_left fun p member => ?_
  have marked := (List.mem_filter.1 member).2
  simp only [Function.comp_apply, Listed.image] at marked ⊢
  rw [marked]

/-- A press turns over the mark of the cursor, and no other. -/
theorem Session.marked_press (o : Session) (row : Nat) :
    Session.marked { o with presses := o.presses ++ [o.cursor] } row =
      if row = o.cursor then !o.marked row else o.marked row := toggled_concat

/-- The space bar turns over the mark of the cursor. -/
theorem Corresponds.toggle (same : Corresponds s o) : ∃ next, s.toggle = some next ∧
    Corresponds next (if o.listing = [] then o else { o with presses := o.presses ++ [o.cursor] }) := by
  have length := same.length
  by_cases empty : o.listing = []
  · refine ⟨s, ?_, ?_⟩
    · rw [empty] at length
      rw [State.toggle, if_pos (List.length_eq_zero_iff.1 length)]
    · rw [if_pos empty]
      exact same
  · have inside : o.cursor < s.images.length := by
      have positive := List.length_pos_iff.2 empty
      have last := same.inside
      omega
    have natural : ¬ (o.cursor : Int) < 0 := Int.not_lt.2 (Int.natCast_nonneg _)
    have there : pyIndex s.images s.currentRow = s.images[o.cursor]? := by
      unfold pyIndex
      dsimp only
      rw [same.cursor, if_neg natural, if_neg natural, Int.toNat_natCast]
    refine ⟨{ s with images := s.images.modify o.cursor fun image => { image with checked := !image.checked } }, ?_, ?_⟩
    · rw [State.toggle, if_neg (by rw [← List.length_eq_zero_iff]; omega), there, List.getElem?_eq_getElem inside,
        Option.map_some, same.cursor]
      dsimp only
      rw [if_neg natural, Int.toNat_natCast]
    · rw [if_neg empty]
      refine ⟨?_, same.cursor, same.inside⟩
      refine List.ext_getElem? fun row => ?_
      simp only [List.getElem?_modify, same.images, List.getElem?_map, List.getElem?_zipIdx, Option.map_map,
        Nat.zero_add]
      cases o.listing[row]? with
      | none => rfl
      | some l =>
        simp only [Option.map_some, Function.comp_apply, Session.marked_press, Listed.image]
        by_cases here : o.cursor = row
        · simp [here]
        · simp [here, Ne.symm here]

/-- The move of an arrow key. -/
theorem Corresponds.move (same : Corresponds s o) {row : Int} {cursor : Nat} (here : row = cursor)
    (inside : cursor < max 1 o.listing.length) : Corresponds { s with currentRow := row } { o with cursor } :=
  ⟨same.images, here, inside⟩

/-- `rmi` for an image. -/
def rmi (engine : Engine) (l : Listed) : List Str := [engine.cmd, "rmi".toList, l.imgId]

/-- What a turn does, compared with what the user has asked for: the commands are the first ones of the removed
images' and, unless `addstr` has raised, all of them; the menu goes on as the session does. -/
structure Removes (engine : Engine) (o : Session) (i : Input) (commands : List (List Str)) (raised : Bool)
    (next : Option State) : Prop where
  front : commands <+: (o.removed i).map (rmi engine)
  all : raised = false → commands = (o.removed i).map (rmi engine)
  goes : ∀ {after}, next = some after → ∃ p, o.step i = some p ∧ Corresponds after p
  stops : raised = false → next = none → o.step i = none

/-- A turn that removes nothing. -/
theorem Removes.quiet (none : o.removed i = []) {next : State} {p : Session} (stepped : o.step i = some p)
    (after : Corresponds next p) : Removes engine o i [] false (some next) where
  front := List.nil_prefix
  all _ := by rw [none, List.map_nil]
  goes same := by
    cases same
    exact ⟨p, stepped, after⟩
  stops _ nothing := by cases nothing

/-- A turn that ends with an exception in front of the next command. -/
theorem Removes.of_raised {commands : List (List Str)} (front : commands <+: (o.removed i).map (rmi engine)) :
    Removes engine o i commands true none where
  front := front
  all := nofun
  goes := nofun
  stops := nofun

/-- Nothing is removed without Enter. -/
theorem removed_of_not_enter (other : ¬ (i.key = ord '\n' ∨ i.key = keyEnter)) : o.removed i = [] :=
  if_neg fun confirms => other confirms.1

/-- Nothing is removed without a yes. -/
theorem removed_of_not_yes (other : ¬ (i.confKey = ord 'y' ∨ i.confKey = ord 'Y')) : o.removed i = [] :=
  if_neg fun confirms => other confirms.2

/-! ### The keys -/

section
variable (same : Corresponds s o)
include same

/-- The cursor goes up. -/
theorem Corresponds.act_up (up : i.key = keyUp) :
    Removes engine o i (s.act engine i.turn).commands (s.act engine i.turn).raised (s.act engine i.turn).next := by
  have quiet : o.removed i = [] := removed_of_not_enter (by rw [up]; decide)
  have stepped : o.step i = some { o with cursor := o.cursor - 1 } := by rw [Session.step, if_pos up]
  have inside := same.inside
  have cursor := same.cursor
  by_cases top : 0 < o.cursor
  · rw [State.act, if_pos ⟨up, by omega⟩]
    exact .quiet quiet stepped (same.move (by omega) (by omega))
  · have first : o.cursor - 1 = o.cursor := by omega
    have others : ¬ i.key = keyDown ∧ ¬ i.key = ord ' ' ∧ ¬ (i.key = ord '\n' ∨ i.key = keyEnter) ∧
        ¬ (i.key = ord 'q' ∨ i.key = ord 'Q') := by rw [up]; decide
    rw [State.act, if_neg fun both => top (by omega), if_neg fun both => others.1 both.1, if_neg others.2.1,
      if_neg others.2.2.1, if_neg others.2.2.2]
    rw [first] at stepped
    exact .quiet quiet stepped same

/-- The cursor goes down. -/
theorem Corresponds.act_down (down : i.key = keyDown) :
    Removes engine o i (s.act engine i.turn).commands (s.act engine i.turn).raised (s.act engine i.turn).next := by
  have quiet : o.removed i = [] := removed_of_not_enter (by rw [down]; decide)
  have up : ¬ i.key = keyUp := by rw [down]; decide
  have stepped : o.step i = some { o with cursor := min (o.cursor + 1) (o.listing.length - 1) } := by
    rw [Session.step, if_neg up, if_pos down]
  have inside := same.inside
  have cursor := same.cursor
  have length := same.length
  by_cases last : o.cursor + 1 < o.listing.length
  · rw [State.act, if_neg fun both => up both.1, if_pos ⟨down, by omega⟩]
    exact .quiet quiet stepped (same.move (by omega) (by omega))
  · have stays : min (o.cursor + 1) (o.listing.length - 1) = o.cursor := by omega
    have others : ¬ i.key = ord ' ' ∧ ¬ (i.key = ord '\n' ∨ i.key = keyEnter) ∧
        ¬ (i.key = ord 'q' ∨ i.key = ord 'Q') := by rw [down]; decide
    rw [State.act, if_neg fun both => up both.1, if_neg fun both => last (by omega), if_neg others.1, if_neg others.2.1,
      if_neg others.2.2]
    rw [stays] at stepped
    exact .quiet quiet stepped same

/-- The mark of the cursor is turned over. -/
theorem Corresponds.act_space (space : i.key = ord ' ') :
    Removes engine o i (s.act engine i.turn).commands (s.act engine i.turn).raised (s.act engine i.turn).next := by
  have arrows : ¬ i.key = keyUp ∧ ¬ i.key = keyDown := by rw [space]; decide
  obtain ⟨next, toggled, after⟩ := same.toggle
  have act : s.act engine i.turn = ⟨[], [], false, some next⟩ := by
    rw [State.act, if_neg fun both => arrows.1 both.1, if_neg fun both => arrows.2 both.1, if_pos space, toggled]
    rfl
  rw [act]
  refine .quiet (removed_of_not_enter (by rw [space]; decide)) ?_ after
  rw [Session.step, if_neg arrows.1, if_neg arrows.2, if_pos space]

end

/-- The commands of `removeAll`, which end where a progress screen raises. -/
theorem removeAll_commands (window : Window) (total : Nat) (items : List (Image × Nat)) :
    (removeAll engine window total items).2.1 <+: items.map (fun item => [engine.cmd, "rmi".toList, item.1.imgId]) ∧
      ((removeAll engine window total items).2.2 = true →
        (removeAll engine window total items).2.1 = items.map fun item => [engine.cmd, "rmi".toList, item.1.imgId]) := by
  induction items with
  | nil => exact ⟨List.nil_prefix, fun _ => rfl⟩
  | cons item rest ih =>
    rw [removeAll]
    dsimp only
    split_ifs
    · refine ⟨(List.prefix_cons_inj _).2 ih.1, fun done => ?_⟩
      rw [List.map_cons]
      exact congrArg (List.cons _) (ih.2 done)
    · exact ⟨List.nil_prefix, nofun⟩

/-- The deletions run `rmi` for the chosen images. -/
theorem Corresponds.removal (same : Corresponds s o) (confirms : Session.confirms i)
    (stepped : o.step i = i.reload.map Session.start) :
    Removes engine o i (removal engine i.turn s.selectedItems).commands (removal engine i.turn s.selectedItems).raised
      (removal engine i.turn s.selectedItems).next := by
  have asked : ((s.selectedItems.zipIdx 1).map fun item => [engine.cmd, "rmi".toList, item.1.imgId]) =
      (o.removed i).map (rmi engine) := by
    have items : ((s.selectedItems.zipIdx 1).map fun item => [engine.cmd, "rmi".toList, item.1.imgId]) =
        ((s.selectedItems.zipIdx 1).map Prod.fst).map fun image => [engine.cmd, "rmi".toList, image.imgId] := by
      rw [List.map_map]
      rfl
    rw [items, List.zipIdx_map_fst, same.selected, List.map_map, Session.removed, if_pos confirms]
    rfl
  obtain ⟨front, all⟩ := @removeAll_commands engine i.window s.selectedItems.length (s.selectedItems.zipIdx 1)
  rw [asked] at front all
  unfold ImageCleaner.removal
  dsimp only
  split_ifs with done shown
  · constructor
    · exact front
    · exact fun _ => all done
    · intro after loaded
      cases came : i.reload with
      | none =>
        rw [came] at loaded
        cases loaded
      | some listing =>
        rw [came] at loaded stepped
        cases loaded
        exact ⟨_, stepped, .start listing⟩
    · intro _ none
      rw [Option.map_eq_none_iff, Option.map_eq_none_iff] at none
      rw [stepped, none, Option.map_none]
  · rw [Bool.not_eq_true] at shown
    rw [shown]
    exact .of_raised front
  · exact .of_raised front

/-- The question, and the removals behind a yes. -/
theorem Corresponds.act_enter (same : Corresponds s o) (enter : i.key = ord '\n' ∨ i.key = keyEnter) :
    Removes engine o i (s.act engine i.turn).commands (s.act engine i.turn).raised (s.act engine i.turn).next := by
  have others : ¬ i.key = keyUp ∧ ¬ i.key = keyDown ∧ ¬ i.key = ord ' ' ∧ ¬ (i.key = ord 'q' ∨ i.key = ord 'Q') := by
    rcases enter with key | key <;> rw [key] <;> decide
  obtain ⟨up, down, space, quit⟩ := others
  have step : o.step i = if Session.confirms i ∧ o.chosen ≠ [] then i.reload.map Session.start else some o := by
    rw [Session.step, if_neg up, if_neg down, if_neg space, if_neg quit]
  have selected := same.selected
  rw [State.act, if_neg fun both => up both.1, if_neg fun both => down both.1, if_neg space, if_pos enter]
  dsimp only
  split_ifs with none asked yes
  · have nothing : o.chosen = [] := by rwa [selected, List.map_eq_nil_iff] at none
    refine .quiet ?_ (step.trans (if_neg fun both => both.2 nothing)) same
    rw [Session.removed, nothing, ite_self]
  · have chosen : o.chosen ≠ [] := by rwa [selected, List.map_eq_nil_iff] at none
    exact same.removal ⟨enter, yes⟩ (step.trans (if_pos ⟨⟨enter, yes⟩, chosen⟩))
  · exact .quiet (removed_of_not_yes yes) (step.trans (if_neg fun both => yes both.1.2)) same
  · exact .of_raised List.nil_prefix

/-- Another key does nothing, or ends the program. -/
theorem Corresponds.act_other (same : Corresponds s o) (up : ¬ i.key = keyUp) (down : ¬ i.key = keyDown)
    (space : ¬ i.key = ord ' ') (enter : ¬ (i.key = ord '\n' ∨ i.key = keyEnter)) :
    Removes engine o i (s.act engine i.turn).commands (s.act engine i.turn).raised (s.act engine i.turn).next := by
  have quiet : o.removed i = [] := removed_of_not_enter enter
  have refused : ¬ (Session.confirms i ∧ o.chosen ≠ []) := fun both => enter both.1.1
  rw [State.act, if_neg fun both => up both.1, if_neg fun both => down both.1, if_neg space, if_neg enter]
  split_ifs with quit
  · refine ⟨List.nil_prefix, fun _ => by rw [quiet, List.map_nil], nofun, fun _ _ => ?_⟩
    rw [Session.step, if_neg up, if_neg down, if_neg space, if_neg refused, if_pos quit]
  · refine .quiet quiet ?_ same
    rw [Session.step, if_neg up, if_neg down, if_neg space, if_neg refused, if_neg quit]

/-! ### Turns and runs -/

/-- One turn: the menu goes on as the session does, and the commands are those of the removed images. -/
theorem Corresponds.turn (same : Corresponds s o) (i : Input) :
    Removes engine o i (s.turn engine i.turn).commands (s.turn engine i.turn).raised (s.turn engine i.turn).next := by
  have here := same.adjusted i.window
  unfold State.turn
  dsimp only
  split_ifs
  · exact .of_raised List.nil_prefix
  by_cases up : i.key = keyUp
  · exact here.act_up up
  by_cases down : i.key = keyDown
  · exact here.act_down down
  by_cases space : i.key = ord ' '
  · exact here.act_space space
  by_cases enter : i.key = ord '\n' ∨ i.key = keyEnter
  · exact here.act_enter enter
  · exact here.act_other up down space enter

/-- The menu on the inputs. -/
def inputStep (engine : Engine) (s : State) (i : Input) : Option State := step engine s i.turn

end

end GtpLibrary.ImageCleaner

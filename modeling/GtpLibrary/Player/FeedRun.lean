import GtpLibrary.Player.Reading

/-!
# One call of `_feed_output` against the reading of its buffer

`feedTurn_cases` says what a turn of the loop can do. From it, `feedLoop_reads`: as
long as no newline stands between two carriage returns, the call keeps the log lines
and the unterminated text of the reading, though newlines behind a carriage return
wait in the pending text for the next call. `feedLoop_settled` is about buffers
without such newlines, where nothing waits.
-/

namespace GtpLibrary.Player

/-! ## Positions of line breaks -/

theorem not_mem_take_of_idxOf? {p : Str} {c : Char} {i k : Nat} (first : p.idxOf? c = some i)
    (before : k ≤ i) : c ∉ p.take k := by
  obtain ⟨inside, -, none⟩ := List.idxOf?_eq_some_iff.1 first
  intro member
  obtain ⟨j, small, eq⟩ := List.mem_take_iff_getElem.1 member
  exact none j (by omega) eq

theorem split_at_idxOf? {p : Str} {c : Char} {i : Nat} (first : p.idxOf? c = some i) :
    p = p.take i ++ c :: p.drop (i + 1) := by
  obtain ⟨inside, here, -⟩ := List.idxOf?_eq_some_iff.1 first
  rw [← here, ← List.drop_eq_getElem_cons inside, List.take_append_drop]

/-- The three outcomes of a turn: nothing to do, a complete line in front, a carriage
return in front. -/
theorem feedTurn_cases (maxLines : Nat) (s : FeedLoop) :
    (Plain s.pending ∧ feedTurn maxLines s = .inr s) ∨
    (∃ raw rest, s.pending = raw ++ '\n' :: rest ∧ Plain raw ∧ feedTurn maxLines s =
      .inl ⟨rest, (takeLine maxLines raw s.lines s.live).1, (takeLine maxLines raw s.lines s.live).2,
        s.sawCr⟩) ∨
    (∃ raw rest, s.pending = raw ++ '\r' :: rest ∧ Plain raw ∧
      feedTurn maxLines s = .inr (feedTurn.carriageReturn s)) := by
  have newline : ∀ i, s.pending.idxOf? '\n' = some i → '\r' ∉ s.pending.take i →
      ∃ raw rest, s.pending = raw ++ '\n' :: rest ∧ Plain raw ∧
        (Sum.inl ⟨s.pending.drop (i + 1),
          (takeLine maxLines (splitLast '\r' (s.pending.take i)) s.lines s.live).1,
          (takeLine maxLines (splitLast '\r' (s.pending.take i)) s.lines s.live).2,
          s.sawCr || (s.pending.take i).contains '\r'⟩ : FeedLoop ⊕ FeedLoop) =
        .inl ⟨rest, (takeLine maxLines raw s.lines s.live).1, (takeLine maxLines raw s.lines s.live).2,
          s.sawCr⟩ := by
    intro i first free
    refine ⟨s.pending.take i, s.pending.drop (i + 1), split_at_idxOf? first,
      ⟨not_mem_take_of_idxOf? first (Nat.le_refl _), free⟩, ?_⟩
    rw [splitLast_of_not_mem free]
    simp [free]
  cases nl : s.pending.idxOf? '\n' with
  | none =>
    have noLine : '\n' ∉ s.pending := List.idxOf?_eq_none_iff.1 nl
    cases cr : s.pending.idxOf? '\r' with
    | none => exact .inl ⟨⟨noLine, List.idxOf?_eq_none_iff.1 cr⟩, by simp only [feedTurn, nl, cr]⟩
    | some j =>
      exact .inr (.inr ⟨_, _, split_at_idxOf? cr, ⟨fun h => noLine (List.mem_of_mem_take h),
        not_mem_take_of_idxOf? cr (Nat.le_refl _)⟩, by simp only [feedTurn, nl, cr]⟩)
  | some i =>
    cases cr : s.pending.idxOf? '\r' with
    | none =>
      obtain ⟨raw, rest, eq, plain, step⟩ := newline i nl
        fun h => List.idxOf?_eq_none_iff.1 cr (List.mem_of_mem_take h)
      exact .inr (.inl ⟨raw, rest, eq, plain,
        by simpa only [feedTurn, nl, cr, Option.all_none, if_true] using step⟩)
    | some j =>
      by_cases front : i < j
      · obtain ⟨raw, rest, eq, plain, step⟩ := newline i nl (not_mem_take_of_idxOf? cr (Nat.le_of_lt front))
        exact .inr (.inl ⟨raw, rest, eq, plain,
          by simpa only [feedTurn, nl, cr, Option.all_some, front, decide_true, if_true] using step⟩)
      · exact .inr (.inr ⟨_, _, split_at_idxOf? cr,
          ⟨not_mem_take_of_idxOf? nl (by omega), not_mem_take_of_idxOf? cr (Nat.le_refl _)⟩,
          by simp [feedTurn, nl, cr, front]⟩)

/-- The loop ends by a `break` before the fuel is used up. -/
theorem feedLoop_fuel (maxLines : Nat) {fuel : Nat} {s : FeedLoop} (enough : s.pending.length < fuel) :
    feedLoop maxLines fuel s = feedLoop maxLines (s.pending.length + 1) s := by
  induction fuel using Nat.strongRecOn generalizing s with
  | ind fuel ih =>
    obtain ⟨fuel, rfl⟩ : ∃ k, fuel = k + 1 := ⟨fuel - 1, by omega⟩
    rcases feedTurn_cases maxLines s with ⟨-, step⟩ | ⟨raw, rest, eq, -, step⟩ | ⟨raw, rest, -, -, step⟩
    · simp only [feedLoop, step]
    · have shorter : rest.length < s.pending.length := by rw [eq]; simp; omega
      simp only [feedLoop, step]
      rw [ih fuel (by omega) (s := ⟨rest, _, _, _⟩) (by simp only; omega)]
      by_cases same : fuel = s.pending.length
      · subst same
        rw [ih s.pending.length (by omega) (s := ⟨rest, _, _, _⟩) shorter]
      · rw [← ih s.pending.length (by omega) (s := ⟨rest, _, _, _⟩) shorter]
    · simp only [feedLoop, step]

/-! ## Newlines and carriage returns in a buffer -/

/-- The part of a buffer from its first carriage return on. -/
def fromReturn (w : Str) : Str := w.dropWhile (· ≠ '\r')

/-- A newline stands behind a carriage return: the `break` leaves it in `pending`. -/
def lineBehindReturn (w : Str) : Bool := (fromReturn w).contains '\n'

/-- A newline stands between two carriage returns: `pending.split("\r")[-1]` drops it. -/
def lineBetweenReturns (w : Str) : Bool := ((fromReturn w).reverse.dropWhile (· ≠ '\r')).contains '\n'

/-- The text behind the last line break. -/
def unterminated (w : Str) : Str := splitLast '\r' (splitLast '\n' w)

theorem fromReturn_newline {raw : Str} (free : '\r' ∉ raw) (rest : Str) :
    fromReturn (raw ++ '\n' :: rest) = fromReturn rest := by
  induction raw with
  | nil => simp [fromReturn]
  | cons c raw ih =>
    rw [List.mem_cons, not_or] at free
    simpa [fromReturn, Ne.symm free.1] using ih free.2

theorem fromReturn_return {raw : Str} (free : '\r' ∉ raw) (rest : Str) :
    fromReturn (raw ++ '\r' :: rest) = '\r' :: rest := by
  induction raw with
  | nil => simp [fromReturn]
  | cons c raw ih =>
    rw [List.mem_cons, not_or] at free
    simpa [fromReturn, Ne.symm free.1] using ih free.2

/-- What the `else` branch drops holds no newline when none stands between returns. -/
theorem dropped_noLine {raw rest : Str} (plain : Plain raw)
    (between : lineBetweenReturns (raw ++ '\r' :: rest) = false) :
    ∃ dropped, raw ++ '\r' :: rest = dropped ++ '\r' :: splitLast '\r' rest ∧ '\n' ∉ dropped ∧
      '\r' ∉ splitLast '\r' rest := by
  by_cases again : '\r' ∈ rest
  · obtain ⟨a, eq, free⟩ := exists_splitLast again
    refine ⟨raw ++ '\r' :: a, by conv_lhs => rw [eq]
                                 simp, ?_, free⟩
    have cut : ((fromReturn (raw ++ '\r' :: rest)).reverse.dropWhile (· ≠ '\r')) =
        '\r' :: (a.reverse ++ ['\r']) := by
      rw [fromReturn_return plain.2, eq, List.reverse_cons, List.reverse_append, List.reverse_cons,
        List.append_assoc, List.append_assoc, List.dropWhile_append_of_pos]
      · simp
      · intro c member
        have other : c ≠ '\r' := by rintro rfl; exact free (List.mem_reverse.1 member)
        simpa using other
    rw [lineBetweenReturns, cut] at between
    have clean : '\n' ∉ a := by simpa using between
    simp [plain.1, clean]
  · rw [splitLast_of_not_mem again]
    exact ⟨raw, rfl, plain.1, again⟩

theorem splitLast_return (raw rest : Str) : splitLast '\r' (raw ++ '\r' :: rest) = splitLast '\r' rest :=
  splitLast_append_cons _ _ _

section
variable {maxLines : Nat}

theorem read_cur_append {cur : Str} (plain : Plain cur) (lines : List Str) (x w : Str) :
    (read maxLines ⟨cur, lines, x⟩ w).cur = unterminated (cur ++ w) := by
  induction w generalizing cur lines x with
  | nil =>
    rw [read_nil, List.append_nil, unterminated, splitLast_of_not_mem plain.1,
      splitLast_of_not_mem plain.2]
  | cons c w ih =>
    have empty : Plain [] := ⟨List.not_mem_nil, List.not_mem_nil⟩
    rw [read_cons, absorb]
    split
    · rename_i newline
      rw [newline, ih empty, unterminated, unterminated, splitLast_append_cons, List.nil_append]
    · rename_i notNewline
      split
      · rename_i ret
        rw [ret, ih empty, List.nil_append, unterminated, unterminated]
        by_cases later : '\n' ∈ w
        · obtain ⟨a, eq, -⟩ := exists_splitLast later
          conv_rhs => rw [eq, ← List.cons_append, ← List.append_assoc, splitLast_append_cons]
          conv_lhs => rw [eq, splitLast_append_cons]
        · have free : '\n' ∉ cur ++ '\r' :: w := by simp [plain.1, later]
          rw [splitLast_of_not_mem free, splitLast_of_not_mem later, splitLast_append_cons]
      · rename_i notReturn
        have longer : Plain (cur ++ [c]) := by
          constructor
          · simp [plain.1, Ne.symm notNewline]
          · simp [plain.2, Ne.symm notReturn]
        rw [ih longer, List.append_assoc, List.singleton_append]

variable (maxLines) in
theorem read_cur (lines : List Str) (x w : Str) :
    (read maxLines ⟨[], lines, x⟩ w).cur = unterminated w :=
  read_cur_append ⟨List.not_mem_nil, List.not_mem_nil⟩ lines x w

/-- A complete line in front of the rest. -/
theorem read_line {raw : Str} (plain : Plain raw) (lines : List Str) (x rest : Str) :
    read maxLines ⟨[], lines, x⟩ (raw ++ '\n' :: rest) =
      read maxLines ⟨[], (takeLine maxLines raw lines x).1, (takeLine maxLines raw lines x).2⟩ rest := by
  rw [read_append, read_plain plain, read_cons, absorb, if_pos rfl]
  rfl

/-- A discarded text in front of the rest. -/
theorem read_dropped {dropped : Str} (noLine : '\n' ∉ dropped) (lines : List Str) (x rest : Str) :
    read maxLines ⟨[], lines, x⟩ (dropped ++ '\r' :: rest) = read maxLines ⟨[], lines, x⟩ rest := by
  rw [List.append_cons, read_append, read_return noLine]

variable (maxLines) in
/-- With no newline behind it, everything up to the last carriage return is discarded. -/
theorem read_settled {raw rest : Str} (plain : Plain raw)
    (behind : lineBehindReturn (raw ++ '\r' :: rest) = false) :
    unterminated (raw ++ '\r' :: rest) = splitLast '\r' rest ∧ Plain (splitLast '\r' rest) ∧
      ∀ lines x, read maxLines ⟨[], lines, x⟩ (raw ++ '\r' :: rest) = ⟨splitLast '\r' rest, lines, x⟩ := by
  rw [lineBehindReturn, fromReturn_return plain.2] at behind
  have noLine : '\n' ∉ rest := by simpa using behind
  have free : '\n' ∉ raw ++ '\r' :: rest := by simp [plain.1, noLine]
  have cur : unterminated (raw ++ '\r' :: rest) = splitLast '\r' rest := by
    rw [unterminated, splitLast_of_not_mem free, splitLast_append_cons]
  have between : lineBetweenReturns (raw ++ '\r' :: rest) = false := by
    rw [lineBetweenReturns, fromReturn_return plain.2]
    rw [Bool.eq_false_iff]
    intro found
    have member : '\n' ∈ ('\r' :: rest).reverse :=
      (List.dropWhile_suffix _).subset (by simpa using found)
    simp [noLine] at member
  obtain ⟨dropped, same, noDropped, lastFree⟩ := dropped_noLine plain between
  have lastPlain : Plain (splitLast '\r' rest) := by
    refine ⟨fun member => free ?_, lastFree⟩
    rw [same]
    simp [member]
  refine ⟨cur, lastPlain, fun lines x => ?_⟩
  rw [same, read_dropped noDropped, read_plain lastPlain, List.nil_append]

/-! ## The loop -/

variable (maxLines) in
/-- The loop keeps the log lines and the unterminated text of its buffer's reading, and
the last status in case that one waits. -/
theorem feedLoop_reads {fuel : Nat} {s : FeedLoop} (enough : s.pending.length < fuel)
    (between : lineBetweenReturns s.pending = false) (x y : Str) :
    (read maxLines ⟨[], (feedLoop maxLines fuel s).lines, y⟩ (feedLoop maxLines fuel s).pending).lines =
        (read maxLines ⟨[], s.lines, x⟩ s.pending).lines ∧
      unterminated (feedLoop maxLines fuel s).pending = unterminated s.pending ∧
      (completesStatus [] (feedLoop maxLines fuel s).pending = true → completesStatus [] s.pending = true ∧
        (read maxLines ⟨[], (feedLoop maxLines fuel s).lines, y⟩ (feedLoop maxLines fuel s).pending).live =
          (read maxLines ⟨[], s.lines, x⟩ s.pending).live) := by
  induction fuel generalizing s x with
  | zero => omega
  | succ fuel ih =>
    rcases feedTurn_cases maxLines s with ⟨plain, step⟩ | ⟨raw, rest, eq, plain, step⟩ |
      ⟨raw, rest, eq, plain, step⟩
    · simp only [feedLoop, step]
      exact ⟨(read_lines_cur _ _ _ _ _).1, trivial,
        fun waits => ⟨waits, read_live_of_completes _ _ _ _ _ waits⟩⟩
    · simp only [feedLoop, step]
      have between' : lineBetweenReturns rest = false := by
        rw [eq, lineBetweenReturns, fromReturn_newline plain.2] at between
        exact between
      have shorter : rest.length < fuel := by rw [eq] at enough; simp at enough; omega
      obtain ⟨lines, cur, live⟩ := ih (s := ⟨rest, _, _, s.sawCr⟩) shorter between'
        (takeLine maxLines raw s.lines x).2
      refine ⟨?_, ?_, fun waits => ?_⟩
      · rw [eq, read_line plain, lines, takeLine_lines raw s.lines s.live x]
      · rw [cur, eq, unterminated, unterminated, splitLast_append_cons]
      · obtain ⟨completes, live⟩ := live waits
        rw [eq]
        refine ⟨completesStatus_behind (.inl rfl) raw completes, ?_⟩
        rw [read_line plain, live, takeLine_lines raw s.lines s.live x]
    · simp only [feedLoop, step, feedTurn.carriageReturn]
      rw [eq] at between
      obtain ⟨dropped, same, noLine, -⟩ := dropped_noLine plain between
      rw [eq, splitLast_return, same]
      refine ⟨?_, ?_, ?_⟩
      · rw [read_dropped noLine]
        exact (read_lines_cur _ _ _ _ _).1
      · rw [← read_cur maxLines [] [] (dropped ++ _), read_dropped noLine, read_cur]
      · rw [read_dropped noLine]
        exact fun waits => ⟨completesStatus_behind (.inr rfl) dropped waits,
          read_live_of_completes _ _ _ _ _ waits⟩

variable (maxLines) in
/-- With no newline behind a carriage return the loop reads its whole buffer. -/
theorem feedLoop_settled {fuel : Nat} {s : FeedLoop} (enough : s.pending.length < fuel)
    (behind : lineBehindReturn s.pending = false) :
    (feedLoop maxLines fuel s).pending = unterminated s.pending ∧ Plain (unterminated s.pending) ∧
      (feedLoop maxLines fuel s).lines = (read maxLines ⟨[], s.lines, s.live⟩ s.pending).lines ∧
      (feedLoop maxLines fuel s).sawCr = (s.sawCr || s.pending.contains '\r') ∧
      (feedLoop maxLines fuel s).live =
        if '\r' ∈ s.pending ∧ partialText (unterminated s.pending) ≠ [] then
          partialText (unterminated s.pending)
        else (read maxLines ⟨[], s.lines, s.live⟩ s.pending).live := by
  induction fuel generalizing s with
  | zero => omega
  | succ fuel ih =>
    rcases feedTurn_cases maxLines s with ⟨plain, step⟩ | ⟨raw, rest, eq, plain, step⟩ |
      ⟨raw, rest, eq, plain, step⟩
    · have same : unterminated s.pending = s.pending := by
        rw [unterminated, splitLast_of_not_mem plain.1, splitLast_of_not_mem plain.2]
      simp only [feedLoop, step, same, read_plain plain]
      exact ⟨trivial, plain, trivial, by simp [plain.2], by simp [plain.2]⟩
    · have behind' : lineBehindReturn rest = false := by
        rw [eq, lineBehindReturn, fromReturn_newline plain.2] at behind
        exact behind
      have shorter : rest.length < fuel := by rw [eq] at enough; simp at enough; omega
      have cur : unterminated s.pending = unterminated rest := by
        rw [eq, unterminated, unterminated, splitLast_append_cons]
      have returns : '\r' ∈ s.pending ↔ '\r' ∈ rest := by simp [eq, plain.2]
      have next := ih (s := ⟨rest, (takeLine maxLines raw s.lines s.live).1,
        (takeLine maxLines raw s.lines s.live).2, s.sawCr⟩) shorter behind'
      simp only [feedLoop, step, cur, returns, List.contains_eq_mem]
      rw [eq, read_line plain]
      simpa only [List.contains_eq_mem] using next
    · rw [eq] at behind
      obtain ⟨cur, lastPlain, reading⟩ := read_settled maxLines plain behind
      simp only [feedLoop, step, feedTurn.carriageReturn, eq, cur, splitLast_return, reading]
      refine ⟨trivial, lastPlain, trivial, by simp, ?_⟩
      by_cases blank : partialText (splitLast '\r' rest) = []
      · simp [blank]
      · simp [blank]

/-! ## The call -/

variable (maxLines) in
/-- A call keeps what the loop keeps. -/
theorem feedOutput_reads {st : Feed} {chunk : Str} (between : lineBetweenReturns (st.buffer chunk) = false)
    (x y : Str) :
    (read maxLines ⟨[], (feedOutput maxLines st chunk).lines, y⟩ (feedOutput maxLines st chunk).pending).lines =
        (read maxLines ⟨[], st.lines, x⟩ (st.buffer chunk)).lines ∧
      unterminated (feedOutput maxLines st chunk).pending = unterminated (st.buffer chunk) ∧
      (completesStatus [] (feedOutput maxLines st chunk).pending = true →
        completesStatus [] (st.buffer chunk) = true ∧
        (read maxLines ⟨[], (feedOutput maxLines st chunk).lines, y⟩
            (feedOutput maxLines st chunk).pending).live =
          (read maxLines ⟨[], st.lines, x⟩ (st.buffer chunk)).live) := by
  have enough : (FeedLoop.mk (st.buffer chunk) st.lines st.live false).pending.length <
      (st.buffer chunk).length + 1 := Nat.lt_succ_self _
  have loop := feedLoop_reads maxLines enough between x y
  rw [feedOutput]
  split <;> exact loop

/-- The text a call shows at its end. Behind a carriage return any text is shown, else
only a status. -/
def shown (buffer : Str) : Bool :=
  isStatus (partialText (unterminated buffer)) ||
    (buffer.contains '\r' && partialText (unterminated buffer) ≠ [])

variable (maxLines) in
/-- With no newline behind a carriage return, nothing waits for the next call. -/
theorem feedOutput_settled {st : Feed} {chunk : Str} (behind : lineBehindReturn (st.buffer chunk) = false) :
    (feedOutput maxLines st chunk).pending = unterminated (st.buffer chunk) ∧
      Plain (unterminated (st.buffer chunk)) ∧
      (feedOutput maxLines st chunk).live = if shown (st.buffer chunk) then
          partialText (unterminated (st.buffer chunk))
        else (read maxLines ⟨[], st.lines, st.live⟩ (st.buffer chunk)).live := by
  have enough : (FeedLoop.mk (st.buffer chunk) st.lines st.live false).pending.length <
      (st.buffer chunk).length + 1 := Nat.lt_succ_self _
  obtain ⟨pending, plain, -, sawCr, live⟩ := feedLoop_settled maxLines enough behind
  simp only at pending plain sawCr live
  refine ⟨by rw [feedOutput]; split <;> exact pending, plain, ?_⟩
  have isNonempty : isStatus (partialText (unterminated (st.buffer chunk))) = true →
      partialText (unterminated (st.buffer chunk)) ≠ [] ∧ unterminated (st.buffer chunk) ≠ [] := by
    intro status
    constructor
    · intro blank
      rw [blank, isStatus_nil] at status
      cases status
    · intro empty
      rw [empty, partialText, stripAnsi_nil, strip_nil, isStatus_nil] at status
      cases status
  simp only [feedOutput, pending, sawCr, Bool.false_or, List.contains_eq_mem, decide_eq_true_eq, plain.1,
    plain.2, not_false_iff, true_and, shown]
  by_cases returned : '\r' ∈ st.buffer chunk
  · rw [if_neg (by simp [returned])]
    simp only [live, returned, true_and, decide_true, Bool.true_and, Bool.or_eq_true, decide_eq_true_eq]
    by_cases blank : partialText (unterminated (st.buffer chunk)) = []
    · simp [blank, isStatus_nil]
    · simp [blank]
  · simp only [live, returned, not_false_iff, true_and, false_and, if_false, decide_false, Bool.false_and,
      Bool.or_false]
    by_cases status : isStatus (partialText (unterminated (st.buffer chunk))) = true
    · rw [if_pos ⟨(isNonempty status).2, (isNonempty status).1, status⟩, if_pos status]
    · rw [if_neg (fun all => status all.2.2), if_neg status]

end

end GtpLibrary.Player

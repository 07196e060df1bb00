import GtpLibrary.Lib.Runs
import GtpLibrary.Player.LogLines

/-!
# Which log lines of a stream are appended

A run of `_feed_output` is followed next to the stream it was given. What the calls have
appended, with the lines that wait in the pending text, is never more than the lines of the stream
(`Fed.Bounded`), so that a line that is lost once stays lost: at the end all lines are there exactly when no
call lost one and none waits (`logged_iff`).
-/

namespace GtpLibrary.Player

open Lib

/-- The calls, and the stream they were given. -/
structure Fed where
  stream : Str
  st : Feed

def Fed.start : Fed := ⟨[], Feed.initial⟩

/-- A call of `_feed_output`, with no entry deleted. -/
def Fed.step (s : Fed) (chunk : Str) : Option Fed := some ⟨s.stream ++ chunk, feedOutput 0 s.st chunk⟩

/-- The texts that the calls append to `lines`, in order: with 0 for `max_lines` the
`del lines[:-max_lines]` deletes none of them. -/
def logged (chunks : List Str) : List Str := (feedAll 0 Feed.initial chunks).lines

/-- The end of `_play_one_modal`: what is left in `pending` becomes one entry. -/
def finalDrain (st : Feed) : Feed :=
  let text := strip (stripAnsi (st.pending.filter (· ≠ '\r')))
  if strip st.pending ≠ [] ∧ text ≠ [] then { st with lines := st.lines ++ [text] } else st

/-- The lines that belong in the log of a stream, a CRLF read as a newline. -/
def expected (stream : Str) : List Str := logLines (replaceCrlf stream)

/-- The line that the chunk ends, where its newline is cut from the carriage return in front of it. -/
def cutLine (stream chunk : Str) : List Str :=
  if stream.getLast? = some '\r' ∧ chunk.head? = some '\n' then logText (unterminated (replaceCrlf stream.dropLast)) else []

/-- The call loses no line: the chunk does not cut the CRLF of a log line, and none stands between the
carriage returns of the buffer. -/
def Fed.Keeps (s : Fed) (chunk : Str) : Prop :=
  cutLine s.stream chunk = [] ∧ logLines (betweenReturns (s.st.buffer chunk)) = []

/-- What was appended, with what waits. -/
def Fed.kept (s : Fed) : List Str := s.st.lines ++ logLines s.st.pending

/-- No more was appended than the stream says, and both end alike. -/
structure Fed.Bounded (s : Fed) : Prop where
  cur : unterminated s.st.pending = unterminated (replaceCrlf s.stream)
  length_le : s.kept.length ≤ (expected s.stream).length

section
variable {s t : Fed} {chunk stream v w : Str} {chunks : List Str}

/-! ## The unterminated text -/

theorem noLine_unterminated (w : Str) : '\n' ∉ unterminated w := by
  intro member
  by_cases returned : '\r' ∈ splitLast '\n' w
  · obtain ⟨front, whole, -⟩ := exists_splitLast returned
    apply not_mem_splitLast '\n' w
    rw [whole]
    exact List.mem_append_right _ (List.mem_cons_of_mem _ member)
  · rw [unterminated, splitLast_of_not_mem returned] at member
    exact not_mem_splitLast '\n' w member

theorem plain_unterminated (w : Str) : Plain (unterminated w) := ⟨noLine_unterminated w, not_mem_splitLast '\r' _⟩

theorem unterminated_append (v w : Str) : unterminated (v ++ w) = unterminated (unterminated v ++ w) := by
  have cur := read_cur 0 [] [] v
  rw [← read_cur 0 [] [] (v ++ w), read_append, ← read_cur_append (plain_unterminated v), ← cur]

theorem unterminated_line (v w : Str) : unterminated (v ++ '\n' :: w) = unterminated w := by
  rw [unterminated, unterminated, splitLast_append_cons]

theorem unterminated_leftBehind (w : Str) : unterminated (leftBehind w) = unterminated w := by
  by_cases returned : '\r' ∈ w
  · obtain ⟨front, whole, -⟩ := exists_splitLast returned
    rw [leftBehind, if_pos returned]
    conv_rhs => rw [whole, List.append_cons, unterminated_append, unterminated_return, List.nil_append]
  · rw [leftBehind, if_neg returned, unterminated, unterminated, splitLast_of_not_mem (not_mem_splitLast '\n' w)]

/-! ## The stream -/

/-- The two ways a chunk can go on with a stream. -/
theorem replaceCrlf_chunk_cases (stream chunk : Str) :
    cutLine stream chunk = [] ∧ replaceCrlf (stream ++ chunk) = replaceCrlf stream ++ replaceCrlf chunk ∨
    ∃ front rest, stream = front ++ ['\r'] ∧ chunk = '\n' :: rest ∧
      cutLine stream chunk = logText (unterminated (replaceCrlf front)) ∧
      replaceCrlf stream = replaceCrlf front ++ ['\r'] ∧
      replaceCrlf (stream ++ chunk) = replaceCrlf front ++ '\n' :: replaceCrlf rest := by
  by_cases cut : stream.getLast? = some '\r' ∧ chunk.head? = some '\n'
  · right
    obtain ⟨front, rfl⟩ : ∃ front, stream = front ++ ['\r'] := by
      obtain ⟨front, whole⟩ := List.getLast?_eq_some_iff.1 cut.1
      exact ⟨front, whole⟩
    obtain ⟨rest, rfl⟩ : ∃ rest, chunk = '\n' :: rest := by
      cases chunk with
      | nil => cases cut.2
      | cons c rest =>
        cases cut.2
        exact ⟨rest, rfl⟩
    have last : replaceCrlf (front ++ ['\r']) = replaceCrlf front ++ ['\r'] := by
      rw [replaceCrlf_append (by simp)]
      rfl
    refine ⟨front, rest, rfl, rfl, ?_, last, ?_⟩
    · rw [cutLine, if_pos cut, List.dropLast_concat]
    · rw [List.append_assoc, replaceCrlf_append (by simp)]
      rfl
  · left
    exact ⟨if_neg cut, replaceCrlf_append cut⟩

theorem expected_append (stream chunk : Str) : expected (stream ++ chunk) =
    expected stream ++ (cutLine stream chunk ++ logLines (unterminated (replaceCrlf stream) ++ replaceCrlf chunk)) := by
  unfold expected
  rcases replaceCrlf_chunk_cases stream chunk with ⟨uncut, whole⟩ | ⟨front, rest, rfl, rfl, cut, before, whole⟩
  · rw [whole, uncut, logLines_append_unterminated]
    rfl
  · have opening : logLines (replaceCrlf front ++ ['\r']) = logLines (replaceCrlf front) := by
      rw [logLines_append_unterminated, logLines_return (noLine_unterminated _), logLines_noLine List.not_mem_nil,
        List.append_nil]
    have ending : logLines (replaceCrlf ('\n' :: rest)) = logLines (replaceCrlf rest) := by
      exact logLines_line List.not_mem_nil _
    rw [whole, cut, before, opening, unterminated_return, List.nil_append, ending, logLines_append_unterminated,
      logLines_line (noLine_unterminated _)]

theorem unterminated_chunk (stream chunk : Str) : unterminated (replaceCrlf (stream ++ chunk)) =
    unterminated (unterminated (replaceCrlf stream) ++ replaceCrlf chunk) := by
  rcases replaceCrlf_chunk_cases stream chunk with ⟨-, whole⟩ | ⟨front, rest, rfl, rfl, -, before, whole⟩
  · rw [whole, unterminated_append]
  · rw [whole, before, unterminated_return, unterminated_line, List.nil_append]
    exact (unterminated_line [] _).symm

/-! ## Calls -/

/-- What a call does to what is kept: the lines of the chunk come to it, the lines between the
carriage returns go. -/
theorem Fed.Bounded.kept_step (bounded : s.Bounded) (taken : s.step chunk = some t) :
    ∃ front back, t.kept = front ++ back ∧
      s.kept ++ logLines (unterminated (replaceCrlf s.stream) ++ replaceCrlf chunk) =
        front ++ (logLines (betweenReturns (s.st.buffer chunk)) ++ back) := by
  cases taken
  obtain ⟨lines, pending⟩ := feedOutput_takes s.st chunk
  refine ⟨s.st.lines ++ logLines (beforeReturn (s.st.buffer chunk)), logLines (leftBehind (s.st.buffer chunk)), ?_, ?_⟩
  · rw [Fed.kept, lines, pending]
  · rw [List.append_assoc, ← logLines_buffer, Feed.buffer, logLines_append_unterminated s.st.pending, bounded.cur,
      Fed.kept, List.append_assoc]

theorem Fed.Bounded.step (bounded : s.Bounded) (taken : s.step chunk = some t) : t.Bounded := by
  obtain ⟨front, back, kept, before⟩ := bounded.kept_step taken
  cases taken
  constructor
  · dsimp only
    rw [(feedOutput_takes s.st chunk).2, unterminated_leftBehind, Feed.buffer, unterminated_append, bounded.cur,
      unterminated_chunk]
  · have length := congrArg List.length before
    have le := bounded.length_le
    rw [kept]
    dsimp only
    rw [expected_append]
    simp only [List.length_append] at length ⊢
    omega

/-- A call keeps all lines exactly when it loses none; lost lines do not come back. -/
theorem Fed.Bounded.kept_iff (bounded : s.Bounded) (taken : s.step chunk = some t) :
    t.kept = expected t.stream ↔ s.kept = expected s.stream ∧ s.Keeps chunk := by
  obtain ⟨front, back, kept, before⟩ := bounded.kept_step taken
  have le := bounded.length_le
  cases taken
  dsimp only at kept ⊢
  rw [kept, expected_append]
  constructor
  · intro same
    have length := congrArg List.length before
    have length' := congrArg List.length same
    simp only [List.length_append] at length length'
    have uncut : cutLine s.stream chunk = [] := List.eq_nil_of_length_eq_zero (by omega)
    have between : logLines (betweenReturns (s.st.buffer chunk)) = [] := List.eq_nil_of_length_eq_zero (by omega)
    rw [between, List.nil_append, same, uncut, List.nil_append] at before
    exact ⟨List.append_cancel_right before, uncut, between⟩
  · rintro ⟨same, uncut, between⟩
    rw [between, List.nil_append, same] at before
    rw [uncut, List.nil_append, before]

/-! ## Runs -/

theorem run_eq (s : Fed) (chunks : List Str) :
    run Fed.step s chunks = some ⟨s.stream ++ chunks.flatten, feedAll 0 s.st chunks⟩ := by
  induction chunks generalizing s with
  | nil => simp [feedAll]
  | cons chunk chunks ih =>
    rw [run_cons]
    exact (ih ⟨s.stream ++ chunk, feedOutput 0 s.st chunk⟩).trans (by simp [feedAll])

theorem bounded_start : Fed.start.Bounded := ⟨rfl, Nat.le_refl _⟩

/-- The lines that wait at the end of a run, where no call dropped one. -/
theorem waiting_iff (along : Along Fed.step Fed.Keeps Fed.start chunks) :
    logLines (feedAll 0 Feed.initial chunks).pending = [] ↔
      ∀ front chunk, chunks = front ++ [chunk] →
        logLines (fromReturn ((feedAll 0 Feed.initial front).buffer chunk)) = [] := by
  rcases List.eq_nil_or_concat chunks with rfl | ⟨front, chunk, rfl⟩
  · apply iff_of_true rfl
    intro front chunk none
    cases front <;> cases none
  · rw [List.concat_eq_append] at *
    have last := (along_append.1 along).2 _ (run_eq Fed.start front)
    have between : logLines (betweenReturns ((feedAll 0 Feed.initial front).buffer chunk)) = [] := last.1.2
    have lines := logLines_fromReturn ((feedAll 0 Feed.initial front).buffer chunk)
    have pending : (feedAll 0 Feed.initial (front ++ [chunk])).pending =
        leftBehind ((feedAll 0 Feed.initial front).buffer chunk) := by
      rw [feedAll, List.foldl_append]
      exact (feedOutput_takes _ chunk).2
    rw [between, List.nil_append] at lines
    rw [pending, ← lines]
    constructor
    · intro none other last' same
      obtain ⟨fronts, lasts⟩ := List.append_inj' same rfl
      rw [← fronts, ← List.singleton_injective lasts]
      exact none
    · intro all
      exact all front chunk rfl

/-- With `max_lines` the last entries of the same texts are left. -/
theorem feedAll_lines (maxLines : Nat) (chunks : List Str) :
    (feedAll maxLines Feed.initial chunks).lines = trimLines maxLines (logged chunks) := by
  have start : Feed.initial.trim maxLines = Feed.initial := by
    have none : trimLines maxLines [] = [] := if_neg fun both => Nat.not_lt_zero _ both.1
    unfold Feed.trim Feed.initial
    rw [none]
  have trimmed := congrArg Feed.lines (@feedAll_trim maxLines Feed.initial chunks)
  rw [start] at trimmed
  exact trimmed

/-- **The calls append the log lines of their stream exactly when no call loses one, and none
stands behind a carriage return of the last buffer.** -/
theorem logged_iff (chunks : List Str) : logged chunks = expected chunks.flatten ↔
    Along Fed.step Fed.Keeps Fed.start chunks ∧
      ∀ front chunk, chunks = front ++ [chunk] →
        logLines (fromReturn ((feedAll 0 Feed.initial front).buffer chunk)) = [] := by
  have ran : run Fed.step Fed.start chunks = some ⟨chunks.flatten, feedAll 0 Feed.initial chunks⟩ :=
    run_eq Fed.start chunks
  have kept := along_iff_of_step Fed.Bounded (fun bounded taken => bounded.kept_iff taken)
    (fun bounded taken => bounded.step taken) bounded_start ran
  have bounded : (⟨chunks.flatten, feedAll 0 Feed.initial chunks⟩ : Fed).Bounded :=
    run_invariant Fed.Bounded (fun bounded taken => bounded.step taken) bounded_start ran
  have le := bounded.length_le
  constructor
  · intro all
    have length := congrArg List.length all
    rw [Fed.kept, List.length_append] at le
    have none : logLines (feedAll 0 Feed.initial chunks).pending = [] := by
      apply List.eq_nil_of_length_eq_zero
      dsimp only [logged] at *
      omega
    have along := (kept.1 (by rw [Fed.kept, none, List.append_nil]; exact all)).2
    exact ⟨along, (waiting_iff along).1 none⟩
  · rintro ⟨along, last⟩
    have all := kept.2 ⟨rfl, along⟩
    rw [Fed.kept, (waiting_iff along).2 last, List.append_nil] at all
    exact all

/-- The newline of the line comes with the next read. -/
theorem line_lost : logged ["abc\r".toList, "\n".toList] ≠ expected ["abc\r".toList, "\n".toList].flatten := by decide

end

end GtpLibrary.Player

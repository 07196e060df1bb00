import GtpLibrary.Player.FeedRun

/-!
# Runs of `_feed_output` over the chunks of a stream

A call folds the CRLFs of its own chunk, leaves a newline behind a carriage return to
the next call, drops one between two carriage returns, and shows an unterminated text
that later characters may take back. `wellCut` says of a run that none of this counts
at its end; such a run ends with the log lines and the live status that `read` gives
to its stream, however the stream is cut.
-/

namespace GtpLibrary.Player

/-- A stream cut into chunks. -/
structure Cutting (stream : Str) where
  chunks : List Str
  nonempty : ∀ chunk ∈ chunks, chunk ≠ []
  whole : chunks.flatten = stream

theorem Cutting.chunks_nil {stream : Str} (cut : Cutting stream) (none : stream = []) : cut.chunks = [] := by
  apply List.eq_nil_iff_forall_not_mem.2
  intro chunk member
  apply cut.nonempty chunk member
  exact List.flatten_eq_nil_iff.1 (cut.whole.trans none) chunk member

theorem Cutting.chunks_ne_nil {stream : Str} (cut : Cutting stream) (some : stream ≠ []) :
    cut.chunks ≠ [] := by
  intro none
  exact some (cut.whole.symm.trans (by rw [none]; rfl))

/-- The end of the chunk stands inside a CRLF. -/
def cutsCrlf (chunk : Str) (later : List Str) : Bool :=
  chunk.getLast? = some '\r' && later.flatten.head? = some '\n'

/-- The call leaves a live status that does not depend on the one before: the unterminated
text is a status, or a status line was completed and the unterminated text is not shown. -/
def settles (buffer : Str) : Bool :=
  !lineBehindReturn buffer && (isStatus (partialText (unterminated buffer)) ||
    (completesStatus [] buffer && !shown buffer))

/-- The call leaves the live status alone, and no unterminated status was shown before. -/
def quiet (st : Feed) (buffer : Str) : Bool :=
  !lineBehindReturn buffer && !shown buffer && !completesStatus [] buffer &&
    !isStatus (partialText (unterminated st.pending))

/-- Along the run no CRLF is cut and no newline stands between two carriage returns of a
buffer, and at its end no newline waits and the live status is current. `current` says
the latter of the state `st`. -/
def wellCut (maxLines : Nat) : Bool → Feed → List Str → Bool
  | current, _, [] => current
  | current, st, chunk :: later =>
    !cutsCrlf chunk later && !lineBetweenReturns (st.buffer chunk) &&
      wellCut maxLines (settles (st.buffer chunk) || (current && quiet st (st.buffer chunk)))
        (feedOutput maxLines st chunk) later

/-- `wellCut` from a state on: only a newline may wait in it. -/
def Cutting.Well {stream : Str} (cut : Cutting stream) (maxLines : Nat) (st : Feed) : Prop :=
  wellCut maxLines (!st.pending.contains '\n') st cut.chunks = true

instance {stream : Str} (cut : Cutting stream) (maxLines : Nat) (st : Feed) :
    Decidable (cut.Well maxLines st) := inferInstanceAs (Decidable (_ = true))

/-- The live status a reading calls for. -/
def Reading.status (a : Reading) : Str :=
  if isStatus (partialText a.cur) then partialText a.cur else a.live

/-- The state of the calls against the reading of the text they got. -/
structure Tracks (maxLines : Nat) (a : Reading) (current : Bool) (st : Feed) : Prop where
  lines : ∀ y, (read maxLines ⟨[], st.lines, y⟩ st.pending).lines = a.lines
  cur : unterminated st.pending = a.cur
  waiting : completesStatus [] st.pending = true →
    ∀ y, (read maxLines ⟨[], st.lines, y⟩ st.pending).live = a.live
  noLine : current = true → '\n' ∉ st.pending
  live : current = true → isStatus (partialText a.cur) = false → st.live = a.live

section
variable {maxLines : Nat} {a : Reading} {current : Bool} {st : Feed}

theorem Tracks.start (st : Feed) :
    Tracks maxLines (read maxLines ⟨[], st.lines, st.live⟩ st.pending) (!st.pending.contains '\n') st where
  lines _ := (read_lines_cur _ _ _ _ _).1
  cur := (read_cur _ _ _ _).symm
  waiting completes _ := read_live_of_completes _ _ _ _ _ completes
  noLine current := by simpa using current
  live current _ := by
    have noLine : '\n' ∉ st.pending := by simpa using current
    have silent : completesStatus [] st.pending = false := completesStatus_noLine noLine []
    rw [read_live [] st.lines st.lines st.pending st.live st.live, silent]
    rfl

/-- Reading the buffer of a call goes on where the reading stopped. -/
theorem Tracks.buffer (tracks : Tracks maxLines a current st) (chunk x : Str) :
    (read maxLines ⟨[], st.lines, x⟩ (st.buffer chunk)).lines = (read maxLines a (replaceCrlf chunk)).lines ∧
      unterminated (st.buffer chunk) = (read maxLines a (replaceCrlf chunk)).cur ∧
      completesStatus [] (st.buffer chunk) =
        (completesStatus [] st.pending || completesStatus a.cur (replaceCrlf chunk)) ∧
      (completesStatus [] (st.buffer chunk) = true →
        (read maxLines ⟨[], st.lines, x⟩ (st.buffer chunk)).live =
          (read maxLines a (replaceCrlf chunk)).live) := by
  have cur : (read maxLines ⟨[], st.lines, x⟩ st.pending).cur = a.cur := by rw [read_cur, tracks.cur]
  have before : read maxLines ⟨[], st.lines, x⟩ st.pending =
      ⟨a.cur, a.lines, (read maxLines ⟨[], st.lines, x⟩ st.pending).live⟩ := by
    rw [← cur, ← tracks.lines x]
  have completes : completesStatus [] (st.buffer chunk) =
      (completesStatus [] st.pending || completesStatus a.cur (replaceCrlf chunk)) := by
    unfold Feed.buffer
    rw [completesStatus_append maxLines ⟨[], st.lines, x⟩, cur]
  refine ⟨?_, ?_, completes, fun some => ?_⟩
  · rw [Feed.buffer, read_append, before]
    exact (read_lines_cur _ _ _ _ _).1
  · rw [← read_cur maxLines st.lines x, Feed.buffer, read_append, before]
    exact (read_lines_cur _ _ _ _ _).2
  · rw [Feed.buffer, read_append, before]
    by_cases later : completesStatus a.cur (replaceCrlf chunk) = true
    · rw [read_live a.cur a.lines a.lines _ _ a.live, if_pos later]
    · have waits : completesStatus [] st.pending = true := by simpa [later] using completes.symm.trans some
      rw [tracks.waiting waits x]

/-- One call. -/
theorem Tracks.step (tracks : Tracks maxLines a current st) {chunk : Str}
    (between : lineBetweenReturns (st.buffer chunk) = false) :
    Tracks maxLines (read maxLines a (replaceCrlf chunk))
      (settles (st.buffer chunk) || (current && quiet st (st.buffer chunk))) (feedOutput maxLines st chunk) ∧
    ((settles (st.buffer chunk) || (current && quiet st (st.buffer chunk))) = true →
      (feedOutput maxLines st chunk).live = (read maxLines a (replaceCrlf chunk)).status) := by
  obtain ⟨lines, cur, completes, live⟩ := tracks.buffer chunk st.live
  have reads := fun y => feedOutput_reads maxLines between st.live y
  have now : (settles (st.buffer chunk) || (current && quiet st (st.buffer chunk))) = true →
      '\n' ∉ (feedOutput maxLines st chunk).pending ∧
      (feedOutput maxLines st chunk).live = (read maxLines a (replaceCrlf chunk)).status := by
    intro current'
    have behind : lineBehindReturn (st.buffer chunk) = false := by
      simp only [settles, quiet, Bool.or_eq_true, Bool.and_eq_true, Bool.not_eq_true'] at current'
      rcases current' with ⟨behind, -⟩ | ⟨-, ⟨⟨behind, -⟩, -⟩, -⟩ <;> exact behind
    obtain ⟨pending, plain, live'⟩ := feedOutput_settled maxLines behind
    refine ⟨pending ▸ plain.1, ?_⟩
    rw [live', Reading.status, ← cur]
    by_cases status : isStatus (partialText (unterminated (st.buffer chunk))) = true
    · rw [if_pos status, if_pos (by simp [shown, status])]
    · simp only [settles, quiet, status, behind, Bool.not_false, Bool.false_or, Bool.true_and,
        Bool.or_eq_true, Bool.and_eq_true, Bool.not_eq_true'] at current'
      rw [if_neg status]
      rcases current' with ⟨some, hidden⟩ | ⟨current, ⟨hidden, none⟩, unshown⟩
      · rw [hidden, if_neg Bool.false_ne_true, live some]
      · have silent : completesStatus a.cur (replaceCrlf chunk) = false := by
          rw [completes, Bool.or_eq_false_iff] at none
          exact none.2
        rw [tracks.cur] at unshown
        rw [hidden, if_neg Bool.false_ne_true, read_live [] st.lines st.lines _ _ st.live, none,
          if_neg Bool.false_ne_true, tracks.live current unshown,
          read_live a.cur a.lines a.lines _ _ a.live, silent, if_neg Bool.false_ne_true]
  refine ⟨⟨fun y => (reads y).1.trans lines, (reads []).2.1.trans cur, fun waits y => ?_,
    fun current' => (now current').1, fun current' none => ?_⟩, fun current' => (now current').2⟩
  · obtain ⟨completed, same⟩ := (reads y).2.2 waits
    rw [same, live completed]
  · rw [(now current').2, Reading.status, none, if_neg Bool.false_ne_true]

theorem replaceCrlf_chunk {chunk : Str} {later : List Str} (whole : cutsCrlf chunk later = false) :
    replaceCrlf (chunk :: later).flatten = replaceCrlf chunk ++ replaceCrlf later.flatten := by
  rw [List.flatten_cons, replaceCrlf_append]
  simpa [cutsCrlf] using whole

/-- A well cut run ends with what its stream says. -/
theorem Tracks.run {chunks : List Str} (tracks : Tracks maxLines a current st)
    (well : wellCut maxLines current st chunks = true) :
    (feedAll maxLines st chunks).lines = (read maxLines a (replaceCrlf chunks.flatten)).lines ∧
      (chunks ≠ [] →
        (feedAll maxLines st chunks).live = (read maxLines a (replaceCrlf chunks.flatten)).status) := by
  induction chunks generalizing a current st with
  | nil =>
    refine ⟨?_, fun some => absurd rfl some⟩
    exact (read_noLine (tracks.noLine well) ⟨[], st.lines, st.live⟩).symm.trans (tracks.lines st.live)
  | cons chunk later ih =>
    simp only [wellCut, Bool.and_eq_true, Bool.not_eq_true'] at well
    obtain ⟨⟨whole, between⟩, well⟩ := well
    obtain ⟨next, live⟩ := tracks.step between
    obtain ⟨lines, status⟩ := ih next well
    rw [replaceCrlf_chunk whole, read_append]
    refine ⟨lines, fun _ => ?_⟩
    cases later with
    | nil => exact live well
    | cons chunk' later => exact status (List.cons_ne_nil _ _)

/-- **Two well cut runs over one stream end with the same log lines and live status.** -/
theorem feedAll_chunk_independent {stream : Str} (first second : Cutting stream)
    (wellFirst : first.Well maxLines st) (wellSecond : second.Well maxLines st) :
    (feedAll maxLines st first.chunks).lines = (feedAll maxLines st second.chunks).lines ∧
      (feedAll maxLines st first.chunks).live = (feedAll maxLines st second.chunks).live := by
  obtain ⟨lines, live⟩ := (Tracks.start st).run wellFirst
  obtain ⟨lines', live'⟩ := (Tracks.start st).run wellSecond
  rw [first.whole] at lines live
  rw [second.whole] at lines' live'
  refine ⟨lines.trans lines'.symm, ?_⟩
  by_cases none : stream = []
  · rw [first.chunks_nil none, second.chunks_nil none]
  · exact (live (first.chunks_ne_nil none)).trans (live' (second.chunks_ne_nil none)).symm

end

/-- A log line and a status, both cut in the middle. -/
theorem feedAll_chunk_independent_status :
    (feedAll 500 Feed.initial ["ab".toList, "c\n\rA:".toList, " 12".toList]).lines =
        (feedAll 500 Feed.initial ["abc\n\rA: 12".toList]).lines ∧
      (feedAll 500 Feed.initial ["ab".toList, "c\n\rA:".toList, " 12".toList]).live =
        (feedAll 500 Feed.initial ["abc\n\rA: 12".toList]).live :=
  feedAll_chunk_independent
    (⟨["ab".toList, "c\n\rA:".toList, " 12".toList], by decide, by decide⟩ : Cutting "abc\n\rA: 12".toList)
    ⟨["abc\n\rA: 12".toList], by decide, by decide⟩ (by decide) (by decide)

/-- A read that ends between the carriage return and the newline loses the line. -/
theorem feedAll_depends_on_cut : ∃ first second : Cutting "abc\r\n".toList,
    (feedAll 500 Feed.initial first.chunks).lines ≠ (feedAll 500 Feed.initial second.chunks).lines :=
  ⟨⟨["abc\r\n".toList], by decide, by decide⟩, ⟨["abc\r".toList, "\n".toList], by decide, by decide⟩,
    by decide⟩

end GtpLibrary.Player

import GtpLibrary.Player.FeedRun

/-!
# The log lines of a text, and those a call takes from its buffer

`logLines` says which lines of a text belong to the log. A call takes those in front of the first
carriage return of its buffer, drops those between the first and the last, and leaves those
behind the last to the next call (`feedOutput_takes`).
-/

namespace GtpLibrary.Player

/-- The text of a segment: what stands behind its last carriage return. -/
def segmentText (segment : Str) : Str := lineText (splitLast '\r' segment)

/-- A text for the log. -/
def isLogText (text : Str) : Bool := text ≠ [] && !isStatus text

/-- The log texts of the segments that end with a newline, in order. -/
def logLines (w : Str) : List Str := ((w.splitOn '\n').dropLast.map segmentText).filter isLogText

/-- The part of a buffer in front of its first carriage return. -/
def beforeReturn (w : Str) : Str := w.takeWhile (· ≠ '\r')

/-- The part of a buffer from its first to its last carriage return. -/
def betweenReturns (w : Str) : Str := ((fromReturn w).reverse.dropWhile (· ≠ '\r')).reverse

/-- What a call leaves: the text behind the last carriage return, or behind the last newline
where there is none. -/
def leftBehind (w : Str) : Str := if '\r' ∈ w then splitLast '\r' w else splitLast '\n' w

section
variable {raw rest v w : Str} {maxLines : Nat}

/-! ## Segments -/

/-- The text of one segment, where it is for the log. -/
def logText (segment : Str) : List Str := [segmentText segment].filter isLogText

/-- A line is logged in front of those behind it. -/
theorem logLines_line (free : '\n' ∉ raw) (rest : Str) :
    logLines (raw ++ '\n' :: rest) = logText raw ++ logLines rest := by
  have more : rest.splitOn '\n' ≠ [] := List.splitOn_ne_nil '\n' rest
  rw [logLines, List.splitOn_append_cons_self_of_not_mem free, List.dropLast_cons_of_ne_nil more, logText, logLines,
    ← List.filter_append]
  rfl

/-- Without a newline nothing is logged. -/
theorem logLines_noLine (free : '\n' ∉ w) : logLines w = [] := by
  rw [logLines, List.splitOn_eq_singleton free]
  rfl

/-- A text is one unterminated segment, or a terminated one with a text behind it. -/
theorem lines_induction {motive : Str → Prop} (last : ∀ w, '\n' ∉ w → motive w)
    (line : ∀ raw rest, '\n' ∉ raw → motive rest → motive (raw ++ '\n' :: rest)) (w : Str) : motive w := by
  induction n : w.length using Nat.strongRecOn generalizing w with
  | ind n ih =>
    by_cases member : '\n' ∈ w
    · obtain ⟨raw, rest, rfl, free⟩ := List.eq_append_cons_of_mem member
      apply line raw rest free
      apply ih rest.length _ rest rfl
      rw [← n, List.length_append, List.length_cons]
      omega
    · exact last w member

/-- Only the text behind the last carriage return counts. -/
theorem segmentText_return (raw rest : Str) : segmentText (raw ++ '\r' :: rest) = segmentText rest := by
  rw [segmentText, segmentText, splitLast_append_cons]

/-- What stands in front of a carriage return in a segment does not count. -/
theorem logLines_return (free : '\n' ∉ raw) (rest : Str) : logLines (raw ++ '\r' :: rest) = logLines rest := by
  have front : ∀ {segment : Str}, '\n' ∉ segment → '\n' ∉ raw ++ '\r' :: segment := by
    intro segment none
    simp [free, none]
  induction rest using lines_induction with
  | last w none => rw [logLines_noLine (front none), logLines_noLine none]
  | line first rest none ih =>
    rw [← List.cons_append, ← List.append_assoc, logLines_line (front none), logLines_line none, logText, logText,
      segmentText_return]

/-- Two texts are logged one after the other, the open line with the second. -/
theorem logLines_append (v w : Str) : logLines (v ++ w) = logLines v ++ logLines (splitLast '\n' v ++ w) := by
  induction v using lines_induction with
  | last v free => rw [logLines_noLine free, splitLast_of_not_mem free, List.nil_append]
  | line raw rest free ih =>
    rw [List.append_assoc, List.cons_append, logLines_line free, logLines_line free, ih, splitLast_append_cons,
      List.append_assoc]

/-- Behind the last separator there is none. -/
theorem not_mem_splitLast (sep : Char) (s : Str) : sep ∉ splitLast sep s := by
  by_cases member : sep ∈ s
  · obtain ⟨_, -, free⟩ := exists_splitLast member
    exact free
  · rw [splitLast_of_not_mem member]
    exact member

/-- Only the unterminated text matters for what follows. -/
theorem logLines_append_unterminated (v w : Str) :
    logLines (v ++ w) = logLines v ++ logLines (unterminated v ++ w) := by
  rw [logLines_append, unterminated]
  apply congrArg
  have free := not_mem_splitLast '\n' v
  by_cases returned : '\r' ∈ splitLast '\n' v
  · obtain ⟨a, eq, -⟩ := exists_splitLast returned
    have noLine : '\n' ∉ a := by
      intro member
      apply free
      rw [eq]
      exact List.mem_append_left _ member
    conv_lhs => rw [eq, List.append_assoc, List.cons_append]
    exact logLines_return noLine _
  · rw [splitLast_of_not_mem returned]

/-! ## One call -/

/-- A line without a carriage return is logged as it is. -/
theorem takeLine_log (plain : Plain raw) (lines : List Str) (live : Str) :
    (takeLine 0 raw lines live).1 = lines ++ logText raw := by
  have text : segmentText raw = lineText raw := by rw [segmentText, splitLast_of_not_mem plain.2]
  unfold takeLine logText
  dsimp only
  rw [text]
  split_ifs with empty status
  · rw [empty]
    exact (List.append_nil lines).symm
  · rw [List.filter_singleton, isLogText, status, Bool.not_true, Bool.and_false]
    exact (List.append_nil lines).symm
  · have kept : isLogText (lineText raw) = true := by
      simp [isLogText, empty, status]
    rw [List.filter_singleton, kept]
    exact if_neg (by simp)

/-- The first carriage return is in the second text. -/
theorem beforeReturn_append (free : '\r' ∉ v) (w : Str) : beforeReturn (v ++ w) = v ++ beforeReturn w := by
  apply List.takeWhile_append_of_pos
  intro c member
  have other : c ≠ '\r' := by rintro rfl; exact free member
  simpa using other

/-- Without a carriage return all is in front. -/
theorem beforeReturn_of_not_mem (free : '\r' ∉ w) : beforeReturn w = w := by
  have whole := beforeReturn_append free []
  rw [List.append_nil] at whole
  exact whole.trans (List.append_nil w)

/-- An open line is left. -/
theorem leftBehind_plain (plain : Plain w) : leftBehind w = w := by
  rw [leftBehind, if_neg plain.2, splitLast_of_not_mem plain.1]

/-- A whole line is not left. -/
theorem leftBehind_line (plain : Plain raw) (rest : Str) : leftBehind (raw ++ '\n' :: rest) = leftBehind rest := by
  by_cases returned : '\r' ∈ rest
  · obtain ⟨a, eq, -⟩ := exists_splitLast returned
    have inside : '\r' ∈ raw ++ '\n' :: rest := List.mem_append_right _ (List.mem_cons_of_mem _ returned)
    rw [leftBehind, leftBehind, if_pos inside, if_pos returned]
    conv_lhs => rw [eq, ← List.cons_append, ← List.append_assoc, splitLast_append_cons]
    conv_rhs => rw [eq, splitLast_append_cons]
  · have outside : '\r' ∉ raw ++ '\n' :: rest := by simp [plain.2, returned]
    rw [leftBehind, leftBehind, if_neg outside, if_neg returned, splitLast_append_cons]

/-- The loop takes the lines in front of the first carriage return. -/
theorem feedLoop_takes {fuel : Nat} {s : FeedLoop} (enough : s.pending.length < fuel) :
    (feedLoop 0 fuel s).lines = s.lines ++ logLines (beforeReturn s.pending) ∧
      (feedLoop 0 fuel s).pending = leftBehind s.pending := by
  induction fuel generalizing s with
  | zero => omega
  | succ fuel ih =>
    rcases feedTurn_cases 0 s with ⟨plain, step⟩ | ⟨raw, rest, eq, plain, step⟩ | ⟨raw, rest, eq, plain, step⟩
    · simp only [feedLoop, step]
      rw [beforeReturn_of_not_mem plain.2, logLines_noLine plain.1, List.append_nil, leftBehind_plain plain]
      exact ⟨rfl, rfl⟩
    · simp only [feedLoop, step]
      have shorter : rest.length < fuel := by
        rw [eq, List.length_append, List.length_cons] at enough
        omega
      have newline : '\r' ∉ raw ++ ['\n'] := by simp [plain.2]
      obtain ⟨lines, pending⟩ := ih (s := ⟨rest, (takeLine 0 raw s.lines s.live).1,
        (takeLine 0 raw s.lines s.live).2, s.sawCr⟩) shorter
      refine ⟨?_, ?_⟩
      · rw [lines, takeLine_log plain, eq, List.append_cons, beforeReturn_append newline, ← List.append_cons,
          logLines_line plain.1, List.append_assoc]
      · rw [pending, eq, leftBehind_line plain]
    · simp only [feedLoop, step, feedTurn.carriageReturn]
      have inside : '\r' ∈ s.pending := by
        rw [eq]
        exact List.mem_append_right _ (List.mem_cons_self ..)
      have front : beforeReturn s.pending = raw := by
        rw [eq, beforeReturn_append plain.2]
        exact List.append_nil raw
      rw [front, logLines_noLine plain.1, List.append_nil, leftBehind, if_pos inside]
      exact ⟨rfl, rfl⟩

/-- One call, with nothing deleted. -/
theorem feedOutput_takes (st : Feed) (chunk : Str) :
    (feedOutput 0 st chunk).lines = st.lines ++ logLines (beforeReturn (st.buffer chunk)) ∧
      (feedOutput 0 st chunk).pending = leftBehind (st.buffer chunk) := by
  have enough : (FeedLoop.mk (st.buffer chunk) st.lines st.live false).pending.length <
      (st.buffer chunk).length + 1 := Nat.lt_succ_self _
  have loop := feedLoop_takes enough
  rw [feedOutput]
  split <;> exact loop

/-- Behind a carriage return no line is open. -/
theorem unterminated_return (w : Str) : unterminated (w ++ ['\r']) = [] := by
  rw [← read_cur 0 [] [], read_append]
  rfl

/-- The part between the carriage returns, when the last one is known. -/
theorem betweenReturns_eq {front last : Str} (whole : fromReturn w = front ++ '\r' :: last) (free : '\r' ∉ last) :
    betweenReturns w = front ++ ['\r'] := by
  have reversed : (front ++ '\r' :: last).reverse = last.reverse ++ '\r' :: front.reverse := by simp
  have passed : ∀ c ∈ last.reverse, (c ≠ '\r' : Bool) = true := by
    intro c member
    have other : c ≠ '\r' := by
      rintro rfl
      exact free (List.mem_reverse.1 member)
    simpa using other
  rw [betweenReturns, whole, reversed, List.dropWhile_append_of_pos passed]
  simp

/-- The buffer is cut at its first carriage return. -/
theorem before_append_from (w : Str) : beforeReturn w ++ fromReturn w = w := List.takeWhile_append_dropWhile

/-- There is a first carriage return, or none at all. -/
theorem fromReturn_cases (w : Str) : '\r' ∉ w ∧ fromReturn w = [] ∨
    ∃ raw rest, w = raw ++ '\r' :: rest ∧ '\r' ∉ raw ∧ fromReturn w = '\r' :: rest := by
  by_cases returned : '\r' ∈ w
  · right
    obtain ⟨raw, rest, rfl, free⟩ := List.eq_append_cons_of_mem returned
    exact ⟨raw, rest, rfl, free, fromReturn_return free rest⟩
  · left
    have parts := before_append_from w
    rw [beforeReturn_of_not_mem returned, List.append_right_eq_self] at parts
    exact ⟨returned, parts⟩

/-- The lines behind the first carriage return are those the call drops and those it leaves. -/
theorem logLines_fromReturn (w : Str) :
    logLines (fromReturn w) = logLines (betweenReturns w) ++ logLines (leftBehind w) := by
  rcases fromReturn_cases w with ⟨returned, none⟩ | ⟨raw, rest, whole, -, cut⟩
  · rw [betweenReturns, none, leftBehind, if_neg returned, logLines_noLine (not_mem_splitLast '\n' w)]
    rfl
  · have last : leftBehind w = splitLast '\r' ('\r' :: rest) := by
      have inside : '\r' ∈ raw ++ '\r' :: rest := List.mem_append_right _ (List.mem_cons_self ..)
      rw [whole, leftBehind, if_pos inside, splitLast_append_cons]
      exact (splitLast_append_cons '\r' [] rest).symm
    obtain ⟨front, parts, free⟩ := @exists_splitLast '\r' _ (List.mem_cons_self (l := rest))
    rw [betweenReturns_eq (cut.trans parts) free, last, cut]
    conv_lhs => rw [parts, List.append_cons, logLines_append_unterminated, unterminated_return, List.nil_append]

/-- The lines of a buffer are those the call takes, those it drops and those it leaves. -/
theorem logLines_buffer (w : Str) :
    logLines w = logLines (beforeReturn w) ++ (logLines (betweenReturns w) ++ logLines (leftBehind w)) := by
  rw [← logLines_fromReturn]
  conv_lhs => rw [← before_append_from w, logLines_append]
  apply congrArg
  have free := not_mem_splitLast '\n' (beforeReturn w)
  rcases fromReturn_cases w with ⟨-, none⟩ | ⟨raw, rest, -, -, cut⟩
  · rw [none, List.append_nil]
    exact logLines_noLine free
  · rw [cut, logLines_return free]
    exact (logLines_return List.not_mem_nil rest).symm

/-! ## The entries that are deleted -/

/-- With a bound of 0 nothing is cut. -/
theorem trimLines_zero (lines : List Str) : trimLines 0 lines = lines := if_neg fun both => both.2 rfl

/-- The last lines are kept. -/
theorem trimLines_eq_drop (some : maxLines ≠ 0) (lines : List Str) :
    trimLines maxLines lines = lines.drop (lines.length - maxLines) := by
  unfold trimLines
  split_ifs with longer
  · rfl
  · have short : lines.length - maxLines = 0 := by omega
    rw [short, List.drop_zero]

/-- Cutting twice is cutting once. -/
theorem trimLines_append (lines : List Str) (text : Str) :
    trimLines maxLines (trimLines maxLines lines ++ [text]) = trimLines maxLines (lines ++ [text]) := by
  by_cases none : maxLines = 0
  · rw [none, trimLines_zero lines]
  · rw [trimLines_eq_drop none lines, ← List.drop_append_of_le_length (Nat.sub_le ..), trimLines_eq_drop none,
      trimLines_eq_drop none, List.drop_drop]
    congr 1
    rw [List.length_drop, List.length_append, List.length_singleton]
    omega

/-- A line can be taken before or after cutting. -/
theorem takeLine_trim (raw : Str) (lines : List Str) (live : Str) :
    takeLine maxLines raw (trimLines maxLines lines) live =
      (trimLines maxLines (takeLine 0 raw lines live).1, (takeLine 0 raw lines live).2) := by
  unfold takeLine
  dsimp only
  split_ifs
  · rfl
  · rfl
  · rw [trimLines_append, trimLines_zero]

/-- The state with its lines cut. -/
def FeedLoop.trim (maxLines : Nat) (s : FeedLoop) : FeedLoop := { s with lines := trimLines maxLines s.lines }

/-- A turn of the loop can be taken before or after cutting. -/
theorem feedTurn_trim (s : FeedLoop) :
    feedTurn maxLines (s.trim maxLines) = (feedTurn 0 s).map (FeedLoop.trim maxLines) (FeedLoop.trim maxLines) := by
  have line : ∀ raw, takeLine maxLines raw (s.trim maxLines).lines (s.trim maxLines).live =
      (trimLines maxLines (takeLine 0 raw s.lines s.live).1, (takeLine 0 raw s.lines s.live).2) :=
    fun raw => takeLine_trim raw s.lines s.live
  unfold feedTurn
  dsimp only
  rw [show (s.trim maxLines).pending = s.pending from rfl]
  split
  · rfl
  · split_ifs
    · rw [line]
      rfl
    · rfl
  · rfl

/-- The loop can be run before or after cutting. -/
theorem feedLoop_trim (fuel : Nat) (s : FeedLoop) :
    feedLoop maxLines fuel (s.trim maxLines) = (feedLoop 0 fuel s).trim maxLines := by
  induction fuel generalizing s with
  | zero => rfl
  | succ fuel ih =>
    rw [feedLoop, feedLoop, feedTurn_trim]
    cases feedTurn 0 s with
    | inl next => exact ih next
    | inr last => rfl

/-- The state with its lines cut. -/
def Feed.trim (maxLines : Nat) (st : Feed) : Feed := { st with lines := trimLines maxLines st.lines }

/-- A chunk can be fed before or after cutting. -/
theorem feedOutput_trim (st : Feed) (chunk : Str) :
    feedOutput maxLines (st.trim maxLines) chunk = (feedOutput 0 st chunk).trim maxLines := by
  have loop : feedLoop maxLines (((st.trim maxLines).buffer chunk).length + 1)
      ⟨(st.trim maxLines).buffer chunk, (st.trim maxLines).lines, (st.trim maxLines).live, false⟩ =
        (feedLoop 0 ((st.buffer chunk).length + 1) ⟨st.buffer chunk, st.lines, st.live, false⟩).trim maxLines :=
    feedLoop_trim _ ⟨st.buffer chunk, st.lines, st.live, false⟩
  unfold feedOutput
  dsimp only
  rw [loop]
  unfold FeedLoop.trim
  dsimp only
  split_ifs <;> rfl

/-- What `max_lines` deletes does not change what is appended. -/
theorem feedAll_trim (st : Feed) (chunks : List Str) :
    feedAll maxLines (st.trim maxLines) chunks = (feedAll 0 st chunks).trim maxLines := by
  induction chunks generalizing st with
  | nil => rfl
  | cons chunk chunks ih =>
    rw [feedAll, List.foldl_cons, feedOutput_trim]
    exact ih _

end

end GtpLibrary.Player

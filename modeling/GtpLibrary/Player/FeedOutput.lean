import GtpLibrary.Player.PyText

/-!
# `PlayerUI._feed_output`

One call takes the pending text, a chunk just read from the PTY, the log lines (a
list changed in place) and the live status, and leaves the three for the next call.
The `while True` loop runs on fuel; `feedLoop_fuel` shows that the length of the
pending text is enough.
-/

namespace GtpLibrary.Player

/-- What is threaded from one call to the next. -/
structure Feed where
  pending : Str
  lines : List Str
  live : Str
  deriving DecidableEq

/-- The state of `_play_one_modal` before the first read. -/
def Feed.initial : Feed := ⟨[], [], []⟩

/-- `if len(lines) > max_lines: del lines[:-max_lines]`; `-0` is 0 and deletes nothing. -/
def trimLines (maxLines : Nat) (lines : List Str) : List Str :=
  if maxLines < lines.length ∧ maxLines ≠ 0 then lines.drop (lines.length - maxLines) else lines

/-- `_strip_ansi(raw).rstrip()`, the text of a complete line. -/
def lineText (raw : Str) : Str := rstrip (stripAnsi raw)

/-- `_strip_ansi(pending).strip()`, the text of an unterminated line. -/
def partialText (pending : Str) : Str := strip (stripAnsi pending)

/-- A complete line: a status becomes the live text, any other text a log line. -/
def takeLine (maxLines : Nat) (raw : Str) (lines : List Str) (live : Str) : List Str × Str :=
  let text := lineText raw
  if text = [] then (lines, live)
  else if isStatus text then (lines, text)
  else (trimLines maxLines (lines ++ [text]), live)

/-- The locals of the loop. -/
structure FeedLoop where
  pending : Str
  lines : List Str
  live : Str
  sawCr : Bool

/-- One turn of the loop: `inl` goes on, `inr` is the `break`. -/
def feedTurn (maxLines : Nat) (s : FeedLoop) : FeedLoop ⊕ FeedLoop :=
  let nl := s.pending.idxOf? '\n'
  let cr := s.pending.idxOf? '\r'
  match nl, cr with
  | none, none => .inr s
  | some nl, cr =>
    if cr.all (nl < ·) then
      let raw := s.pending.take nl
      let (lines, live) := takeLine maxLines (splitLast '\r' raw) s.lines s.live
      .inl ⟨s.pending.drop (nl + 1), lines, live, s.sawCr || raw.contains '\r'⟩
    else .inr (carriageReturn s)
  | none, some _ => .inr (carriageReturn s)
where
  /-- The `else` branch: what stands behind the last `\r` is the live status. -/
  carriageReturn (s : FeedLoop) : FeedLoop :=
    let pending := splitLast '\r' s.pending
    let text := partialText pending
    ⟨pending, s.lines, if text = [] then s.live else text, true⟩

def feedLoop (maxLines : Nat) : Nat → FeedLoop → FeedLoop
  | 0, s => s
  | fuel + 1, s =>
    match feedTurn maxLines s with
    | .inl s => feedLoop maxLines fuel s
    | .inr s => s

/-- The pending text a call works on. -/
def Feed.buffer (st : Feed) (chunk : Str) : Str := st.pending ++ replaceCrlf chunk

/-- `_feed_output`. -/
def feedOutput (maxLines : Nat) (st : Feed) (chunk : Str) : Feed :=
  let buffer := st.buffer chunk
  let s := feedLoop maxLines (buffer.length + 1) ⟨buffer, st.lines, st.live, false⟩
  let text := partialText s.pending
  if ¬ s.sawCr ∧ s.pending ≠ [] ∧ '\n' ∉ s.pending ∧ '\r' ∉ s.pending ∧ text ≠ [] ∧ isStatus text then
    ⟨s.pending, s.lines, text⟩
  else ⟨s.pending, s.lines, s.live⟩

/-- The drain loop: the chunks in the order they were read. -/
def feedAll (maxLines : Nat) (st : Feed) (chunks : List Str) : Feed :=
  chunks.foldl (feedOutput maxLines) st

end GtpLibrary.Player

import GtpLibrary.Lib.Bytes
import GtpLibrary.Lib.Runs

/-!
# `CustomFileWrapper`

The server calls the methods of the wrapper, and takes steps of the generators that `__iter__`
gave it, in an order of its own. `Phase` says what an order can lead to: a wrapper that is open
has logged no end, and what was closed takes no further part. The line about the finished
download is written by whoever closes first, so it is true exactly when no call of `close` comes
before the last byte (`truthful_iff`).
-/

namespace GtpLibrary.Flask

open Lib

/-- An open file: what it holds, where reading goes on, and whether it has been closed. -/
structure File where
  content : List Byte
  pos : Nat
  closed : Bool

namespace File

/-- `open(file_path, "rb")`. -/
def opened (content : List Byte) : File := ⟨content, 0, false⟩

/-- What has not been read yet. -/
def rest (file : File) : List Byte := file.content.drop file.pos

/-- What `read` takes of the rest; a negative size other than −1 is a `ValueError`. -/
def chunk (file : File) : Option Int → Option (List Byte)
  | none => some file.rest
  | some size =>
    if size = -1 then some file.rest
    else if size < 0 then none
    else some (file.rest.take size.toNat)

/-- `file.read(size)`, without a value where it raises the `ValueError`. -/
def read (file : File) (size : Option Int) : Option (List Byte × File) :=
  if file.closed then none
  else (file.chunk size).map fun chunk => (chunk, { file with pos := file.pos + chunk.length })

/-- `file.close()`. -/
def close (file : File) : File := { file with closed := true }

end File

/-- What can be seen of a wrapper: the lines of its log, the chunks that went to the server,
and the closings of its file. -/
inductive Event
  | info (line : List Char)
  | delivered (chunk : List Byte)
  | fileClosed
  deriving DecidableEq

/-- The object of one response. -/
structure CustomFileWrapper where
  fileObject : File
  clientInfo : List Char
  filename : List Char
  closed : Bool

namespace CustomFileWrapper

/-- The line that is logged in front of the download. -/
def prepared (clientInfo filename : List Char) : List Char :=
  "[".toList ++ clientInfo ++ "] ✔️ Response stream prepared for file: ".toList ++ filename

/-- The line that is logged when the download is taken to be complete. -/
def finished (clientInfo filename : List Char) : List Char :=
  "[".toList ++ clientInfo ++ "] ✅ Client finished downloading file: ".toList ++ filename

/-- `__init__`. -/
def init (fileObject : File) (clientInfo filename : List Char) : CustomFileWrapper × List Event :=
  (⟨fileObject, clientInfo, filename, false⟩, [.info (prepared clientInfo filename)])

/-- The first `close` closes the file and logs that the download has finished. -/
def close (self : CustomFileWrapper) : CustomFileWrapper × List Event :=
  if self.closed then (self, [])
  else ({ self with fileObject := self.fileObject.close, closed := true },
    [.fileClosed, .info (finished self.clientInfo self.filename)])

/-- `read` passes on to the file. -/
def read (self : CustomFileWrapper) (size : Option Int) : CustomFileWrapper × List Event :=
  match self.fileObject.read size with
  | none => (self, [])
  | some (chunk, file) => ({ self with fileObject := file }, [.delivered chunk])

/-- How much the generator reads at a time. -/
def chunkSize : Int := 8192

/-- A step of the generator of `__iter__`, and whether the generator can go on. -/
def next (self : CustomFileWrapper) : (CustomFileWrapper × List Event) × Bool :=
  match self.fileObject.read (some chunkSize) with
  -- the `ValueError` leaves the generator
  | none => ((self, []), false)
  | some (chunk, file) =>
    if chunk = [] then ({ self with fileObject := file }.close, false)
    else (({ self with fileObject := file }, [.delivered chunk]), true)

end CustomFileWrapper

/-! ## What the server does -/

/-- The wrapper, the generators the server got from it (whether each can go on), and what was
seen so far. -/
structure Stream where
  wrapper : CustomFileWrapper
  generators : List Bool
  events : List Event

/-- What the server calls on the wrapper. -/
inductive Call
  | iter
  | next (k : Nat)
  /-- The generator is closed, or no longer referred to. -/
  | discard (k : Nat)
  | read (size : Option Int)
  | close
  deriving DecidableEq

namespace Stream

/-- The wrapper of a file that has been opened. -/
def start (file : File) (clientInfo filename : List Char) : Stream :=
  let (wrapper, events) := CustomFileWrapper.init file clientInfo filename
  ⟨wrapper, [], events⟩

/-- A call has been answered. -/
def after (s : Stream) (result : CustomFileWrapper × List Event) : Stream :=
  { s with wrapper := result.1, events := s.events ++ result.2 }

/-- The answer to a call. -/
def step (s : Stream) : Call → Option Stream
  | .iter => some { s with generators := s.generators ++ [true] }
  | .next k =>
    match s.generators[k]? with
    | none => none
    -- `StopIteration`
    | some false => some s
    | some true => some { s.after s.wrapper.next.1 with generators := s.generators.set k s.wrapper.next.2 }
  | .discard k => if k < s.generators.length then some { s with generators := s.generators.set k false } else none
  | .read size => some (s.after (s.wrapper.read size))
  | .close => some (s.after s.wrapper.close)

end Stream

/-- The bytes that went to the server. -/
def deliveredBytes (events : List Event) : List Byte :=
  events.flatMap fun
    | .delivered chunk => chunk
    | _ => []

/-- The line is logged at most once, and behind all of the content; the file is closed at most once. -/
structure Truthful (content : List Byte) (line : List Char) (events : List Event) : Prop where
  logged_once : events.count (.info line) ≤ 1
  complete : ∀ front back, events = front ++ .info line :: back → deliveredBytes front = content
  closed_once : events.count .fileClosed ≤ 1

/-- A wrapper that is open is closed behind the last byte only. -/
def ClosedInTime (content : List Byte) (s : Stream) (call : Call) : Prop :=
  call = .close → s.wrapper.closed = false → deliveredBytes s.events = content

instance (content : List Byte) (s : Stream) (call : Call) : Decidable (ClosedInTime content s call) :=
  inferInstanceAs (Decidable (_ → _ → _))

section
variable {content chunk : List Byte} {line : List Char} {events front : List Event} {file after : File}
  {self : CustomFileWrapper} {size : Option Int} {clientInfo filename : List Char} {s t : Stream} {call : Call}
  {calls : List Call}

/-! ## The file -/

namespace File

/-- What is taken and what is left make up what was there. -/
theorem chunk_append_drop (taken : file.chunk size = some chunk) :
    chunk ++ file.rest.drop chunk.length = file.rest := by
  have front : ∃ n, chunk = file.rest.take n := by
    unfold File.chunk at taken
    split at taken
    · cases taken
      exact ⟨_, (List.take_length).symm⟩
    · split_ifs at taken
      · cases taken
        exact ⟨_, (List.take_length).symm⟩
      · cases taken
        exact ⟨_, rfl⟩
  obtain ⟨n, rfl⟩ := front
  rw [List.length_take]
  rcases Nat.le_total n file.rest.length with short | long
  · rw [Nat.min_eq_left short, List.take_append_drop]
  · rw [Nat.min_eq_right long, List.take_of_length_le long, List.drop_length, List.append_nil]

/-- A successful `read` takes a front of the rest, and nothing else changes. -/
theorem read_cases (read : file.read size = some (chunk, after)) :
    file.closed = false ∧ after.closed = false ∧ file.chunk size = some chunk ∧ chunk ++ after.rest = file.rest := by
  unfold File.read at read
  split_ifs at read with closed
  obtain ⟨taken, whole, same⟩ := Option.map_eq_some_iff.1 read
  cases same
  have opened := Bool.eq_false_iff.2 closed
  refine ⟨opened, opened, whole, ?_⟩
  rw [← chunk_append_drop whole]
  apply congrArg
  exact List.drop_drop.symm

/-- A closed file cannot be read. -/
theorem read_of_closed (closed : file.closed = true) : file.read size = none := if_pos closed

/-- The generator reads 8192 bytes, or what is left. -/
theorem read_chunkSize (opened : file.closed = false) :
    ∃ after, file.read (some CustomFileWrapper.chunkSize) = some (file.rest.take 8192, after) := by
  have taken : file.chunk (some CustomFileWrapper.chunkSize) = some (file.rest.take 8192) := rfl
  rw [File.read, if_neg (Bool.eq_false_iff.1 opened), taken]
  exact ⟨_, rfl⟩

/-- An empty chunk is the end of the file. -/
theorem rest_of_read_nil (read : file.read (some CustomFileWrapper.chunkSize) = some ([], after)) :
    file.rest = [] := by
  obtain ⟨opened, -, -, -⟩ := read_cases read
  obtain ⟨other, full⟩ := read_chunkSize opened
  rw [full, Option.some.injEq, Prod.mk.injEq] at read
  rcases List.take_eq_nil_iff.1 read.1 with size | rest
  · cases size
  · exact rest

end File

/-! ## The log -/

/-- The two lines differ. -/
theorem prepared_ne_finished : CustomFileWrapper.prepared clientInfo filename ≠
    CustomFileWrapper.finished clientInfo filename := by
  intro same
  unfold CustomFileWrapper.prepared CustomFileWrapper.finished at same
  rw [List.append_cancel_right_eq, List.append_cancel_left_eq] at same
  revert same
  decide

/-- No end was logged, and the file was not closed. -/
structure Quiet (line : List Char) (events : List Event) : Prop where
  unlogged : .info line ∉ events
  unclosed : .fileClosed ∉ events

/-- Delivering logs nothing. -/
theorem Quiet.delivered (quiet : Quiet line events) : Quiet line (events ++ [.delivered chunk]) := by
  constructor
  · intro member
    rcases List.mem_append.1 member with early | last
    · exact quiet.unlogged early
    · cases List.mem_singleton.1 last
  · intro member
    rcases List.mem_append.1 member with early | last
    · exact quiet.unclosed early
    · cases List.mem_singleton.1 last

/-- Bytes are delivered in order. -/
theorem deliveredBytes_append (events more : List Event) :
    deliveredBytes (events ++ more) = deliveredBytes events ++ deliveredBytes more := List.flatMap_append

/-- A chunk is delivered behind the others. -/
theorem deliveredBytes_delivered (events : List Event) (chunk : List Byte) :
    deliveredBytes (events ++ [.delivered chunk]) = deliveredBytes events ++ chunk := by
  rw [deliveredBytes_append]
  apply congrArg
  exact List.append_nil chunk

/-- As long as nothing is logged, nothing untrue is. -/
theorem Quiet.truthful (quiet : Quiet line events) : Truthful content line events := by
  constructor
  · rw [List.count_eq_zero_of_not_mem quiet.unlogged]
    exact Nat.zero_le 1
  · rintro front back rfl
    exact absurd (List.mem_append_right _ (List.mem_cons_self ..)) quiet.unlogged
  · rw [List.count_eq_zero_of_not_mem quiet.unclosed]
    exact Nat.zero_le 1

/-- A log with an end is true when the end stands behind the content. -/
theorem Quiet.truthful_end (quiet : Quiet line front) :
    Truthful content line (front ++ [.fileClosed, .info line]) ↔ deliveredBytes front = content := by
  have closing : deliveredBytes (front ++ [.fileClosed]) = deliveredBytes front := by
    rw [deliveredBytes_append]
    exact List.append_nil _
  constructor
  · intro truthful
    rw [← closing]
    apply truthful.complete (front ++ [Event.fileClosed]) []
    rw [List.append_assoc]
    rfl
  · intro whole
    constructor
    · rw [List.count_append, List.count_eq_zero_of_not_mem quiet.unlogged]
      simp
    · intro before back split
      have early : Event.info line ∉ front ++ [Event.fileClosed] := by
        intro member
        rcases List.mem_append.1 member with inside | last
        · exact quiet.unlogged inside
        · cases List.mem_singleton.1 last
      have joined : front ++ [Event.fileClosed, Event.info line] =
          (front ++ [Event.fileClosed]) ++ Event.info line :: [] := by
        rw [List.append_assoc]
        rfl
      rw [joined] at split
      obtain ⟨rfl, -, -⟩ := (List.append_cons_inj_of_notMem early (List.not_mem_nil)).1 split
      rw [closing, whole]
    · rw [List.count_append, List.count_eq_zero_of_not_mem quiet.unclosed]
      simp

/-! ## Steps -/

/-- The wrapper is open: what was delivered and the rest of the file are the content. -/
structure Live (content : List Byte) (line : List Char) (s : Stream) : Prop where
  unclosed : s.wrapper.closed = false
  opened : s.wrapper.fileObject.closed = false
  named : CustomFileWrapper.finished s.wrapper.clientInfo s.wrapper.filename = line
  whole : deliveredBytes s.events ++ s.wrapper.fileObject.rest = content
  quiet : Quiet line s.events

/-- The wrapper was closed, and the end logged, behind the events of `front`. -/
structure Over (line : List Char) (front : List Event) (s : Stream) : Prop where
  closed : s.wrapper.closed = true
  shut : s.wrapper.fileObject.closed = true
  events : s.events = front ++ [.fileClosed, .info line]
  quiet : Quiet line front

/-- A new wrapper has delivered nothing. -/
theorem live_start : Live content (CustomFileWrapper.finished clientInfo filename)
    (.start (.opened content) clientInfo filename) := by
  refine ⟨rfl, rfl, rfl, rfl, ?_, ?_⟩
  · intro member
    have same := List.mem_singleton.1 member
    rw [Event.info.injEq] at same
    exact prepared_ne_finished same.symm
  · intro member
    cases List.mem_singleton.1 member

/-- `close` ends the response. -/
theorem Live.close (live : Live content line s) : Over line s.events (s.after s.wrapper.close) := by
  have closing : s.wrapper.close = ({ s.wrapper with fileObject := s.wrapper.fileObject.close, closed := true },
      [.fileClosed, .info line]) := by
    rw [CustomFileWrapper.close, live.unclosed, live.named]
    rfl
  rw [closing]
  exact ⟨rfl, rfl, rfl, live.quiet⟩

/-- A chunk that goes to the server. -/
theorem Live.deliver (live : Live content line s) (read : s.wrapper.fileObject.read size = some (chunk, after)) :
    Live content line (s.after ({ s.wrapper with fileObject := after }, [.delivered chunk])) := by
  obtain ⟨-, opened, -, rest⟩ := File.read_cases read
  refine ⟨live.unclosed, opened, live.named, ?_, live.quiet.delivered⟩
  have delivered := deliveredBytes_delivered s.events chunk
  change deliveredBytes (s.events ++ [.delivered chunk]) ++ after.rest = content
  rw [delivered, List.append_assoc, rest]
  exact live.whole

/-- The generators do not matter. -/
theorem Live.generators (live : Live content line s) {generators : List Bool} :
    Live content line { s with generators := generators } :=
  ⟨live.unclosed, live.opened, live.named, live.whole, live.quiet⟩

/-- Generators come and go. -/
theorem Over.generators (past : Over line front s) {generators : List Bool} :
    Over line front { s with generators := generators } := ⟨past.closed, past.shut, past.events, past.quiet⟩

/-- A call without effect. -/
theorem after_nothing : s.after (s.wrapper, []) = s := by
  unfold Stream.after
  dsimp only
  rw [List.append_nil]

/-- The generator closes the wrapper behind the last chunk only. -/
theorem Live.next (live : Live content line s) : Live content line (s.after s.wrapper.next.1) ∨
    Over line s.events (s.after s.wrapper.next.1) ∧ deliveredBytes s.events = content := by
  unfold CustomFileWrapper.next
  split
  · left
    rw [after_nothing]
    exact live
  · rename_i chunk after read
    split_ifs with nothing
    · right
      subst nothing
      have ended := File.rest_of_read_nil read
      obtain ⟨-, opened, -, rest⟩ := File.read_cases read
      have moved : Live content line { s with wrapper := { s.wrapper with fileObject := after } } := by
        refine ⟨live.unclosed, opened, live.named, ?_, live.quiet⟩
        rw [← live.whole, ← rest]
        rfl
      constructor
      · exact moved.close
      · rw [← live.whole, ended, List.append_nil]
    · left
      exact live.deliver read

/-- Reading delivers the next bytes of the file. -/
theorem Live.read (live : Live content line s) : Live content line (s.after (s.wrapper.read size)) := by
  unfold CustomFileWrapper.read
  split
  · rw [after_nothing]
    exact live
  · rename_i chunk after read
    exact live.deliver read

/-- What a call leads to while the wrapper is open. -/
theorem Live.step (live : Live content line s) (step : s.step call = some t) :
    Live content line t ∧ call ≠ .close ∨
      Over line s.events t ∧ (call = .close ∨ deliveredBytes s.events = content) := by
  cases call with
  | iter =>
    cases step
    exact .inl ⟨live.generators, nofun⟩
  | next k =>
    unfold Stream.step at step
    dsimp only at step
    split at step
    · cases step
    · cases step
      exact .inl ⟨live, nofun⟩
    · cases step
      rcases live.next with goes | ⟨past, whole⟩
      · exact .inl ⟨goes.generators, nofun⟩
      · exact .inr ⟨past.generators, .inr whole⟩
  | discard k =>
    unfold Stream.step at step
    dsimp only at step
    split_ifs at step
    cases step
    exact .inl ⟨live.generators, nofun⟩
  | read size =>
    cases step
    exact .inl ⟨live.read, nofun⟩
  | close =>
    cases step
    exact .inr ⟨live.close, .inl rfl⟩

/-- No method of a closed wrapper does anything. -/
theorem Over.step (past : Over line front s) (step : s.step call = some t) : Over line front t := by
  have unread : ∀ size, s.wrapper.fileObject.read size = none := fun _ => File.read_of_closed past.shut
  cases call with
  | iter =>
    cases step
    exact past.generators
  | next k =>
    unfold Stream.step at step
    dsimp only at step
    split at step
    · cases step
    · cases step
      exact past
    · cases step
      rw [CustomFileWrapper.next, unread]
      dsimp only
      rw [after_nothing]
      exact past.generators
  | discard k =>
    unfold Stream.step at step
    dsimp only at step
    split_ifs at step
    cases step
    exact past.generators
  | read size =>
    cases step
    rw [CustomFileWrapper.read, unread]
    dsimp only
    rw [after_nothing]
    exact past
  | close =>
    cases step
    rw [CustomFileWrapper.close, if_pos past.closed, after_nothing]
    exact past

/-! ## Runs -/

/-- Where a stream can be. -/
def Phase (content : List Byte) (line : List Char) (s : Stream) : Prop :=
  Live content line s ∨ ∃ front, Over line front s

/-- A response stays in one of its phases. -/
theorem Phase.step (phase : Phase content line s) (step : s.step call = some t) : Phase content line t := by
  rcases phase with live | ⟨front, past⟩
  · rcases live.step step with ⟨live, -⟩ | ⟨past, -⟩
    · exact .inl live
    · exact .inr ⟨s.events, past⟩
  · exact .inr ⟨front, past.step step⟩

/-- A call keeps the log true when it does not close too early, and a false log stays false. -/
theorem Phase.truthful_step (phase : Phase content line s) (step : s.step call = some t) :
    Truthful content line t.events ↔ Truthful content line s.events ∧ ClosedInTime content s call := by
  rcases phase with live | ⟨front, past⟩
  · have before : Truthful content line s.events := live.quiet.truthful
    rcases live.step step with ⟨after, other⟩ | ⟨past, closing⟩
    · have later : Truthful content line t.events := after.quiet.truthful
      exact iff_of_true later ⟨before, fun call => absurd call other⟩
    · rw [past.events, live.quiet.truthful_end]
      constructor
      · intro whole
        exact ⟨before, fun _ _ => whole⟩
      · rintro ⟨-, inTime⟩
        rcases closing with call | whole
        · exact inTime call live.unclosed
        · exact whole
  · rw [(past.step step).events, past.events]
    constructor
    · intro truthful
      refine ⟨truthful, fun _ unclosed => ?_⟩
      rw [past.closed] at unclosed
      cases unclosed
    · exact And.left

/-- In every order of calls the log is true in the end, and so it was before, exactly when
`close` never came in front of the last byte. -/
theorem truthful_iff (content : List Byte) (clientInfo filename : List Char) (calls : List Call)
    (ran : run Stream.step (.start (.opened content) clientInfo filename) calls = some s) :
    Truthful content (CustomFileWrapper.finished clientInfo filename) s.events ↔
      Along Stream.step (ClosedInTime content) (.start (.opened content) clientInfo filename) calls := by
  have phase : Phase content (CustomFileWrapper.finished clientInfo filename)
      (.start (.opened content) clientInfo filename) := .inl live_start
  rw [along_iff_of_step (Phase content (CustomFileWrapper.finished clientInfo filename))
    (fun phase step => phase.truthful_step step) (fun phase step => phase.step step) phase ran]
  exact and_iff_right live_start.quiet.truthful

/-- A download that goes to its end. -/
theorem truthful_to_the_end : Truthful (text "ab") (CustomFileWrapper.finished [] ['f'])
    [.info (CustomFileWrapper.prepared [] ['f']), .delivered (text "ab"), .fileClosed,
      .info (CustomFileWrapper.finished [] ['f'])] := by
  have ran : run Stream.step (.start (.opened (text "ab")) [] ['f']) [.iter, .next 0, .next 0, .close] =
      some ⟨⟨⟨text "ab", 2, true⟩, [], ['f'], true⟩, [false],
        [.info (CustomFileWrapper.prepared [] ['f']), .delivered (text "ab"), .fileClosed,
          .info (CustomFileWrapper.finished [] ['f'])]⟩ := rfl
  exact (truthful_iff (text "ab") [] ['f'] _ ran).2 (by decide)

/-- The client leaves after two of three bytes, and the server closes the wrapper. -/
theorem early_close : ∃ s, run Stream.step (.start (.opened (text "abc")) [] ['f']) [.read (some 2), .close] = some s ∧
    ¬ Truthful (text "abc") (CustomFileWrapper.finished [] ['f']) s.events := by
  refine ⟨_, rfl, fun truthful => ?_⟩
  have whole := truthful.complete [.info (CustomFileWrapper.prepared [] ['f']), .delivered (text "ab"), .fileClosed] [] rfl
  revert whole
  decide

end

end GtpLibrary.Flask

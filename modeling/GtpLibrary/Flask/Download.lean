import GtpLibrary.Flask.FileWrapper
import GtpLibrary.Flask.ServeStatic

/-!
# Downloads

The server takes chunks from the generator of a response until the generator stops or the client is
gone, and closes the response. What has gone to the client then, and what the log says, is known from
the file and the number of chunks that were asked for (`downloads`).
-/

namespace GtpLibrary.Flask

open Lib

/-- What the server does with a wrapper when it asks `n` times for a chunk. -/
def download (n : Nat) : List Call := .iter :: List.replicate n (.next 0) ++ [.close]

def chunkAt (content : List Byte) (k : Nat) : List Byte := (content.drop (8192 * k)).take 8192

/-- The chunks that were given when `n` were asked for. -/
def chunks (content : List Byte) (n : Nat) : List (List Byte) := ((List.range n).map (chunkAt content)).filter (· ≠ [])

/-- The generator has come to the end of the file. -/
def ended (content : List Byte) (n : Nat) : Bool := content.length + 8192 ≤ 8192 * n

/-- The log, when the wrapper was asked for `n` chunks. -/
def logged (content : List Byte) (clientInfo filename : List Char) (n : Nat) (closed : Bool) : List Event :=
  .info (CustomFileWrapper.prepared clientInfo filename) :: (chunks content n).map .delivered ++
    if closed then [.fileClosed, .info (CustomFileWrapper.finished clientInfo filename)] else []

/-- The wrapper and its generator then. -/
def asked (content : List Byte) (clientInfo filename : List Char) (n : Nat) (closed : Bool) : Stream where
  wrapper := ⟨⟨content, min (8192 * n) content.length, closed⟩, clientInfo, filename, closed⟩
  generators := [!ended content n]
  events := logged content clientInfo filename n closed

section
variable {content : List Byte} {clientInfo filename : List Char} {n k : Nat} {s t : Stream} {site : Site} {place : Path}
  {mimetype disposition : List Char} {contentLength : Nat}

/-! ## The chunks -/

theorem chunks_succ (content : List Byte) (n : Nat) :
    chunks content (n + 1) = chunks content n ++ if chunkAt content n = [] then [] else [chunkAt content n] := by
  unfold chunks
  rw [List.range_succ, List.map_append, List.filter_append]
  congr 1
  split <;> simp [*]

theorem chunkAt_eq_nil_iff : chunkAt content k = [] ↔ content.length ≤ 8192 * k := by
  rw [chunkAt, List.take_eq_nil_iff, List.drop_eq_nil_iff]
  omega

/-- The generator has seen the end when the last chunk it read was empty. -/
theorem ended_succ : ended content (n + 1) = decide (chunkAt content n = []) := by
  rw [ended, decide_eq_decide, chunkAt_eq_nil_iff]
  omega

theorem chunkAt_of_ended (before : ended content n = true) : chunkAt content n = [] := by
  have past : content.length + 8192 ≤ 8192 * n := of_decide_eq_true before
  exact chunkAt_eq_nil_iff.2 (by omega)

/-- The chunks are the front of the file. -/
theorem flatten_chunks (content : List Byte) (n : Nat) : (chunks content n).flatten = content.take (8192 * n) := by
  induction n with
  | zero => rfl
  | succ n ih =>
    have last : (if chunkAt content n = [] then [] else [chunkAt content n]).flatten = chunkAt content n := by
      split
      · rename_i none
        exact none.symm
      · exact List.append_nil _
    rw [chunks_succ, List.flatten_append, ih, last, Nat.mul_succ, List.take_add]
    rfl

/-! ## The steps -/

/-- What is read next is the next chunk. -/
theorem read_asked (content : List Byte) (n : Nat) :
    (File.mk content (min (8192 * n) content.length) false).read (some CustomFileWrapper.chunkSize) =
      some (chunkAt content n, ⟨content, min (8192 * (n + 1)) content.length, false⟩) := by
  have rest : content.drop (min (8192 * n) content.length) = content.drop (8192 * n) := by
    rcases Nat.le_total (8192 * n) content.length with inside | behind
    · rw [Nat.min_eq_left inside]
    · rw [Nat.min_eq_right behind, List.drop_length, List.drop_eq_nil_of_le behind]
  have moved : min (8192 * n) content.length + (chunkAt content n).length = min (8192 * (n + 1)) content.length := by
    rw [chunkAt, List.length_take, List.length_drop]
    omega
  have taken : (File.mk content (min (8192 * n) content.length) false).chunk (some CustomFileWrapper.chunkSize) =
      some (chunkAt content n) := by
    rw [chunkAt, ← rest]
    rfl
  rw [File.read, if_neg Bool.false_ne_true, taken, Option.map_some, moved]

theorem logged_succ (content : List Byte) (clientInfo filename : List Char) (n : Nat) :
    logged content clientInfo filename (n + 1) false = logged content clientInfo filename n false ++
      if chunkAt content n = [] then [] else [.delivered (chunkAt content n)] := by
  unfold logged
  rw [chunks_succ, List.map_append]
  split <;> simp

theorem logged_closed (content : List Byte) (clientInfo filename : List Char) (n : Nat) :
    logged content clientInfo filename n true = logged content clientInfo filename n false ++
      [.fileClosed, .info (CustomFileWrapper.finished clientInfo filename)] := by
  simp [logged]

/-- A generator that can go on. -/
theorem step_going (going : s.generators = [true]) :
    s.step (.next 0) = some { s.after s.wrapper.next.1 with generators := [s.wrapper.next.2] } := by
  rw [Stream.step, going]
  rfl

/-- A generator that has come to the end gives nothing more. -/
theorem step_ended (clientInfo filename : List Char) (before : ended content n = true) :
    (asked content clientInfo filename n true).step (.next 0) = some (asked content clientInfo filename (n + 1) true) := by
  have past : content.length + 8192 ≤ 8192 * n := of_decide_eq_true before
  have none := chunkAt_of_ended before
  have after : ended content (n + 1) = true := by rw [ended_succ, decide_eq_true none]
  have place : min (8192 * (n + 1)) content.length = min (8192 * n) content.length := by omega
  have same : logged content clientInfo filename (n + 1) true = logged content clientInfo filename n true := by
    rw [logged_closed, logged_closed, logged_succ, if_pos none, List.append_nil]
  unfold asked
  rw [after, place, same, before]
  rfl

/-- The empty chunk is the end: the generator closes the wrapper. -/
theorem asked_last (clientInfo filename : List Char) (none : chunkAt content n = []) :
    asked content clientInfo filename (n + 1) true =
      ⟨⟨⟨content, min (8192 * (n + 1)) content.length, true⟩, clientInfo, filename, true⟩, [false],
        logged content clientInfo filename n false ++
          [.fileClosed, .info (CustomFileWrapper.finished clientInfo filename)]⟩ := by
  have after : ended content (n + 1) = true := by rw [ended_succ, decide_eq_true none]
  have log : logged content clientInfo filename (n + 1) true = logged content clientInfo filename n false ++
      [.fileClosed, .info (CustomFileWrapper.finished clientInfo filename)] := by
    rw [logged_closed, logged_succ, if_pos none, List.append_nil]
  rw [asked, after, log]
  rfl

theorem asked_more (clientInfo filename : List Char) (more : chunkAt content n ≠ []) :
    asked content clientInfo filename (n + 1) false =
      ⟨⟨⟨content, min (8192 * (n + 1)) content.length, false⟩, clientInfo, filename, false⟩, [true],
        logged content clientInfo filename n false ++ [.delivered (chunkAt content n)]⟩ := by
  have after : ended content (n + 1) = false := by rw [ended_succ, decide_eq_false more]
  rw [asked, after, logged_succ, if_neg more]
  rfl

/-- One more chunk is asked for. -/
theorem step_next (content : List Byte) (clientInfo filename : List Char) (n : Nat) :
    (asked content clientInfo filename n (ended content n)).step (.next 0) =
      some (asked content clientInfo filename (n + 1) (ended content (n + 1))) := by
  cases before : ended content n with
  | true =>
    have none := chunkAt_of_ended before
    rw [step_ended clientInfo filename before, ended_succ, decide_eq_true none]
  | false =>
    have going : (asked content clientInfo filename n false).generators = [true] := by
      unfold asked
      rw [before]
      rfl
    have read : (asked content clientInfo filename n false).wrapper.fileObject.read (some CustomFileWrapper.chunkSize) =
      some (chunkAt content n, ⟨content, min (8192 * (n + 1)) content.length, false⟩) := read_asked content n
    rw [step_going going, CustomFileWrapper.next, read, ended_succ]
    dsimp only
    by_cases none : chunkAt content n = []
    · rw [if_pos none, decide_eq_true none, asked_last clientInfo filename none]
      rfl
    · rw [if_neg none, decide_eq_false none, asked_more clientInfo filename none]
      rfl

theorem run_nexts (content : List Byte) (clientInfo filename : List Char) (n : Nat) :
    run Stream.step (asked content clientInfo filename 0 false) (List.replicate n (.next 0)) =
      some (asked content clientInfo filename n (ended content n)) := by
  induction n with
  | zero =>
    have first : ended content 0 = false := decide_eq_false (by omega)
    rw [first]
    rfl
  | succ n ih =>
    rw [List.replicate_succ', run_append, ih, Option.bind_some, run_cons, step_next]
    rfl

theorem step_close (content : List Byte) (clientInfo filename : List Char) (n : Nat) (closed : Bool) :
    (asked content clientInfo filename n closed).step .close = some (asked content clientInfo filename n true) := by
  cases closed with
  | true =>
    have past : (asked content clientInfo filename n true).wrapper.closed = true := rfl
    rw [Stream.step, CustomFileWrapper.close, if_pos past, after_nothing]
  | false =>
    unfold asked
    rw [logged_closed]
    rfl

/-- **Downloads.** However often the server asks for a chunk, the client is sent the front of the file in
chunks of 8192 bytes, the last one excepted, and all that `Content-Length` announces exactly when it asks
for as many; and behind that the file is closed, and the download logged as finished, once. -/
theorem downloads (served : serveStatic site filename = .file place content mimetype contentLength disposition)
    (clientInfo : List Char) (n : Nat) :
    ∃ s, run Stream.step (.start (.opened content) clientInfo filename) (download n) = some s ∧
      s.events = .info (CustomFileWrapper.prepared clientInfo filename) :: (chunks content n).map .delivered ++
        [.fileClosed, .info (CustomFileWrapper.finished clientInfo filename)] ∧
      (chunks content n).flatten = content.take (8192 * n) ∧
      ((chunks content n).flatten.length = contentLength ↔ contentLength ≤ 8192 * n) := by
  have size : contentLength = content.length := by
    unfold serveStatic at served
    dsimp only at served
    split at served
    · cases served
    · split_ifs at served
      cases served
      rfl
  have first : (Stream.start (.opened content) clientInfo filename).step .iter =
      some (asked content clientInfo filename 0 false) := by
    have going : ended content 0 = false := decide_eq_false (by omega)
    rw [asked, going, Nat.mul_zero, Nat.zero_min]
    rfl
  have ran : run Stream.step (.start (.opened content) clientInfo filename) (download n) =
      some (asked content clientInfo filename n true) := by
    rw [download, List.cons_append, run_cons, first, Option.bind_some, run_append, run_nexts, Option.bind_some, run_cons,
      step_close]
    rfl
  refine ⟨_, ran, rfl, flatten_chunks content n, ?_⟩
  rw [flatten_chunks, List.length_take, size]
  omega

end

/-- The client of `example.txt` is gone before the end was seen. -/
theorem downloads_example : ∃ s, run Stream.step (.start (.opened (text "This is an example")) "10.0.2.2:4".toList
      "example.txt".toList) (download 1) = some s ∧
    deliveredBytes s.events = text "This is an example" := by
  have served : serveStatic appSite "example.txt".toList = .file ["app".toList, "static".toList, "example.txt".toList]
      (text "This is an example") "application/octet-stream".toList 18 "inline; filename=\"example.txt\"".toList := by
    rfl
  obtain ⟨s, ran, events, -⟩ := downloads served "10.0.2.2:4".toList 1
  refine ⟨s, ran, ?_⟩
  rw [events]
  rfl

end GtpLibrary.Flask

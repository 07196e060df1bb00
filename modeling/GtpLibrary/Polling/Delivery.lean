import GtpLibrary.Polling.PollLoop

/-!
# What the poll loop delivers

What was echoed, what the current pass is about to echo and what it has left in the files
to be read later make up one list of lines, `Poll.total`. The loop's own steps keep it,
and an append adds its message at the end, except in two windows: between the copy and
the rename, when the file that is appended to is about to be replaced, and behind a
`head` that found the file empty, when `sed` deletes the first line nobody has read.
-/

namespace GtpLibrary.Polling

open Lib

def Phase.output : Phase → List Byte
  | .start => []
  | .headed output | .copied output | .finished output => output

/-- The line that the current pass is going to echo. -/
def Poll.inFlight (s : Poll) : List (List Byte) := echoData (execResult s.phase.output)

/-- The lines that the later passes are going to read. -/
def Poll.queued (s : Poll) : List (List Byte) :=
  match s.phase with
  | .start | .finished _ => linesOf (s.dataFile.getD [])
  | .headed _ => (linesOf (s.dataFile.getD [])).tail
  | .copied _ => linesOf (s.tmpDataFile.getD [])

def Poll.total (s : Poll) : List (List Byte) := s.echoed ++ s.inFlight ++ s.queued

/-- A message appended in this state is lost. -/
def Poll.Lossy (s : Poll) : Prop :=
  match s.phase with
  | .copied _ => True
  | .headed _ => s.dataFile.getD [] = []
  | .start | .finished _ => False

instance (s : Poll) : Decidable s.Lossy := by
  unfold Poll.Lossy
  split <;> infer_instance

/-- What a step appends outside the two windows. -/
def keeps (s : Poll) : Label → List (List Byte)
  | .post m => if s.Lossy then [] else [m.body]
  | _ => []

/-- The messages of a run that were appended outside the two windows. -/
def kept : Poll → List Label → List (List Byte)
  | _, [] => []
  | s, label :: labels => keeps s label ++ (step s label).elim [] fun t => kept t labels

/-- The files hold whole messages, and the pass has read one of them or none. -/
structure Lined (s : Poll) (queue : List Message) : Prop where
  data : s.dataFile.getD [] = text queue
  output : s.phase.output = [] ∨ ∃ m : Message, s.phase.output = m.bytes
  headed : ∀ output, s.phase = .headed output → s.dataFile ≠ none
  copied : ∀ output, s.phase = .copied output → ∃ rest, s.tmpDataFile = some (text rest)

section
variable {s t : Poll} {label : Label} {queue : List Message}

theorem Lined.post (lined : Lined s queue) (m : Message) :
    Lined { s with dataFile := filePutContents s.dataFile m.bytes } (queue ++ [m]) where
  data := by
    rw [filePutContents, lined.data, text_append, text_cons, text_nil, List.append_nil]
    rfl
  output := lined.output
  headed _ _ := Option.some_ne_none _
  copied := lined.copied

/-- The queue grows by what is appended outside the windows. -/
theorem Lined.queued_post (lined : Lined s queue) (m : Message) :
    Poll.queued { s with dataFile := filePutContents s.dataFile m.bytes } =
      s.queued ++ if s.Lossy then [] else [m.body] := by
  have after := (lined.post m).data
  have before := lined.data
  cases phase : s.phase with
  | start | finished output =>
    simp only [Poll.queued, Poll.Lossy, phase, if_false] at *
    rw [after, before, linesOf_text, linesOf_text, List.map_append]
    rfl
  | copied output => simp [Poll.queued, Poll.Lossy, phase]
  | headed output =>
    simp only [Poll.queued, Poll.Lossy, phase, after, before, linesOf_text, text_eq_nil]
    cases queue with
    | nil => rfl
    | cons first queue => simp

/-- One step of the loop keeps the total. -/
theorem Lined.step_poll (lined : Lined s queue) (poll : label.IsPoll) (taken : step s label = some t) :
    (∃ queue', Lined t queue') ∧ t.total = s.total := by
  cases step_taken taken with
  | post m => exact poll.elim
  | @headReads content tmp echoed =>
    have data : content = text queue := lined.data
    subst data
    refine ⟨⟨queue, rfl, ?_, fun _ _ => Option.some_ne_none _, by simp⟩, ?_⟩
    · cases queue with
      | nil => exact .inl rfl
      | cons m queue => exact .inr ⟨m, headLine_text (m :: queue)⟩
    · simp only [Poll.total, Poll.inFlight, Poll.queued, Phase.output, headLine_text, linesOf_text,
        Option.getD_some]
      cases queue with
      | nil => rfl
      | cons m queue => simp [execResult_nil, execResult_bytes, echoData_body]
  | headFails =>
    exact ⟨⟨queue, lined.data, .inl rfl, by simp, by simp⟩, rfl⟩
  | @sedCopies content tmp output echoed =>
    have data : content = text queue := lined.data
    subst data
    refine ⟨⟨queue, rfl, lined.output, by simp, fun _ _ => ⟨queue.tail, by rw [withoutFirstLine_text]⟩⟩, ?_⟩
    simp [Poll.total, Poll.inFlight, Poll.queued, Phase.output, withoutFirstLine_text, linesOf_text,
      List.map_tail]
  | sedFails => exact absurd rfl (lined.headed _ rfl)
  | mvRenames =>
    obtain ⟨rest, eq⟩ := lined.copied _ rfl
    cases eq
    exact ⟨⟨rest, rfl, lined.output, by simp, by simp⟩, rfl⟩
  | mvFails =>
    obtain ⟨rest, eq⟩ := lined.copied _ rfl
    cases eq
  | @echoes file tmp output echoed =>
    refine ⟨⟨queue, lined.data, .inl rfl, by simp, by simp⟩, ?_⟩
    rw [Poll.total, Poll.total, Poll.inFlight, Phase.output, execResult_nil]
    simp [Poll.inFlight, Poll.queued, Phase.output]

/-- One step. -/
theorem Lined.step (lined : Lined s queue) (taken : step s label = some t) :
    (∃ queue', Lined t queue') ∧ t.total = s.total ++ keeps s label := by
  cases label with
  | post m =>
    cases taken
    refine ⟨⟨_, lined.post m⟩, ?_⟩
    have grows := lined.queued_post m
    simp only [Poll.total, Poll.inFlight, grows, keeps, List.append_assoc]
  | head | sed | mv | echo =>
    obtain ⟨next, total⟩ := lined.step_poll (by trivial) taken
    exact ⟨next, total.trans (List.append_nil _).symm⟩

/-- A run of the loop and its posters. -/
theorem Lined.run {labels : List Label} (lined : Lined s queue) (ran : Lib.run Polling.step s labels = some t) :
    (∃ queue', Lined t queue') ∧ t.total = s.total ++ kept s labels := by
  induction labels generalizing s queue with
  | nil =>
    cases ran
    exact ⟨⟨queue, lined⟩, by simp [kept]⟩
  | cons label labels ih =>
    obtain ⟨next, taken, later⟩ := run_cons_eq_some.1 ran
    obtain ⟨⟨queue', lined'⟩, total⟩ := lined.step taken
    obtain ⟨final, total'⟩ := ih lined' later
    exact ⟨final, by rw [total', total, kept, taken, Option.elim_some, List.append_assoc]⟩

/-! ## Draining -/

/-- Steps that the loop needs to echo what is there now. -/
def Poll.work (s : Poll) : Nat :=
  4 * s.queued.length + match s.phase with
    | .start => 0
    | .headed _ => 3
    | .copied _ => 2
    | .finished _ => 1

theorem Poll.total_done (done : s.work = 0) : s.total = s.echoed := by
  obtain ⟨file, tmp, phase, echoed⟩ := s
  cases phase with
  | start =>
    have empty : Poll.queued ⟨file, tmp, .start, echoed⟩ = [] :=
      List.length_eq_zero_iff.1 (by simp only [Poll.work] at done; omega)
    rw [Poll.total, empty, Poll.inFlight, Phase.output, execResult_nil, echoData_nil, List.append_nil,
      List.append_nil]
  | headed | copied | finished => simp only [Poll.work] at done; omega

/-- As long as there is work the loop does some of it. -/
theorem Lined.progress (lined : Lined s queue) (work : s.work ≠ 0) :
    ∃ label next, label.IsPoll ∧ Polling.step s label = some next ∧ next.work < s.work := by
  obtain ⟨file, tmp, phase, echoed⟩ := s
  cases phase with
  | start =>
    cases file with
    | none => exact absurd rfl work
    | some content =>
      have data : content = text queue := lined.data
      subst data
      refine ⟨.head, _, trivial, rfl, ?_⟩
      simp only [Poll.work, Poll.queued, Option.getD_some, linesOf_text] at work ⊢
      cases queue with
      | nil => exact absurd rfl work
      | cons m queue =>
        simp only [List.map_cons, List.tail_cons, List.length_cons, List.length_map]
        omega
  | headed output =>
    cases file with
    | none => exact absurd rfl (lined.headed _ rfl)
    | some content =>
      have data : content = text queue := lined.data
      subst data
      refine ⟨.sed, _, trivial, rfl, ?_⟩
      simp [Poll.work, Poll.queued, withoutFirstLine_text, linesOf_text]
  | copied output =>
    obtain ⟨rest, eq⟩ := lined.copied _ rfl
    cases eq
    exact ⟨.mv, _, trivial, rfl, by simp [Poll.work, Poll.queued]⟩
  | finished output => exact ⟨.echo, _, trivial, rfl, by simp [Poll.work, Poll.queued]⟩

/-- Left alone, the loop echoes all that is there. -/
theorem Lined.drains (lined : Lined s queue) :
    ∃ more t, (∀ label ∈ more, label.IsPoll) ∧ Lib.run Polling.step s more = some t ∧ t.echoed = s.total := by
  induction work : s.work using Nat.strongRecOn generalizing s queue with
  | ind n ih =>
    by_cases done : s.work = 0
    · exact ⟨[], s, by simp, rfl, (Poll.total_done done).symm⟩
    · obtain ⟨label, next, poll, taken, less⟩ := lined.progress done
      obtain ⟨⟨queue', lined'⟩, total⟩ := lined.step_poll poll taken
      obtain ⟨more, t, polls, ran, echoed⟩ := ih next.work (work ▸ less) lined' rfl
      refine ⟨label :: more, t, ?_, run_cons_eq_some.2 ⟨next, taken, ran⟩, echoed.trans total⟩
      rintro l (⟨⟩ | ⟨_, member⟩)
      · exact poll
      · exact polls l member

theorem Lined.initial (queue : Option (List Message)) (tmp : Option (List Byte)) :
    Lined (.initial queue tmp) (queue.getD []) where
  data := by cases queue <;> rfl
  output := .inl rfl
  headed _ := by simp [Poll.initial]
  copied _ := by simp [Poll.initial]

theorem total_initial (queue : Option (List Message)) (tmp : Option (List Byte)) :
    (Poll.initial queue tmp).total = (queue.getD []).map Message.body := by
  have data := (Lined.initial queue tmp).data
  rw [← linesOf_text, ← data]
  rfl

/-- **Delivery.** Whatever the interleaving, the lines echoed, about to be echoed and still
in the files are those of the start and the messages appended outside the two windows, in
order and each once; and the loop, left alone, echoes exactly these. -/
theorem delivers_kept {queue : Option (List Message)} {tmp : Option (List Byte)} {labels : List Label}
    (ran : Lib.run Polling.step (.initial queue tmp) labels = some t) :
    t.total = (queue.getD []).map Message.body ++ kept (.initial queue tmp) labels ∧
      ∃ more u, (∀ label ∈ more, label.IsPoll) ∧ Lib.run Polling.step t more = some u ∧
        u.echoed = (queue.getD []).map Message.body ++ kept (.initial queue tmp) labels := by
  obtain ⟨⟨queue', lined⟩, total⟩ := (Lined.initial queue tmp).run ran
  rw [total_initial] at total
  obtain ⟨more, u, polls, ran', echoed⟩ := lined.drains
  exact ⟨total, more, u, polls, ran', echoed.trans total⟩

end

def messageA : Message := ⟨[byte 'a'], by decide, by decide, by decide⟩

def messageB : Message := ⟨[byte 'b'], by decide, by decide, by decide⟩

/-- An append between two passes is kept. -/
theorem delivers_kept_ab :
    ∃ t, run step (.initial none none) [.post messageA, .head, .sed, .mv, .post messageB, .echo] = some t ∧
      t.total = [] ++ [messageA.body, messageB.body] :=
  ⟨_, rfl, (delivers_kept (show run step (.initial none none)
    [.post messageA, .head, .sed, .mv, .post messageB, .echo] = some _ from rfl)).1⟩

/-- An append between the copy and the rename is not echoed, and not there any more. -/
theorem append_before_rename_lost :
    ∃ t, run step (.initial none none) [.post messageA, .head, .sed, .post messageB, .mv, .echo] = some t ∧
      t.phase = .start ∧ t.dataFile = some [] ∧ t.echoed = [messageA.body] :=
  ⟨_, rfl, rfl, by decide, by decide⟩

end GtpLibrary.Polling

import GtpLibrary.Lib.Components
import GtpLibrary.Polling.Delivery

/-!
# `client.php`

The page of a reader. Its one request is answered by the poll loop, whose answer never ends; each
`onprogress` shows what has come since the one before. The browser reads the bytes that have arrived as
a text in its own time, so what it makes of them is a parameter, of which the page needs that a later
byte does not change the text in front of it.
-/

namespace GtpLibrary.Polling.Client

open Lib

/-- What a string of the page consists of. -/
abbrev CodeUnit := BitVec 16

def literal (s : String) : List CodeUnit := s.toList.map fun c => BitVec.ofNat 16 c.toNat

/-- `substring`: what lies behind the end is the end, and the smaller one comes first. -/
def substring (s : List CodeUnit) (start finish : Nat) : List CodeUnit :=
  let a := min start s.length
  let b := min finish s.length
  (s.take (max a b)).drop (min a b)

/-- What is appended to `#logArea`. -/
def say (data : List CodeUnit) : List CodeUnit := data ++ literal "<br/>"

/-- `say("update="+update)`. -/
def shown (update : List CodeUnit) : List CodeUnit := say (literal "update=" ++ update)

structure Page where
  poll : Poll
  /-- How many of the bytes that were echoed have arrived. -/
  arrived : Nat
  responseSeek : Nat
  logArea : List (List CodeUnit)

inductive Label
  /-- A step of a poster or of the poll loop. -/
  | server (label : Polling.Label)
  | arrive (bytes : Nat)
  | progress

def Label.server? : Label → Option Polling.Label
  | .server label => some label
  | _ => none

section
variable (decode : List Byte → List CodeUnit)

/-- `xhrReader.response`. -/
def Page.response (s : Page) : List CodeUnit := decode (s.poll.echoed.flatten.take s.arrived)

def step (s : Page) : Label → Option Page
  | .server label => (Polling.step s.poll label).map fun poll => { s with poll }
  | .arrive bytes =>
    if s.arrived + bytes ≤ s.poll.echoed.flatten.length then some { s with arrived := s.arrived + bytes } else none
  | .progress =>
    let response := s.response decode
    let update := substring response s.responseSeek response.length
    some { s with responseSeek := response.length, logArea := s.logArea ++ [shown update] }

/-- The page when its request is sent, before the loop's first pass. -/
def Page.initial (queue : Option (List Message)) (tmp : Option (List Byte)) : Page := ⟨.initial queue tmp, 0, 0, []⟩

/-- What stands in the data file and what is posted outside the two windows. -/
def posted (queue : Option (List Message)) (tmp : Option (List Byte)) (labels : List Label) : List (List Byte) :=
  (queue.getD []).map Message.body ++ kept (.initial queue tmp) (labels.filterMap Label.server?)

/-- What the page has shown, put together. -/
def Page.Shows (s : Page) (text : List CodeUnit) : Prop :=
  ∃ updates : List (List CodeUnit), s.logArea = updates.map shown ∧ updates.flatten = text

/-- The page shows the front of its response, one update a fragment. -/
structure Reads (s : Page) (updates : List (List CodeUnit)) : Prop where
  arrived : s.arrived ≤ s.poll.echoed.flatten.length
  logArea : s.logArea = updates.map shown
  caught : CaughtUp updates s.responseSeek (s.response decode)

end

section
variable {decode : List Byte → List CodeUnit} {s t : Page} {label : Label} {labels : List Label}
  {updates : List (List CodeUnit)} {queue : Option (List Message)} {tmp : Option (List Byte)}

theorem substring_length {text : List CodeUnit} {seek : Nat} (within : seek ≤ text.length) :
    substring text seek text.length = text.drop seek := by
  simp only [substring, Nat.min_self, Nat.min_eq_left within, Nat.max_eq_right within, List.take_length]

/-- A step of the loop appends to what it has echoed. -/
theorem echoed_grows {before after : Poll} {l : Polling.Label} (taken : Polling.step before l = some after) :
    before.echoed.flatten <+: after.echoed.flatten := by
  cases step_taken taken with
  | echoes =>
    rw [List.flatten_append]
    exact List.prefix_append ..
  | _ => exact List.prefix_refl _

theorem Reads.initial (queue : Option (List Message)) (tmp : Option (List Byte)) :
    Reads decode (.initial queue tmp) [] where
  arrived := Nat.zero_le _
  logArea := rfl
  caught := .start _

theorem Reads.progress (reads : Reads decode s updates) (taken : step decode s .progress = some t) :
    t.response decode = s.response decode ∧ t.poll = s.poll ∧ t.responseSeek = (s.response decode).length ∧
      Reads decode t (updates ++ [(s.response decode).drop s.responseSeek]) := by
  cases taken
  refine ⟨rfl, rfl, rfl, reads.arrived, ?_, reads.caught.take⟩
  simp only [substring_length reads.caught.within, reads.logArea, List.map_append, List.map_singleton]

/-- One step keeps what is shown, or adds an update. -/
theorem Reads.step (streams : ∀ {a b}, a <+: b → decode a <+: decode b) (reads : Reads decode s updates)
    (taken : Client.step decode s label = some t) : ∃ updates', Reads decode t updates' := by
  cases label with
  | server l =>
    obtain ⟨poll, moved, rfl⟩ := Option.map_eq_some_iff.1 taken
    have grows := echoed_grows moved
    refine ⟨updates, reads.arrived.trans grows.length_le, reads.logArea, reads.caught.grows (streams ?_)⟩
    obtain ⟨rest, eq⟩ := grows
    simp only [← eq, List.take_append_of_le_length reads.arrived]
    exact List.prefix_refl _
  | arrive bytes =>
    obtain ⟨fits, same⟩ := Option.ite_none_right_eq_some.1 taken
    cases same
    refine ⟨updates, fits, reads.logArea, reads.caught.grows (streams ?_)⟩
    exact List.take_prefix_take_left (Nat.le_add_right ..)
  | progress => exact ⟨_, (reads.progress taken).2.2.2⟩

theorem Reads.run (streams : ∀ {a b}, a <+: b → decode a <+: decode b) (reads : Reads decode s updates)
    (ran : Lib.run (Client.step decode) s labels = some t) : ∃ updates', Reads decode t updates' := by
  refine run_invariant (fun s => ∃ updates, Reads decode s updates) ?_ ⟨updates, reads⟩ ran
  rintro s t label ⟨updates, reads⟩ taken
  exact reads.step streams taken

/-- The poster and the loop do not see the page. -/
theorem server_run (ran : run (Client.step decode) s labels = some t) :
    run Polling.step s.poll (labels.filterMap Label.server?) = some t.poll := by
  have moves : ∀ {s t : Page} {label}, Client.step decode s label = some t →
      run Polling.step s.poll label.server?.toList = some t.poll := by
    intro s t label taken
    cases label with
    | server l =>
      obtain ⟨poll, moved, rfl⟩ := Option.map_eq_some_iff.1 taken
      exact run_cons_eq_some.2 ⟨poll, moved, rfl⟩
    | arrive bytes =>
      obtain ⟨-, same⟩ := Option.ite_none_right_eq_some.1 taken
      cases same
      rfl
    | progress => cases taken; rfl
  exact run_component moves ran

/-- Nobody posts. -/
def Label.IsQuiet : Label → Prop
  | .server label => label.IsPoll
  | _ => True

/-- What the loop does alone, it does beside the page. -/
theorem run_server {events : List Polling.Label} {poll : Poll} (ran : run Polling.step s.poll events = some poll) :
    run (Client.step decode) s (events.map Label.server) = some { s with poll } := by
  have moves : ∀ {s : Page} {l poll}, Polling.step s.poll l = some poll →
      Client.step decode s (.server l) = some { s with poll } := by
    intro s l poll taken
    simp only [Client.step, taken, Option.map_some]
  exact run_of_component (fun s poll => { s with poll }) moves (fun _ _ => rfl) (fun _ _ _ => rfl) (fun _ => rfl) ran

/-- When everything is echoed, it arrives, and the next event shows it. -/
theorem Reads.catches_up (streams : ∀ {a b}, a <+: b → decode a <+: decode b) (reads : Reads decode s updates) :
    ∃ last t, (∀ label ∈ last, Label.IsQuiet label) ∧ Lib.run (Client.step decode) s last = some t ∧
      t.Shows (decode s.poll.echoed.flatten) := by
  have all : s.arrived + (s.poll.echoed.flatten.length - s.arrived) = s.poll.echoed.flatten.length :=
    Nat.add_sub_cancel' reads.arrived
  have arrives : Client.step decode s (.arrive (s.poll.echoed.flatten.length - s.arrived)) =
      some { s with arrived := s.poll.echoed.flatten.length } := by
    simp only [Client.step, all, Nat.le_refl, if_true]
  obtain ⟨updates, reads⟩ := reads.step streams arrives
  obtain ⟨response, -, seek, reads⟩ := reads.progress rfl
  refine ⟨[.arrive _, .progress], _, by simp [Label.IsQuiet], run_cons_eq_some.2 ⟨_, arrives, rfl⟩,
    _, reads.logArea, ?_⟩
  rw [reads.caught.taken, seek, response, List.take_length, Page.response, List.take_length]

/-- **From a post to the page.** What the page has shown, put together, is the front of the text of the
messages posted outside the two windows, in their order and each once, however the events of the reader
fall, and the position to read on from is within the response; and left alone the page comes to show all of it. -/
theorem shows_posted (streams : ∀ {a b}, a <+: b → decode a <+: decode b)
    (ran : run (Client.step decode) (.initial queue tmp) labels = some s) :
    (∃ front, s.Shows front ∧ front <+: decode (posted queue tmp labels).flatten) ∧
      s.responseSeek ≤ (s.response decode).length ∧ ∃ more t, (∀ label ∈ more, label.IsQuiet) ∧ run (Client.step decode) s more = some t ∧
        t.Shows (decode (posted queue tmp labels).flatten) := by
  obtain ⟨updates, reads⟩ : ∃ updates, Reads decode s updates :=
    (Reads.initial queue tmp).run streams ran
  obtain ⟨⟨queue', lined⟩, total⟩ := (Lined.initial queue tmp).run (server_run ran)
  rw [total_initial] at total
  refine ⟨?_, reads.caught.within, ?_⟩
  · refine ⟨updates.flatten, ⟨updates, reads.logArea, rfl⟩, reads.caught.infix.trans (streams ?_)⟩
    calc s.poll.echoed.flatten.take s.arrived
      _ <+: s.poll.echoed.flatten := List.take_prefix ..
      _ <+: s.poll.total.flatten := by
        simp only [Poll.total, List.flatten_append, List.append_assoc]
        exact List.prefix_append ..
      _ = (posted queue tmp labels).flatten := congrArg List.flatten total
  · obtain ⟨polls, poll, quiet, drained, echoed⟩ := lined.drains
    have server : run (Client.step decode) s (polls.map .server) = some { s with poll } := run_server drained
    obtain ⟨_, reads'⟩ : ∃ updates, Reads decode { s with poll } updates :=
      reads.run streams server
    obtain ⟨last, t, quiet', caught, shows⟩ := reads'.catches_up streams
    refine ⟨polls.map .server ++ last, t, ?_, by rw [run_append, server]; exact caught, ?_⟩
    · intro label member
      obtain member | member := List.mem_append.1 member
      · obtain ⟨l, there, rfl⟩ := List.mem_map.1 member
        exact quiet l there
      · exact quiet' label member
    · rw [posted, ← total, ← echoed]
      exact shows

end

/-- A text of one byte a character. -/
def latin1 (bytes : List Byte) : List CodeUnit := bytes.map fun c => c.setWidth 16

/-- Two messages and an event between them. -/
theorem shows_posted_ab :
    ∃ s, run (step latin1) (.initial none none) [.server (.post messageA), .server .head, .server .sed, .server .mv,
        .server .echo, .arrive 1, .progress, .server (.post messageB)] = some s ∧
      ∃ front, s.Shows front ∧ front <+: latin1 [byte 'a', byte 'b'] :=
  ⟨_, rfl, (shows_posted (fun grown => grown.map _) (show run (step latin1) (.initial none none)
    [.server (.post messageA), .server .head, .server .sed, .server .mv, .server .echo, .arrive 1, .progress,
      .server (.post messageB)] = some _ from rfl)).1⟩

end GtpLibrary.Polling.Client

import GtpLibrary.Lib.Bytes
import GtpLibrary.Lib.Runs

/-!
# `server.php` and the poll loop of `dataInterface.php`

The files are byte strings, `none` where a file does not exist. One pass of the loop is
the shell line `head -n 1 data && sed 1d data > data.tmp && mv data.tmp data`, whose
three commands each run at once, and the return of `exec`; an append of `server.php`
may come between any two of these steps.
-/

namespace GtpLibrary.Polling

open Lib

/-- The end of a line. -/
def newline : Byte := byte '\n'

/-- `isspace`: the blank and the codes from the tab to the carriage return. -/
def isBlank (c : Byte) : Bool := c = 0x20 || (0x09 ≤ c && c ≤ 0x0d)

/-- A text without the blanks at its end. -/
def rtrim (s : List Byte) : List Byte := (s.reverse.dropWhile isBlank).reverse

/-- The lines of a text. What stands behind the last newline is a line when it is not empty. -/
def linesOf (s : List Byte) : List (List Byte) :=
  let parts := s.splitOn newline
  if parts.getLast? = some [] then parts.dropLast else parts

/-- `head -n 1`. -/
def headLine (s : List Byte) : List Byte :=
  s.takeWhile (· != newline) ++ (s.dropWhile (· != newline)).take 1

/-- `sed 1d`. -/
def withoutFirstLine (s : List Byte) : List Byte := (s.dropWhile (· != newline)).drop 1

/-- What `exec` returns for the output of its command: the last line without the blanks
at its end. -/
def execResult (output : List Byte) : List Byte := rtrim ((linesOf output).getLastD [])

/-- `if($data !== '') echo $data;` -/
def echoData (data : List Byte) : List (List Byte) := if data ≠ [] then [data] else []

/-- A message as the posters send it: one line, not empty, without blanks at its end. -/
structure Message where
  body : List Byte
  nonempty : body ≠ []
  oneLine : newline ∉ body
  trimmed : rtrim body = body

/-- `$_POST['data']`. -/
def Message.bytes (m : Message) : List Byte := m.body ++ [newline]

/-- How far the pass of the loop is, with what `head` printed. -/
inductive Phase
  | start
  | headed (output : List Byte)
  | copied (output : List Byte)
  | finished (output : List Byte)
  deriving DecidableEq

/-- The two files, the point the script is at, and what has been echoed. -/
structure Poll where
  dataFile : Option (List Byte)
  tmpDataFile : Option (List Byte)
  phase : Phase
  echoed : List (List Byte)
  deriving DecidableEq

/-- A message is posted, or the script goes on. -/
inductive Label
  | post (m : Message)
  | head
  | sed
  | mv
  | echo

/-- `file_put_contents(DATA_FILE, $_POST['data'], FILE_APPEND)`. -/
def filePutContents (file : Option (List Byte)) (data : List Byte) : Option (List Byte) :=
  some (file.getD [] ++ data)

/-- A post, or the next command of the script. -/
def step (s : Poll) : Label → Option Poll
  | .post m => some { s with dataFile := filePutContents s.dataFile m.bytes }
  | .head =>
    match s.phase, s.dataFile with
    | .start, some content => some { s with phase := .headed (headLine content) }
    -- `head` fails, and the shell line ends
    | .start, none => some { s with phase := .finished [] }
    | _, _ => none
  | .sed =>
    match s.phase, s.dataFile with
    | .headed output, some content =>
      some { s with tmpDataFile := some (withoutFirstLine content), phase := .copied output }
    | .headed output, none => some { s with tmpDataFile := some [], phase := .finished output }
    | _, _ => none
  | .mv =>
    match s.phase, s.tmpDataFile with
    | .copied output, some content =>
      some { s with dataFile := some content, tmpDataFile := none, phase := .finished output }
    | .copied output, none => some { s with phase := .finished output }
    | _, _ => none
  | .echo =>
    match s.phase with
    | .finished output =>
      some { s with phase := .start, echoed := s.echoed ++ echoData (execResult output) }
    | _ => none

/-- What a step does, by the step. -/
inductive Taken : Poll → Label → Poll → Prop
  | post {file tmp phase echoed} (m : Message) :
      Taken ⟨file, tmp, phase, echoed⟩ (.post m) ⟨filePutContents file m.bytes, tmp, phase, echoed⟩
  | headReads {content tmp echoed} :
      Taken ⟨some content, tmp, .start, echoed⟩ .head ⟨some content, tmp, .headed (headLine content), echoed⟩
  | headFails {tmp echoed} : Taken ⟨none, tmp, .start, echoed⟩ .head ⟨none, tmp, .finished [], echoed⟩
  | sedCopies {content tmp output echoed} :
      Taken ⟨some content, tmp, .headed output, echoed⟩ .sed
        ⟨some content, some (withoutFirstLine content), .copied output, echoed⟩
  | sedFails {tmp output echoed} :
      Taken ⟨none, tmp, .headed output, echoed⟩ .sed ⟨none, some [], .finished output, echoed⟩
  | mvRenames {file content output echoed} :
      Taken ⟨file, some content, .copied output, echoed⟩ .mv ⟨some content, none, .finished output, echoed⟩
  | mvFails {file output echoed} :
      Taken ⟨file, none, .copied output, echoed⟩ .mv ⟨file, none, .finished output, echoed⟩
  | echoes {file tmp output echoed} :
      Taken ⟨file, tmp, .finished output, echoed⟩ .echo
        ⟨file, tmp, .start, echoed ++ echoData (execResult output)⟩

/-- Every step is one of those listed. -/
theorem step_taken {s t : Poll} {label : Label} (taken : step s label = some t) : Taken s label t := by
  obtain ⟨file, tmp, phase, echoed⟩ := s
  cases label with
  | post m =>
    cases taken
    exact .post m
  | head =>
    cases phase with
    | start =>
      cases file with
      | none => cases taken; exact .headFails
      | some content => cases taken; exact .headReads
    | _ => cases taken
  | sed =>
    cases phase with
    | headed output =>
      cases file with
      | none => cases taken; exact .sedFails
      | some content => cases taken; exact .sedCopies
    | _ => cases taken
  | mv =>
    cases phase with
    | copied output =>
      cases tmp with
      | none => cases taken; exact .mvFails
      | some content => cases taken; exact .mvRenames
    | _ => cases taken
  | echo =>
    cases phase with
    | finished output => cases taken; exact .echoes
    | _ => cases taken

/-- The loop and no poster. -/
def Label.IsPoll : Label → Prop
  | .post _ => False
  | _ => True

/-- The file when these messages are in it. -/
def text (messages : List Message) : List Byte := messages.flatMap Message.bytes

/-- The loop before its first pass: `queue` stands in the data file, if there is one. -/
def Poll.initial (queue : Option (List Message)) (tmp : Option (List Byte)) : Poll :=
  ⟨queue.map text, tmp, .start, []⟩

/-! ## Messages as text -/

@[simp] theorem text_nil : text [] = [] := rfl

@[simp] theorem text_cons (m : Message) (ms : List Message) : text (m :: ms) = m.bytes ++ text ms := rfl

@[simp] theorem text_append (ms ns : List Message) : text (ms ++ ns) = text ms ++ text ns :=
  List.flatMap_append ..

theorem text_eq_nil {ms : List Message} : text ms = [] ↔ ms = [] := by
  cases ms with
  | nil => simp
  | cons m ms => simp [Message.bytes]

/-- The file, split at its newlines. -/
theorem splitOn_text (ms : List Message) : (text ms).splitOn newline = ms.map Message.body ++ [[]] := by
  induction ms with
  | nil => rfl
  | cons m ms ih =>
    rw [text_cons, Message.bytes, List.append_assoc, List.singleton_append,
      List.splitOn_append_cons_self_of_not_mem m.oneLine, ih]
    rfl

/-- Every message is a line of the file. -/
theorem linesOf_text (ms : List Message) : linesOf (text ms) = ms.map Message.body := by
  unfold linesOf
  rw [splitOn_text]
  simp

/-- A message goes up to its newline. -/
theorem takeWhile_body (m : Message) (rest : List Byte) :
    (m.body ++ newline :: rest).takeWhile (· != newline) = m.body ∧
      (m.body ++ newline :: rest).dropWhile (· != newline) = newline :: rest := by
  have pass : ∀ c ∈ m.body, (c != newline) = true := by
    intro c member
    have other : c ≠ newline := fun same => m.oneLine (same ▸ member)
    simpa using other
  rw [List.takeWhile_append_of_pos pass, List.dropWhile_append_of_pos pass]
  simp

/-- `head` takes the first message. -/
theorem headLine_text (ms : List Message) : headLine (text ms) = (ms.head?.map Message.bytes).getD [] := by
  cases ms with
  | nil => rfl
  | cons m ms =>
    rw [text_cons, Message.bytes, List.append_assoc, List.singleton_append, headLine, (takeWhile_body m _).1,
      (takeWhile_body m _).2]
    rfl

/-- `sed` leaves the messages behind the first. -/
theorem withoutFirstLine_text (ms : List Message) : withoutFirstLine (text ms) = text ms.tail := by
  cases ms with
  | nil => rfl
  | cons m ms =>
    rw [text_cons, Message.bytes, List.append_assoc, List.singleton_append, withoutFirstLine,
      (takeWhile_body m _).2]
    rfl

theorem execResult_nil : execResult [] = [] := by decide

/-- A line comes back without its newline. -/
theorem execResult_bytes (m : Message) : execResult m.bytes = m.body := by
  have one : m.bytes = text [m] := by rw [text_cons, text_nil, List.append_nil]
  rw [execResult, one, linesOf_text]
  exact m.trimmed

@[simp] theorem echoData_nil : echoData [] = [] := rfl

/-- A message is not empty, so it is echoed. -/
theorem echoData_body (m : Message) : echoData m.body = [m.body] := if_pos m.nonempty

end GtpLibrary.Polling

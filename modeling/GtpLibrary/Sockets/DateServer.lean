import GtpLibrary.Lib.Arrays
import GtpLibrary.Lib.CommandText

/-!
# `clientHandler` of `server.c`

What is received is pasted into a command, and what the command prints is sent back. The arrays
on the stack hold anything on entry; a run that leaves one of them is `none`.
-/

namespace GtpLibrary.Sockets

open Lib Lib.Arrays Lib.CommandText

/-! ## The code -/

/-- The arrays on the stack. -/
structure Locals where
  buffer : CArray Byte 1024
  buf : CArray Byte 100
  cmd : CArray Byte 1024
  message : CArray Byte 1034

/-- Every array holds one byte. -/
def Locals.filled (c : Byte) : Locals where
  buffer := ⟨.replicate 1024 c, List.length_replicate⟩
  buf := ⟨.replicate 100 c, List.length_replicate⟩
  cmd := ⟨.replicate 1024 c, List.length_replicate⟩
  message := ⟨.replicate 1034 c, List.length_replicate⟩

/-- Bytes that `recv` has room for. -/
abbrev Delivered := { bytes : List Byte // bytes.length ≤ 1024 }

/-- What `recv` writes into `buffer`, or its error. -/
abbrev Received := Option Delivered

def bytesGot : Received → Int
  | some bytes => bytes.1.length
  | none => -1

def receive (received : Received) (buffer : CArray Byte 1024) : Option (CArray Byte 1024) :=
  match received with
  | some bytes => buffer.write 0 bytes.1
  | none => some buffer

/-- The text in front of the message. -/
def date : List Byte := text "/bin/date +\""

/-- The lines up to `popen`, with the text it is given. -/
def command (received : Received) (locals : Locals) : Option (List Byte) := do
  let buffer ← receive received locals.buffer
  -- remove \r\n or some two chars
  let buffer ← buffer.write (bytesGot received - 2) [0]
  let _said ← buffer.string 0
  let cmd ← locals.cmd.write 0 (date ++ [0])
  let begun ← cmd.string 0
  let offset : Int := begun.length
  let cmd ← cmd.write offset (strncpy buffer.1 (bytesGot received - 2).toNat)
  let offset := offset + (bytesGot received - 2)
  let cmd ← cmd.write offset [doubleQuote, 0]
  cmd.string 0

/-- What a command prints. -/
abbrev Output := { bytes : List Byte // 0 ∉ bytes }

/-- The loop that reads the pipe, from an `i` on, with the `i` it ends at. -/
def readLoop : List Byte → CArray Byte 100 → Nat → Option (CArray Byte 100 × Nat)
  -- where nothing is left `fread` reads nothing, and only then is `feof` true
  | [], buf, i => if i < 99 then some (buf, i + 1) else some (buf, i)
  | c :: rest, buf, i =>
    if i < 99 then do
      let buf ← buf.write i [c]
      readLoop rest buf (i + 1)
    else some (buf, i)

/-- The lines from `popen` on that read what the command prints. -/
def readOutput (output : Option Output) (buf : CArray Byte 100) : Option (CArray Byte 100) :=
  match output with
  | some output => do
    let (buf, i) ← readLoop output.1 buf 0
    buf.write i [0]
  | none => some buf

/-- The lines that send the message. -/
def sendMessage (buf : CArray Byte 100) (message : CArray Byte 1034) : Option (List Byte) := do
  let message ← message.write 0 (text "Response: " ++ [0])
  let begun ← message.string 0
  let more ← buf.string 0
  let message ← message.write begun.length (more ++ [0])
  message.string 0

/-- The command that is run and what is sent. -/
def clientHandler (popen : List Byte → Option Output) (received : Received) (locals : Locals) :
    Option (List Byte × List Byte) := do
  let cmd ← command received locals
  let buf ← readOutput (popen cmd) locals.buf
  let sent ← sendMessage buf locals.message
  return (cmd, sent)

/-! ## The command -/

/-- What is received but for the two bytes at the end. -/
def told : Received → List Byte
  | some bytes => bytes.1.take (bytes.1.length - 2)
  | none => []

section
variable {m : List Byte} {locals : Locals} {more : Byte → Bool}

/-- What `strncpy` copies of the message. -/
def copied (m : List Byte) : List Byte := cString m ++ List.replicate (m.length - (cString m).length) 0

theorem length_copied (m : List Byte) : (copied m).length = m.length := by
  have short := cString_length_le m
  unfold copied
  rw [List.length_append, List.length_replicate]
  omega

/-- The bytes of a message of at least two bytes. -/
theorem receive_spec {bytes : Delivered} {a b : Byte} (ended : bytes.1 = m ++ [a, b])
    (locals : Locals) :
    ∃ received rest after, receive (some bytes) locals.buffer = some received ∧
      received.write (bytesGot (some bytes) - 2) [0] = some after ∧ after.1 = m ++ 0 :: rest := by
  have fits := bytes.2
  have whole := locals.buffer.2
  obtain ⟨received, wrote, cells⟩ := write_behind 0 bytes.1 (List.nil_append locals.buffer.1).symm rfl
    (fits.trans whole.ge)
  have place : bytesGot (some bytes) - 2 = m.length := by
    rw [bytesGot, ended, List.length_append]
    simp
  rw [List.nil_append, ended, List.append_assoc] at cells
  obtain ⟨after, cut, rest, now⟩ := write_nul (bytesGot (some bytes) - 2) cells place (by simp)
  exact ⟨received, rest, after, wrote, cut, now⟩

/-- The arrays have room for the command up to 1010 bytes of a message. -/
theorem command_spec {bytes : Delivered} {a b : Byte} (ended : bytes.1 = m ++ [a, b])
    (locals : Locals) :
    command (some bytes) locals =
      if m.length ≤ 1010 then some (cString (date ++ copied m ++ [doubleQuote])) else none := by
  obtain ⟨received, rest, buffer, wrote, cut, cells⟩ := receive_spec ended locals
  have length : bytesGot (some bytes) - 2 = m.length := by
    rw [bytesGot, ended, List.length_append]
    simp
  have said : buffer.string 0 = some (cString m) := string_eq_some cells
  have source : strncpy buffer.1 m.length = copied m := by
    unfold strncpy copied
    rw [cells, List.take_left]
  have header : date.length = 12 := rfl
  obtain ⟨begun, rest, began, first, room, start⟩ := @strcpy_spec 1024 date (by decide) (by decide) locals.cmd
  have began : locals.cmd.write 0 (date ++ [0]) = some begun := began
  rw [header] at room
  rw [length] at cut
  simp only [command, wrote, length, cut, said, began, start, source, Option.bind_eq_bind, Option.bind_some,
    Int.toNat_natCast]
  by_cases short : m.length ≤ 1012
  · obtain ⟨pasted, paste, second⟩ := write_behind date.length (copied m) first rfl
      (by rw [length_copied, room]; exact short)
    have place : (date.length : Int) + m.length = (date ++ copied m).length := by
      rw [List.length_append, length_copied]
      rfl
    have left : ((0 :: rest).drop (copied m).length).length = 1012 - m.length := by
      rw [List.length_drop, room, length_copied]
    rw [paste, Option.bind_some]
    by_cases fits : m.length ≤ 1010
    · obtain ⟨closed, close, _, third⟩ := write_string _ [doubleQuote] second place (by rw [left]; simp; omega)
      have close : pasted.write (date.length + m.length) [doubleQuote, 0] = some closed := close
      rw [close, Option.bind_some, if_pos fits]
      exact string_eq_some third
    · rw [write_behind_eq_none second place (by rw [left]; simp; omega), if_neg fits]
      rfl
  · rw [write_behind_eq_none first rfl (by rw [length_copied, room]; omega), if_neg (by omega)]
    rfl

theorem copied_eq_self (clean : 0 ∉ m) : copied m = m := by
  unfold copied
  rw [cString_eq_self clean, Nat.sub_self]
  exact List.append_nil m

/-- The command that the shell gets; a NUL in the message ends it before the quote is closed. -/
theorem cString_command (m : List Byte) :
    cString (date ++ copied m ++ [doubleQuote]) =
      date ++ if 0 ∈ m then cString m else m ++ [doubleQuote] := by
  rw [List.append_assoc, cString_append (by decide)]
  congr 1
  by_cases nul : 0 ∈ m
  · obtain ⟨k, more⟩ : ∃ k, m.length - (cString m).length = k + 1 :=
      ⟨_, (Nat.succ_pred_eq_of_pos (Nat.sub_pos_of_lt (cString_length_lt nul))).symm⟩
    rw [if_pos nul, copied, more, List.replicate_succ, List.append_assoc, List.cons_append, cString_append_zero]
    exact cString_eq_self (zero_not_mem_cString m)
  · rw [if_neg nul, copied_eq_self nul]
    apply cString_eq_self
    rw [List.mem_append, not_or]
    exact ⟨nul, by decide⟩

/-! ## What the shell makes of it -/

theorem words_date (more : Byte → Bool) (t : List Byte) :
    words more (date ++ t) = (scan more (.double [byte '+']) t).map (text "/bin/date" :: ·) := by
  have parts : date ++ t = byte '/' :: (text "bin/date" ++ byte ' ' :: byte '+' :: doubleQuote :: t) := rfl
  rw [words, parts, scan_between rfl, scan_bare (by decide), scan_blank rfl, scan_between rfl, scan_open]
  rfl

/-- The accesses are inside the arrays, and the command is `date` with the message for its format. -/
def RunsDate (more : Byte → Bool) (received : Received) (locals : Locals) : Prop :=
  ∃ cmd, command received locals = some cmd ∧
    words more cmd = some [text "/bin/date", byte '+' :: told received]

/-- A place of the shell in the message. -/
theorem words_date_eq_iff (more : Byte → Bool) (t w : List Byte) :
    words more (date ++ t) = some [text "/bin/date", w] ↔ scan more (.double [byte '+']) t = some [w] := by
  rw [words_date, Option.map_eq_some_iff]
  constructor
  · rintro ⟨found, read, same⟩
    rw [read, (List.cons.inj same).2]
  · intro read
    exact ⟨[w], read, rfl⟩

theorem command_eq_none {received : Received} (few : bytesGot received < 2) (locals : Locals) :
    command received locals = none := by
  unfold command
  cases written : receive received locals.buffer with
  | none => rfl
  | some buffer =>
    have outside : buffer.write (bytesGot received - 2) [0] = none := by
      apply write_eq_none
      omega
    rw [Option.bind_eq_bind, Option.bind_some, outside]
    rfl

/-- A message is behind the two bytes that are cut off. -/
theorem exists_told {received : Received} (enough : 2 ≤ bytesGot received) :
    ∃ bytes a b, received = some bytes ∧ bytes.1 = told received ++ [a, b] := by
  cases received with
  | none =>
    have negative : bytesGot none = -1 := rfl
    omega
  | some bytes =>
    have long : 2 ≤ bytes.1.length := Int.ofNat_le.1 enough
    have two : (bytes.1.drop (bytes.1.length - 2)).length = 2 := by
      rw [List.length_drop]
      omega
    obtain ⟨a, b, last⟩ := List.length_eq_two.1 two
    refine ⟨bytes, a, b, rfl, ?_⟩
    rw [told, ← last, List.take_append_drop]

/-- A message that is received whole. -/
theorem runsDate_told {bytes : Delivered} {a b : Byte} (ended : bytes.1 = m ++ [a, b])
    (more : Byte → Bool) (locals : Locals) :
    RunsDate more (some bytes) locals ↔ m.length ≤ 1010 ∧ 0 ∉ m ∧ quiet more m = true := by
  have same : told (some bytes) = m := by
    rw [told, ended, List.length_append]
    exact List.take_left
  have built := command_spec ended locals
  unfold RunsDate
  rw [same]
  by_cases short : m.length ≤ 1010
  · rw [if_pos short, cString_command] at built
    have only : (∃ cmd, command (some bytes) locals = some cmd ∧
        words more cmd = some [text "/bin/date", byte '+' :: m]) ↔
        scan more (.double [byte '+']) (if 0 ∈ m then cString m else m ++ [doubleQuote]) = some [byte '+' :: m] := by
      rw [← words_date_eq_iff, built]
      simp only [Option.some.injEq, exists_eq_left']
    rw [only, and_iff_right short]
    by_cases nul : 0 ∈ m
    · rw [if_pos nul]
      apply iff_of_false
      · intro read
        have long := scan_length read
        have cut := cString_length_lt nul
        rw [List.flatten_singleton, List.length_cons] at long
        simp only [Place.length, List.length_singleton] at long
        omega
      · exact fun clean => clean.1 nul
    · rw [if_neg nul, and_iff_right nul]
      exact scan_double_iff [byte '+'] m
  · rw [if_neg short] at built
    rw [built]
    apply iff_of_false
    · rintro ⟨cmd, ⟨⟩, -⟩
    · exact fun clean => short clean.1

theorem not_runsDate {received : Received} (few : bytesGot received < 2) (more : Byte → Bool) (locals : Locals) :
    ¬ RunsDate more received locals := by
  rintro ⟨cmd, built, -⟩
  rw [command_eq_none few] at built
  cases built

/-- **When only `date` is run.** The message fits, has no NUL, and stands for itself in double quotes. -/
theorem runsDate_iff (more : Byte → Bool) (received : Received) (locals : Locals) :
    RunsDate more received locals ↔
      2 ≤ bytesGot received ∧ (told received).length ≤ 1010 ∧ 0 ∉ told received ∧
        quiet more (told received) = true := by
  by_cases enough : 2 ≤ bytesGot received
  · obtain ⟨bytes, a, b, rfl, ended⟩ := exists_told enough
    rw [and_iff_right enough]
    exact runsDate_told ended more locals
  · apply iff_of_false
    · exact not_runsDate (by omega) more locals
    · exact fun clean => enough clean.1

/-- A command in backquotes is executed. -/
theorem runsDate_backquote : ¬ ∀ more received locals, RunsDate more received locals := by
  intro runs
  have run := runs (fun _ => false) (some ⟨text "`id`\r\n", by decide⟩) (.filled 0)
  obtain ⟨-, -, quoted⟩ := (runsDate_told (m := text "`id`") rfl _ _).1 run
  cases quoted

end

end GtpLibrary.Sockets

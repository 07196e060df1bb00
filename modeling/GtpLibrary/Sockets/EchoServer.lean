import GtpLibrary.Sockets.DateServer

/-!
# `clientHandler` of `main.cpp`

What is received is sent back behind `You said: `. Nobody writes a NUL behind what `recv` stores, so
the message ends where the stack happens to hold one.
-/

namespace GtpLibrary.Sockets.Echo

open Lib Lib.Arrays

/-- The arrays on the stack. -/
structure Locals where
  buffer : CArray Byte 1024
  message : CArray Byte 1034

/-- What is sent; a run that leaves an array is `none`. -/
def clientHandler (received : Received) (locals : Locals) : Option (List Byte) := do
  let buffer ← receive received locals.buffer
  let _said ← buffer.string 0
  let message ← locals.message.strcpy (text "You said: ")
  let message ← message.strcat buffer
  message.string 0

/-- A message that one `recv` delivers. -/
abbrev Message := { bytes : List Byte // bytes.length ≤ 1024 ∧ 0 ∉ bytes }

def Message.delivered (m : Message) : Delivered := ⟨m.1, m.2.1⟩

/-- The accesses are inside the arrays, and the message comes back. -/
def Echoes (m : Message) (locals : Locals) : Prop :=
  clientHandler (some m.delivered) locals = some (text "You said: " ++ m.1)

theorem clientHandler_eq (received : Received) (locals : Locals) :
    clientHandler received locals =
      (receive received locals.buffer).bind fun buffer => (buffer.string 0).map (text "You said: " ++ ·) := by
  unfold clientHandler
  rw [Option.bind_eq_bind]
  congr 1
  funext buffer
  have sent := @string_strcat _ _ (text "You said: ") (by decide) (by decide) (by decide) locals.message buffer
  cases read : buffer.string 0 with
  | none => rfl
  | some said =>
    rw [read] at sent
    exact sent

/-- **The server echoes exactly where a NUL stands behind the message.** -/
theorem echoes_iff (m : Message) (locals : Locals) : Echoes m locals ↔ locals.buffer.1[m.1.length]? = some 0 := by
  have room : m.1.length ≤ locals.buffer.1.length := by
    rw [locals.buffer.2]
    exact m.2.1
  obtain ⟨buffer, wrote, cells⟩ := write_behind 0 m.1 (List.nil_append locals.buffer.1).symm rfl room
  have received : receive (some m.delivered) locals.buffer = some buffer := wrote
  have ends : buffer.string 0 = some m.1 ↔ (locals.buffer.1.drop m.1.length).head? = some 0 :=
    string_eq_some_iff cells m.2.2
  rw [List.head?_drop] at ends
  rw [Echoes, clientHandler_eq, received, Option.bind_some, ← ends]
  cases buffer.string 0 with
  | none => exact iff_of_false (Option.some_ne_none _).symm (Option.some_ne_none _).symm
  | some said => rw [Option.map_some, Option.some_inj, Option.some_inj, List.append_cancel_left_eq]

/-- The end of an older text comes back, too. -/
theorem echoes_older : ¬ ∀ m locals, Echoes m locals := by
  intro echoes
  have whole : (text "older" ++ List.replicate 1019 0).length = 1024 := by
    rw [List.length_append, List.length_replicate]
    rfl
  let locals : Locals := ⟨⟨_, whole⟩, ⟨List.replicate 1034 0, List.length_replicate⟩⟩
  have stray : (text "older" ++ List.replicate 1019 0)[2]? = some 0 :=
    (echoes_iff ⟨text "hi", by decide⟩ locals).1 (echoes _ _)
  exact absurd stray (by decide)

end GtpLibrary.Sockets.Echo

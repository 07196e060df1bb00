import GtpLibrary.Sockets.DateServer

/-!
# What the date server sends

The index of the read loop is advanced before it is known whether a byte was read, and the end
of the file is seen only by the read behind the last byte. So behind an output of less than 99
bytes one byte of `buf` is sent that was never written, unless it is a NUL.
-/

namespace GtpLibrary.Sockets

open Lib Lib.Arrays

section
variable {o left old right : List Byte} {buf : CArray Byte 100} {locals : Locals}

/-- The loop writes what is read in front of the 99th byte. -/
theorem readLoop_spec (cells : buf.1 = left ++ old ++ right) (same : old.length = min o.length (99 - left.length))
    (inside : left.length ≤ 99) :
    ∃ after, readLoop o buf left.length = some (after, min (left.length + o.length + 1) 99) ∧
      after.1 = left ++ o.take (99 - left.length) ++ right := by
  induction o generalizing left old buf with
  | nil =>
    have nothing : old = [] := List.eq_nil_of_length_eq_zero (by rw [same]; exact Nat.zero_min _)
    subst nothing
    rw [List.take_nil]
    by_cases room : left.length < 99
    · rw [readLoop, if_pos room, List.length_nil, Nat.add_zero, Nat.min_eq_left room]
      exact ⟨buf, rfl, cells⟩
    · have full : left.length = 99 := by omega
      rw [readLoop, if_neg room, List.length_nil, full]
      exact ⟨buf, rfl, cells⟩
  | cons c rest ih =>
    by_cases room : left.length < 99
    · obtain ⟨x, old, rfl⟩ := List.exists_cons_of_length_pos (l := old) (by rw [same, List.length_cons]; omega)
      have parts : buf.1 = left ++ [x] ++ (old ++ right) := by
        rw [cells]
        simp
      obtain ⟨next, wrote, now⟩ := write_eq_some left.length [c] parts rfl rfl
      have later : (left ++ [c]).length = left.length + 1 := List.length_append
      obtain ⟨after, looped, written⟩ := @ih (left ++ [c]) old next (by rw [now]; simp)
        (by rw [List.length_cons, List.length_cons] at same; omega) (by omega)
      refine ⟨after, ?_, ?_⟩
      · rw [readLoop, if_pos room, wrote]
        show readLoop rest next (left.length + 1) = _
        rw [← later, looped, later, List.length_cons]
        congr 3
        omega
      · have count : 99 - left.length = 99 - (left ++ [c]).length + 1 := by omega
        rw [written, count, List.take_succ_cons]
        simp
    · have full : left.length = 99 := by omega
      have nothing : old = [] := List.eq_nil_of_length_eq_zero (by rw [same, full]; exact Nat.min_zero _)
      subst nothing
      rw [readLoop, if_neg room, full, Nat.sub_self, List.take_zero, List.length_cons]
      refine ⟨buf, ?_, cells⟩
      congr 2
      omega

/-- The string in `buf` behind the lines that read the pipe. -/
def kept (output : Option Output) (buf : CArray Byte 100) : Option (List Byte) :=
  match output with
  | some output =>
    some (if output.1.length < 99 then output.1 ++ cString ((buf.1.drop output.1.length).take 1) else output.1.take 99)
  | none => buf.string 0

theorem readOutput_spec (output : Option Output) (buf : CArray Byte 100) :
    ∃ after, readOutput output buf = some after ∧ after.string 0 = kept output buf := by
  cases output with
  | none => exact ⟨buf, rfl, rfl⟩
  | some output =>
    obtain ⟨o, clean⟩ := output
    have whole := buf.2
    have cells : buf.1 = [] ++ buf.1.take (min o.length 99) ++ buf.1.drop (min o.length 99) := by
      rw [List.nil_append, List.take_append_drop]
    obtain ⟨read, looped, now⟩ := readLoop_spec (o := o) cells (List.length_take_of_le (by omega)) (by decide)
    rw [List.length_nil, Nat.zero_add] at looped
    rw [List.nil_append, List.length_nil, Nat.sub_zero] at now
    show ∃ after, ((readLoop o buf 0).bind fun result => result.1.write result.2 [0]) = some after ∧ _
    rw [looped, Option.bind_some, kept]
    by_cases short : o.length < 99
    · have upTo : min o.length 99 = o.length := by omega
      have index : min (o.length + 1) 99 = o.length + 1 := by omega
      rw [upTo, List.take_of_length_le short.le] at now
      obtain ⟨x, behind, stray⟩ := List.exists_cons_of_length_pos (l := buf.1.drop o.length) (by
        rw [List.length_drop]
        omega)
      rw [stray] at now
      have room : 0 < behind.length := by
        have count := congrArg List.length stray
        rw [List.length_drop, List.length_cons] at count
        omega
      rw [List.append_cons] at now
      obtain ⟨after, wrote, rest, done⟩ := write_nul ((o.length + 1 : Nat) : Int) now (by simp) room
      rw [index, wrote, if_pos short, stray]
      refine ⟨after, rfl, ?_⟩
      have string : after.string 0 = some (cString (o ++ [x])) := string_eq_some done
      rw [string, cString_append clean]
      rfl
    · have upTo : min o.length 99 = 99 := by omega
      have index : min (o.length + 1) 99 = 99 := by omega
      have taken : (o.take 99).length = 99 := List.length_take_of_le (by omega)
      rw [upTo] at now
      obtain ⟨after, wrote, rest, done⟩ := write_nul ((99 : Nat) : Int) now
        (by rw [taken]) (by rw [List.length_drop, whole]; decide)
      rw [index, wrote, if_neg short]
      refine ⟨after, rfl, ?_⟩
      have string : after.string 0 = some (cString (o.take 99)) := string_eq_some done
      rw [string, cString_eq_self fun member => clean (List.mem_of_mem_take member)]

theorem sendMessage_eq (buf : CArray Byte 100) (message : CArray Byte 1034) :
    sendMessage buf message = (buf.string 0).map (text "Response: " ++ ·) := by
  have joined := @string_strcat _ _ (text "Response: ") (by decide) (by decide) (by decide) message buf
  rw [← joined]
  simp only [sendMessage, CArray.strcpy, CArray.strcat, Option.bind_eq_bind, Option.bind_assoc]

/-! ## What is sent -/

/-- The bytes of the command's output that have room. -/
def printed : Option Output → List Byte
  | some output => output.1.take 99
  | none => []

/-- What is to be sent. -/
def response (output : Option Output) : List Byte := text "Response: " ++ printed output

/-- The output reaches the last bytes of `buf`, or the byte behind it is a NUL. -/
def Clean (output : Option Output) (buf : CArray Byte 100) : Prop :=
  match output with
  | some output => 99 ≤ output.1.length ∨ buf.1[output.1.length]? = some 0
  | none => buf.1[0]? = some 0

theorem cString_take_one {l : List Byte} (filled : 0 < l.length) : cString (l.take 1) = [] ↔ l[0]? = some 0 := by
  obtain ⟨x, l, rfl⟩ := List.exists_cons_of_length_pos filled
  rw [List.take_succ_cons, List.take_zero, List.getElem?_cons_zero, Option.some_inj]
  by_cases zero : x = 0
  · rw [zero]
    exact iff_of_true rfl rfl
  · have kept : cString [x] = [x] := cString_eq_self fun member => zero (List.mem_singleton.1 member).symm
    rw [kept]
    exact iff_of_false (List.cons_ne_nil _ _) zero

theorem string_eq_nil (buf : CArray Byte 100) : buf.string 0 = some [] ↔ buf.1[0]? = some 0 := by
  have cells : buf.1.drop 0 = [] ++ buf.1 := rfl
  rw [string_eq_some_iff cells List.not_mem_nil, List.head?_eq_getElem?]

theorem kept_eq_iff (output : Option Output) (buf : CArray Byte 100) :
    kept output buf = some (printed output) ↔ Clean output buf := by
  cases output with
  | none => exact string_eq_nil buf
  | some output =>
    rw [kept, printed, Clean, Option.some_inj]
    by_cases short : output.1.length < 99
    · have behind : 0 < (buf.1.drop output.1.length).length := by
        rw [List.length_drop, buf.2]
        omega
      rw [if_pos short, List.take_of_length_le short.le, List.append_right_eq_self, cString_take_one behind,
        List.getElem?_drop, Nat.add_zero, or_iff_right (by omega)]
    · rw [if_neg short]
      exact iff_of_true rfl (.inl (by omega))

section
variable {popen : List Byte → Option Output} {received : Received} {cmd : List Byte}

theorem clientHandler_eq (built : command received locals = some cmd) :
    clientHandler popen received locals =
      (kept (popen cmd) locals.buf).map fun s => (cmd, text "Response: " ++ s) := by
  obtain ⟨buf, read, string⟩ := readOutput_spec (popen cmd) locals.buf
  simp only [clientHandler, built, read, sendMessage_eq, string, Option.bind_eq_bind, Option.bind_some, Option.bind_map]
  exact Option.map_eq_bind.symm

/-- **The response is what the command prints exactly where the byte behind it is a NUL.** -/
theorem sent_iff (built : command received locals = some cmd) :
    clientHandler popen received locals = some (cmd, response (popen cmd)) ↔ Clean (popen cmd) locals.buf := by
  have injective : Function.Injective fun s : List Byte => (cmd, text "Response: " ++ s) := by
    intro s t same
    exact List.append_cancel_left (Prod.mk.inj same).2
  have expected : some (cmd, response (popen cmd)) =
      (some (printed (popen cmd))).map fun s => (cmd, text "Response: " ++ s) := rfl
  rw [clientHandler_eq built, expected, (Option.map_injective injective).eq_iff, kept_eq_iff]

end

theorem sent_iff_mon :
    clientHandler (fun _ => some ⟨text "Mon\n", by decide⟩) (some ⟨text "%a\r\n", by decide⟩) (.filled 0) =
      some (text "/bin/date +\"%a\"", text "Response: Mon\n") := by
  have built : command (some ⟨text "%a\r\n", by decide⟩) (.filled 0) = some (text "/bin/date +\"%a\"") :=
    command_spec (m := text "%a") rfl _
  exact (sent_iff built).2 (.inr rfl)

/-- Behind a short output a byte is sent that was never written. -/
theorem sent_stray :
    ¬ ∀ popen received locals cmd, command received locals = some cmd →
      clientHandler popen received locals = some (cmd, response (popen cmd)) := by
  intro sends
  have built : command (some ⟨text "%a\r\n", by decide⟩) (.filled (byte 'x')) = some (text "/bin/date +\"%a\"") :=
    command_spec (m := text "%a") rfl _
  have sent := sends (fun _ => some ⟨text "Mon\n", by decide⟩) _ _ _ built
  rw [clientHandler_eq built] at sent
  exact absurd (Prod.mk.inj (Option.some.inj sent)).2 (by decide)

end

end GtpLibrary.Sockets

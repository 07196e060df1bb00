import GtpLibrary.Lib.Mime
import GtpLibrary.Mail.CurlEmail

/-!
# The header block of a mail

Each of the five calls that add a field pushes one entry, `key: value` and a line break. The
entries are the lines of the header exactly if no string that was handed to a call holds a
line break of its own; what stands between the strings keeps them apart.
-/

namespace GtpLibrary.Mail
open GtpLibrary.Lib GtpLibrary.Lib.Mime

/-- A call that adds a header field. -/
inductive FieldCall where
  | addTo (recipient : Contact)
  | addCc (cc : Contact)
  | addFrom (sender : Contact)
  | addSubject (subject : List Byte)
  | addField (key value : List Byte)

namespace FieldCall

def call : FieldCall → BuilderCall
  | .addTo recipient => .addTo recipient
  | .addCc cc => .addCc cc
  | .addFrom sender => .addFrom sender
  | .addSubject subject => .addSubject subject
  | .addField key value => .addField key value

def key : FieldCall → List Byte
  | .addTo _ => text "To"
  | .addCc _ => text "Cc"
  | .addFrom _ => text "From"
  | .addSubject _ => text "Subject"
  | .addField key _ => key

def value : FieldCall → List Byte
  | .addTo contact | .addCc contact | .addFrom contact => CurlEmail.mailbox contact
  | .addSubject value | .addField _ value => value

/-- The text `key: value`. -/
def line (c : FieldCall) : List Byte := c.key ++ text ": " ++ c.value

/-- The strings that the call is given. -/
def arguments : FieldCall → List (List Byte)
  | .addTo contact | .addCc contact | .addFrom contact => [contact.name, contact.email]
  | .addSubject subject => [subject]
  | .addField key value => [key, value]

end FieldCall

/-- The lines of the mail that the calls and `add_empty_field` behind them leave. -/
def headerLines (calls : List FieldCall) : List Line :=
  lines (build (calls.map FieldCall.call ++ [.addEmptyField])).mailContent.flatten

/-- One line a call, in their order, and the empty line. What stands behind it is still to
come. -/
def HeaderInOrder (calls : List FieldCall) : Prop :=
  headerLines calls = calls.map FieldCall.line ++ [[], []] ∧ ∀ c ∈ calls, c.line ≠ []

/-! ## The entries -/

theorem mailContent_call (m : CurlEmail) (c : FieldCall) :
    (BuilderCall.run m c.call).mailContent = m.mailContent ++ [c.line ++ Mime.crlf] := by
  cases c <;> rfl

theorem mailContent_calls (m : CurlEmail) (calls : List FieldCall) :
    ((calls.map FieldCall.call).foldl BuilderCall.run m).mailContent =
      m.mailContent ++ (calls.map FieldCall.line).map (· ++ Mime.crlf) := by
  induction calls generalizing m with
  | nil => exact (List.append_nil _).symm
  | cons c calls ih =>
    rw [List.map_cons, List.foldl_cons, ih, mailContent_call, List.append_assoc]
    rfl

/-- The mail is the texts of the calls written one under the other. -/
theorem flatten_mailContent (calls : List FieldCall) :
    (build (calls.map FieldCall.call ++ [.addEmptyField])).mailContent.flatten =
      write (calls.map FieldCall.line) ++ Mime.crlf := by
  have entries : (build (calls.map FieldCall.call ++ [.addEmptyField])).mailContent =
      (calls.map FieldCall.line).map (· ++ Mime.crlf) ++ [Mime.crlf] := by
    unfold build
    rw [List.foldl_append]
    exact congrArg (· ++ [Mime.crlf]) (mailContent_calls {} calls)
  rw [entries, List.flatten_append, List.flatten_singleton, write, ← List.flatMap_def]

theorem headerLines_eq (calls : List FieldCall) :
    headerLines calls = (calls.map FieldCall.line).flatMap lines ++ [[], []] := by
  rw [headerLines, flatten_mailContent, lines_write]
  rfl

/-! ## One line -/

theorem unbroken_mailbox (c : Contact) : Unbroken (CurlEmail.mailbox c) ↔ Unbroken c.name ∧ Unbroken c.email := by
  have closing : Unbroken (c.email ++ (text ">" ++ [])) ↔ Unbroken c.email ∧ Unbroken [] :=
    unbroken_separated (by decide) (by decide) (by decide)
  rw [List.append_nil, and_iff_left unbroken_nil] at closing
  unfold CurlEmail.mailbox
  rw [List.append_assoc, List.append_assoc, unbroken_separated (by decide) (by decide) (by decide), closing]

theorem unbroken_line (c : FieldCall) : Unbroken c.line ↔ ∀ argument ∈ c.arguments, Unbroken argument := by
  have fixed : ∀ name ∈ [text "To", text "Cc", text "From", text "Subject"], Unbroken name := by decide
  unfold FieldCall.line
  rw [List.append_assoc, unbroken_separated (by decide) (by decide) (by decide)]
  cases c with
  | addTo contact | addCc contact | addFrom contact =>
    simp only [FieldCall.key, FieldCall.value, FieldCall.arguments, List.forall_mem_cons, unbroken_mailbox]
    simp [fixed]
  | addSubject subject =>
    simp only [FieldCall.key, FieldCall.value, FieldCall.arguments]
    simp [fixed]
  | addField key value => simp [FieldCall.key, FieldCall.value, FieldCall.arguments]

theorem line_ne_nil (c : FieldCall) : c.line ≠ [] := by
  intro empty
  have colon : text ": " = [] := (List.append_eq_nil_iff.1 (List.append_eq_nil_iff.1 empty).1).2
  exact absurd colon (by decide)

theorem headerInOrder_iff_unbroken {calls : List FieldCall} :
    HeaderInOrder calls ↔ ∀ c ∈ calls, ∀ argument ∈ c.arguments, Unbroken argument := by
  have filled : ∀ c ∈ calls, c.line ≠ [] := fun c _ => line_ne_nil c
  rw [HeaderInOrder, and_iff_left filled, headerLines_eq, List.append_left_inj, flatMap_lines_eq_iff, List.forall_mem_map]
  exact forall₂_congr fun c _ => unbroken_line c

/-- **The lines of the header are the texts of the calls exactly if none of the strings
holds a line break.** -/
theorem headerInOrder_iff (calls : List FieldCall) :
    HeaderInOrder calls ↔ ∀ c ∈ calls, ∀ argument ∈ c.arguments, ¬ Mime.crlf <:+: argument :=
  headerInOrder_iff_unbroken

/-- A subject that brings a field of its own. -/
theorem subject_spills : ¬ HeaderInOrder [.addSubject (text "Hi\r\nBcc: eve@example.com")] := by
  intro ordered
  have unbroken := headerInOrder_iff_unbroken.1 ordered _ (List.mem_singleton_self _) _ (List.mem_singleton_self _)
  exact absurd unbroken (by decide)

end GtpLibrary.Mail

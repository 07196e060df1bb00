import GtpLibrary.Lib.Bytes
import GtpLibrary.Lib.Base64

/-!
# `class Email`

The setters store the two texts, `attachFile` a path, and `send` puts the body together from
string pieces. What the class asks the machine for, the output of `file` and the bytes of a
file, is a parameter, and so are the two separators of the constructor.
-/

namespace GtpLibrary.MyFramework

open Lib

/-- A digit of `md5`. -/
def isHexDigit (c : Byte) : Bool := (byte '0' ≤ c && c ≤ byte '9') || (byte 'a' ≤ c && c ≤ byte 'f')

/-- A value of `md5`. -/
structure Md5 where
  digits : List Byte
  hex : ∀ c ∈ digits, isHexDigit c
  size : digits.length = 32

/-- What a command prints, and what a file holds where it can be read. -/
structure Machine where
  shell : List Byte → List Byte
  contents : List Byte → Option (List Byte)

/-- C's `isspace`. -/
def isspace (c : Byte) : Bool := c == 32 || (9 ≤ c && c ≤ 13)

/-- `exec`: the last line the command prints, without the white space at its end. -/
def Machine.exec (m : Machine) (command : List Byte) : List Byte :=
  let output := (m.shell command).reverse
  let ended := if output.head? = some (byte '\n') then output.tail else output
  ((ended.takeWhile (· ≠ byte '\n')).dropWhile isspace).reverse

/-- `base64_encode(file_get_contents($file))`; where the file cannot be read the latter is
`false`, which stands for the empty string. -/
def Machine.encoded (m : Machine) (file : List Byte) : List Byte := Base64.encode ((m.contents file).getD [])

/-- A number in a string. -/
def decimal (n : Nat) : List Byte := (Nat.toDigits 10 n).map byte

theorem toNat_of_mem_decimal {n : Nat} {d : Byte} (member : d ∈ decimal n) : 48 ≤ d.toNat ∧ d.toNat ≤ 57 := by
  obtain ⟨c, digit, rfl⟩ := List.mem_map.1 member
  have isDigit := Nat.isDigit_of_mem_toDigits (by omega) (by omega) digit
  simp only [Char.isDigit, Bool.and_eq_true, decide_eq_true_eq, ge_iff_le, UInt32.le_iff_toNat_le] at isDigit
  have low : 48 ≤ c.toNat := isDigit.1
  have high : c.toNat ≤ 57 := isDigit.2
  have code : (byte c).toNat = c.toNat % 256 := BitVec.toNat_ofNat ..
  omega

/-- `$nl`. -/
def nl : List Byte := text "\r\n"

/-- The members of an `Email` but `$nl`. A text is null until it is set. -/
structure Email where
  to' : List Byte
  subject : List Byte
  headers : List Byte
  sep1 : Md5
  sep2 : Md5
  plainText : Option (List Byte) := none
  htmlText : Option (List Byte) := none
  filesAttached : List (List Byte) := []

namespace Email

/-- `__construct`. -/
def construct (to' subject from' : List Byte) (sep1 sep2 : Md5) : Email where
  to' := to'
  subject := subject
  headers := text "From: " ++ from' ++ text "\r\n" ++ text "MIME-Version: 1.0" ++ text "\r\n" ++
    text "Content-Type: multipart/related; boundary=" ++ sep1.digits ++ text "\r\n"
  sep1 := sep1
  sep2 := sep2

def setPlainText (e : Email) (value : List Byte) : Email := { e with plainText := some value }

def setHTMLText (e : Email) (value : List Byte) : Email := { e with htmlText := some value }

/-- What `attachFile` returns for the file that is number `count`. -/
def fileId (count : Nat) : List Byte := decimal count ++ text "@localhost.localdomain"

def attachFile (e : Email) (filePath : List Byte) : Email × List Byte :=
  let filesAttached := e.filesAttached ++ [filePath]
  ({ e with filesAttached := filesAttached }, fileId filesAttached.length)

/-- One turn of the loop of `filesAttached()`, behind `$index++`. -/
def attached (e : Email) (m : Machine) (index : Nat) (file : List Byte) : List Byte :=
  text "--" ++ e.sep1.digits ++ nl ++
  text "Content-Type: " ++ m.exec (text "file -i -b " ++ file) ++ nl ++
  text "Content-Transfer-Encoding: base64" ++ nl ++
  text "X-Attachment-Id: " ++ decimal index ++ text "@localhost.localdomain" ++ nl ++
  text "Content-ID: <" ++ decimal index ++ text "@localhost.localdomain>" ++ nl ++
  nl ++
  m.encoded file ++
  nl

/-- `filesAttached()`. -/
def filesAttachedBody (e : Email) (m : Machine) : List Byte :=
  (e.filesAttached.foldl (fun (index, body) file => (index + 1, body ++ e.attached m (index + 1) file)) (0, [])).2

/-- The body that `send` builds. -/
def body (e : Email) (m : Machine) : List Byte :=
  text "--" ++ e.sep1.digits ++ nl ++
    text "Content-Type: multipart/alternative; boundary=" ++ e.sep2.digits ++ nl ++
    text "--" ++ e.sep2.digits ++ nl ++
    text "Content-Type: text/plain; charset=ISO-8859-1" ++ nl ++
    nl ++
    e.plainText.getD [] ++ nl ++
    text "--" ++ e.sep2.digits ++ nl ++
    text "Content-Type: text/html; charset=ISO-8859-1" ++ nl ++
    nl ++
    e.htmlText.getD [] ++ nl ++
    nl ++
    text "--" ++ e.sep2.digits ++ text "--" ++ nl ++
  e.filesAttachedBody m ++
  text "--" ++ e.sep1.digits ++ text "--" ++ nl

/-- The arguments of `mail`. -/
structure Message where
  to' : List Byte
  subject : List Byte
  message : List Byte
  additionalHeaders : List Byte

/-- `send`, up to the call of `mail`. -/
def send (e : Email) (m : Machine) : Message := ⟨e.to', e.subject, e.body m, e.headers⟩

end Email

/-! ## Calls -/

/-- One call on an `Email` before `send`. -/
inductive Call
  | setPlainText (value : List Byte)
  | setHTMLText (value : List Byte)
  | attachFile (filePath : List Byte)

/-- An attached file: its path, and the value `attachFile` returned for it. -/
structure Attached where
  filePath : List Byte
  id : List Byte

/-- A mail with what its `attachFile` calls were given and returned. -/
structure Draft where
  email : Email
  attached : List Attached := []

def Draft.call (d : Draft) : Call → Draft
  | .setPlainText value => { d with email := d.email.setPlainText value }
  | .setHTMLText value => { d with email := d.email.setHTMLText value }
  | .attachFile filePath =>
    ⟨(d.email.attachFile filePath).1, d.attached ++ [⟨filePath, (d.email.attachFile filePath).2⟩]⟩

/-- A mail behind a series of calls on a fresh one. -/
def draft (to' subject from' : List Byte) (sep1 sep2 : Md5) (calls : List Call) : Draft :=
  calls.foldl Draft.call { email := .construct to' subject from' sep1 sep2 }

/-- The returned values are the numbers of the files. -/
def Draft.Numbered (d : Draft) : Prop :=
  d.attached = d.email.filesAttached.mapIdx fun i file => ⟨file, Email.fileId (i + 1)⟩

theorem Draft.Numbered.call {d : Draft} (numbered : d.Numbered) (c : Call) : (d.call c).Numbered := by
  cases c with
  | setPlainText value => exact numbered
  | setHTMLText value => exact numbered
  | attachFile filePath =>
    unfold Draft.Numbered at *
    simp [Draft.call, Email.attachFile, numbered, List.mapIdx_concat]

theorem draft_numbered (to' subject from' : List Byte) (sep1 sep2 : Md5) (calls : List Call) :
    (draft to' subject from' sep1 sep2 calls).Numbered :=
  List.foldlRecOn calls Draft.call rfl fun _ numbered c _ => numbered.call c

end GtpLibrary.MyFramework

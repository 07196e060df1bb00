import GtpLibrary.Lib.Mime
import GtpLibrary.MyFramework.Email

/-!
# The lines of the mail

`send` writes one piece under the other, each with a line break, and the pieces other than
the two texts are lines. The body is a multipart of two levels in all but the empty line
that would end the head of its first part (`lines_body`).
-/

namespace GtpLibrary.MyFramework

open Lib Lib.Mime

/-- The header of the alternatives. -/
def multipartHead (sep2 : Md5) : Line := text "Content-Type: multipart/alternative; boundary=" ++ sep2.digits

/-- The header of the plain text. -/
def plainHead : Line := text "Content-Type: text/plain; charset=ISO-8859-1"

/-- The header of the HTML text. -/
def htmlHead : Line := text "Content-Type: text/html; charset=ISO-8859-1"

/-- The part with the plain text. -/
def plainPart (plain : List Byte) : List Line := plainHead :: [] :: lines plain

/-- The part with the HTML text. -/
def htmlPart (html : List Byte) : List Line := htmlHead :: [] :: (lines html ++ [[]])

/-- What stands behind the head of the first part. -/
def alternatives (e : Email) : List Line :=
  encapsulate e.sep2.digits [plainPart (e.plainText.getD []), htmlPart (e.htmlText.getD [])]

/-- The field with the id of a file. -/
def idLine (index : Nat) : Line := text "Content-ID: <" ++ decimal index ++ text "@localhost.localdomain>"

/-- The part with a file. -/
def filePart (m : Machine) (index : Nat) (file : List Byte) : List Line :=
  [text "Content-Type: " ++ m.exec (text "file -i -b " ++ file), text "Content-Transfer-Encoding: base64",
    text "X-Attachment-Id: " ++ Email.fileId index, idLine index, [], m.encoded file]

/-- The parts with the files, counted from 1. -/
def fileParts (m : Machine) (e : Email) : List (List Line) :=
  e.filesAttached.mapIdx fun i file => filePart m (i + 1) file

section
variable {m : Machine} {e : Email} {index : Nat} {file : List Byte}

/-- Only hexadecimal digits are in it. -/
theorem Md5.not_mem (sep : Md5) {c : Byte} (foreign : isHexDigit c = false) : c ∉ sep.digits := by
  intro member
  rw [sep.hex c member] at foreign
  cases foreign

/-- A number is on one line. -/
theorem feed_not_mem_decimal (n : Nat) : byte '\n' ∉ decimal n := fun member =>
  absurd (toNat_of_mem_decimal member).1 (by decide)

/-- `exec` returns one line. -/
theorem feed_not_mem_exec (m : Machine) (command : List Byte) : byte '\n' ∉ m.exec command := by
  intro member
  have kept := (List.dropWhile_sublist _).subset (List.mem_reverse.1 member)
  have other := List.mem_takeWhile_imp kept
  exact absurd other (by decide)

/-- A file that is attached, line by line. -/
theorem attached_eq : e.attached m index file = write ((dashes ++ e.sep1.digits) :: filePart m index file) := by
  unfold Email.attached filePart
  simp only [write_cons, write_nil, List.append_assoc]
  unfold idLine Email.fileId dashes crlf nl
  simp only [List.append_assoc, List.append_nil, List.nil_append]

/-- The files are attached one after another. -/
theorem foldl_attached (index : Nat) (body : List Byte) (files : List (List Byte)) :
    (files.foldl (fun (index, body) file => (index + 1, body ++ e.attached m (index + 1) file)) (index, body)).2 =
      body ++ write ((files.mapIdx fun i file => filePart m (index + i + 1) file).flatMap fun part =>
        (dashes ++ e.sep1.digits) :: part) := by
  induction files generalizing index body with
  | nil => simp [write]
  | cons file files ih =>
    have shift : (fun i file => filePart m (index + (i + 1) + 1) file) =
        fun i file => filePart m (index + 1 + i + 1) file := by
      funext i file
      rw [Nat.add_right_comm index 1 i, Nat.add_assoc index i 1]
    rw [List.foldl_cons, ih, List.mapIdx_cons, shift, List.flatMap_cons, write_append, attached_eq, List.append_assoc,
      Nat.add_zero]

/-- The files, line by line. -/
theorem filesAttachedBody_eq :
    e.filesAttachedBody m = write ((fileParts m e).flatMap fun part => (dashes ++ e.sep1.digits) :: part) := by
  unfold Email.filesAttachedBody fileParts
  rw [foldl_attached, List.nil_append]
  simp only [Nat.zero_add]

/-- The pieces that `send` writes, each with a line break behind it. -/
def pieces (m : Machine) (e : Email) : List (List Byte) :=
  [dashes ++ e.sep1.digits, multipartHead e.sep2, dashes ++ e.sep2.digits, plainHead, [], e.plainText.getD [],
    dashes ++ e.sep2.digits, htmlHead, [], e.htmlText.getD [], [], dashes ++ e.sep2.digits ++ dashes] ++
  (fileParts m e).flatMap (fun part => (dashes ++ e.sep1.digits) :: part) ++
  [dashes ++ e.sep1.digits ++ dashes]

/-- The body, line by line. -/
theorem body_eq : e.body m = write (pieces m e) := by
  unfold Email.body pieces
  rw [write_append, write_append, ← filesAttachedBody_eq]
  simp only [write_cons, write_nil, List.append_assoc]
  unfold multipartHead plainHead htmlHead dashes crlf nl
  simp only [List.append_assoc, List.append_nil, List.nil_append]

/-- Two texts on one line. -/
theorem feed_not_mem_append {a b : List Byte} (first : byte '\n' ∉ a) (second : byte '\n' ∉ b) : byte '\n' ∉ a ++ b := by
  rw [List.mem_append, not_or]
  exact ⟨first, second⟩

/-- A separator is on one line. -/
theorem feed_not_mem_sep (sep : Md5) : byte '\n' ∉ sep.digits := sep.not_mem (by decide)

/-- An id is on one line. -/
theorem feed_not_mem_fileId (index : Nat) : byte '\n' ∉ Email.fileId index :=
  feed_not_mem_append (feed_not_mem_decimal index) (by decide)

/-- The encoded file is on one line. -/
theorem feed_not_mem_encoded (m : Machine) (file : List Byte) : byte '\n' ∉ m.encoded file :=
  Base64.not_mem_encode (mt Base64.mem_alphabet.1 (by decide)) (by decide)

/-- Every line of a file is one line. -/
theorem feed_not_mem_filePart : ∀ l ∈ filePart m index file, byte '\n' ∉ l := by
  simp only [filePart, List.forall_mem_cons]
  refine ⟨?_, by decide, ?_, ?_, List.not_mem_nil, feed_not_mem_encoded m file, fun l member => ?_⟩
  · exact feed_not_mem_append (by decide) (feed_not_mem_exec m _)
  · exact feed_not_mem_append (by decide) (feed_not_mem_fileId index)
  · exact feed_not_mem_append (feed_not_mem_append (by decide) (feed_not_mem_decimal index)) (by decide)
  · cases member

/-- The lines of the files are their lines. -/
theorem lines_fileParts : ((fileParts m e).flatMap fun part => (dashes ++ e.sep1.digits) :: part).flatMap lines =
    (fileParts m e).flatMap fun part => (dashes ++ e.sep1.digits) :: part := by
  apply flatMap_lines_of_no_feed
  intro l member
  obtain ⟨part, inside, here⟩ := List.mem_flatMap.1 member
  obtain ⟨i, short, rfl⟩ := List.mem_mapIdx.1 inside
  rcases List.mem_cons.1 here with rfl | here
  · exact feed_not_mem_append (by decide) (feed_not_mem_sep _)
  · exact feed_not_mem_filePart l here

/-- The lines of the body are those of a multipart of the two levels, but for the empty line
that would end the head of the first part. -/
theorem lines_body : lines (e.body m) =
    encapsulate e.sep1.digits ((multipartHead e.sep2 :: alternatives e) :: fileParts m e) ++ [[]] := by
  have delimiter : ∀ sep : Md5, lines (dashes ++ sep.digits) = [dashes ++ sep.digits] := fun sep =>
    lines_of_no_feed (feed_not_mem_append (by decide) (feed_not_mem_sep sep))
  have closing : ∀ sep : Md5, lines (dashes ++ (sep.digits ++ dashes)) = [dashes ++ (sep.digits ++ dashes)] := fun sep =>
    lines_of_no_feed (feed_not_mem_append (by decide) (feed_not_mem_append (feed_not_mem_sep sep) (by decide)))
  have head : lines (multipartHead e.sep2) = [multipartHead e.sep2] :=
    lines_of_no_feed (feed_not_mem_append (by decide) (feed_not_mem_sep _))
  have plain : lines plainHead = [plainHead] := lines_of_no_feed (by decide)
  have html : lines htmlHead = [htmlHead] := lines_of_no_feed (by decide)
  have empty : lines [] = [[]] := rfl
  have split := lines_write (pieces m e) []
  rw [List.append_nil] at split
  rw [body_eq, split]
  unfold pieces
  rw [List.flatMap_append, List.flatMap_append, lines_fileParts]
  simp only [List.flatMap_cons, List.flatMap_nil, delimiter, closing, head, plain, html, empty, encapsulate, alternatives,
    plainPart, htmlPart, List.append_assoc, List.cons_append, List.nil_append, List.append_nil]

end

end GtpLibrary.MyFramework

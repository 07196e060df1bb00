import GtpLibrary.Mail.AttachmentPieces
import GtpLibrary.Mail.Upload

/-!
# `main` of the curl mail sender

The calls of `main`, with the file it attaches, put together: from the file on the disk to the bytes that
libcurl is given and what a reader of the attachment decodes from them. The dashes of the delimiters are
not ASCII in the source, and here they are the bytes that stand there.
-/

namespace GtpLibrary.Mail
open GtpLibrary.Lib

def emDash : List Byte := [0xe2, 0x80, 0x94]

def enDash : List Byte := [0xe2, 0x80, 0x93]

def pg : Contact := ⟨text "Tancredi-Paul Grozav", text "paul@example.com"⟩

def boundary : List Byte := emDash ++ emDash ++ emDash ++ emDash ++ enDash ++ text "231BDD24AA49E9F331EE4B89"

def fileName : List Byte := text "20170823.pdf"

/-- The calls in front of `if(has_attachment)`, and those in front of the file. -/
def mainCalls : List BuilderCall := [
  .setRecipients [pg],
  .addTo pg,
  .addFrom pg,
  .addSubject (text "Test"),
  .addField (text "Date") (text "Wed, 20 Dec 2017 16:45:43 +0200"),
  .addField (text "MIME-Version") (text "1.0"),
  .addField (text "Content-Type") (text "multipart/mixed; boundary=\"" ++ boundary ++ text "\""),
  .addEmptyField,
  .addData (enDash ++ boundary),
  .addField (text "Content-Type") (text "text/html; charset=\"ISO-8859-1\""),
  .addField (text "Content-Transfer-Encoding") (text "7bit"),
  .addEmptyField,
  .addData (text "<b>The</b> <a href=\"http://paul.grozav.info\">message</a>."),
  .addEmptyField,
  .addEmptyField,
  .addData (enDash ++ boundary),
  .addField (text "Content-Type") (text "image/pdf; name=\"" ++ fileName ++ text "\""),
  .addField (text "Content-Transfer-Encoding") (text "base64"),
  .addField (text "Content-Disposition") (text "attachment; filename=\"" ++ fileName ++ text "\""),
  .addEmptyField]

/-- The last delimiter. -/
def closing : List Byte := enDash ++ boundary ++ enDash

/-- `main` up to `ce.send()`, if its loop ends within `fuel` turns; `file` is what `is_open` and the file
buffer give. -/
def mainMail (file : Option (List Byte)) (fuel : Nat) : Option CurlEmail :=
  (match file with
    | some content => attach content fuel (build mainCalls)
    | none => some (build mainCalls)).map (CurlEmail.addData · closing)

section
variable {file : Option (List Byte)} {content : List Byte} {fuel k : Nat} {requests : Nat → ReadRequest}

theorem mainMail_lines {pieces : List (List Byte)}
    (attached : attach content fuel (build mainCalls) = some (pieces.foldl CurlEmail.addData (build mainCalls))) :
    ∃ ce, mainMail (some content) fuel = some ce ∧
      ce.mailContent = (build mainCalls).mailContent ++ pieces.map (· ++ CurlEmail.crlf) ++ [closing ++ CurlEmail.crlf] := by
  refine ⟨_, congrArg (Option.map (CurlEmail.addData · closing)) attached, ?_⟩
  rw [← mailContent_foldl]
  rfl

/-- The loop's last turn comes before the counter wraps. -/
theorem EndsAtTurn.le_of_short {length : Nat} (ends : EndsAtTurn length k) (short : length ≤ 15000 * 286331) :
    k ≤ 286331 := by
  by_contra more
  have inside := ends.2 286331 (by omega)
  rw [indexAt_of_le (Nat.le_refl _)] at inside
  omega

/-- The loop ends, after few pieces. -/
theorem attach_of_short (short : content.length ≤ 3221223750) (ce : CurlEmail) :
    ∃ (fuel : Nat) (pieces : List (List Byte)), attach content fuel ce = some (pieces.foldl CurlEmail.addData ce) ∧ pieces.length ≤ 286331 ∧
      (∀ piece ∈ pieces, piece.length ≤ 15000) ∧ pieces.flatten = Base64.encode content := by
  obtain ⟨k, ends, whole⟩ := attachesWhole_iff_turns.1 (attachesWhole_of_short short : AttachesWhole content ce)
  have size := length_encodeContent content
  have few : k ≤ 286331 := ends.le_of_short (by omega)
  have small : (encodeContent content).length < 2 ^ 64 := by omega
  refine ⟨k + 1, piecesUpTo (encodeContent content) k, ?_, ?_, fun piece => length_pieceAt_le, whole⟩
  · have turns : ∀ l < k, indexAt (0 + l) < (encodeContent content).length := by simpa using ends.2
    rw [piecesUpTo, List.range_eq_range']
    exact (addPieces_eq_some small).2 ⟨k, Nat.lt_succ_self k, by simpa using ends.1, turns, rfl⟩
  · simpa [piecesUpTo] using few

/-- The lines that `main` writes itself are short, and hold no NUL. -/
theorem main_lines : ∀ line ∈ (closing ++ CurlEmail.crlf) :: (build mainCalls).mailContent,
    (0 : Byte) ∉ line ∧ line.length ≤ 15002 := by
  decide

/-- With the pieces of an encoding between them, the lines fit buffers of 15002 bytes. -/
theorem main_fits {pieces : List (List Byte)} (room : ∀ k, 15002 ≤ (requests k).capacity)
    (few : pieces.length ≤ 286331) (narrow : ∀ piece ∈ pieces, piece.length ≤ 15000)
    (whole : pieces.flatten = Base64.encode content) :
    Fits ((build mainCalls).mailContent ++ pieces.map (· ++ CurlEmail.crlf) ++ [closing ++ CurlEmail.crlf]) requests := by
  have lines : ∀ line ∈ (build mainCalls).mailContent ++ pieces.map (· ++ CurlEmail.crlf) ++ [closing ++ CurlEmail.crlf],
      (0 : Byte) ∉ line ∧ line.length ≤ 15002 := by
    intro line member
    simp only [List.mem_append, List.mem_map, List.mem_singleton, or_assoc] at member
    obtain front | ⟨piece, here, rfl⟩ | rfl := member
    · exact main_lines line (List.mem_cons_of_mem _ front)
    · have clean : (0 : Byte) ∉ piece := fun nul =>
        Base64.not_mem_encode (by decide) (by decide) (whole ▸ List.mem_flatten_of_mem here nul)
      have size := narrow piece here
      refine ⟨?_, by rw [List.length_append]; exact Nat.add_le_add_right size 2⟩
      rw [List.mem_append, not_or]
      exact ⟨clean, by decide⟩
    · exact main_lines _ List.mem_cons_self
  refine ⟨?_, fun line member => (lines line member).1, fun k inside => ?_⟩
  · have front : (build mainCalls).mailContent.length = 19 := rfl
    simp only [List.length_append, List.length_map, front, List.length_singleton, intMax]
    omega
  · exact Nat.le_trans (lines _ (List.getElem_mem inside)).2 (room k)

/-- **The mail of `main`.** With a file of at most 3221223750 bytes, or with none, and buffers of 15002 bytes
or more, the loop ends, libcurl is given the whole mail and nothing else, and what stands in it between the
head of the attachment and the last delimiter is decoded to the file. -/
theorem main_delivers (short : ∀ content ∈ file, content.length ≤ 3221223750)
    (room : ∀ k, 15002 ≤ (requests k).capacity) :
    ∃ fuel ce body, mainMail file fuel = some ce ∧ UploadsMail ce.uploadStatus requests ∧
      ce.mailContent.flatten = (build mainCalls).mailContent.flatten ++ body ++ (closing ++ CurlEmail.crlf) ∧
      Base64.decode body = file.getD [] := by
  obtain ⟨fuel, ce, pieces, made, lines, few, narrow, whole⟩ :
      ∃ (fuel : Nat) (ce : CurlEmail) (pieces : List (List Byte)), mainMail file fuel = some ce ∧
      ce.mailContent = (build mainCalls).mailContent ++ pieces.map (· ++ CurlEmail.crlf) ++ [closing ++ CurlEmail.crlf] ∧
      pieces.length ≤ 286331 ∧ (∀ piece ∈ pieces, piece.length ≤ 15000) ∧
      pieces.flatten = Base64.encode (file.getD []) := by
    cases file with
    | none => exact ⟨0, _, [], rfl, rfl, by decide, by simp, rfl⟩
    | some content =>
      obtain ⟨fuel, pieces, attached, few, narrow, whole⟩ := attach_of_short (short content rfl) (build mainCalls)
      obtain ⟨ce, made, lines⟩ := mainMail_lines attached
      exact ⟨fuel, ce, pieces, made, lines, few, narrow, whole⟩
  have foreign : ∀ c ∈ CurlEmail.crlf, c ∉ Base64.alphabet ∧ c ≠ byte '=' := by decide
  have fits : Fits ce.mailContent requests := lines ▸ main_fits room few narrow whole
  refine ⟨fuel, ce, pieces.flatMap (· ++ CurlEmail.crlf), made, fits.uploads (fun k => ?_) (fun line member => ?_), ?_,
    Base64.decode_pieces whole foreign⟩
  · exact Nat.le_trans (by decide) (room k)
  · rw [lines] at member
    simp only [List.mem_append, List.mem_map, List.mem_singleton, or_assoc] at member
    obtain front | ⟨piece, -, rfl⟩ | rfl := member
    · exact build_line_ne_nil front
    · exact List.append_ne_nil_of_right_ne_nil _ (by decide)
    · exact List.append_ne_nil_of_right_ne_nil _ (by decide)
  · rw [lines, List.flatten_append, List.flatten_append, List.flatten_singleton, ← List.flatMap_def]

end

/-- A short file through buffers of 16 KiB. -/
theorem main_delivers_pdf :
    ∃ fuel ce body, mainMail (some (text "%PDF-1.4")) fuel = some ce ∧
      UploadsMail ce.uploadStatus (fun _ => ⟨1, 16384⟩) ∧
      ce.mailContent.flatten = (build mainCalls).mailContent.flatten ++ body ++ (closing ++ CurlEmail.crlf) ∧
      Base64.decode body = text "%PDF-1.4" :=
  main_delivers (by rintro content ⟨⟩; decide) fun _ => by decide

end GtpLibrary.Mail

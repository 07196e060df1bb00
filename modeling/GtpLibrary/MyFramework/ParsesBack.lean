import GtpLibrary.Lib.Checks
import GtpLibrary.MyFramework.EmailLines

/-!
# What a reader finds in the mail

The built body is read by the rules of `Lib.Mime`. The attachments come out as they went in
(`attachments_read`). The head of the first part has no empty line behind it, so the first
inner delimiter and the head of the plain text are header lines, the plain text stands in
front of the first delimiter of the inner multipart, and that has the HTML text as its only
part (`body_read`). With the empty line put in, the mail is as it was meant
(`parsesBack_with_blank`).
-/

namespace GtpLibrary.MyFramework

open Lib Lib.Mime

/-! ## The mail as it is meant -/

/-- A text as it was, but for one line break behind it. -/
def UpToBreak (expected found : List Byte) : Prop := found = expected ∨ found = expected ++ crlf

/-- A text part with the text in its body. -/
def HoldsText (type expected : List Byte) (part : List Line) : Prop :=
  (entity part).mediaType = some type ∧ UpToBreak expected (join (entity part).body)

/-- A `multipart/alternative` of the plain and the HTML text. -/
def HoldsTexts (plain html : List Byte) (part : List Line) : Prop :=
  (entity part).mediaType = some (text "multipart/alternative") ∧
    ∃ boundary first second, (entity part).boundary = some boundary ∧
      multipart boundary (entity part).body = some [first, second] ∧
      HoldsText (text "text/plain") plain first ∧ HoldsText (text "text/html") html second

/-- The part decodes to the bytes of the file, and its identifier is the returned one. -/
def HoldsFile (m : Machine) (file : Attached) (part : List Line) : Prop :=
  (entity part).field (text "content-transfer-encoding") = some (text "base64") ∧
    some (Base64.decode (join (entity part).body)) = m.contents file.filePath ∧
    (entity part).field (text "content-id") = some (text "<" ++ file.id ++ text ">")

/-- The body, read with `sep1`: the two texts, then the attached files in their order. -/
def ParsesBack (m : Machine) (d : Draft) (body : List Line) : Prop :=
  ∃ first rest, multipart d.email.sep1.digits body = some (first :: rest) ∧
    HoldsTexts (d.email.plainText.getD []) (d.email.htmlText.getD []) first ∧
    List.Forall₂ (HoldsFile m) d.attached rest

section
variable {m : Machine} {e : Email} {index : Nat} {file : List Byte}

/-! ## Reading -/

/-- What a reader sees in the second part, with no empty line in front of `--sep2`. -/
theorem entity_multipartHead : entity (multipartHead e.sep2 :: alternatives e) =
    ⟨[multipartHead e.sep2, dashes ++ e.sep2.digits, plainHead],
      lines (e.plainText.getD []) ++ encapsulate e.sep2.digits [htmlPart (e.htmlText.getD [])]⟩ := by
  have split : multipartHead e.sep2 :: alternatives e = [multipartHead e.sep2, dashes ++ e.sep2.digits, plainHead] ++
      [] :: (lines (e.plainText.getD []) ++ encapsulate e.sep2.digits [htmlPart (e.htmlText.getD [])]) := by
    simp [alternatives, encapsulate, plainPart]
  rw [split]
  apply entity_append
  simp only [List.forall_mem_cons]
  exact ⟨List.cons_ne_nil _ _, List.cons_ne_nil _ _, List.cons_ne_nil _ _, fun l member => by cases member⟩

/-- No digit is a blank. -/
theorem Md5.dark (sep : Md5) {c : Byte} (member : c ∈ sep.digits) : blank c = false := by
  have all : ∀ c : Byte, isHexDigit c = true → blank c = false := by decide
  exact all c (sep.hex c member)

/-- Nothing is trimmed behind the digits. -/
theorem Md5.last_dark (sep : Md5) (a : List Byte) : ∀ c ∈ (a ++ sep.digits).getLast?, blank c = false := by
  intro c last
  have filled : sep.digits ≠ [] := by
    intro none
    have size := sep.size
    rw [none] at size
    cases size
  rw [List.getLast?_append_of_ne_nil _ filled] at last
  exact sep.dark (List.mem_of_getLast? last)

/-- Nothing is trimmed from the digits. -/
theorem Md5.trim_digits (sep : Md5) : trim sep.digits = sep.digits :=
  trim_eq_self (fun _ first => sep.dark (List.mem_of_mem_head? first)) (sep.last_dark [])

/-- The value of the first field of the first part. -/
def multipartValue (sep2 : Md5) : List Byte :=
  text "multipart/alternative" ++ byte ';' :: (text " boundary" ++ byte '=' :: sep2.digits)

/-- The line is a field with its value. -/
theorem multipartHead_eq (sep2 : Md5) :
    multipartHead sep2 = text "Content-Type" ++ byte ':' :: byte ' ' :: multipartValue sep2 := by
  have literal : text "Content-Type: multipart/alternative; boundary=" = text "Content-Type" ++ byte ':' :: byte ' ' ::
      (text "multipart/alternative" ++ byte ';' :: (text " boundary" ++ [byte '='])) := by decide
  unfold multipartHead multipartValue
  rw [literal]
  simp only [List.append_assoc, List.cons_append, List.nil_append]

/-- The content type that a reader finds. -/
theorem field_multipartHead {header body : List Line} (begin : ∀ line ∈ header, begins line = true) :
    Entity.field ⟨multipartHead e.sep2 :: header, body⟩ (text "content-type") = some (multipartValue e.sep2) := by
  have all : ∀ line ∈ multipartHead e.sep2 :: header, begins line = true :=
    List.forall_mem_cons.2 ⟨begins_append (by decide) _, begin⟩
  have value : trim (multipartValue e.sep2) = multipartValue e.sep2 := by
    apply trim_eq_self
    · intro c first
      cases first
      decide
    · have joined : multipartValue e.sep2 = text "multipart/alternative; boundary=" ++ e.sep2.digits := by
        have literal : text "multipart/alternative; boundary=" =
            text "multipart/alternative" ++ byte ';' :: (text " boundary" ++ [byte '=']) := by decide
        unfold multipartValue
        rw [literal]
        simp only [List.append_assoc, List.cons_append, List.nil_append]
      rw [joined]
      exact e.sep2.last_dark _
  rw [multipartHead_eq] at all ⊢
  rw [field_cons_self (by decide) (by decide) all, value]

/-- The boundary that a reader finds. -/
theorem boundary_of_multipartHead {header body : List Line} (begin : ∀ line ∈ header, begins line = true) :
    Entity.boundary ⟨multipartHead e.sep2 :: header, body⟩ = some e.sep2.digits := by
  have bare : unquote (trim e.sep2.digits) = e.sep2.digits := by
    rw [e.sep2.trim_digits]
    exact if_neg fun quote => e.sep2.not_mem (by decide) (List.mem_of_mem_head? quote)
  have name : (trim (text " boundary")).map lower = text "boundary" := by decide
  unfold Entity.boundary
  rw [field_multipartHead begin, Option.bind_some]
  unfold multipartValue
  rw [parameters_single (by decide) (by decide) (e.sep2.not_mem (by decide)) (by decide), bare, name,
    List.lookup_cons_self]

/-- The media type that a reader finds. -/
theorem mediaType_of_multipartHead {header body : List Line} (begin : ∀ line ∈ header, begins line = true) :
    Entity.mediaType ⟨multipartHead e.sep2 :: header, body⟩ = some (text "multipart/alternative") := by
  unfold Entity.mediaType
  rw [field_multipartHead begin, Option.map_some]
  unfold multipartValue
  rw [leading_append (by decide)]
  decide

/-- The boundary is in the part only if it is in the plain text. -/
theorem free_plainPart {boundary plain : List Byte} (absent : ¬ boundary <:+: plain) : Free boundary (plainPart plain) :=
  free_cons (not_delimits_of_head (by decide))
    (free_cons (not_delimits_of_head (by decide)) (free_lines absent))

/-- The boundary is in the part only if it is in the HTML text. -/
theorem free_htmlPart {boundary html : List Byte} (absent : ¬ boundary <:+: html) : Free boundary (htmlPart html) :=
  free_cons (not_delimits_of_head (by decide))
    (free_cons (not_delimits_of_head (by decide))
      (free_append (free_lines absent) (free_cons (not_delimits_of_head (by decide)) free_nil)))

/-- Base64 holds no dash, so the boundary is in no file. -/
theorem free_filePart (boundary : List Byte) : Free boundary (filePart m index file) := by
  have foreign : byte '-' ∉ Base64.alphabet := mt Base64.mem_alphabet.1 (by decide)
  have encoded : (m.encoded file).head? ≠ some (byte '-') := fun dash =>
    Base64.not_mem_encode foreign (by decide) (List.mem_of_mem_head? dash)
  unfold filePart idLine
  rw [List.append_assoc (text "Content-ID: <")]
  apply free_cons (not_delimits_append (by decide) (by decide) _)
  apply free_cons (not_delimits_of_head (by decide))
  apply free_cons (not_delimits_append (by decide) (by decide) _)
  apply free_cons (not_delimits_append (by decide) (by decide) _)
  apply free_cons (not_delimits_of_head (by decide))
  exact free_cons (not_delimits_of_head encoded) free_nil

/-- So it is in none of the files. -/
theorem free_fileParts (boundary : List Byte) : ∀ part ∈ fileParts m e, Free boundary part := by
  intro part member
  obtain ⟨i, short, rfl⟩ := List.mem_mapIdx.1 member
  exact free_filePart boundary

/-- The two separators differ, and neither occurs in a text. -/
structure Separated (e : Email) : Prop where
  distinct : e.sep1.digits ≠ e.sep2.digits
  plain1 : ¬ e.sep1.digits <:+: e.plainText.getD []
  plain2 : ¬ e.sep2.digits <:+: e.plainText.getD []
  html1 : ¬ e.sep1.digits <:+: e.htmlText.getD []
  html2 : ¬ e.sep2.digits <:+: e.htmlText.getD []

/-- The outer boundary is not in the alternatives. -/
theorem Separated.free_alternatives (separated : Separated e) : Free e.sep1.digits (alternatives e) := by
  apply free_encapsulate (e.sep1.size.trans e.sep2.size.symm) separated.distinct
  simp only [List.forall_mem_cons]
  exact ⟨free_plainPart separated.plain1, free_htmlPart separated.html1, fun part member => by cases member⟩

/-- The parts of the body: the two texts in the first, then the files. -/
theorem Separated.body_read (separated : Separated e) :
    multipart e.sep1.digits (lines (e.body m)) = some ((multipartHead e.sep2 :: alternatives e) :: fileParts m e) := by
  have head : ¬ Delimits e.sep1.digits (multipartHead e.sep2) :=
    not_delimits_append (by decide) (by decide) _
  have frees : ∀ part ∈ (multipartHead e.sep2 :: alternatives e) :: fileParts m e, Free e.sep1.digits part :=
    List.forall_mem_cons.2 ⟨free_cons head separated.free_alternatives, free_fileParts _⟩
  rw [lines_body]
  exact multipart_encapsulate free_nil frees (List.cons_ne_nil _ _) [[]]

/-- Without the empty line the inner multipart has the HTML text as its only part. -/
theorem Separated.texts_read (separated : Separated e) :
    multipart e.sep2.digits (entity (multipartHead e.sep2 :: alternatives e)).body =
      some [htmlPart (e.htmlText.getD [])] := by
  have frees : ∀ part ∈ [htmlPart (e.htmlText.getD [])], Free e.sep2.digits part :=
    List.forall_mem_singleton.2 (free_htmlPart separated.html2)
  have read := multipart_encapsulate (free_lines separated.plain2) frees (List.cons_ne_nil _ _) []
  rw [List.append_nil] at read
  rw [entity_multipartHead]
  exact read

/-- A reader that insists on fields gives up in the head of the first part. -/
theorem head_malformed : ∃ line ∈ (entity (multipartHead e.sep2 :: alternatives e)).header, fieldOf line = none := by
  rw [entity_multipartHead]
  refine ⟨dashes ++ e.sep2.digits, by simp, if_neg ?_⟩
  rw [List.mem_append, not_or]
  exact ⟨by decide, e.sep2.not_mem (by decide)⟩

/-- A reader finds the inner boundary also without the empty line. -/
theorem boundary_read :
    (entity (multipartHead e.sep2 :: alternatives e)).boundary = some e.sep2.digits := by
  rw [entity_multipartHead]
  apply boundary_of_multipartHead
  simp only [List.forall_mem_cons]
  exact ⟨rfl, by decide, fun line member => by cases member⟩

/-! ## The attachments -/

/-- The header area of an attachment, its lines taken apart at the colons. -/
def fileHeader (m : Machine) (index : Nat) (file : List Byte) : List Line :=
  [text "Content-Type" ++ byte ':' :: byte ' ' :: m.exec (text "file -i -b " ++ file),
    text "Content-Transfer-Encoding" ++ byte ':' :: byte ' ' :: text "base64",
    text "X-Attachment-Id" ++ byte ':' :: byte ' ' :: Email.fileId index,
    text "Content-ID" ++ byte ':' :: byte ' ' :: (text "<" ++ Email.fileId index ++ text ">")]

/-- The header and the body of a file. -/
theorem entity_filePart : entity (filePart m index file) = ⟨fileHeader m index file, [m.encoded file]⟩ := by
  have literal1 : text "Content-Type: " = text "Content-Type" ++ [byte ':', byte ' '] := by decide
  have literal2 : text "Content-Transfer-Encoding: base64" =
      text "Content-Transfer-Encoding" ++ byte ':' :: byte ' ' :: text "base64" := by decide
  have literal3 : text "X-Attachment-Id: " = text "X-Attachment-Id" ++ [byte ':', byte ' '] := by decide
  have literal4 : text "Content-ID: <" = text "Content-ID" ++ byte ':' :: byte ' ' :: text "<" := by decide
  have literal5 : text "@localhost.localdomain>" = text "@localhost.localdomain" ++ text ">" := by decide
  have parts : filePart m index file = fileHeader m index file ++ [] :: [m.encoded file] := by
    unfold filePart fileHeader idLine
    rw [literal1, literal2, literal3, literal4, literal5]
    unfold Email.fileId
    simp only [List.append_assoc, List.cons_append, List.nil_append]
  rw [parts]
  apply entity_append
  unfold fileHeader
  simp only [List.forall_mem_cons]
  exact ⟨List.cons_ne_nil _ _, List.cons_ne_nil _ _, List.cons_ne_nil _ _, List.cons_ne_nil _ _,
    fun l member => by cases member⟩

variable (m index file) in
/-- Every line of the header begins a field. -/
theorem begins_fileHeader : ∀ line ∈ fileHeader m index file, begins line = true := by
  unfold fileHeader
  simp only [List.forall_mem_cons]
  exact ⟨begins_append (by decide) _, begins_append (by decide) _, begins_append (by decide) _,
    begins_append (by decide) _, fun l member => by cases member⟩

/-- A file says that it is in base64. -/
theorem encoding_filePart :
    (entity (filePart m index file)).field (text "content-transfer-encoding") = some (text "base64") := by
  have begin := begins_fileHeader m index file
  rw [entity_filePart]
  unfold fileHeader at begin ⊢
  rw [field_cons_other (by decide) (by decide) begin,
    field_cons_self (by decide) (by decide) (List.forall_mem_cons.1 begin).2]
  decide

/-- A file is found by its id. -/
theorem id_filePart :
    (entity (filePart m index file)).field (text "content-id") = some (text "<" ++ Email.fileId index ++ text ">") := by
  have begin := begins_fileHeader m index file
  have value : trim (text "<" ++ Email.fileId index ++ text ">") = text "<" ++ Email.fileId index ++ text ">" := by
    apply trim_eq_self
    · intro c first
      cases first
      decide
    · intro c last
      rw [List.getLast?_append_of_ne_nil _ (by decide)] at last
      cases last
      decide
  rw [entity_filePart]
  unfold fileHeader at begin ⊢
  have begin2 := (List.forall_mem_cons.1 begin).2
  have begin3 := (List.forall_mem_cons.1 begin2).2
  rw [field_cons_other (by decide) (by decide) begin,
    field_cons_other (by decide) (by decide) begin2,
    field_cons_other (by decide) (by decide) begin3,
    field_cons_self (by decide) (by decide) (List.forall_mem_cons.1 begin3).2, value]

/-- A file is decoded to its contents. -/
theorem decode_filePart : Base64.decode (join (entity (filePart m index file)).body) = (m.contents file).getD [] := by
  have one : join [m.encoded file] = m.encoded file := List.intercalate_singleton
  rw [entity_filePart, one]
  exact Base64.decode_encode _

/-- **The attachments** come out in their order, with their bytes and their identifiers. -/
theorem attachments_read {d : Draft} (numbered : d.Numbered)
    (readable : ∀ file ∈ d.attached, (m.contents file.filePath).isSome) :
    List.Forall₂ (HoldsFile m) d.attached (fileParts m d.email) := by
  rw [numbered] at readable ⊢
  apply forall₂_mapIdx
  intro i file member
  obtain ⟨bytes, held⟩ := Option.isSome_iff_exists.1 (readable _ member)
  refine ⟨encoding_filePart, ?_, id_filePart⟩
  dsimp only at held ⊢
  rw [decode_filePart, held, Option.getD_some]

/-! ## The whole mail -/

/-- Without the empty line the texts are not among the parts. -/
theorem Separated.not_holdsTexts (separated : Separated e) (plain html : List Byte) :
    ¬ HoldsTexts plain html (multipartHead e.sep2 :: alternatives e) := by
  rintro ⟨-, boundary, first, second, same, inner, -, -⟩
  cases boundary_read.symm.trans same
  rw [separated.texts_read] at inner
  cases inner

end

/-- **The mail does not parse back**, whatever its texts and files. -/
theorem not_parsesBack (m : Machine) (to' subject from' : List Byte) (sep1 sep2 : Md5) (calls : List Call)
    (separated : Separated (draft to' subject from' sep1 sep2 calls).email) :
    ¬ ParsesBack m (draft to' subject from' sep1 sep2 calls)
      (lines ((draft to' subject from' sep1 sep2 calls).email.send m).message) := by
  rintro ⟨first, rest, read, texts, -⟩
  cases separated.body_read.symm.trans read
  exact separated.not_holdsTexts _ _ texts

/-- 32 equal digits. -/
def Md5.repeated (c : Byte) (hex : isHexDigit c = true) : Md5 :=
  ⟨List.replicate 32 c, fun _ member => List.eq_of_mem_replicate member ▸ hex, List.length_replicate⟩

/-- A separator. -/
def sepA : Md5 := .repeated (byte 'a') (by decide)

/-- Another separator. -/
def sepB : Md5 := .repeated (byte 'b') (by decide)

/-- A machine without files. -/
def emptyMachine : Machine := ⟨fun _ => [], fun _ => none⟩

/-- Two short texts and no file. -/
def hello : Draft := draft (text "to@localhost") (text "Hello") (text "from@localhost") sepA sepB
  [.setPlainText (text "Hello"), .setHTMLText (text "<p>Hello</p>")]

/-- Neither separator is in the texts. -/
theorem hello_separated : Separated hello.email :=
  ⟨by decide, by decide, by decide, by decide, by decide⟩

/-- A mail with two short texts. -/
theorem not_parsesBack_hello : ¬ ParsesBack emptyMachine hello (lines (hello.email.send emptyMachine).message) :=
  not_parsesBack _ _ _ _ _ _ _ hello_separated

/-- The greeting is lost in front of the inner multipart. -/
theorem hello_loses_plainText : Separated hello.email ∧
    ¬ ParsesBack emptyMachine hello (lines (hello.email.send emptyMachine).message) ∧
    multipart sepB.digits (entity (multipartHead sepB :: alternatives hello.email)).body =
      some [htmlPart (text "<p>Hello</p>")] := by
  refine ⟨hello_separated, ?_, hello_separated.texts_read⟩
  rintro ⟨first, rest, read, texts, -⟩
  cases hello_separated.body_read.symm.trans read
  exact hello_separated.not_holdsTexts _ _ texts

section
variable {m : Machine} {e : Email} {d : Draft}

/-- The lines with an empty one behind the first two. -/
def withBlank (ls : List Line) : List Line := ls.take 2 ++ [] :: ls.drop 2

/-- The part holds the text that was set. -/
theorem holdsText_plainPart (plain : List Byte) : HoldsText (text "text/plain") plain (plainPart plain) := by
  have read : entity (plainPart plain) = ⟨[plainHead], lines plain⟩ :=
    entity_append (List.forall_mem_singleton.2 (List.cons_ne_nil _ _))
  unfold HoldsText
  rw [read]
  refine ⟨?_, .inl (join_lines plain)⟩
  show Entity.mediaType ⟨[plainHead], []⟩ = _
  decide

/-- The HTML text has the line break that `send` puts behind it. -/
theorem holdsText_htmlPart (html : List Byte) : HoldsText (text "text/html") html (htmlPart html) := by
  have read : entity (htmlPart html) = ⟨[htmlHead], lines html ++ [[]]⟩ :=
    entity_append (List.forall_mem_singleton.2 (List.cons_ne_nil _ _))
  have broken : lines (html ++ crlf) = lines html ++ [[]] := by
    have cut := lines_append_crlf html []
    rwa [List.append_nil] at cut
  unfold HoldsText
  rw [read]
  refine ⟨?_, .inr ?_⟩
  · show Entity.mediaType ⟨[htmlHead], []⟩ = _
    decide
  · show join (lines html ++ [[]]) = _
    rw [← broken, join_lines]

/-- Files that are numbered as they were attached are read back as such. -/
theorem Draft.Numbered.parsesBack (numbered : d.Numbered) (separated : Separated d.email)
    (readable : ∀ file ∈ d.attached, (m.contents file.filePath).isSome) :
    ParsesBack m d (withBlank (lines (d.email.body m))) := by
  have mended : withBlank (lines (d.email.body m)) = encapsulate d.email.sep1.digits
      ((multipartHead d.email.sep2 :: [] :: alternatives d.email) :: fileParts m d.email) ++ [[]] := by
    rw [lines_body]
    rfl
  have head : ¬ Delimits d.email.sep1.digits (multipartHead d.email.sep2) :=
    not_delimits_append (by decide) (by decide) _
  have empty : ¬ Delimits d.email.sep1.digits [] := not_delimits_of_head (by decide)
  have frees : ∀ part ∈ (multipartHead d.email.sep2 :: [] :: alternatives d.email) :: fileParts m d.email,
      Free d.email.sep1.digits part :=
    List.forall_mem_cons.2 ⟨free_cons head (free_cons empty separated.free_alternatives), free_fileParts _⟩
  have outer :=
    multipart_encapsulate free_nil frees (List.cons_ne_nil _ _) [[]]
  have read : entity (multipartHead d.email.sep2 :: [] :: alternatives d.email) =
      ⟨[multipartHead d.email.sep2], alternatives d.email⟩ :=
    entity_append (List.forall_mem_singleton.2 (List.cons_ne_nil _ _))
  have inner : multipart d.email.sep2.digits (alternatives d.email) =
      some [plainPart (d.email.plainText.getD []), htmlPart (d.email.htmlText.getD [])] := by
    have frees' : ∀ part ∈ [plainPart (d.email.plainText.getD []), htmlPart (d.email.htmlText.getD [])],
        Free d.email.sep2.digits part :=
      List.forall_mem_cons.2 ⟨free_plainPart separated.plain2, List.forall_mem_singleton.2 (free_htmlPart separated.html2)⟩
    have texts := multipart_encapsulate free_nil frees' (List.cons_ne_nil _ _) []
    rwa [List.nil_append, List.append_nil] at texts
  rw [mended]
  refine ⟨_, _, outer, ⟨?_, d.email.sep2.digits, _, _, ?_, ?_, holdsText_plainPart _, holdsText_htmlPart _⟩,
    attachments_read numbered readable⟩
  · rw [read]
    exact mediaType_of_multipartHead fun line member => absurd member List.not_mem_nil
  · rw [read]
    exact boundary_of_multipartHead fun line member => absurd member List.not_mem_nil
  · rw [read]
    exact inner

/-- **One empty line is all that is missing**: with it every mail that was built by calls parses back. -/
theorem parsesBack_with_blank {to' subject from' : List Byte} {sep1 sep2 : Md5} {calls : List Call}
    (separated : Separated (draft to' subject from' sep1 sep2 calls).email)
    (readable : ∀ file ∈ (draft to' subject from' sep1 sep2 calls).attached, (m.contents file.filePath).isSome) :
    ParsesBack m (draft to' subject from' sep1 sep2 calls)
      (withBlank (lines ((draft to' subject from' sep1 sep2 calls).email.body m))) :=
  (draft_numbered ..).parsesBack separated readable

end

end GtpLibrary.MyFramework

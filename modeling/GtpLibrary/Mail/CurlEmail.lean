import GtpLibrary.Lib.Bytes

/-!
# `class curl_email`

The builder calls push header and body lines into `mail_content`; `send` hands
libcurl a fresh `upload_status` and the callback `payload_source`, which libcurl
calls until it returns 0. A session is such a series of calls, one request of
libcurl's after the other.
-/

namespace GtpLibrary.Mail
open GtpLibrary.Lib

/-- `curl_email::contact`. -/
structure Contact where
  name : List Byte
  email : List Byte

/-- The members of a `curl_email`. -/
structure CurlEmail where
  rcpts : List Contact := []
  sender : Contact := ⟨[], []⟩
  mailContent : List (List Byte) := []

namespace CurlEmail

def crlf : List Byte := text "\r\n"

def push (m : CurlEmail) (line : List Byte) : CurlEmail :=
  { m with mailContent := m.mailContent ++ [line] }

def setRecipients (m : CurlEmail) (recipients : List Contact) : CurlEmail := { m with rcpts := recipients }

def addField (m : CurlEmail) (key value : List Byte) : CurlEmail :=
  m.push (key ++ text ": " ++ value ++ crlf)

def addEmptyField (m : CurlEmail) : CurlEmail := m.push crlf

/-- `name <email>`, the value of the address fields. -/
def mailbox (c : Contact) : List Byte := c.name ++ text " <" ++ c.email ++ text ">"

def addTo (m : CurlEmail) (recipient : Contact) : CurlEmail :=
  m.addField (text "To") (mailbox recipient)

def addCc (m : CurlEmail) (cc : Contact) : CurlEmail := m.addField (text "Cc") (mailbox cc)

def addFrom (m : CurlEmail) (sender : Contact) : CurlEmail :=
  { m with sender := sender }.addField (text "From") (mailbox sender)

/-- `add_subject` also runs `this->from = from`, which names the member twice. -/
def addSubject (m : CurlEmail) (subject : List Byte) : CurlEmail := m.addField (text "Subject") subject

def addData (m : CurlEmail) (data : List Byte) : CurlEmail := m.push (data ++ crlf)

end CurlEmail

/-- One call on a `curl_email` before `send`. -/
inductive BuilderCall where
  | setRecipients (recipients : List Contact)
  | addField (key value : List Byte)
  | addEmptyField
  | addTo (recipient : Contact)
  | addCc (cc : Contact)
  | addFrom (sender : Contact)
  | addSubject (subject : List Byte)
  | addData (data : List Byte)

def BuilderCall.run (m : CurlEmail) : BuilderCall → CurlEmail
  | .setRecipients recipients => m.setRecipients recipients
  | .addField key value => m.addField key value
  | .addEmptyField => m.addEmptyField
  | .addTo recipient => m.addTo recipient
  | .addCc cc => m.addCc cc
  | .addFrom sender => m.addFrom sender
  | .addSubject subject => m.addSubject subject
  | .addData data => m.addData data

/-- The object after a series of calls on a fresh one. -/
def build (calls : List BuilderCall) : CurlEmail := calls.foldl BuilderCall.run {}

/-- `curl_email::upload_status`. -/
structure UploadStatus where
  linesRead : Nat
  mailContent : List (List Byte)

/-- The arguments libcurl passes for the size of its buffer. -/
structure ReadRequest where
  size : BitVec 64
  nmemb : BitVec 64

def ReadRequest.capacity (r : ReadRequest) : Nat := (r.size * r.nmemb).toNat

/-- What one callback leaves behind: the bytes put at `ptr` and the returned count. -/
structure Delivery where
  written : List Byte
  returned : Nat

/-- `INT_MAX`, the last value of `lines_read` that can be incremented to an `int`. -/
def intMax : Nat := 2 ^ 31 - 1

/-- `curl_email::payload_source`. There is no result where incrementing `lines_read`
overflows the `int`. -/
def payloadSource (ctx : UploadStatus) (r : ReadRequest) : Option (Delivery × UploadStatus) :=
  if r.size = 0 ∨ r.nmemb = 0 ∨ r.size * r.nmemb < 1 then some (⟨[], 0⟩, ctx)
  else if more : ctx.linesRead < ctx.mailContent.length then
    let data := cString ctx.mailContent[ctx.linesRead]
    if ctx.linesRead < intMax then
      -- `len should not be larger than size*nmemb`, but nothing compares them
      some (⟨data, data.length⟩, { ctx with linesRead := ctx.linesRead + 1 })
    else none
  else some (⟨[], 0⟩, ctx)

/-- The `upload_status` that `send` starts the upload with. -/
def CurlEmail.uploadStatus (m : CurlEmail) : UploadStatus := ⟨0, m.mailContent⟩

/-- The envelope `send` hands to libcurl: `CURLOPT_MAIL_FROM` and `CURLOPT_MAIL_RCPT`. -/
def CurlEmail.envelope (m : CurlEmail) : List Byte × List (List Byte) :=
  (cString m.sender.email, m.rcpts.map fun c => cString c.email)

/-! ## Sessions -/

section
variable (ctx : UploadStatus) (requests : Nat → ReadRequest)

/-- The status before callback number `k`. -/
def statusAt : Nat → Option UploadStatus
  | 0 => some ctx
  | k + 1 => (statusAt k).bind fun s => (payloadSource s (requests k)).map Prod.snd

/-- What callback number `k` delivers. -/
def deliveryAt (k : Nat) : Option Delivery :=
  (statusAt ctx requests k).bind fun s => (payloadSource s (requests k)).map Prod.fst

/-- The bytes of the first `k` callbacks. -/
def delivered (k : Nat) : List Byte :=
  (List.range k).flatMap fun j => ((deliveryAt ctx requests j).map Delivery.written).getD []

/-- Callback number `k` is the first to return 0. -/
def EndsAt (k : Nat) : Prop :=
  (∃ d, deliveryAt ctx requests k = some d ∧ d.returned = 0) ∧
    ∀ j < k, ∃ d, deliveryAt ctx requests j = some d ∧ d.returned ≠ 0

/-- The upload as it is meant: no callback writes past the buffer, each returns what it
wrote, and what comes before the first returned 0 is the whole mail. -/
structure UploadsMail : Prop where
  within : ∀ k, ∃ d, deliveryAt ctx requests k = some d ∧
    d.written.length ≤ (requests k).capacity ∧ d.returned = d.written.length
  complete : ∃ k, EndsAt ctx requests k ∧ delivered ctx requests k = ctx.mailContent.flatten

end

end GtpLibrary.Mail

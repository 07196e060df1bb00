import GtpLibrary.Lib.Base64
import GtpLibrary.Mail.Base64
import GtpLibrary.Mail.CurlEmail

/-!
# The attachment loop of `main`

The text of a file is encoded and added to the mail in pieces. The counter of the loop and
`i + chunk_size` are `unsigned int`, the size is a `size_t`.
-/

namespace GtpLibrary.Mail
open GtpLibrary.Lib

/-- `chunk_size`. -/
def chunkSize : BitVec 32 := 15000

/-- `size()` as a `size_t`. -/
def size (s : List Byte) : BitVec 64 := BitVec.ofNat 64 s.length

/-- `std::string::substr`; the loop calls it with positions in front of the end only. -/
def substr (s : List Byte) (pos count : BitVec 64) : List Byte := (s.drop pos.toNat).take count.toNat

/-- The operands of a comparison or a call are converted to `size_t`. -/
def toSize (i : BitVec 32) : BitVec 64 := i.setWidth 64

/-- The body of the loop. -/
def addPiece (fileContent : List Byte) (ce : CurlEmail) (i : BitVec 32) : CurlEmail :=
  if (toSize (i + chunkSize)).ult (size fileContent) then
    ce.addData (substr fileContent (toSize i) (toSize chunkSize))
  else
    ce.addData (substr fileContent (toSize i) (size fileContent - toSize i))

/-- The loop from `i` on, if it ends within `fuel` turns. -/
def addPieces (fileContent : List Byte) : (fuel : Nat) → (i : BitVec 32) → CurlEmail → Option CurlEmail
  | 0, _, _ => none
  | fuel + 1, i, ce =>
    if (toSize i).ult (size fileContent) then
      addPieces fileContent fuel (i + chunkSize) (addPiece fileContent ce i)
    else some ce

/-- From the text of the file to the end of the loop. -/
def attach (fileContent : List Byte) (fuel : Nat) (ce : CurlEmail) : Option CurlEmail :=
  addPieces (encodeContent fileContent) fuel 0 ce

/-- The loop as it is meant: it ends, its pieces are short, and together they are the
encoding of the file. -/
def AttachesWhole (fileContent : List Byte) (ce : CurlEmail) : Prop :=
  ∃ (fuel : Nat) (pieces : List (List Byte)),
    attach fileContent fuel ce = some (pieces.foldl CurlEmail.addData ce) ∧
    (∀ piece ∈ pieces, piece.length ≤ 15000) ∧ pieces.flatten = Base64.encode fileContent

end GtpLibrary.Mail

import Mathlib.Logic.Function.Basic
import GtpLibrary.Lib.Bytes

/-!
# `class base64` of the curl mail sender

`base64_encode` and `base64_decode` keep a small array and its fill level `i`
across a byte loop; a full array is flushed into `ret`, and what is left at the end
is flushed by separate code. The arrays are uninitialised on the C++ stack. The
model starts them from zeros and the lemmas about the loops leave their first
contents open.
-/

namespace GtpLibrary.Mail
open GtpLibrary.Lib

/-- `base64::BASE64_CHARS`. -/
def base64Chars : List Byte :=
  text "ABCDEFGHIJKLMNOPQRSTUVWXYZabcdefghijklmnopqrstuvwxyz0123456789+/"

/-- `isalnum` in the C locale. -/
def isalnum (c : Byte) : Bool :=
  (byte 'A' ≤ c && c ≤ byte 'Z') || (byte 'a' ≤ c && c ≤ byte 'z') || (byte '0' ≤ c && c ≤ byte '9')

def isBase64 (c : Byte) : Bool := isalnum c || c == byte '+' || c == byte '/'

/-- `std::string::npos`. -/
def npos : Nat := 2 ^ 64 - 1

/-- `std::string::find` of one character. -/
def find (s : List Byte) (c : Byte) : Nat := (s.idxOf? c).getD npos

/-- `BASE64_CHARS[v]`; index `size()` reads the terminating NUL. -/
def symbol (v : Byte) : Byte := base64Chars.getD v.toNat 0

/-- `char_array_4` of the encoder: the four six-bit values of `char_array_3`. -/
def sextets (a : Fin 3 → Byte) : List Byte :=
  [(a 0 &&& 0xfc) >>> 2,
    ((a 0 &&& 0x03) <<< 4) + ((a 1 &&& 0xf0) >>> 4),
    ((a 1 &&& 0x0f) <<< 2) + ((a 2 &&& 0xc0) >>> 6),
    a 2 &&& 0x3f]

/-- `char_array_3` of the decoder, each sum cut back to `unsigned char`. -/
def octets (a : Fin 4 → Byte) : List Byte :=
  [(a 0 <<< 2) + ((a 1 &&& 0x30) >>> 4),
    ((a 1 &&& 0xf) <<< 4) + ((a 2 &&& 0x3c) >>> 2),
    ((a 2 &&& 0x3) <<< 6) + a 3]

/-- `for (j = i; j < n; j++) array[j] = 0`. -/
def zeroFrom {n : Nat} (array : Fin n → Byte) (i : Nat) : Fin n → Byte :=
  fun j => if i ≤ j then 0 else array j

/-! ## Encoder -/

/-- The locals of `base64_encode`; between two bytes `i` is an index of the array. -/
structure EncodeState where
  ret : List Byte
  i : Fin 3
  charArray3 : Fin 3 → Byte

/-- One turn of the `while (in_len--)` loop. -/
def encodeByte (s : EncodeState) (c : Byte) : EncodeState :=
  let charArray3 := Function.update s.charArray3 s.i c
  if more : s.i.val + 1 < 3 then
    { s with i := ⟨s.i + 1, more⟩, charArray3 := charArray3 }
  else
    { ret := s.ret ++ (sextets charArray3).map symbol, i := 0, charArray3 := charArray3 }

/-- The code behind the loop: the leftover bytes and the padding. -/
def encodeRest (s : EncodeState) : List Byte :=
  if s.i = 0 then s.ret
  else
    s.ret ++ ((sextets (zeroFrom s.charArray3 s.i)).take (s.i + 1)).map symbol ++
      List.replicate (3 - s.i) (byte '=')

/-- `base64::base64_encode`: `in_len` bytes from the pointer on. -/
def base64Encode (bytesToEncode : List Byte) (inLen : BitVec 32) : List Byte :=
  encodeRest ((bytesToEncode.take inLen.toNat).foldl encodeByte ⟨[], 0, fun _ => 0⟩)

/-- The call in `main`: `base64_encode(content.c_str(), static_cast<unsigned int>(content.size()))`. -/
def encodeContent (content : List Byte) : List Byte :=
  base64Encode content (BitVec.ofNat 32 content.length)

/-! ## Decoder -/

/-- The locals of `base64_decode`. -/
structure DecodeState where
  ret : List Byte
  i : Fin 4
  charArray4 : Fin 4 → Byte

/-- `static_cast<unsigned char>(BASE64_CHARS.find(c))`. -/
def value (c : Byte) : Byte := BitVec.ofNat 8 (find base64Chars c)

/-- The body of the decoder's loop. -/
def decodeByte (s : DecodeState) (c : Byte) : DecodeState :=
  let charArray4 := Function.update s.charArray4 s.i c
  if more : s.i.val + 1 < 4 then
    { s with i := ⟨s.i + 1, more⟩, charArray4 := charArray4 }
  else
    { ret := s.ret ++ octets (value ∘ charArray4), i := 0, charArray4 := value ∘ charArray4 }

/-- The loop over `encoded_string[in_]`. Its condition stops at the first character
that is `'='` or foreign, and the terminating NUL is foreign. -/
def decodeLoop : List Byte → Int → DecodeState → DecodeState
  | [], _, s => s
  | c :: rest, inLen, s =>
    if inLen ≠ 0 ∧ c ≠ byte '=' ∧ isBase64 c then decodeLoop rest (inLen - 1) (decodeByte s c) else s

/-- The code behind the loop: the unfilled cells are zeroed, then all four are looked
up, so that each `'\0'` gives `npos`. -/
def decodeRest (s : DecodeState) : List Byte :=
  if s.i = 0 then s.ret
  else s.ret ++ (octets (value ∘ zeroFrom s.charArray4 s.i)).take (s.i - 1)

/-- `base64::base64_decode`; `in_len` is the size cut to an `int`. -/
def base64Decode (encodedString : List Byte) : List Byte :=
  decodeRest (decodeLoop encodedString ((encodedString.length : Int).bmod (2 ^ 32)) ⟨[], 0, fun _ => 0⟩)

end GtpLibrary.Mail

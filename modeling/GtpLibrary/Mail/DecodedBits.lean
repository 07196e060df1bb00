import GtpLibrary.Mail.Base64RoundTrip

/-!
# What `base64_decode` reads

On any text, well-formed or not, the decoder emits the whole octets among the bits of the
alphabet characters it starts with.
-/

namespace GtpLibrary.Mail
open GtpLibrary.Lib GtpLibrary.Lib.Sextets

/-- The longest prefix of alphabet characters. -/
def alphabetPrefix (s : List Byte) : List Byte := s.takeWhile base64Chars.contains

/-- The concatenated six-bit values of the prefix. -/
def prefixBits (s : List Byte) : List Bool := (alphabetPrefix s).flatMap fun c => bits 6 (find base64Chars c)

/-- The bits of a byte string. -/
def byteBits (bytes : List Byte) : List Bool := bytes.flatMap fun c => bits 8 c.toNat

theorem alphabetPrefix_eq (s : List Byte) : alphabetPrefix s = s.takeWhile isBase64 := by
  unfold alphabetPrefix
  congr 1
  funext c
  rw [Bool.eq_iff_iff, List.contains_iff_mem]
  exact (isBase64_iff_mem c).symm

theorem alphabetPrefix_idem (s : List Byte) : alphabetPrefix (alphabetPrefix s) = alphabetPrefix s :=
  List.takeWhile_idem ..

theorem isBase64_of_mem_alphabetPrefix {s : List Byte} {c : Byte} (member : c ∈ alphabetPrefix s) : isBase64 c = true := by
  rw [alphabetPrefix_eq] at member
  exact List.mem_takeWhile_imp member

theorem prefixBits_eq (s : List Byte) : prefixBits s = ((alphabetPrefix s).map sextetOf).flatMap (bits 6) := by
  unfold prefixBits
  rw [List.flatMap_map]
  apply List.flatMap_congr
  intro c member
  rw [(exists_sextetOf (isBase64_of_mem_alphabetPrefix member)).1]

theorem byteBits_map_ofNat {codes : List Nat} (small : ∀ n ∈ codes, n < 256) :
    byteBits (codes.map (BitVec.ofNat 8)) = codes.flatMap (bits 8) := by
  unfold byteBits
  conv_rhs => rw [← map_toNat_ofNat small, List.flatMap_map]

theorem length_alphabetPrefix_le (s : List Byte) : (alphabetPrefix s).length ≤ s.length :=
  (List.takeWhile_prefix _).length_le

theorem base64Decode_alphabetPrefix {s : List Byte} (short : s.length < 2 ^ 31) :
    base64Decode (alphabetPrefix s) = base64Decode s := by
  have shorter := length_alphabetPrefix_le s
  rw [base64Decode_eq short, base64Decode_eq (by omega), ← alphabetPrefix_eq, ← alphabetPrefix_eq, alphabetPrefix_idem]

theorem byteBits_base64Decode {s : List Byte} (short : s.length < 2 ^ 31) :
    byteBits (base64Decode s) = (prefixBits s).take (8 * (6 * (alphabetPrefix s).length / 8)) := by
  have sextets := sextets_lt fun c (member : c ∈ alphabetPrefix s) => isBase64_of_mem_alphabetPrefix member
  rw [base64Decode_eq short, ← alphabetPrefix_eq, byteBits_map_ofNat (fromSextets_lt sextets), fromSextets_bits sextets,
    prefixBits_eq, List.length_map]

theorem base64Decode_dropLast {s : List Byte} (short : s.length < 2 ^ 31) (lone : (alphabetPrefix s).length % 4 = 1) :
    base64Decode (alphabetPrefix s).dropLast = base64Decode s := by
  have shorter := length_alphabetPrefix_le s
  have inside : (alphabetPrefix s).dropLast.takeWhile isBase64 = (alphabetPrefix s).dropLast :=
    List.takeWhile_eq_self_iff.2 fun c member => isBase64_of_mem_alphabetPrefix (List.mem_of_mem_dropLast member)
  rw [base64Decode_eq short, base64Decode_eq (by rw [List.length_dropLast]; omega), inside, ← alphabetPrefix_eq,
    List.map_dropLast, fromSextets_dropLast (by rwa [List.length_map])]

/-- **The meaning of `base64_decode`.** With `n` characters in the alphabet prefix there are
`6 * n / 8` bytes, the first bits of the prefix; what stands behind it is ignored, and so is a
lone last character of it. -/
theorem base64Decode_meaning {s : List Byte} (short : s.length < 2 ^ 31) :
    (base64Decode s).length = 6 * (alphabetPrefix s).length / 8 ∧
      byteBits (base64Decode s) = (prefixBits s).take (8 * (6 * (alphabetPrefix s).length / 8)) ∧
      base64Decode (alphabetPrefix s) = base64Decode s ∧
      ((alphabetPrefix s).length % 4 = 1 → base64Decode (alphabetPrefix s).dropLast = base64Decode s) := by
  have size := length_base64Decode short
  rw [← alphabetPrefix_eq] at size
  exact ⟨size, byteBits_base64Decode short, base64Decode_alphabetPrefix short, base64Decode_dropLast short⟩

/-- Six characters and a foreign one, then a lone leftover. -/
theorem base64Decode_meaning_cut :
    ((base64Decode (text "TWFueQ-!=")).length = 6 * (alphabetPrefix (text "TWFueQ-!=")).length / 8 ∧
      byteBits (base64Decode (text "TWFueQ-!=")) =
        (prefixBits (text "TWFueQ-!=")).take (8 * (6 * (alphabetPrefix (text "TWFueQ-!=")).length / 8)) ∧
      base64Decode (alphabetPrefix (text "TWFueQ-!=")) = base64Decode (text "TWFueQ-!=") ∧
      ((alphabetPrefix (text "TWFueQ-!=")).length % 4 = 1 →
        base64Decode (alphabetPrefix (text "TWFueQ-!=")).dropLast = base64Decode (text "TWFueQ-!="))) ∧
    base64Decode (alphabetPrefix (text "TWFue")).dropLast = base64Decode (text "TWFue") :=
  ⟨base64Decode_meaning (by decide), (base64Decode_meaning (by decide)).2.2.2 (by decide)⟩

end GtpLibrary.Mail

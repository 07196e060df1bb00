import GtpLibrary.Lib.Base64
import GtpLibrary.Lib.Shell

/-!
# `kms_cryptor.sh`

The random key goes through a variable, a here-string, the key service and base64 into the
local file, and back through base64, a variable and a here-string into the first line that
`openssl enc` reads. What arrives is the part of the key in front of its first line break,
without NUL bytes (`encrypt_generateKey`, `decrypt_generateKey`).
-/

namespace GtpLibrary.Kms

open Lib Lib.Shell

/-- The key service: what it encrypts (another way each time) it decrypts. -/
structure Service where
  encrypt : List Byte → Nat → List Byte → List Byte
  decrypt : List Byte → Option (List Byte)
  inverts : ∀ keyId nonce plaintext, decrypt (encrypt keyId nonce plaintext) = some plaintext

/-- `--output text` of a blob. -/
def outputText (blob : List Byte) : List Byte := Base64.encode blob ++ [newline]

/-- `generate_key`, for what `openssl rand 32` prints: the content of the local key file. -/
def generateKey (aws : Service) (kmsKeyId : List Byte) (nonce : Nat) (rand : List Byte) : List Byte :=
  let rawKey := substitution rand
  let encryptedKey := substitution (outputText (aws.encrypt kmsKeyId nonce (hereString rawKey)))
  Base64.decode (echo encryptedKey)

/-- `$( aws kms decrypt … | base64 --decode)`. -/
def rawKey (aws : Service) (localKey : List Byte) : Option (List Byte) :=
  (aws.decrypt localKey).map fun plaintext => substitution (Base64.decode (outputText plaintext))

/-- A call of `openssl enc`: `-d` or not, the passphrase of `-pass fd:3`, the input. -/
structure OpensslEnc where
  decrypts : Bool
  passphrase : List Byte
  input : List Byte
  deriving DecidableEq

/-- `encrypt`, up to the call of `openssl`; the key service can refuse the file. -/
def encrypt (aws : Service) (localKey stdin : List Byte) : Option OpensslEnc :=
  (rawKey aws localKey).map fun key => ⟨false, firstLine (hereString key), stdin⟩

/-- `decrypt`, likewise. -/
def decrypt (aws : Service) (localKey stdin : List Byte) : Option OpensslEnc :=
  (rawKey aws localKey).map fun key => ⟨true, firstLine (hereString key), stdin⟩

/-- The bytes in front of the first line break, without NULs. -/
def kept (key : List Byte) : List Byte := firstLine (key.filter (· ≠ 0))

section
variable {aws : Service} {kmsKeyId kmsKeyId' rand rand' stdin stdin' : List Byte} {nonce nonce' : Nat}

theorem newline_not_mem_alphabet : newline ∉ Base64.alphabet := mt Base64.mem_alphabet.1 (by decide)

theorem decode_outputText (blob : List Byte) : Base64.decode (outputText blob) = blob := by
  apply Base64.decode_encode_append blob
  intro c member
  exact List.mem_singleton.1 member ▸ newline_not_mem_alphabet

/-- Base64 text comes through a variable as it is. -/
theorem held_encode (blob : List Byte) : Held (Base64.encode blob) where
  noNul := Base64.not_mem_encode (mt Base64.mem_alphabet.1 (by decide)) (by decide)
  noBreak := by
    intro c last same
    exact Base64.not_mem_encode newline_not_mem_alphabet (by decide) (List.mem_of_getLast? (same ▸ last))

/-- The local file holds what the key service returned. -/
theorem generateKey_eq :
    generateKey aws kmsKeyId nonce rand = aws.encrypt kmsKeyId nonce (hereString (substitution rand)) := by
  unfold generateKey
  dsimp only
  rw [outputText, (held_encode _).substitution_break]
  exact decode_outputText _

/-- The variable of `encrypt` and `decrypt` holds what that of `generate_key` did. -/
theorem rawKey_generateKey : rawKey aws (generateKey aws kmsKeyId nonce rand) = some (substitution rand) := by
  unfold rawKey
  rw [generateKey_eq, aws.inverts, Option.map_some, decode_outputText, hereString,
    (held_substitution rand).substitution_break]

theorem passphrase_rawKey : firstLine (hereString (substitution rand)) = kept rand := firstLine_hereString rand

/-- The passphrase of `encrypt` is what is kept of the key. -/
theorem encrypt_generateKey :
    encrypt aws (generateKey aws kmsKeyId nonce rand) stdin = some ⟨false, kept rand, stdin⟩ := by
  unfold encrypt
  rw [rawKey_generateKey, Option.map_some, passphrase_rawKey]

/-- That of `decrypt` is the same, so that what was encrypted is decrypted. -/
theorem decrypt_generateKey :
    decrypt aws (generateKey aws kmsKeyId nonce rand) stdin = some ⟨true, kept rand, stdin⟩ := by
  unfold decrypt
  rw [rawKey_generateKey, Option.map_some, passphrase_rawKey]

/-- **Different keys.** Two keys give different passphrases, in `encrypt` and in `decrypt`,
exactly where they still differ in front of their first line breaks, without NUL bytes. -/
theorem passphrases_differ_iff (aws : Service) (kmsKeyId kmsKeyId' : List Byte) (nonce nonce' : Nat)
    (rand rand' stdin stdin' : List Byte) :
    ((encrypt aws (generateKey aws kmsKeyId nonce rand) stdin).map OpensslEnc.passphrase ≠
        (encrypt aws (generateKey aws kmsKeyId' nonce' rand') stdin').map OpensslEnc.passphrase ∧
      (decrypt aws (generateKey aws kmsKeyId nonce rand) stdin).map OpensslEnc.passphrase ≠
        (decrypt aws (generateKey aws kmsKeyId' nonce' rand') stdin').map OpensslEnc.passphrase) ↔
      kept rand ≠ kept rand' := by
  simp only [encrypt_generateKey, decrypt_generateKey, Option.map_some, ne_eq, Option.some.injEq, and_self]

/-- A key comes through whole exactly where it has no NUL byte and no line break. -/
theorem kept_eq_self_iff (key : List Byte) : kept key = key ↔ 0 ∉ key ∧ newline ∉ key := by
  constructor
  · intro whole
    have clean : ∀ c ∈ kept key, c ≠ 0 ∧ c ≠ newline := by
      intro c member
      have filtered := (List.takeWhile_prefix _).subset member
      have stopped := List.mem_takeWhile_imp member
      exact ⟨of_decide_eq_true (List.mem_filter.1 filtered).2, of_decide_eq_true stopped⟩
    rw [whole] at clean
    exact ⟨fun member => (clean 0 member).1 rfl, fun member => (clean newline member).2 rfl⟩
  · rintro ⟨noNul, noBreak⟩
    have filtered : key.filter (· ≠ 0) = key :=
      List.filter_eq_self.2 fun c member => decide_eq_true fun zero => noNul (zero ▸ member)
    unfold kept firstLine
    rw [filtered, List.takeWhile_eq_self_iff]
    exact fun c member => decide_eq_true fun same => noBreak (same ▸ member)

/-- Keys with neither are told apart. -/
theorem eq_of_kept_eq (clean : 0 ∉ rand ∧ newline ∉ rand) (clean' : 0 ∉ rand' ∧ newline ∉ rand')
    (same : kept rand = kept rand') : rand = rand' := by
  rwa [(kept_eq_self_iff rand).2 clean, (kept_eq_self_iff rand').2 clean'] at same

end

/-- A service that does not encrypt. -/
def plainService : Service := ⟨fun _ _ plaintext => plaintext, some, fun _ _ _ => rfl⟩

/-- 32 bytes with the line break in front. -/
def breakKey (c : Byte) : List Byte := newline :: List.replicate 31 c

/-- All keys that begin with a line break have the empty passphrase. -/
theorem breakKeys_collide : breakKey (byte 'a') ≠ breakKey (byte 'b') ∧
    (breakKey (byte 'a')).length = 32 ∧ (breakKey (byte 'b')).length = 32 ∧
    (encrypt plainService (generateKey plainService [] 0 (breakKey (byte 'a'))) []).map OpensslEnc.passphrase = some [] ∧
    (encrypt plainService (generateKey plainService [] 0 (breakKey (byte 'b'))) []).map OpensslEnc.passphrase =
      some [] := by
  decide

end GtpLibrary.Kms

import Mathlib.Logic.Function.Basic
import GtpLibrary.Kms.Cryptor
import GtpLibrary.Lib.Words

/-!
# Calls of the script

The arguments in front of the command are read in pairs. `generate_key` writes the file that
`local_key` names; `encrypt` and `decrypt` read it, with its path outside of quotes. What the script
prints of its own goes to the standard output, where the message goes too.
-/

namespace GtpLibrary.Kms.Script

open Lib Lib.Shell Lib.Words Lib.Numerals

/-- The keys of `params` with their values. -/
abbrev Params := Text → Option Text

/-- The programs that the script calls and the directory it is called in. `openssl enc -d` can
print something before it fails. -/
structure World (File : Type) where
  aws : Service
  enc : List Byte → Nat → List Byte → List Byte
  dec : List Byte → List Byte → List Byte × Bool
  inverts : ∀ passphrase salt message, dec passphrase (enc passphrase salt message) = (message, true)
  matching : Text → List Text
  file : Text → File
  /-- `[ … ]` for the words of a last argument that is no command. -/
  test : Text → Bool
  name : Text

/-- A call, with what its environment does: without a value `openssl rand` fails. -/
structure Call where
  arguments : List Text
  stdin : List Byte
  /-- The standard output is a regular file, not a pipe or a terminal. -/
  toFile : Bool
  rand : Option (List Byte)
  nonce : Nat
  salt : Nat
  reached : Bool
  writable : Bool

structure Result (File : Type) where
  files : File → Option (List Byte)
  stdout : List Byte
  ok : Bool
  /-- `-out /dev/stdout` has opened the standard output anew, which empties a regular file. -/
  reopened : Bool

/-! ## The arguments -/

def utf8 (t : Text) : List Byte := (t.flatMap String.utf8EncodeChar).map UInt8.toBitVec

/-- What `echo` prints. -/
def line (t : Text) : List Byte := echo (utf8 t)

/-- `--*` -/
def isKey (argument : Text) : Prop := "--".toList <+: argument

instance : DecidablePred isKey := fun argument => inferInstanceAs (Decidable (_ <+: argument))

/-- The loop over the arguments but the last one: what it prints, and what is left behind it unless
the script ends there. A key of no characters is no subscript. -/
def parse : Params → List Text → List Byte × Option (Params × List Text)
  | params, first :: second :: rest =>
    if isKey first then
      if ¬ isKey second then
        if first.drop 2 = [] then ([], none)
        else parse (Function.update params (first.drop 2) (some second)) rest
      else
        let later := parse params (second :: rest)
        (line ("Warning: Missing value for ".toList ++ first) ++ later.1, later.2)
    else (line ("Warning: Invalid argument ".toList ++ first), none)
  | params, rest => ([], some (params, rest))

/-! ## The commands -/

section
variable {File : Type} [DecidableEq File] (world : World File) (files : File → Option (List Byte)) (params : Params)
  (call : Call)

def generateKey : Result File :=
  let generating := line "Generating new random key ...".toList
  match call.rand with
  | none => ⟨files, generating, false, false⟩
  | some rand =>
    let encrypting := generating ++ line "Encrypting the new key with KMS ...".toList
    match params "kms_key_id".toList with
    | none => ⟨files, encrypting, false, false⟩
    | some kmsKeyId =>
      if call.reached then
        let saving := encrypting ++ line "Saving the encrypted new key ...".toList
        match params "local_key".toList with
        | none => ⟨files, saving, false, false⟩
        | some path =>
          if call.writable then
            ⟨Function.update files (world.file path) (some (Kms.generateKey world.aws (utf8 kmsKeyId) call.nonce rand)),
              saving, true, false⟩
          else ⟨files, saving, false, false⟩
      else ⟨files, encrypting, false, false⟩

/-- The file behind `fileb://${params[local_key]}`; more words than one are an error of `aws`. -/
def blob (path : Text) : Option Text :=
  match (Word.joined [.kept "fileb://".toList, .value path]).expand world.matching with
  | [word] => if "fileb://".toList <+: word then some (word.drop 8) else none
  | _ => none

/-- The content of the local key file as `aws kms decrypt` gets it. -/
def localKey : Option (List Byte) :=
  (params "local_key".toList).bind fun path => (blob world path).bind fun path =>
    if call.reached then files (world.file path) else none

/-- `openssl enc`, or nothing where the raw key is not to be had. -/
def openssl (files : File → Option (List Byte)) : Option OpensslEnc → Result File
  | none => ⟨files, [], false, false⟩
  | some enc =>
    if enc.decrypts then
      let output := world.dec enc.passphrase enc.input
      ⟨files, output.1, output.2, false⟩
    else ⟨files, world.enc enc.passphrase call.salt enc.input, true, true⟩

def encrypt : Result File :=
  openssl world call files ((localKey world files params call).bind fun key => Kms.encrypt world.aws key call.stdin)

def decrypt : Result File :=
  openssl world call files ((localKey world files params call).bind fun key => Kms.decrypt world.aws key call.stdin)

def printHelp : List Byte :=
  line ("Usage: ".toList ++ world.name ++ (" --kms_key_id KEY_ID --local_key path/to.key COMMAND\n\n" ++
    "The COMMAND can be one of the following:\n" ++
    "  --generate_key   Generate a new key, encypt it with KMS and save it locally.\n" ++
    "  --encrypt        Encrypt stdin with local key\n" ++
    "  --decrypt        Decrypt stdin with local key\n" ++
    "  --help           Print the help message.\n").toList)

/-- The case over the last argument. -/
def command (first : Text) : Result File :=
  if first = "--generate_key".toList then generateKey world files params call
  else if first = "--encrypt".toList then encrypt world files params call
  else if first = "--decrypt".toList then decrypt world files params call
  else ⟨files, if world.test first then printHelp world else [], true, false⟩

/-- The whole script. Without a command it prints the help, and `shift` fails. -/
def kmsCryptor : Result File :=
  match parse (fun _ => none) call.arguments with
  | (lines, none) => ⟨files, lines, false, false⟩
  | (lines, some (_, [])) => ⟨files, lines ++ printHelp world, false, false⟩
  | (lines, some (params, first :: _)) =>
    let result := command world files params call first
    { result with stdout := (if call.toFile ∧ result.reopened then [] else lines) ++ result.stdout }

end

end GtpLibrary.Kms.Script

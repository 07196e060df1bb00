import GtpLibrary.Lib.Forms
import GtpLibrary.Player.PyText

/-!
# `urlparse` and `unquote`

What `urllib.parse` makes of a text: the parts of a URL that `parse_sftp_url` looks at, and the
percent-decoding of a path. A value is missing where the library raises a `ValueError`. What
rests on the tables of Unicode or on the module `ipaddress` is taken from `Library`.
-/

namespace GtpLibrary.Player

open Lib

/-- `str.lower`, `unicodedata.normalize("NFKC", s)`, and whether `ipaddress.ip_address(s)` is an
`IPv6Address`. -/
structure Library where
  lower : Str → Str
  nfkc : Str → Str
  isIPv6 : Str → Bool

def isAscii (c : Char) : Bool := c.toNat < 128

/-! ## `urlsplit` -/

/-- The characters that are taken out of a URL wherever they stand. -/
def isUnsafe (c : Char) : Bool := c = '\t' || c = '\r' || c = '\n'

/-- Without the control characters and blanks in front, and the unsafe characters. -/
def cleaned (url : Str) : Str := (url.dropWhile fun c => c.toNat ≤ 0x20).filter fun c => !isUnsafe c

def isSchemeChar (c : Char) : Bool := c.isAlphanum || c = '+' || c = '-' || c = '.'

/-- The scheme and the text behind it; the characters of a scheme are ASCII. -/
def splitScheme (url : Str) : Str × Str :=
  let scheme := url.takeWhile (· ≠ ':')
  if ':' ∈ url ∧ scheme.head?.any Char.isAlpha ∧ scheme.all isSchemeChar then
    (scheme.map Char.toLower, (url.dropWhile (· ≠ ':')).drop 1)
  else ([], url)

/-- What ends the network location. -/
def isDelimiter (c : Char) : Bool := c = '/' || c = '?' || c = '#'

/-- `_splitnetloc` where there is one. -/
def splitNetloc (url : Str) : Str × Str :=
  if "//".toList.isPrefixOf url then
    ((url.drop 2).takeWhile fun c => !isDelimiter c, (url.drop 2).dropWhile fun c => !isDelimiter c)
  else ([], url)

/-- `s.partition(sep)[0]` and `s.partition(sep)[2]`. -/
def before (sep : Char) (s : Str) : Str := s.takeWhile (· ≠ sep)

def behind (sep : Char) (s : Str) : Str := (s.dropWhile (· ≠ sep)).drop 1

/-- `\Av[a-fA-F0-9]+\..+\Z`. -/
def isIPvFuture (s : Str) : Bool :=
  let digits := before '.' (s.drop 1)
  s.head? = some 'v' && digits ≠ [] && digits.all (fun c => isAscii c && (Forms.hexValue (byte c)).isSome) &&
    behind '.' s ≠ []

variable (lib : Library)

/-- The brackets are a pair, around an address. -/
def bracketsFit (netloc : Str) : Bool :=
  if '[' ∈ netloc ∧ ']' ∈ netloc then
    -- `_check_bracketed_host`
    let host := before ']' (behind '[' netloc)
    if host.head? = some 'v' then isIPvFuture host else lib.isIPv6 host
  else '[' ∉ netloc && ']' ∉ netloc

/-- `_checknetloc`: no character becomes a delimiter. -/
def netlocFits (netloc : Str) : Bool :=
  let n := netloc.filter fun c => !("@:#?".toList.contains c)
  netloc.all isAscii || lib.nfkc n = n || (lib.nfkc n).all fun c => !("/?#@:".toList.contains c)

structure ParseResult where
  scheme : Str
  netloc : Str
  path : Str

def usesParams : List Str :=
  ["", "ftp", "hdl", "prospero", "http", "imap", "https", "shttp", "rtsp", "rtsps", "rtspu", "sip", "sips", "mms",
    "sftp", "tel"].map String.toList

/-- `_splitparams`: the last segment ends at a semicolon. -/
def splitParams (path : Str) : Str :=
  let segment := splitLast '/' path
  path.take (path.length - segment.length) ++ before ';' segment

/-- `urlparse(url)`. -/
def urlparse (url : Str) : Option ParseResult :=
  let (scheme, rest) := splitScheme (cleaned url)
  let (netloc, rest) := splitNetloc rest
  let path := before '?' (before '#' rest)
  if bracketsFit lib netloc ∧ netlocFits lib netloc then
    some ⟨scheme, netloc, if usesParams.contains scheme then splitParams path else path⟩
  else none

namespace ParseResult

variable (parsed : ParseResult)

/-- The text in front of the last `@`. -/
def userinfo : Option Str :=
  if '@' ∈ parsed.netloc then
    some (parsed.netloc.take (parsed.netloc.length - (splitLast '@' parsed.netloc).length - 1))
  else none

def username : Option Str := parsed.userinfo.map (before ':')

def password : Option Str := parsed.userinfo.bind fun info => if ':' ∈ info then some (behind ':' info) else none

/-- The texts of host and port. -/
def hostinfo : Str × Str :=
  let info := splitLast '@' parsed.netloc
  if '[' ∈ info then (before ']' (behind '[' info), behind ':' (behind ']' (behind '[' info)))
  else (before ':' info, behind ':' info)

/-- The host in lower case; a zone behind `%` stays as it is. -/
def hostname : Option Str :=
  let host := parsed.hostinfo.1
  if host = [] then none else some (lib.lower (before '%' host) ++ host.dropWhile (· ≠ '%'))

/-- The number of the port, if there is one. -/
def port : Option (Option Nat) :=
  let port := parsed.hostinfo.2
  if port = [] then some none
  else if port.all Char.isDigit then
    let n := Nat.ofDigitChars 10 port 0
    if n ≤ 65535 then some (some n) else none
  else none

end ParseResult

/-! ## `unquote` -/

/-- A UTF-8 sequence that was begun: its value so far, how many bytes it lacks, and the bounds of the next. -/
structure Sequence where
  value : Nat
  lacks : Nat
  low : Byte
  high : Byte

/-- The sequence that a first byte begins. -/
def sequenceOf (b : Byte) : Option Sequence :=
  if 0xc2 ≤ b ∧ b ≤ 0xdf then some ⟨b.toNat % 32, 1, 0x80, 0xbf⟩
  else if b = 0xe0 then some ⟨0, 2, 0xa0, 0xbf⟩
  else if b = 0xed then some ⟨13, 2, 0x80, 0x9f⟩
  else if 0xe1 ≤ b ∧ b ≤ 0xef then some ⟨b.toNat % 16, 2, 0x80, 0xbf⟩
  else if b = 0xf0 then some ⟨0, 3, 0x90, 0xbf⟩
  else if b = 0xf4 then some ⟨4, 3, 0x80, 0x8f⟩
  else if 0xf1 ≤ b ∧ b ≤ 0xf3 then some ⟨b.toNat % 8, 3, 0x80, 0xbf⟩
  else none

def replacement : Char := Char.ofNat 0xfffd

/-- A byte that stands first. -/
def beginSequence (b : Byte) : Str × Option Sequence :=
  if b < 0x80 then ([Char.ofNat b.toNat], none)
  else match sequenceOf b with
    | some sequence => ([], some sequence)
    | none => ([replacement], none)

def advance : Option Sequence → Byte → Str × Option Sequence
  | none, b => beginSequence b
  | some sequence, b =>
    if sequence.low ≤ b ∧ b ≤ sequence.high then
      let value := sequence.value * 64 + b.toNat % 64
      if sequence.lacks = 1 then ([Char.ofNat value], none) else ([], some ⟨value, sequence.lacks - 1, 0x80, 0xbf⟩)
    else (replacement :: (beginSequence b).1, (beginSequence b).2)

/-- `bytes.decode("utf-8", "replace")`. -/
def decodeReplace : Option Sequence → List Byte → Str
  | none, [] => []
  | some _, [] => [replacement]
  | sequence, b :: rest => (advance sequence b).1 ++ decodeReplace (advance sequence b).2 rest

/-- `unquote(s)`: the ASCII parts are decoded, each alone. -/
def unquote (s : Str) : Str :=
  if '%' ∉ s then s
  else (s.splitBy fun a b => isAscii a = isAscii b).flatMap fun part =>
    if part.all isAscii then decodeReplace none (Forms.percentDecode (part.map byte)) else part

end GtpLibrary.Player

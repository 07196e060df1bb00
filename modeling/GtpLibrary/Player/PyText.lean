import Mathlib.Data.List.Basic

/-!
# Python text operations used by the player

A Python `str` is a list of `Char`s: what `bytes.decode` returns holds no surrogate.
`strip` and `\d` are the Unicode ones, of the character class Nd and of
`str.isspace`. The module's two patterns are written as matchers that follow the
order of alternatives of the `re` module; their starred classes are disjoint from
what may come next, so no match is found by giving characters back.
-/

namespace GtpLibrary.Player

abbrev Str := List Char

/-- `str.isspace` of one character. -/
def isSpace (c : Char) : Bool :=
  [0x09, 0x0a, 0x0b, 0x0c, 0x0d, 0x1c, 0x1d, 0x1e, 0x1f, 0x20, 0x85, 0xa0, 0x1680, 0x2028, 0x2029,
    0x202f, 0x205f, 0x3000].contains c.toNat || (0x2000 ≤ c.toNat && c.toNat ≤ 0x200a)

/-- The codes of the zeros of the decimal digit blocks, ten consecutive characters each. -/
def decimalZeros : List Nat :=
  [0x30, 0x660, 0x6f0, 0x7c0, 0x966, 0x9e6, 0xa66, 0xae6, 0xb66, 0xbe6, 0xc66, 0xce6, 0xd66, 0xde6,
    0xe50, 0xed0, 0xf20, 0x1040, 0x1090, 0x17e0, 0x1810, 0x1946, 0x19d0, 0x1a80, 0x1a90, 0x1b50,
    0x1bb0, 0x1c40, 0x1c50, 0xa620, 0xa8d0, 0xa900, 0xa9d0, 0xa9f0, 0xaa50, 0xabf0, 0xff10, 0x104a0,
    0x10d30, 0x11066, 0x110f0, 0x11136, 0x111d0, 0x112f0, 0x11450, 0x114d0, 0x11650, 0x116c0,
    0x11730, 0x118e0, 0x11950, 0x11c50, 0x11d50, 0x11da0, 0x16a60, 0x16ac0, 0x16b50, 0x1d7ce,
    0x1d7d8, 0x1d7e2, 0x1d7ec, 0x1d7f6, 0x1e140, 0x1e2f0, 0x1e950, 0x1fbf0]

/-- `\d` in a `str` pattern. -/
def isDecimal (c : Char) : Bool := decimalZeros.any fun z => z ≤ c.toNat && c.toNat < z + 10

/-- `s.rstrip()`. -/
def rstrip (s : Str) : Str := (s.reverse.dropWhile isSpace).reverse

/-- `s.strip()`. -/
def strip (s : Str) : Str := rstrip (s.dropWhile isSpace)

/-- `s.replace("\r\n", "\n")`. -/
def replaceCrlf : Str → Str
  | '\r' :: '\n' :: rest => '\n' :: replaceCrlf rest
  | c :: rest => c :: replaceCrlf rest
  | [] => []

/-- `s.split(sep)[-1]`. -/
def splitLast (sep : Char) (s : Str) : Str := (s.splitOn sep).getLastD []

/-! ## `_ANSI_RE` -/

def inRange (lo hi c : Char) : Bool := lo ≤ c && c ≤ hi

/-- `[@-Z\\-_]` behind the escape: how many characters it matches. -/
def ansiShort : Str → Option Nat
  | c :: _ => if inRange '@' 'Z' c || inRange '\\' '_' c then some 1 else none
  | [] => none

/-- The second alternative: a bracket, characters `0` to `?`, characters from the blank to
the slash, and one from `@` to `~`. -/
def ansiControl : Str → Option Nat
  | '[' :: s =>
    let parameters := s.takeWhile (inRange '0' '?')
    let rest := s.drop parameters.length
    let intermediates := rest.takeWhile (inRange ' ' '/')
    match rest.drop intermediates.length with
    | c :: _ =>
      if inRange '@' '~' c then some (parameters.length + intermediates.length + 2) else none
    | [] => none
  | _ => none

/-- `.*?(?:\x07|\x1b\\)`; the dot stops at a newline. -/
def ansiTerminator : Str → Option Nat
  | '\x07' :: _ => some 1
  | '\x1b' :: '\\' :: _ => some 2
  | '\n' :: _ => none
  | _ :: s => (ansiTerminator s).map (· + 1)
  | [] => none

/-- `].*?(?:\x07|\x1b\\)`. `ansiShort` matches the bracket first. -/
def ansiSystem : Str → Option Nat
  | ']' :: s => (ansiTerminator s).map (· + 1)
  | _ => none

/-- The alternatives in the order of the pattern. -/
def ansiMatch (s : Str) : Option Nat := (ansiShort s).or ((ansiControl s).or (ansiSystem s))

/-- `_ANSI_RE.sub("", s)`, with the number of matched characters still to be skipped. -/
def ansiSub : Nat → Str → Str
  | _, [] => []
  | skip + 1, _ :: s => ansiSub skip s
  | 0, c :: s =>
    if c = '\x1b' then
      match ansiMatch s with
      | some n => ansiSub n s
      | none => c :: ansiSub 0 s
    else c :: ansiSub 0 s

def stripAnsi (s : Str) : Str := ansiSub 0 s

/-! ## Status texts -/

/-- `\d+:\d+` at the front. -/
def timeMatch (s : Str) : Bool :=
  match s.takeWhile isDecimal, s.dropWhile isDecimal with
  | _ :: _, ':' :: c :: _ => isDecimal c
  | _, _ => false

/-- `re.search(r"\d+:\d+", text) or text.startswith("A:")`. -/
def isStatus (text : Str) : Bool := text.tails.any timeMatch || "A:".toList.isPrefixOf text

theorem isStatus_nil : isStatus [] = false := by decide

theorem stripAnsi_nil : stripAnsi [] = [] := rfl

theorem strip_nil : strip [] = [] := rfl

/-! ## Line breaks -/

theorem splitLast_of_not_mem {sep : Char} {s : Str} (free : sep ∉ s) : splitLast sep s = s := by
  rw [splitLast, List.splitOn_eq_singleton free]
  rfl

theorem splitLast_append_cons (sep : Char) (a b : Str) :
    splitLast sep (a ++ sep :: b) = splitLast sep b := by
  rw [splitLast, splitLast, List.splitOn_append_cons_self, List.getLastD_eq_getLast?, List.getLastD_eq_getLast?,
    List.getLast?_append_of_ne_nil _ (List.splitOn_ne_nil sep b)]

/-- The text in front of the last separator, and the text behind it. -/
theorem exists_splitLast {sep : Char} {s : Str} (member : sep ∈ s) :
    ∃ a, s = a ++ sep :: splitLast sep s ∧ sep ∉ splitLast sep s := by
  induction s with
  | nil => cases member
  | cons c rest ih =>
    by_cases later : sep ∈ rest
    · obtain ⟨a, eq, free⟩ := ih later
      have same : splitLast sep (c :: rest) = splitLast sep rest := by
        conv_lhs => rw [eq, ← List.cons_append, splitLast_append_cons, splitLast_of_not_mem free]
      exact ⟨c :: a, by rw [same, List.cons_append, ← eq], by rwa [same]⟩
    · obtain rfl : sep = c := (List.mem_cons.1 member).resolve_right later
      have same : splitLast sep (sep :: rest) = rest := by
        rw [← List.nil_append (sep :: rest), splitLast_append_cons, splitLast_of_not_mem later]
      exact ⟨[], by rw [same]; rfl, by rwa [same]⟩

/-- A boundary that does not cut a CRLF does not matter to the replacement. -/
theorem replaceCrlf_append {a b : Str} (whole : ¬ (a.getLast? = some '\r' ∧ b.head? = some '\n')) :
    replaceCrlf (a ++ b) = replaceCrlf a ++ replaceCrlf b := by
  induction a using replaceCrlf.induct with
  | case1 rest ih =>
    have later : ¬ (rest.getLast? = some '\r' ∧ b.head? = some '\n') := by
      rintro ⟨last, head⟩
      refine whole ⟨?_, head⟩
      cases rest with
      | nil => cases last
      | cons c rest => simpa using last
    simp only [List.cons_append, replaceCrlf, ih later]
  | case2 c rest single ih =>
    cases rest with
    | nil =>
      cases b with
      | nil => simp [replaceCrlf]
      | cons d b =>
        have keep : ¬ (c = '\r' ∧ d = '\n') := by simpa using whole
        simp only [List.nil_append, List.cons_append]
        rw [replaceCrlf.eq_2 c (d :: b) (by rintro r rfl e; cases e; exact keep ⟨rfl, rfl⟩)]
        simp [replaceCrlf]
    | cons d rest =>
      have later : ¬ ((d :: rest).getLast? = some '\r' ∧ b.head? = some '\n') := by
        simpa [List.getLast?_cons_cons] using whole
      rw [replaceCrlf.eq_2 c (d :: rest) single, List.cons_append, List.cons_append,
        replaceCrlf.eq_2 c (d :: (rest ++ b))
          (by rintro r rfl e; cases e; exact single _ rfl rfl), ← List.cons_append, ih later,
        List.cons_append]
  | case3 => rfl

end GtpLibrary.Player

import Mathlib.Data.List.TakeWhile
import Mathlib.Tactic.Common
import GtpLibrary.Lib.Bytes
import GtpLibrary.Lib.Horner

/-!
# Tokens of an SQL text

What MySQL's lexer makes of a text in the default `sql_mode` and with a character set of single
bytes: names, numerals, strings with their escapes, and single characters. A text with anything
else in it (a block comment, a quoted name, a variable) is not read. `Lexes` says what a
stretch of a text adds to the tokens, whatever stands behind it.
-/

namespace GtpLibrary.Lib.Sql

/-- What the server reads a statement as. -/
inductive Token where
  | word (name : List Byte)
  /-- A word right in front of a bracket, as the name of a function has to be. -/
  | call (name : List Byte)
  | number (numeral : List Byte)
  | hexadecimal (digits : List Byte)
  | string (value : List Byte)
  | symbol (c : Byte)
  deriving DecidableEq

/-! ## Characters -/

def isBlank (c : Byte) : Bool := c = byte ' ' || (0x09 ≤ c && c ≤ 0x0d)

def isDigit (c : Byte) : Bool := byte '0' ≤ c && c ≤ byte '9'

def isHexDigit (c : Byte) : Bool := isDigit c || (byte 'a' ≤ c && c ≤ byte 'f') || (byte 'A' ≤ c && c ≤ byte 'F')

def isLetter (c : Byte) : Bool := (byte 'A' ≤ c && c ≤ byte 'Z') || (byte 'a' ≤ c && c ≤ byte 'z')

/-- A character of a name that is not quoted. -/
def isNameByte (c : Byte) : Bool := isDigit c || isLetter c || c = byte '_' || c = byte '$' || 0x80 ≤ c

def isExponentByte (c : Byte) : Bool := c = byte 'e' || c = byte 'E'

def isSign (c : Byte) : Bool := c = byte '+' || c = byte '-'

/-- The characters that are tokens. -/
def isSymbol (c : Byte) : Bool := (text "(),;.=+-").contains c

/-- The word as keywords and names of columns are compared. -/
def lower (w : List Byte) : List Byte := w.map fun c => if byte 'A' ≤ c && c ≤ byte 'Z' then c + 0x20 else c

/-- Keywords are known in any case of letters. -/
def Token.isKeyword (keyword : List Byte) : Token → Bool
  | .word w => lower w = keyword
  | _ => false

/-! ## Strings -/

/-- What a backslash and a character stand for. -/
def escaped (c : Byte) : List Byte :=
  if c = byte '0' then [0]
  else if c = byte 'b' then [8]
  else if c = byte 'n' then [10]
  else if c = byte 'r' then [13]
  else if c = byte 't' then [9]
  else if c = byte 'Z' then [26]
  else if c = byte '%' ∨ c = byte '_' then [byte '\\', c]
  else [c]

/-- A string from behind its opening quote: its value, and what stands behind it. -/
def quoted (quote : Byte) : List Byte → Option (List Byte × List Byte)
  | [] => none
  | [c] => if c = quote then some ([], []) else none
  | c :: d :: rest =>
    if c = quote then
      if d = quote then (quoted quote rest).map (Prod.map (c :: ·) id) else some ([], d :: rest)
    else if c = byte '\\' then (quoted quote rest).map (Prod.map (escaped d ++ ·) id)
    else (quoted quote (d :: rest)).map (Prod.map (c :: ·) id)

/-! ## Numerals -/

/-- The sign in front of a number, if there is one. -/
def sign (t : List Byte) : List Byte := if t.head?.any isSign then t.take 1 else []

/-- The number without its sign. -/
def unsigned (t : List Byte) : List Byte := t.drop (sign t).length

/-- The exponent that stands in front of a text. -/
def exponent : List Byte → List Byte
  | c :: t =>
    if isExponentByte c && (unsigned t).head?.any isDigit then c :: (sign t ++ (unsigned t).takeWhile isDigit) else []
  | [] => []

/-- The numeral that stands in front of a text. -/
def numeral (t : List Byte) : List Byte :=
  match t.dropWhile isDigit with
  | [] => t
  | c :: rest =>
    if c = byte '.' then
      t.takeWhile isDigit ++ c :: (rest.takeWhile isDigit ++ exponent (rest.dropWhile isDigit))
    else t.takeWhile isDigit ++ exponent (c :: rest)

/-- The value of a numeral of digits only. -/
def integer (n : List Byte) : Option Nat :=
  if n ≠ [] && n.all isDigit then some (horner 10 (n.map fun c => c.toNat - 48)) else none

/-- A digit, or a point and a digit. -/
def startsNumber (t : List Byte) : Bool :=
  t.head?.any isDigit || (t.head? = some (byte '.') && (t.drop 1).head?.any isDigit)

/-! ## Tokens -/

/-- A name, with what stands behind it. -/
def name (t : List Byte) : Token × List Byte :=
  let behind := t.dropWhile isNameByte
  if behind.head? = some (byte '(') then (.call (t.takeWhile isNameByte), behind)
  else (.word (t.takeWhile isNameByte), behind)

/-- Digits behind `0x`. Where they go on as a name, all of it is a name. -/
def hexadecimal (t : List Byte) : Token × List Byte :=
  let digits := (t.drop 2).takeWhile isHexDigit
  let behind := (t.drop 2).dropWhile isHexDigit
  if digits ≠ [] && !behind.head?.any isNameByte then (.hexadecimal digits, behind) else name t

/-- A token that starts as a number. Digits that go on as a name are a name; a fraction with half
an exponent is not read, and neither are bits. -/
def number (t : List Byte) : Option (Token × List Byte) :=
  if t.take 2 = text "0x" then some (hexadecimal t)
  else if t.take 2 = text "0b" then none
  else
    let behind := t.drop (numeral t).length
    if (numeral t).all isDigit then
      if behind.head?.any isNameByte then some (name t) else some (.number (numeral t), behind)
    else if !(numeral t).any isExponentByte && behind.head?.any isExponentByte then none
    else some (.number (numeral t), behind)

/-- The token that a text starts with, and what stands behind it. -/
def next : List Byte → Option (Token × List Byte)
  | [] => none
  | c :: t =>
    if c = byte '"' || c = 0x27 then (quoted c t).map (Prod.map .string id)
    else if startsNumber (c :: t) then number (c :: t)
    else if isNameByte c then some (name (c :: t))
    else if isSymbol c then some (.symbol c, t)
    else none

/-- A comment up to the end of the line: two dashes count in front of a blank, or at the end. -/
def isComment (t : List Byte) : Bool :=
  t.head? = some (byte '#') || (t.take 2 = text "--" && (t.drop 2).head?.all fun c => isBlank c || c < 0x20)

/-- The tokens of a text, the first characters of which belong to the token in front. -/
def lex : Nat → List Byte → Option (List Token)
  | _, [] => some []
  | taken + 1, _ :: t => lex taken t
  | 0, c :: t =>
    if isBlank c then lex 0 t
    else if isComment (c :: t) then lex (t.takeWhile (· ≠ 0x0a)).length t
    else match next (c :: t) with
      | some (token, behind) => (lex (t.length - behind.length) t).map (token :: ·)
      | none => none

/-- The tokens of a statement, if it can be read. -/
def tokens (t : List Byte) : Option (List Token) := lex 0 t

/-- The stretch is read as these tokens, whatever stands behind it. -/
def Lexes (stretch : List Byte) (read : List Token) : Prop :=
  ∀ behind, tokens (stretch ++ behind) = (tokens behind).map (read ++ ·)

section
variable {c d quote : Byte} {n s t v w behind : List Byte} {token : Token} {read more : List Token}

/-! ## One token -/

/-- Bytes that were taken are passed over. -/
theorem lex_eq_drop (taken : Nat) (t : List Byte) : lex taken t = tokens (t.drop taken) := by
  induction t generalizing taken with
  | nil => cases taken <;> rfl
  | cons c t ih =>
    cases taken with
    | zero => rfl
    | succ taken => rw [lex, ih, List.drop_succ_cons]

/-- Blanks part tokens and are none. -/
theorem tokens_blank (blank : isBlank c = true) : tokens (c :: t) = tokens t := by
  rw [tokens, lex, if_pos blank]
  rfl

/-- One token, and then the rest. -/
theorem tokens_of_next (blank : isBlank c = false) (comment : isComment (c :: (s ++ behind)) = false)
    (found : next (c :: (s ++ behind)) = some (token, behind)) :
    tokens (c :: (s ++ behind)) = (tokens behind).map (token :: ·) := by
  rw [tokens, lex, if_neg (by rw [blank]; decide), if_neg (by rw [comment]; decide), found]
  simp only [lex_eq_drop, List.length_append, Nat.add_sub_cancel, List.drop_left]

/-- A comment starts with `#` or two dashes. -/
theorem isComment_eq_false (hash : c ≠ byte '#') (dashes : c ≠ byte '-' ∨ s.head? ≠ some (byte '-')) :
    isComment (c :: s) = false := by
  have two : (c :: s).take 2 ≠ text "--" := by
    intro same
    cases s with
    | nil => cases same
    | cons d s =>
      obtain ⟨rfl, second⟩ := List.cons.inj same
      rcases dashes with first | head
      · exact first rfl
      · exact head (congrArg some (List.cons.inj second).1)
  have one : (c :: s).head? ≠ some (byte '#') := fun same => hash (Option.some.inj same)
  rw [isComment, decide_eq_false one, decide_eq_false two]
  rfl

/-! ## Strings -/

/-- A byte that is neither a quote nor a backslash stands for itself. -/
theorem quoted_plain (quote' : c ≠ quote) (backslash : c ≠ byte '\\') (some : t ≠ []) :
    quoted quote (c :: t) = (quoted quote t).map (Prod.map (c :: ·) id) := by
  obtain ⟨d, rest, rfl⟩ := List.exists_cons_of_ne_nil some
  rw [quoted, if_neg quote', if_neg backslash]

/-- A backslash and the byte behind it are read together. -/
theorem quoted_escape (quote' : quote ≠ byte '\\') (d : Byte) (t : List Byte) :
    quoted quote (byte '\\' :: d :: t) = (quoted quote t).map (Prod.map (escaped d ++ ·) id) := by
  rw [quoted, if_neg (Ne.symm quote'), if_pos rfl]

/-- A quote ends the string unless another one follows. -/
theorem quoted_end (other : behind.head? ≠ some quote) : quoted quote (quote :: behind) = some ([], behind) := by
  cases behind with
  | nil => rw [quoted, if_pos rfl]
  | cons d rest => rw [quoted, if_pos rfl, if_neg fun same => other (congrArg some same)]

/-! ## Numerals -/

/-- A byte that stops makes what is behind it irrelevant. -/
theorem takeWhile_append_stop {p : Byte → Bool} (stop : p d = false) (t behind : List Byte) :
    (t ++ d :: behind).takeWhile p = t.takeWhile p := by
  induction t with
  | nil => simp [stop]
  | cons c t ih => rw [List.cons_append, List.takeWhile_cons, List.takeWhile_cons, ih]

/-- The same for what is left. -/
theorem dropWhile_append_stop {p : Byte → Bool} (stop : p d = false) (t behind : List Byte) :
    (t ++ d :: behind).dropWhile p = t.dropWhile p ++ d :: behind := by
  induction t with
  | nil => simp [stop]
  | cons c t ih =>
    rw [List.cons_append, List.dropWhile_cons, List.dropWhile_cons]
    split
    · exact ih
    · rfl

/-- What ends a name is neither a digit nor part of an exponent. -/
theorem isDigit_of_stop : ∀ d : Byte, isNameByte d = false → isDigit d = false ∧ isExponentByte d = false := by decide

/-- A number is its sign and the rest. -/
theorem sign_append_unsigned (t : List Byte) : sign t ++ unsigned t = t := by
  obtain _ | ⟨c, t⟩ := t
  · rfl
  · by_cases signed : isSign c = true
    · simp [unsigned, sign, signed]
    · simp [unsigned, sign, signed]

theorem isHexDigit_of_stop : ∀ d : Byte, isNameByte d = false → isHexDigit d = false := by decide

/-- An exponent ends where a name does. -/
theorem exponent_append (stop : isNameByte d = false) (whole : exponent n = n) (behind : List Byte) :
    exponent (n ++ d :: behind) = n := by
  obtain ⟨digit, letter⟩ := isDigit_of_stop d stop
  cases n with
  | nil =>
    rw [List.nil_append, exponent, letter]
    rfl
  | cons e s =>
    rw [exponent] at whole
    split at whole
    · rename_i starts
      have unsigneds : unsigned (s ++ d :: behind) = unsigned s ++ d :: behind := by
        cases s with
        | nil => simp [unsigned] at starts
        | cons c rest => exact List.drop_append_of_le_length (by rw [sign]; split <;> simp)
      have signs : sign (s ++ d :: behind) = sign s := by
        cases s with
        | nil => simp [unsigned] at starts
        | cons c rest => rfl
      have head : (unsigned s ++ d :: behind).head? = (unsigned s).head? := by
        cases same : unsigned s with
        | nil => simp [same] at starts
        | cons c rest => rfl
      rw [List.cons_append, exponent, unsigneds, signs, head, if_pos starts, takeWhile_append_stop digit]
      exact whole
    · cases whole

/-- A numeral ends where something else than a name or a point goes on. -/
theorem numeral_append (stop : isNameByte d = false) (point : d ≠ byte '.') (whole : numeral n = n)
    (behind : List Byte) : numeral (n ++ d :: behind) = n := by
  obtain ⟨digit, letter⟩ := isDigit_of_stop d stop
  rw [numeral] at whole ⊢
  rw [dropWhile_append_stop digit, takeWhile_append_stop digit]
  cases rest : n.dropWhile isDigit with
  | nil =>
    have all := List.takeWhile_append_dropWhile (p := isDigit) (l := n)
    rw [rest, List.append_nil] at all
    have none : exponent (d :: behind) = [] := exponent_append (n := []) stop rfl behind
    simp only [List.nil_append, if_neg point, all, none, List.append_nil]
  | cons c fraction =>
    simp only [rest] at whole
    simp only [List.cons_append]
    have parts := List.takeWhile_append_dropWhile (p := isDigit) (l := n)
    rw [rest] at parts
    split
    · rename_i same
      rw [if_pos same] at whole
      have tail := (List.cons.inj (List.append_cancel_left (whole.trans parts.symm))).2
      have power : exponent (fraction.dropWhile isDigit) = fraction.dropWhile isDigit := by
        apply List.append_cancel_left
        exact tail.trans List.takeWhile_append_dropWhile.symm
      rw [power] at whole
      rw [dropWhile_append_stop digit, takeWhile_append_stop digit, exponent_append stop power]
      exact whole
    · rename_i other
      rw [if_neg other] at whole
      have power : exponent (c :: fraction) = c :: fraction := List.append_cancel_left (whole.trans parts.symm)
      rw [← List.cons_append, exponent_append stop power, ← power]
      exact whole

/-- The whole text is one numeral. -/
def isNumeral (n : List Byte) : Bool := numeral n = n && startsNumber n

/-- Whether a number begins is seen at the front. -/
theorem startsNumber_append (start : startsNumber n = true) (t : List Byte) : startsNumber (n ++ t) = true := by
  obtain _ | ⟨c, _ | ⟨d, rest⟩⟩ := n
  · cases start
  · simp only [startsNumber, List.head?_cons, Option.any_some, List.drop_one, List.tail_cons, List.head?_nil,
      Option.any_none, Bool.and_false, Bool.or_false] at start
    simp [startsNumber, start]
  · exact start

/-- A numeral has no letter but that of its exponent. -/
theorem take_two_of_isNumeral {x : Byte} (whole : isNumeral n = true) (stop : isNameByte d = false)
    (letter : isNameByte x = true ∧ isDigit x = false ∧ isExponentByte x = false ∧ x ≠ byte '.') (behind : List Byte) :
    (n ++ d :: behind).take 2 ≠ [byte '0', x] := by
  intro same
  obtain ⟨name, digit, power, point⟩ := letter
  cases n with
  | nil => simp [isNumeral, startsNumber] at whole
  | cons c rest =>
    obtain ⟨rfl, second⟩ := List.cons.inj same
    cases rest with
    | nil =>
      obtain ⟨rfl, -⟩ := List.cons.inj second
      rw [name] at stop
      cases stop
    | cons y rest =>
      obtain ⟨rfl, -⟩ := List.cons.inj second
      simp only [isNumeral, Bool.and_eq_true, decide_eq_true_eq] at whole
      have read : numeral (byte '0' :: y :: rest) = [byte '0'] := by
        have zero : isDigit (byte '0') = true := by decide
        simp [numeral, zero, digit, point, exponent, power]
      rw [read] at whole
      cases whole.1

/-- A numeral is read up to the byte that ends it. -/
theorem number_append (whole : isNumeral n = true) (stop : isNameByte d = false) (point : d ≠ byte '.')
    (behind : List Byte) : number (n ++ d :: behind) = some (.number n, d :: behind) := by
  have same : numeral (n ++ d :: behind) = n := by
    simp only [isNumeral, Bool.and_eq_true, decide_eq_true_eq] at whole
    exact numeral_append stop point whole.1 behind
  have letter := (isDigit_of_stop d stop).2
  have hex : (n ++ d :: behind).take 2 ≠ text "0x" := take_two_of_isNumeral whole stop (by decide) behind
  have bits : (n ++ d :: behind).take 2 ≠ text "0b" := take_two_of_isNumeral whole stop (by decide) behind
  rw [number, if_neg hex, if_neg bits, same]
  simp [stop, letter]

/-! ## Names -/

/-- The whole text is one name. -/
def isName (w : List Byte) : Bool := w.head?.any (!isDigit ·) && w.all isNameByte

/-- A name is read up to the byte that ends it; in front of a bracket it is one that is called. -/
theorem name_append (all : w.all isNameByte = true) (stop : isNameByte d = false) (behind : List Byte) :
    name (w ++ d :: behind) = (if d = byte '(' then .call w else .word w, d :: behind) := by
  have all := List.all_eq_true.1 all
  rw [name, List.takeWhile_append_of_pos all, List.dropWhile_append_of_pos all, List.takeWhile_cons, List.dropWhile_cons,
    stop]
  simp only [Bool.false_eq_true, if_false, List.append_nil, List.head?_cons, Option.some.injEq]
  split <;> rfl

/-! ## Stretches -/

theorem lexes_nil : Lexes [] [] := fun behind => by simp

/-- Texts that are read whatever follows can stand behind one another. -/
theorem Lexes.append (one : Lexes s read) (other : Lexes t more) : Lexes (s ++ t) (read ++ more) := by
  intro behind
  rw [List.append_assoc, one, other, Option.map_map]
  congr 1
  funext tokens
  exact (List.append_assoc ..).symm

/-- A token in front of a stretch. -/
theorem Lexes.cons (rest : Lexes t read) (blank : isBlank c = false)
    (comment : ∀ behind, isComment (c :: (s ++ (t ++ behind))) = false)
    (found : ∀ behind, next (c :: (s ++ (t ++ behind))) = some (token, t ++ behind)) :
    Lexes (c :: (s ++ t)) (token :: read) := by
  intro behind
  rw [List.cons_append, List.append_assoc, tokens_of_next blank (comment behind) (found behind), rest, Option.map_map]
  rfl

/-- A blank in front changes nothing. -/
theorem Lexes.blank (rest : Lexes t read) (blank : isBlank c = true) : Lexes (c :: t) read := by
  intro behind
  rw [List.cons_append, tokens_blank blank, rest]

/-- What the first characters of tokens are not. -/
theorem start_facts : ∀ c : Byte, (isNameByte c || isSymbol c) = true →
    isBlank c = false ∧ c ≠ byte '#' ∧ (c = byte '"' || c = 0x27) = false ∧ (isNameByte c = true → c ≠ byte '-') := by
  decide

/-- A digit begins a token, and no comment. -/
theorem digit_facts : ∀ c : Byte, isDigit c = true → (isNameByte c || isSymbol c) = true ∧ c ≠ byte '-' := by decide

/-- A symbol is no part of a name. -/
theorem symbol_facts : ∀ c : Byte, isSymbol c = true → isNameByte c = false ∧ isDigit c = false := by decide

/-- What the next token is, where no string begins. -/
theorem next_of_start (start : (isNameByte c || isSymbol c) = true) :
    next (c :: t) = if startsNumber (c :: t) then Sql.number (c :: t)
      else if isNameByte c then some (Sql.name (c :: t)) else some (.symbol c, t) := by
  rw [next, if_neg (by rw [(start_facts c start).2.2.1]; decide)]
  cases named : isNameByte c with
  | true => rfl
  | false =>
    rw [named, Bool.false_or] at start
    rw [start]
    rfl

/-- A name in front, up to the byte that ends it. -/
theorem Lexes.name (rest : Lexes (d :: t) read) (named : isName w = true) (stop : isNameByte d = false) :
    Lexes (w ++ d :: t) ((if d = byte '(' then .call w else .word w) :: read) := by
  obtain _ | ⟨c, s⟩ := w
  · cases named
  · simp only [isName, List.head?_cons, Option.any_some, Bool.and_eq_true, Bool.not_eq_true'] at named
    obtain ⟨digit, all⟩ := named
    have first : isNameByte c = true := (List.all_eq_true.1 all) c List.mem_cons_self
    have start : (isNameByte c || isSymbol c) = true := by rw [first]; rfl
    obtain ⟨blank, hash, -, dash⟩ := start_facts c start
    apply rest.cons blank
    · intro behind
      exact isComment_eq_false hash (.inl (dash first))
    · intro behind
      have point : c ≠ byte '.' := by
        rintro rfl
        exact absurd first (by decide)
      have word : startsNumber (c :: (s ++ (d :: t ++ behind))) = false := by simp [startsNumber, digit, point]
      rw [next_of_start start, word, first]
      exact congrArg some (name_append all stop (t ++ behind))

/-- A name that is not called. -/
theorem Lexes.word (rest : Lexes (d :: t) read) (named : isName w = true) (stop : isNameByte d = false)
    (bracket : d ≠ byte '(') : Lexes (w ++ d :: t) (.word w :: read) := by
  have lexes := rest.name named stop
  rwa [if_neg bracket] at lexes

/-- A number in front, up to the byte that ends it. -/
theorem Lexes.number (rest : Lexes (d :: t) read) (start : startsNumber n = true)
    (found : ∀ behind, Sql.number (n ++ d :: behind) = some (token, d :: behind)) :
    Lexes (n ++ d :: t) (token :: read) := by
  obtain _ | ⟨c, s⟩ := n
  · cases start
  · have first : (isNameByte c || isSymbol c) = true ∧ c ≠ byte '-' := by
      by_cases point : c = byte '.'
      · subst point
        decide
      · exact digit_facts c (by simpa [startsNumber, point] using start)
    obtain ⟨blank, hash, -, -⟩ := start_facts c first.1
    apply rest.cons blank
    · intro behind
      exact isComment_eq_false hash (.inl first.2)
    · intro behind
      have starts : startsNumber (c :: (s ++ (d :: t ++ behind))) = true := startsNumber_append start _
      rw [next_of_start first.1, if_pos starts]
      exact found (t ++ behind)

/-- A string in front, up to its quote. -/
theorem Lexes.string (rest : Lexes t read)
    (closes : ∀ behind, quoted (byte '"') (s ++ (t ++ behind)) = some (v, t ++ behind)) :
    Lexes (byte '"' :: (s ++ t)) (.string v :: read) := by
  apply rest.cons (by decide)
  · intro behind
    exact isComment_eq_false (by decide) (.inl (by decide))
  · intro behind
    rw [next, if_pos (by decide), closes]
    rfl

/-- `0x` and hexadecimal digits are one token. -/
theorem number_hexadecimal (nonempty : s ≠ []) (all : s.all isHexDigit = true) (stop : isNameByte d = false)
    (behind : List Byte) : Sql.number (text "0x" ++ s ++ d :: behind) = some (.hexadecimal s, d :: behind) := by
  have letter : isHexDigit d = false := isHexDigit_of_stop d stop
  have all := List.all_eq_true.1 all
  have two : (text "0x" ++ s ++ d :: behind).take 2 = text "0x" := rfl
  have digits : (text "0x" ++ s ++ d :: behind).drop 2 = s ++ d :: behind := rfl
  rw [Sql.number, if_pos two, hexadecimal, digits, takeWhile_append_stop letter, dropWhile_append_stop letter,
    List.takeWhile_eq_self_iff.2 all, List.dropWhile_eq_nil_iff.2 all]
  simp [nonempty, stop]

/-- A zero and a letter that is no base, no exponent and no digit start a name. -/
theorem number_name {x : Byte}
    (letter : isNameByte x = true ∧ isDigit x = false ∧ isExponentByte x = false ∧ x ≠ byte '.')
    (base : x ≠ byte 'x' ∧ x ≠ byte 'b') (all : s.all isNameByte = true) (stop : isNameByte d = false)
    (bracket : d ≠ byte '(') (behind : List Byte) :
    Sql.number (byte '0' :: x :: s ++ d :: behind) = some (.word (byte '0' :: x :: s), d :: behind) := by
  obtain ⟨name, digit, power, point⟩ := letter
  have zero : isDigit (byte '0') = true := by decide
  have read : numeral (byte '0' :: x :: s ++ d :: behind) = [byte '0'] := by
    simp [numeral, zero, digit, point, exponent, power]
  have names : (byte '0' :: x :: s).all isNameByte = true := by
    rw [List.all_cons, List.all_cons, name, all]
    rfl
  have word := name_append names stop behind
  rw [Sql.number, read, if_neg, if_neg, word, if_neg bracket]
  · simp [zero, name]
  · intro same
    exact base.2 (List.cons.inj (List.cons.inj same).2).1
  · intro same
    exact base.1 (List.cons.inj (List.cons.inj same).2).1

/-- A symbol is a token of one byte; a point is none in front of a digit. -/
theorem next_symbol (symbol : isSymbol c = true) (point : c = byte '.' → t.head?.any isDigit = false) :
    next (c :: t) = some (.symbol c, t) := by
  obtain ⟨name, digit⟩ := symbol_facts c symbol
  have word : startsNumber (c :: t) = false := by
    by_cases same : c = byte '.'
    · simp [startsNumber, digit, point same]
    · simp [startsNumber, digit, same]
  rw [next_of_start (by rw [symbol, Bool.or_true]), word, name]
  rfl

/-- A symbol in front of another byte; two dashes would begin a comment. -/
theorem Lexes.symbol (rest : Lexes (d :: t) read) (symbol : isSymbol c = true)
    (point : c = byte '.' → isDigit d = false) (dash : c = byte '-' → d ≠ byte '-') :
    Lexes (c :: d :: t) (.symbol c :: read) := by
  obtain ⟨blank, hash, -, -⟩ := start_facts c (by rw [symbol, Bool.or_true])
  apply Lexes.cons (s := []) rest blank
  · intro behind
    apply isComment_eq_false hash
    by_cases same : c = byte '-'
    · exact .inr fun head => dash same (Option.some.inj head)
    · exact .inl same
  · intro behind
    exact next_symbol symbol point

/-- A symbol that is read so whatever follows. -/
theorem lexes_symbol (symbol : isSymbol c = true) (point : c ≠ byte '.') (dash : c ≠ byte '-') :
    Lexes [c] [.symbol c] := by
  obtain ⟨blank, hash, -, -⟩ := start_facts c (by rw [symbol, Bool.or_true])
  apply Lexes.cons (s := []) lexes_nil blank
  · intro behind
    exact isComment_eq_false hash (.inl dash)
  · intro behind
    exact next_symbol symbol fun same => absurd same point

/-! ## Words -/

/-- Words, each with the character behind it. -/
def spelled (words : List (List Byte × Byte)) : List Byte := words.flatMap fun word => word.1 ++ [word.2]

/-- The tokens of words with the byte behind each. -/
def spelledTokens (words : List (List Byte × Byte)) : List Token :=
  words.flatMap fun word =>
    (if word.2 = byte '(' then .call word.1 else .word word.1) :: if isBlank word.2 then [] else [.symbol word.2]

/-- The characters behind the words are blanks or tokens. The last one is a token whatever
comes next. -/
def isSpelling : List (List Byte × Byte) → Bool
  | [] => true
  | (w, c) :: rest =>
    isName w && (isBlank c || (isSymbol c && c ≠ byte '-' && (c ≠ byte '.' || rest ≠ []))) && isSpelling rest

theorem blank_facts : ∀ c : Byte, isBlank c = true → isNameByte c = false ∧ c ≠ byte '(' := by decide

/-- Behind a name that goes on with another one, any character but a dash is a token. -/
theorem Lexes.symbol_name (rest : Lexes (w ++ t) read) (named : isName w = true) (symbol : isSymbol c = true)
    (dash : c ≠ byte '-') : Lexes (c :: (w ++ t)) (.symbol c :: read) := by
  obtain _ | ⟨d, s⟩ := w
  · cases named
  · simp only [isName, List.head?_cons, Option.any_some, Bool.and_eq_true, Bool.not_eq_true'] at named
    exact rest.symbol symbol (fun _ => named.1) fun same => absurd same dash

/-- Words are read one by one. -/
theorem lexes_spelled (words : List (List Byte × Byte)) (ok : isSpelling words = true) :
    Lexes (spelled words) (spelledTokens words) := by
  induction words with
  | nil => exact lexes_nil
  | cons word rest ih =>
    obtain ⟨w, c⟩ := word
    simp only [isSpelling, Bool.and_eq_true] at ok
    obtain ⟨⟨named, behind⟩, later⟩ := ok
    have rest_lexes := ih later
    change Lexes (w ++ [c] ++ spelled rest) ((_ :: _) ++ spelledTokens rest)
    rw [List.append_assoc, List.singleton_append]
    cases blank : isBlank c with
    | true =>
      have lexes := (rest_lexes.blank blank).name named (blank_facts c blank).1
      exact lexes
    | false =>
      rw [blank, Bool.false_or] at behind
      simp only [Bool.and_eq_true, Bool.or_eq_true, decide_eq_true_eq] at behind
      obtain ⟨⟨symbol, dash⟩, point⟩ := behind
      have both : Lexes (c :: spelled rest) (.symbol c :: spelledTokens rest) := by
        cases rest with
        | nil => exact lexes_symbol symbol (point.resolve_right fun other => other rfl) dash
        | cons next rest =>
          obtain ⟨following, d⟩ := next
          have first : isName following = true := by
            simp only [isSpelling, Bool.and_eq_true] at later
            exact later.1.1
          have same : spelled ((following, d) :: rest) = following ++ ([d] ++ spelled rest) := List.append_assoc ..
          rw [same] at rest_lexes ⊢
          exact rest_lexes.symbol_name first symbol dash
      exact both.name named (symbol_facts c symbol).1

end

end GtpLibrary.Lib.Sql

import Mathlib.Data.List.DropRight
import Mathlib.Data.List.Infix
import Mathlib.Tactic.Common
import GtpLibrary.Lib.Bytes

/-!
# Multipart bodies

Reading a text by the rules for multipart bodies: lines end at CR LF, a line that begins
with `--` and the boundary delimits, the line break in front of it belongs to it, the header
area of a part ends at its first empty line. What stands in front of the first and behind
the closing delimiter is dropped. Texts are handled as the lists of their lines, to which
`join` is the way back.
-/

namespace GtpLibrary.Lib.Mime

/-- A line without its line break. -/
abbrev Line := List Byte

def crlf : List Byte := text "\r\n"

/-! ## Lines -/

/-- One byte in front of a text that is split already: a CR meets the LF behind it as the
first byte of the first line. -/
def consByte (c : Byte) : List Line → List Line
  | [] => [[c]]
  | l :: ls => if c = byte '\r' ∧ l.head? = some (byte '\n') then [] :: l.tail :: ls else (c :: l) :: ls

/-- The lines between the CR LFs of a text; there is always a last one. -/
def lines (a : List Byte) : List Line := a.foldr consByte [[]]

/-- The way back from the lines to the text. -/
def join (ls : List Line) : List Byte := crlf.intercalate ls

/-- A text has at least one line. -/
theorem consByte_ne_nil (c : Byte) (ls : List Line) : consByte c ls ≠ [] := by
  unfold consByte
  split
  · simp
  · split <;> simp

/-- Only the first line meets the byte in front. -/
theorem consByte_append {c : Byte} {ls more : List Line} (some : ls ≠ []) :
    consByte c (ls ++ more) = consByte c ls ++ more := by
  obtain ⟨l, ls, rfl⟩ := List.exists_cons_of_ne_nil some
  simp only [consByte, List.cons_append]
  split <;> rfl

/-- Only the first line meets a text in front. -/
theorem foldr_consByte_append {ls : List Line} (some : ls ≠ []) (more : List Line) (a : List Byte) :
    a.foldr consByte (ls ++ more) = a.foldr consByte ls ++ more ∧ a.foldr consByte ls ≠ [] := by
  induction a with
  | nil => exact ⟨rfl, some⟩
  | cons c a ih =>
    rw [List.foldr_cons, List.foldr_cons, ih.1, consByte_append ih.2]
    exact ⟨rfl, consByte_ne_nil _ _⟩

theorem lines_ne_nil (a : List Byte) : lines a ≠ [] :=
  (foldr_consByte_append (List.cons_ne_nil [] []) [] a).2

/-- A line break in front begins with an empty line. -/
theorem lines_crlf (b : List Byte) : lines (crlf ++ b) = [] :: lines b := by
  obtain ⟨l, ls, split⟩ := List.exists_cons_of_ne_nil (lines_ne_nil b)
  have feed : consByte (byte '\n') (l :: ls) = (byte '\n' :: l) :: ls := by
    rw [consByte, if_neg (not_and_of_not_left _ (by decide))]
  show consByte (byte '\r') (consByte (byte '\n') (lines b)) = _
  rw [split, feed]
  rfl

/-- A line break cuts a text in two, whatever stands around it. -/
theorem lines_append_crlf (a b : List Byte) : lines (a ++ (crlf ++ b)) = lines a ++ lines b := by
  have cut := (foldr_consByte_append (List.cons_ne_nil [] []) (lines b) a).1
  unfold lines at *
  rw [List.foldr_append]
  exact (congrArg (fun ls => a.foldr consByte ls) (lines_crlf b)).trans cut

/-- A text without line feed is one line. -/
theorem lines_of_no_feed {a : List Byte} (clean : byte '\n' ∉ a) : lines a = [a] := by
  induction a with
  | nil => rfl
  | cons c rest ih =>
    rw [List.mem_cons, not_or] at clean
    have inside : ¬ (c = byte '\r' ∧ rest.head? = some (byte '\n')) := fun both =>
      clean.2 (List.mem_of_mem_head? both.2)
    show consByte c (lines rest) = _
    rw [ih clean.2, consByte, if_neg inside]

/-- Lines without a line feed are not split any more. -/
theorem flatMap_lines_of_no_feed {ls : List Line} (clean : ∀ l ∈ ls, byte '\n' ∉ l) : ls.flatMap lines = ls := by
  induction ls with
  | nil => rfl
  | cons l ls ih =>
    obtain ⟨first, later⟩ := List.forall_mem_cons.1 clean
    rw [List.flatMap_cons, lines_of_no_feed first, ih later, List.singleton_append]

/-- Lines written one under the other, each with its line break. -/
def write (ls : List (List Byte)) : List Byte := ls.flatMap (· ++ crlf)

@[simp] theorem write_nil : write [] = [] := rfl

theorem write_cons (l : List Byte) (ls : List (List Byte)) : write (l :: ls) = l ++ (crlf ++ write ls) := by
  unfold write
  rw [List.flatMap_cons, List.append_assoc]

/-- Writing one list behind another. -/
theorem write_append (ls more : List (List Byte)) : write (ls ++ more) = write ls ++ write more :=
  List.flatMap_append

/-- What was written line by line is read line by line. -/
theorem lines_write (ls : List (List Byte)) (rest : List Byte) :
    lines (write ls ++ rest) = ls.flatMap lines ++ lines rest := by
  induction ls with
  | nil => rfl
  | cons l ls ih =>
    rw [write_cons, List.append_assoc, List.append_assoc, lines_append_crlf, ih, List.flatMap_cons, List.append_assoc]

/-- A text in front goes to the first line. -/
theorem join_cons_append (p l : Line) (ls : List Line) : join ((p ++ l) :: ls) = p ++ join (l :: ls) := by
  cases ls with
  | nil => simp [join]
  | cons m ls => simp [join, List.intercalate_cons_cons]

theorem join_consByte {c : Byte} {ls : List Line} (some : ls ≠ []) : join (consByte c ls) = c :: join ls := by
  obtain ⟨l, ls, rfl⟩ := List.exists_cons_of_ne_nil some
  rw [consByte]
  split
  · rename_i ends
    obtain ⟨rfl, feed⟩ := ends
    obtain ⟨tail, rfl⟩ := List.head?_eq_some_iff.1 feed
    rw [show byte '\n' :: tail = [byte '\n'] ++ tail from rfl, join_cons_append]
    unfold join
    rw [List.intercalate_cons_cons]
    exact List.append_assoc ..
  · exact join_cons_append [c] l ls

/-- Joining undoes splitting. -/
theorem join_lines (a : List Byte) : join (lines a) = a := by
  induction a with
  | nil => rfl
  | cons c a ih =>
    show join (consByte c (lines a)) = _
    rw [join_consByte (lines_ne_nil a), ih]

/-- A line is a piece of its text. -/
theorem infix_of_mem_lines {a : List Byte} {l : Line} (member : l ∈ lines a) : l <:+: a := by
  have piece : ∀ ls : List Line, l ∈ ls → l <:+: join ls := by
    intro ls here
    induction ls with
    | nil => cases here
    | cons m ls ih =>
      rcases List.mem_cons.1 here with rfl | later
      · have front := join_cons_append l [] ls
        rw [List.append_nil] at front
        exact front ▸ (List.prefix_append ..).isInfix
      · have more : ls ≠ [] := List.ne_nil_of_mem later
        unfold join at *
        rw [List.intercalate_cons_of_ne_nil more]
        exact (ih later).trans (List.suffix_append ..).isInfix
  exact join_lines a ▸ piece _ member

/-! ## Texts without line break -/

/-- No line break stands in the text; a CR or a LF may. -/
def Unbroken (a : List Byte) : Prop := ¬ crlf <:+: a

instance (a : List Byte) : Decidable (Unbroken a) := inferInstanceAs (Decidable (¬ _))

section
variable {a b : List Byte} {c : Byte}

/-- Where a line break begins. -/
theorem crlf_prefix_cons : crlf <+: c :: a ↔ c = byte '\r' ∧ a.head? = some (byte '\n') := by
  rw [show crlf = [byte '\r', byte '\n'] from rfl, List.cons_prefix_cons, List.head?_eq_some_iff]
  constructor
  · rintro ⟨rfl, rest, rfl⟩
    exact ⟨rfl, rest, rfl⟩
  · rintro ⟨rfl, rest, rfl⟩
    exact ⟨rfl, rest, rfl⟩

theorem unbroken_nil : Unbroken [] := by decide

/-- A byte in front breaks no line but as a CR in front of an LF. -/
theorem unbroken_cons : Unbroken (c :: a) ↔ ¬ (c = byte '\r' ∧ a.head? = some (byte '\n')) ∧ Unbroken a := by
  unfold Unbroken
  rw [List.infix_cons_iff, not_or, crlf_prefix_cons]

/-- The texts that are one line. -/
theorem lines_eq_singleton_iff : lines a = [a] ↔ Unbroken a := by
  constructor
  · rintro single ⟨front, back, rfl⟩
    have count := congrArg List.length single
    rw [List.append_assoc, lines_append_crlf, List.length_append, List.length_singleton] at count
    have some := List.length_pos_iff.2 (lines_ne_nil front)
    have more := List.length_pos_iff.2 (lines_ne_nil back)
    omega
  · intro unbroken
    induction a with
    | nil => rfl
    | cons c rest ih =>
      obtain ⟨inside, unbroken⟩ := unbroken_cons.1 unbroken
      show consByte c (lines rest) = _
      rw [ih unbroken, consByte, if_neg inside]

/-- A list of texts of which each is one line. -/
theorem flatMap_lines_eq_iff {ls : List Line} : ls.flatMap lines = ls ↔ ∀ l ∈ ls, Unbroken l := by
  have longer : ∀ ls : List Line, ls.length ≤ (ls.flatMap lines).length := by
    intro ls
    induction ls with
    | nil => exact Nat.le_refl _
    | cons l ls ih =>
      have some := List.length_pos_iff.2 (lines_ne_nil l)
      rw [List.flatMap_cons, List.length_append, List.length_cons]
      omega
  induction ls with
  | nil => simp
  | cons l ls ih =>
    rw [List.flatMap_cons, List.forall_mem_cons, ← lines_eq_singleton_iff]
    constructor
    · intro same
      have count := congrArg List.length same
      rw [List.length_append, List.length_cons] at count
      have some := List.length_pos_iff.2 (lines_ne_nil l)
      have later := longer ls
      obtain ⟨first, rest⟩ := List.append_inj (same.trans List.singleton_append.symm) (by rw [List.length_singleton]; omega)
      exact ⟨first, ih.1 rest⟩
    · rintro ⟨first, later⟩
      rw [first, ih.2 later, List.singleton_append]

/-- What follows breaks a text only by an LF. -/
theorem unbroken_append_cons (feed : c ≠ byte '\n') : Unbroken (a ++ c :: b) ↔ Unbroken a ∧ Unbroken (c :: b) := by
  induction a with
  | nil => simp [unbroken_nil]
  | cons d a ih =>
    rw [List.cons_append, unbroken_cons, unbroken_cons, ih, and_assoc]
    cases a with
    | nil => simp [feed]
    | cons e a => simp

/-- A text without a CR breaks no line together with what follows. -/
theorem unbroken_append_of_no_return (clean : byte '\r' ∉ a) : Unbroken (a ++ b) ↔ Unbroken b := by
  induction a with
  | nil => exact Iff.rfl
  | cons d a ih =>
    rw [List.mem_cons, not_or] at clean
    rw [List.cons_append, unbroken_cons, ih clean.2]
    exact and_iff_right fun both => clean.1 both.1.symm

/-- What stands between two texts keeps the end of one from the beginning of the other. -/
theorem unbroken_separated {sep : List Byte} (filled : sep ≠ []) (noReturn : byte '\r' ∉ sep) (noFeed : byte '\n' ∉ sep) :
    Unbroken (a ++ (sep ++ b)) ↔ Unbroken a ∧ Unbroken b := by
  obtain ⟨c, sep, rfl⟩ := List.exists_cons_of_ne_nil filled
  have feed : c ≠ byte '\n' := fun same => noFeed (same ▸ List.mem_cons_self)
  rw [List.cons_append, unbroken_append_cons feed, ← List.cons_append, unbroken_append_of_no_return noReturn]

end

/-! ## Delimiters -/

def dashes : List Byte := text "--"

/-- The line begins with the boundary; what follows it on the line is padding. -/
def Delimits (boundary : List Byte) (line : Line) : Prop := dashes ++ boundary <+: line

/-- The line is the last delimiter. -/
def Closes (boundary : List Byte) (line : Line) : Prop := dashes ++ boundary ++ dashes <+: line

instance (boundary : List Byte) : DecidablePred (Delimits boundary) := fun line =>
  inferInstanceAs (Decidable (dashes ++ boundary <+: line))

instance (boundary : List Byte) : DecidablePred (Closes boundary) := fun line =>
  inferInstanceAs (Decidable (dashes ++ boundary ++ dashes <+: line))

section
variable {boundary : List Byte} {line : Line} {part preamble epilogue ls : List Line} {parts : List (List Line)}

/-- The last delimiter is one. -/
theorem Closes.delimits (closes : Closes boundary line) : Delimits boundary line :=
  (List.prefix_append ..).trans closes

theorem delimits_self : Delimits boundary (dashes ++ boundary) := List.prefix_refl _

/-- The delimiter of a part is not the last one. -/
theorem not_closes_self : ¬ Closes boundary (dashes ++ boundary) := by
  intro closes
  have longer := closes.length_le
  rw [List.length_append] at longer
  have two : dashes.length = 2 := by decide
  omega

/-- The parts up to the closing delimiter, `current` being what the first one has so far.
There are none where the closing delimiter is missing. -/
def partsFrom (boundary : List Byte) (current : List Line) : List Line → Option (List (List Line))
  | [] => none
  | line :: rest =>
    if Closes boundary line then some [current]
    else if Delimits boundary line then (partsFrom boundary [] rest).map (current :: ·)
    else partsFrom boundary (current ++ [line]) rest

/-- The parts of a multipart body, each with its lines. -/
def multipart (boundary : List Byte) (ls : List Line) : Option (List (List Line)) :=
  match ls.dropWhile fun line => ¬ Delimits boundary line with
  | [] => none
  | first :: rest => if Closes boundary first then none else partsFrom boundary [] rest

/-- The lines of a multipart body. -/
def encapsulate (boundary : List Byte) (parts : List (List Line)) : List Line :=
  parts.flatMap (fun part => (dashes ++ boundary) :: part) ++ [dashes ++ boundary ++ dashes]

/-- No line of the part delimits. -/
def Free (boundary : List Byte) (part : List Line) : Prop := ∀ line ∈ part, ¬ Delimits boundary line

/-- Lines without a delimiter all go to the part that is read. -/
theorem partsFrom_append {current : List Line} (free : Free boundary part) :
    partsFrom boundary current (part ++ ls) = partsFrom boundary (current ++ part) ls := by
  induction part generalizing current with
  | nil => rw [List.nil_append, List.append_nil]
  | cons line part ih =>
    obtain ⟨inside, later⟩ := List.forall_mem_cons.1 free
    rw [List.cons_append, partsFrom, if_neg (mt Closes.delimits inside), if_neg inside, ih later, List.append_assoc,
      List.singleton_append]

/-- What follows a first delimiter. -/
theorem partsFrom_encapsulate (frees : ∀ part ∈ parts, Free boundary part) (free : Free boundary part) :
    partsFrom boundary [] (part ++ (encapsulate boundary parts ++ epilogue)) = some (part :: parts) := by
  induction parts generalizing part with
  | nil =>
    rw [partsFrom_append free]
    exact if_pos (List.prefix_refl _)
  | cons next parts ih =>
    obtain ⟨free', later⟩ := List.forall_mem_cons.1 frees
    have step : encapsulate boundary (next :: parts) ++ epilogue =
        (dashes ++ boundary) :: (next ++ (encapsulate boundary parts ++ epilogue)) := by
      simp [encapsulate]
    rw [partsFrom_append free, step, partsFrom, if_neg not_closes_self, if_pos delimits_self, ih later free']
    rfl

/-- **Reading back**: parts with no delimiting line among theirs come out as they went in. -/
theorem multipart_encapsulate (before : Free boundary preamble) (frees : ∀ part ∈ parts, Free boundary part)
    (some_part : parts ≠ []) (epilogue : List Line) :
    multipart boundary (preamble ++ (encapsulate boundary parts ++ epilogue)) = some parts := by
  obtain ⟨part, parts, rfl⟩ := List.exists_cons_of_ne_nil some_part
  obtain ⟨free, later⟩ := List.forall_mem_cons.1 frees
  have first : encapsulate boundary (part :: parts) ++ epilogue =
      (dashes ++ boundary) :: (part ++ (encapsulate boundary parts ++ epilogue)) := by
    simp [encapsulate]
  have skipped : ∀ line ∈ preamble, decide (¬ Delimits boundary line) = true := fun line member =>
    decide_eq_true (before line member)
  unfold multipart
  rw [List.dropWhile_append_of_pos skipped, first,
    List.dropWhile_cons_of_neg (by simpa using delimits_self)]
  dsimp only
  rw [if_neg not_closes_self]
  exact partsFrom_encapsulate later free

/-- A text that the boundary does not occur in is free of its delimiters. -/
theorem free_lines {a : List Byte} (absent : ¬ boundary <:+: a) : Free boundary (lines a) := by
  intro line member delimits
  have inLine : boundary <:+: line := (List.suffix_append ..).isInfix.trans delimits.isInfix
  exact absent (inLine.trans (infix_of_mem_lines member))

/-- Another boundary of the same length does not delimit. -/
theorem not_delimits_other {other : List Byte} (same_length : boundary.length = other.length) (ne : boundary ≠ other)
    (rest : List Byte) : ¬ Delimits boundary (dashes ++ other ++ rest) := by
  intro delimits
  have front : dashes ++ boundary <+: dashes ++ other :=
    List.prefix_of_prefix_length_le delimits (List.prefix_append ..) (by simp [same_length])
  exact ne (List.append_cancel_left (front.eq_of_length (by simp [same_length])))

/-- Parts free of delimiters can stand behind one another. -/
theorem free_append {more : List Line} (free : Free boundary part) (free' : Free boundary more) :
    Free boundary (part ++ more) := by
  intro line member
  rcases List.mem_append.1 member with here | there
  · exact free line here
  · exact free' line there

theorem free_cons (free : ¬ Delimits boundary line) (free' : Free boundary part) : Free boundary (line :: part) :=
  List.forall_mem_cons.2 ⟨free, free'⟩

theorem free_nil : Free boundary [] := fun _ member => absurd member List.not_mem_nil

/-- Nesting: a multipart of another boundary is free where its parts are. -/
theorem free_encapsulate {other : List Byte} (same_length : boundary.length = other.length) (ne : boundary ≠ other)
    (frees : ∀ part ∈ parts, Free boundary part) : Free boundary (encapsulate other parts) := by
  have delimiter : ¬ Delimits boundary (dashes ++ other) := by
    have absent := not_delimits_other same_length ne []
    rwa [List.append_nil] at absent
  apply free_append
  · intro line member
    obtain ⟨part, inside, here⟩ := List.mem_flatMap.1 member
    exact free_cons delimiter (frees part inside) line here
  · exact free_cons (not_delimits_other same_length ne dashes) free_nil

/-- A line that begins otherwise does not delimit. -/
theorem not_delimits_of_head (head : line.head? ≠ some (byte '-')) : ¬ Delimits boundary line := by
  rintro ⟨rest, rfl⟩
  exact head rfl

/-- A line that begins with another character delimits nothing. -/
theorem not_delimits_append {a : List Byte} (filled : a ≠ []) (head : a.head? ≠ some (byte '-')) (rest : List Byte) :
    ¬ Delimits boundary (a ++ rest) := by
  apply not_delimits_of_head
  rwa [List.head?_append_of_ne_nil _ filled]

end

/-! ## Header areas -/

/-- A part, read: the lines in front of its first empty line, and those behind it. -/
structure Entity where
  header : List Line
  body : List Line

/-- A part is its header up to the first empty line, and its body. -/
def entity (part : List Line) : Entity where
  header := part.takeWhile (· ≠ [])
  body := (part.dropWhile (· ≠ [])).tail

/-- ASCII letters only. -/
def lower (c : Byte) : Byte := if byte 'A' ≤ c ∧ c ≤ byte 'Z' then c + 32 else c

def blank (c : Byte) : Bool := c = byte ' ' ∨ c = byte '\t'

/-- Without blanks at both ends. -/
def trim (l : List Byte) : List Byte := (l.dropWhile blank).rdropWhile blank

/-- A header line that begins with a blank continues the one in front of it. -/
def unfoldLines (ls : List Line) : List Line :=
  ls.foldr (fun l unfolded =>
    match unfolded with
    | [] => [l]
    | next :: later => if next.head?.any blank then (l ++ next) :: later else l :: next :: later) []

/-- The name of a field, in lower case, and its value. -/
def fieldOf (line : Line) : Option (List Byte × List Byte) :=
  if byte ':' ∈ line then
    some ((line.takeWhile (· ≠ byte ':')).map lower, trim (line.dropWhile (· ≠ byte ':')).tail)
  else none

/-- The first field of that name. -/
def Entity.field (part : Entity) (name : List Byte) : Option (List Byte) :=
  ((unfoldLines part.header).filterMap fieldOf).lookup name

/-- Without the quotes around it. -/
def unquote (l : List Byte) : List Byte :=
  if l.head? = some (byte '"') then l.tail.takeWhile (· ≠ byte '"') else l

/-- What a structured value says in front of its parameters, in lower case. -/
def leading (value : List Byte) : List Byte := (trim (value.takeWhile (· ≠ byte ';'))).map lower

/-- The parameters behind a value, with their names in lower case. -/
def parameters (value : List Byte) : List (List Byte × List Byte) :=
  (value.splitOn (byte ';')).tail.map fun parameter =>
    ((trim (parameter.takeWhile (· ≠ byte '='))).map lower,
      unquote (trim (parameter.dropWhile (· ≠ byte '=')).tail))

/-- What `Content-Type` says, without its parameters. -/
def Entity.mediaType (part : Entity) : Option (List Byte) := (part.field (text "content-type")).map leading

/-- The parameter `boundary` of `Content-Type`. -/
def Entity.boundary (part : Entity) : Option (List Byte) :=
  (part.field (text "content-type")).bind fun value => (parameters value).lookup (text "boundary")

section
variable {header body : List Line} {value l : List Byte} {c : Byte}

/-- A header without empty lines is read as it is. -/
theorem entity_append (filled : ∀ line ∈ header, line ≠ []) : entity (header ++ [] :: body) = ⟨header, body⟩ := by
  unfold entity
  rw [List.takeWhile_append_of_pos (by simpa using filled), List.dropWhile_append_of_pos (by simpa using filled)]
  simp

/-- The line is no continuation. -/
def begins (line : Line) : Bool := line.head?.any fun c => !blank c

/-- Whether a line begins a field is seen at its front. -/
theorem begins_append {line : Line} (begin : begins line = true) (more : List Byte) : begins (line ++ more) = true := by
  cases line with
  | nil => cases begin
  | cons c line => exact begin

/-- Without folded lines nothing is unfolded. -/
theorem unfoldLines_eq_self {ls : List Line} (begin : ∀ line ∈ ls, begins line = true) : unfoldLines ls = ls := by
  induction ls with
  | nil => rfl
  | cons line ls ih =>
    have later := ih fun l member => begin l (List.mem_cons_of_mem _ member)
    show (match unfoldLines ls with
      | [] => _
      | _ :: _ => _) = _
    rw [later]
    cases ls with
    | nil => rfl
    | cons next ls =>
      have dark : next.head?.any blank = false := by
        have head := begin next (by simp)
        unfold begins at head
        cases next with
        | nil => rfl
        | cons c next => simpa using head
      simp [dark]

/-- A text without blanks at its ends stays. -/
theorem trim_eq_self (first : ∀ c ∈ l.head?, blank c = false) (last : ∀ c ∈ l.getLast?, blank c = false) : trim l = l := by
  have front : l.dropWhile blank = l := by
    cases l with
    | nil => rfl
    | cons c l => rw [List.dropWhile_cons_of_neg (by simpa using first c rfl)]
  unfold trim
  rw [front, List.rdropWhile_eq_self_iff]
  intro some
  simpa using last _ (List.getLast?_eq_some_getLast some)

theorem trim_cons_blank (clear : blank c) : trim (c :: l) = trim l := by
  unfold trim
  rw [List.dropWhile_cons_of_pos clear]

section
variable {name key : List Byte}

/-- A field is read as its name and its value. -/
theorem fieldOf_append (clean : byte ':' ∉ name) :
    fieldOf (name ++ byte ':' :: byte ' ' :: value) = some (name.map lower, trim value) := by
  have front : ∀ c ∈ name, decide (c ≠ byte ':') = true := by
    intro c member
    exact decide_eq_true fun same => clean (same ▸ member)
  unfold fieldOf
  rw [if_pos (by simp), List.takeWhile_append_of_pos front, List.dropWhile_append_of_pos front]
  simp [trim_cons_blank (show blank (byte ' ') from by decide)]

/-- The first field of the name counts. -/
theorem field_cons_self (clean : byte ':' ∉ name) (named : name.map lower = key)
    (begin : ∀ line ∈ (name ++ byte ':' :: byte ' ' :: value) :: header, begins line = true) :
    Entity.field ⟨(name ++ byte ':' :: byte ' ' :: value) :: header, body⟩ key = some (trim value) := by
  unfold Entity.field
  rw [unfoldLines_eq_self begin, List.filterMap_cons_some (fieldOf_append clean), named, List.lookup_cons_self]

/-- A field of another name is passed over. -/
theorem field_cons_other (clean : byte ':' ∉ name) (named : key ≠ name.map lower)
    (begin : ∀ line ∈ (name ++ byte ':' :: byte ' ' :: value) :: header, begins line = true) :
    Entity.field ⟨(name ++ byte ':' :: byte ' ' :: value) :: header, body⟩ key = Entity.field ⟨header, body⟩ key := by
  unfold Entity.field
  dsimp only
  rw [unfoldLines_eq_self begin, unfoldLines_eq_self fun line member => begin line (List.mem_cons_of_mem _ member),
    List.filterMap_cons_some (fieldOf_append clean), List.lookup_cons, beq_false_of_ne named]

/-- The value ends at the first semicolon. -/
theorem leading_append (clean : byte ';' ∉ value) (rest : List Byte) :
    leading (value ++ byte ';' :: rest) = (trim value).map lower := by
  have front : ∀ c ∈ value, decide (c ≠ byte ';') = true := by
    intro c member
    exact decide_eq_true fun same => clean (same ▸ member)
  unfold leading
  rw [List.takeWhile_append_of_pos front]
  simp

/-- One parameter, a token. -/
theorem parameters_single {type token : List Byte} (clean : byte ';' ∉ type) (clean' : byte ';' ∉ name)
    (single : byte ';' ∉ token) (plain : byte '=' ∉ name) :
    parameters (type ++ byte ';' :: (name ++ byte '=' :: token)) = [((trim name).map lower, unquote (trim token))] := by
  have front : ∀ c ∈ name, decide (c ≠ byte '=') = true := by
    intro c member
    exact decide_eq_true fun same => plain (same ▸ member)
  have one : byte ';' ∉ name ++ byte '=' :: token := by
    rw [List.mem_append, List.mem_cons, not_or, not_or]
    exact ⟨clean', by decide, single⟩
  unfold parameters
  rw [List.splitOn_append_cons_self_of_not_mem clean, List.splitOn_eq_singleton one]
  show [(_, _)] = _
  rw [List.takeWhile_append_of_pos front, List.dropWhile_append_of_pos front]
  simp

end

end

end GtpLibrary.Lib.Mime

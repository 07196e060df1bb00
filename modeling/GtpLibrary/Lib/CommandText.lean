import Mathlib.Tactic.Common
import GtpLibrary.Lib.Bytes

/-!
# A text that is given to `sh`

The words of a text that is one command of plain words. Quotes and backslashes are taken off as
the shell does it; where the text holds an operator, a line break, a comment, a pattern, an
expansion, or a quote that is not closed, there are no words. Outside quotes only letters, digits
and a few signs are read. A reserved word counts as a word.
-/

namespace GtpLibrary.Lib.CommandText

/-- The words that are complete. -/
abbrev Words := List (List Byte)

/-- Where in the text the shell is, with the word it is in. -/
inductive Place
  | between
  | bare (word : List Byte)
  | escaped (word : List Byte)
  | single (word : List Byte)
  | double (word : List Byte)
  | doubleEscaped (word : List Byte)

def newline : Byte := byte '\n'
def singleQuote : Byte := 0x27
def doubleQuote : Byte := byte '"'
def backslash : Byte := byte '\\'
def backquote : Byte := 0x60
def dollar : Byte := byte '$'

def blank (c : Byte) : Bool := c = byte ' ' || c = byte '\t'

def letter (c : Byte) : Bool := (65 ≤ c.toNat && c.toNat ≤ 90) || (97 ≤ c.toNat && c.toNat ≤ 122)

def digit (c : Byte) : Bool := 48 ≤ c.toNat && c.toNat ≤ 57

/-- Stands for itself outside quotes. -/
def ordinary (c : Byte) : Bool := letter c || digit c || (text "%+,-./:@_").contains c

/-- Loses its meaning behind a backslash in double quotes. -/
def special (c : Byte) : Bool := c = dollar || c = backquote || c = doubleQuote || c = backslash

/-- A character outside quotes. -/
def outside (word : List Byte) (c : Byte) : Option Place :=
  if c = backslash then some (.escaped word)
  else if c = singleQuote then some (.single word)
  else if c = doubleQuote then some (.double word)
  else if ordinary c then some (.bare (word ++ [c]))
  else none

section
-- what this shell takes for the beginning of an expansion where the standard leaves it open
variable (more : Byte → Bool)

/-- A `$` in front of this byte begins an expansion. -/
def begins (c : Byte) : Bool := letter c || digit c || (text "_@*#?-$!(\x7b").contains c || more c

/-- Begins an expansion in double quotes. -/
def expands (c : Byte) (next : Option Byte) : Bool := c = backquote || (c = dollar && next.any (begins more))

/-- The place behind a byte, and the word that the byte ends. -/
def step (place : Place) (c : Byte) (next : Option Byte) : Option (Place × Option (List Byte)) :=
  match place with
  | .between => if blank c then some (.between, none) else (outside [] c).map fun place => (place, none)
  | .bare word => if blank c then some (.between, some word) else (outside word c).map fun place => (place, none)
  | .escaped word => if c = newline then none else some (.bare (word ++ [c]), none)
  | .single word => some (if c = singleQuote then .bare word else .single (word ++ [c]), none)
  | .double word =>
    if c = doubleQuote then some (.bare word, none)
    else if c = backslash then some (.doubleEscaped word, none)
    else if expands more c next then none
    else some (.double (word ++ [c]), none)
  | .doubleEscaped word =>
    -- a line break behind a backslash is taken out
    if c = newline then some (.double word, none)
    else if special c then some (.double (word ++ [c]), none)
    else some (.double (word ++ [backslash, c]), none)

/-- The words of a text, from a place in it; a text that ends inside quotes has none. -/
def scan : Place → List Byte → Option Words
  | .between, [] => some []
  | .bare word, [] => some [word]
  | _, [] => none
  | place, c :: rest => do
    let (place, word) ← step more place c rest.head?
    let words ← scan place rest
    return word.toList ++ words

/-- The words of a text. -/
def words (text : List Byte) : Option Words := scan more .between text

end

example : words (fun _ => false) (text "date +\"%d $ %m\" -u") =
    some [text "date", text "+%d $ %m", text "-u"] := by decide

section
variable {more : Byte → Bool} {place after : Place} {c : Byte} {next : Option Byte} {word : Option (List Byte)}
  {rest m w : List Byte} {found : Words}

/-- One byte, and then the rest. -/
theorem scan_cons (more : Byte → Bool) (place : Place) (c : Byte) (rest : List Byte) :
    scan more place (c :: rest) = (step more place c rest.head?).bind fun moved =>
      (scan more moved.1 rest).bind fun words => some (moved.2.toList ++ words) := by
  cases place <;> rfl

/-- A byte that ends no word. -/
theorem scan_move (after : Place) (moved : step more place c rest.head? = some (after, none)) :
    scan more place (c :: rest) = scan more after rest := by
  rw [scan_cons, moved]
  exact Option.bind_fun_some _

/-- A byte that is not read. -/
theorem scan_stop (stopped : step more place c rest.head? = none) : scan more place (c :: rest) = none := by
  rw [scan_cons, stopped]
  rfl

/-! ## Text outside quotes -/

theorem blank_ordinary (plain : ordinary c = true) : blank c = false := by
  by_contra isBlank
  rw [Bool.not_eq_false, blank, Bool.or_eq_true, decide_eq_true_eq, decide_eq_true_eq] at isBlank
  obtain rfl | rfl := isBlank
  · cases plain
  · cases plain

/-- An ordinary byte goes to the word. -/
theorem outside_ordinary (plain : ordinary c = true) (w : List Byte) : outside w c = some (.bare (w ++ [c])) := by
  unfold outside
  split_ifs with slash single double
  · subst slash
    cases plain
  · subst single
    cases plain
  · subst double
    cases plain
  · rfl

/-- Ordinary bytes all go to the word. -/
theorem scan_bare (all : m.all ordinary = true) (w rest : List Byte) :
    scan more (.bare w) (m ++ rest) = scan more (.bare (w ++ m)) rest := by
  induction m generalizing w with
  | nil => rw [List.append_nil, List.nil_append]
  | cons c m ih =>
    rw [List.all_cons, Bool.and_eq_true] at all
    have moved : step more (.bare w) c (m ++ rest).head? = some (.bare (w ++ [c]), none) := by
      simp [step, blank_ordinary all.1, outside_ordinary all.1]
    rw [List.cons_append, scan_move _ moved, ih all.2, List.append_assoc]
    rfl

/-- An ordinary byte begins a word. -/
theorem scan_between (plain : ordinary c = true) (rest : List Byte) :
    scan more .between (c :: rest) = scan more (.bare [c]) rest := by
  apply scan_move
  simp [step, blank_ordinary plain, outside_ordinary plain]

/-- A blank ends a word. -/
theorem scan_blank (isBlank : blank c = true) (w rest : List Byte) :
    scan more (.bare w) (c :: rest) = (scan more .between rest).map (w :: ·) := by
  have moved : step more (.bare w) c rest.head? = some (.between, some w) := by
    simp only [step, if_pos isBlank]
  rw [scan_cons, moved]
  exact Option.map_eq_bind.symm

/-- A double quote may stand inside a word. -/
theorem scan_open (w rest : List Byte) : scan more (.bare w) (doubleQuote :: rest) = scan more (.double w) rest :=
  scan_move _ rfl

/-! ## No byte comes from nowhere -/

/-- The bytes that a place still holds. -/
def Place.length : Place → Nat
  | between => 0
  | bare word | single word | double word => word.length
  | escaped word | doubleEscaped word => word.length + 1

/-- A byte lengthens a word by one at most. -/
theorem outside_length (moved : outside w c = some after) : after.length ≤ w.length + 1 := by
  unfold outside at moved
  split_ifs at moved
  · cases moved
    exact le_rfl
  · cases moved
    exact Nat.le_succ _
  · cases moved
    exact Nat.le_succ _
  · cases moved
    rw [Place.length, List.length_append, List.length_singleton]

/-- No byte makes more than one. -/
theorem step_length (moved : step more place c next = some (after, word)) :
    word.toList.flatten.length + after.length ≤ place.length + 1 := by
  cases place with
  | between =>
    simp only [step] at moved
    split_ifs at moved
    · cases moved
      exact Nat.zero_le _
    · obtain ⟨place, here, same⟩ := Option.map_eq_some_iff.1 moved
      cases same
      have short := outside_length here
      simpa [Place.length] using short
  | bare w =>
    simp only [step] at moved
    split_ifs at moved
    · cases moved
      simp [Place.length]
    · obtain ⟨place, here, same⟩ := Option.map_eq_some_iff.1 moved
      cases same
      have short := outside_length here
      simpa [Place.length] using short
  | escaped w =>
    simp only [step] at moved
    split_ifs at moved
    cases moved
    simp [Place.length]
  | single w =>
    cases moved
    split_ifs <;> simp [Place.length]
  | double w =>
    simp only [step] at moved
    split_ifs at moved <;> cases moved <;> simp [Place.length]
  | doubleEscaped w =>
    simp only [step] at moved
    split_ifs at moved
    · cases moved
      show 0 + w.length ≤ w.length + 1 + 1
      omega
    · cases moved
      simp [Place.length]
    · cases moved
      simp [Place.length]

/-- A byte adds one to the bytes of the words, at most. -/
theorem scan_cons_length {k : Nat} (read : scan more place (c :: rest) = some found)
    (behind : ∀ after words, scan more after rest = some words → words.flatten.length ≤ after.length + k) :
    found.flatten.length ≤ place.length + (k + 1) := by
  rw [scan_cons] at read
  obtain ⟨⟨after, word⟩, moved, later⟩ := Option.bind_eq_some_iff.1 read
  obtain ⟨words, there, same⟩ := Option.bind_eq_some_iff.1 later
  cases same
  have here : word.toList.flatten.length + after.length ≤ place.length + 1 := step_length moved
  have short := behind after words there
  show (word.toList ++ words).flatten.length ≤ _
  rw [List.flatten_append, List.length_append]
  omega

/-- The words of a text have no more bytes than the text. -/
theorem scan_length (read : scan more place rest = some found) :
    found.flatten.length ≤ place.length + rest.length := by
  induction rest generalizing place found with
  | nil =>
    cases place with
    | between =>
      cases read
      exact Nat.zero_le _
    | bare w =>
      cases read
      simp [Place.length]
    | escaped | single | double | doubleEscaped => cases read
  | cons c rest ih =>
    exact scan_cons_length read fun after words there => ih there

/-- A double quote at the end of the text is in no word, or a byte in front of it is not. -/
theorem scan_quote (read : scan more place (rest ++ [doubleQuote]) = some found) :
    found.flatten.length ≤ place.length + rest.length := by
  induction rest generalizing place found with
  | nil =>
    cases place with
    | between | bare | single | doubleEscaped => cases read
    | escaped w | double w =>
      cases read
      simp [Place.length]
  | cons c rest ih =>
    exact scan_cons_length read fun after words there => ih there

/-! ## Text in double quotes -/

/-- Stands for itself inside double quotes in front of the next byte. -/
def harmless (more : Byte → Bool) (c next : Byte) : Bool :=
  c != doubleQuote && !expands more c (some next) && !(c = backslash && (special next || next = newline))

/-- Every byte stands for itself between double quotes. -/
def quiet (more : Byte → Bool) : List Byte → Bool
  | [] => true
  | c :: rest => harmless more c (rest.headD doubleQuote) && quiet more rest

/-- The byte behind a text in quotes is its own first one, or the quote. -/
theorem head_quote (rest : List Byte) : (rest ++ [doubleQuote]).head? = some (rest.headD doubleQuote) := by
  cases rest <;> rfl

/-- A place that is too far behind a double quote at the end. -/
theorem scan_quote_ne (short : place.length + rest.length < w.length) :
    scan more place (rest ++ [doubleQuote]) ≠ some [w] := by
  intro read
  have long := scan_quote read
  rw [List.flatten_singleton] at long
  omega

/-- Inside double quotes only the quote, the backslash and what expands are not plain. -/
theorem harmless_of_ne (quote : c ≠ doubleQuote) (slash : c ≠ backslash) (d : Byte) :
    harmless more c d = !expands more c (some d) := by
  simp [harmless, quote, slash]

/-- A backslash stays in front of a byte that it does not escape. -/
theorem harmless_backslash (d : Byte) : harmless more backslash d = !(special d || d = newline) := rfl

/-- Every other byte is harmless. -/
theorem harmless_of_not_special (other : special c = false) (d : Byte) : harmless more c d = true := by
  simp only [special, Bool.or_eq_false_iff, decide_eq_false_iff_not] at other
  obtain ⟨⟨⟨noDollar, noBackquote⟩, noQuote⟩, noBackslash⟩ := other
  rw [harmless_of_ne noQuote noBackslash]
  simp [expands, noDollar, noBackquote]

/-- What is read up to the double quote behind `m` is `m` exactly where it is quiet. -/
def ReadsDouble (more : Byte → Bool) (m : List Byte) : Prop :=
  ∀ w, scan more (.double w) (m ++ [doubleQuote]) = some [w ++ m] ↔ quiet more m = true

/-- The same behind a backslash. -/
def ReadsEscaped (more : Byte → Bool) (m : List Byte) : Prop :=
  ∀ w, scan more (.doubleEscaped w) (m ++ [doubleQuote]) = some [w ++ backslash :: m] ↔
    harmless more backslash (m.headD doubleQuote) = true ∧ quiet more m = true

/-- One byte more inside double quotes. -/
theorem readsDouble_cons (double : ReadsDouble more m) (escaped : ReadsEscaped more m) : ReadsDouble more (c :: m) := by
  intro w
  rw [quiet, Bool.and_eq_true, List.cons_append]
  by_cases quote : c = doubleQuote
  · subst quote
    apply iff_of_false
    · rw [scan_move (.bare w) rfl]
      apply scan_quote_ne
      rw [Place.length, List.length_append, List.length_cons]
      omega
    · intro ⟨harm, _⟩
      cases harm
  by_cases slash : c = backslash
  · subst slash
    rw [scan_move (.doubleEscaped w) rfl]
    exact escaped w
  rw [harmless_of_ne quote slash]
  by_cases stops : expands more c (some (m.headD doubleQuote)) = true
  · have stopped : step more (.double w) c (m ++ [doubleQuote]).head? = none := by
      simp only [step, if_neg quote, if_neg slash, head_quote, if_pos stops]
    rw [scan_stop stopped, stops]
    exact iff_of_false (by rintro ⟨⟩) (by rintro ⟨⟨⟩, _⟩)
  · have moved : step more (.double w) c (m ++ [doubleQuote]).head? = some (.double (w ++ [c]), none) := by
      simp only [step, if_neg quote, if_neg slash, head_quote, if_neg stops]
    rw [scan_move _ moved, List.append_cons w c m, double, Bool.eq_false_of_not_eq_true stops]
    exact (and_iff_right rfl).symm

/-- One byte more behind a backslash. -/
theorem readsEscaped_cons (double : ReadsDouble more m) : ReadsEscaped more (c :: m) := by
  intro w
  rw [quiet, Bool.and_eq_true, List.cons_append, List.headD_cons, harmless_backslash]
  -- a backslash in front of these is taken off, and then a byte is missing
  by_cases line : c = newline
  · subst line
    apply iff_of_false
    · rw [scan_move (.double w) rfl]
      apply scan_quote_ne
      rw [Place.length, List.length_append, List.length_cons, List.length_cons]
      omega
    · intro ⟨harm, _⟩
      cases harm
  by_cases known : special c = true
  · have moved : step more (.doubleEscaped w) c (m ++ [doubleQuote]).head? = some (.double (w ++ [c]), none) := by
      simp only [step, if_neg line, if_pos known]
    rw [scan_move _ moved, known]
    apply iff_of_false
    · apply scan_quote_ne
      simp only [Place.length, List.length_append, List.length_cons, List.length_nil]
      omega
    · intro ⟨harm, _⟩
      cases harm
  · have moved : step more (.doubleEscaped w) c (m ++ [doubleQuote]).head? =
        some (.double (w ++ [backslash, c]), none) := by
      simp only [step, if_neg line, if_neg known]
    have other := Bool.eq_false_of_not_eq_true known
    have both : w ++ backslash :: c :: m = w ++ [backslash, c] ++ m := by simp
    rw [scan_move _ moved, both, double, other, harmless_of_not_special other, decide_eq_false line, Bool.or_self,
      Bool.not_false, and_iff_right rfl, and_iff_right rfl]

/-- Both for every text, together. -/
theorem reads (m : List Byte) : ReadsDouble more m ∧ ReadsEscaped more m := by
  induction m with
  | nil =>
    constructor
    · intro w
      rw [List.append_nil]
      exact iff_of_true rfl rfl
    · intro w
      apply iff_of_false
      · intro read
        cases read
      · intro ⟨harm, _⟩
        cases harm
  | cons c m ih => exact ⟨readsDouble_cons ih.1 ih.2, readsEscaped_cons ih.1⟩

/-- What is read between double quotes is what stands there exactly where it is quiet. -/
theorem scan_double_iff (w m : List Byte) :
    scan more (.double w) (m ++ [doubleQuote]) = some [w ++ m] ↔ quiet more m = true :=
  (reads m).1 w

end

end GtpLibrary.Lib.CommandText

import GtpLibrary.Morse.Morse

/-!
# What can be told from the signal

The length of a tone tells the symbol, and the length of the silence behind it whether the
letter goes on. So the signal gives back the codes of its letters (`decode_signal`), and two
texts sound the same exactly where their letters have the same codes, as far as the string that
holds them goes.
-/

namespace GtpLibrary.Morse

/-! ## The shape of a signal -/

/-- A symbol, the last one of a letter that is not the last or another. -/
abbrev Mark := Symbol × Bool

/-- The symbols of a letter; the last one is marked as told. -/
def markLetter (closing : Bool) : List Symbol → List Mark
  | [] => []
  | [symbol] => [(symbol, closing)]
  | symbol :: next :: rest => (symbol, false) :: markLetter closing (next :: rest)

/-- The symbols of letters one after the other. -/
def marks : List (List Symbol) → List Mark
  | [] => []
  | letter :: later => markLetter (later ≠ []) letter ++ marks later

def Symbol.tone : Symbol → Nat
  | punct => 300
  | linie => 900

def Symbol.gap : Symbol → Nat
  | punct => 800
  | linie => 500

/-- The tone of a symbol and the silence behind it. -/
def Mark.heard (mark : Mark) : List Heard :=
  [.tone 321 mark.1.tone, .silence (mark.1.gap + if mark.2 then 1000 else 0)]

/-- What is heard of a symbol inside a letter. -/
def Symbol.heard (symbol : Symbol) : List Heard := [.tone 321 symbol.tone, .silence symbol.gap]

/-- What is heard of letters, with the silences as they come. -/
def raw (letters : List (List Symbol)) : List Heard :=
  letters.flatMap fun letter => .silence 1000 :: letter.flatMap Symbol.heard

section
variable {a b : List Char} {symbols : List Symbol} {letters : List (List Symbol)}

theorem hear_symbols (symbols : List Symbol) (rest : List CrtCall) :
    hear none (symbols.flatMap Symbol.calls ++ rest) = symbols.flatMap Symbol.heard ++ hear none rest := by
  induction symbols with
  | nil => rfl
  | cons symbol symbols ih =>
    cases symbol with
    | punct | linie =>
      rw [List.flatMap_cons, List.flatMap_cons, List.append_assoc, List.append_assoc, ← ih]
      rfl

theorem hear_letters (a : List Char) : hear none (Morse.letters a) = raw (a.filterMap code) := by
  induction a with
  | nil => rfl
  | cons c a ih =>
    rw [Morse.letters, List.flatMap_cons, letter]
    cases coded : code c with
    | none =>
      rw [List.filterMap_cons_none coded]
      exact ih
    | some symbols =>
      rw [List.filterMap_cons_some coded, raw, List.flatMap_cons]
      show Heard.silence 1000 :: hear none (symbols.flatMap Symbol.calls ++ Morse.letters a) = _
      rw [hear_symbols, ih]
      rfl

/-- A silence in front of a tone. -/
theorem addUp_silence (ms : Nat) {hz length : Nat} {rest later : List Heard}
    (next : addUp rest = .tone hz length :: later) :
    addUp (.silence ms :: rest) = .silence ms :: .tone hz length :: later := by
  rw [addUp, next]

/-- What stands behind a letter: nothing, or the silence in front of another one. -/
def Behind (closing : Bool) (rest later : List Heard) : Prop :=
  if closing then addUp rest = .silence 1000 :: later else rest = [] ∧ later = []

/-- The marks of a letter begin with a tone. -/
theorem exists_tone (closing : Bool) (some : symbols ≠ []) :
    ∃ length more, (markLetter closing symbols).flatMap Mark.heard = .tone 321 length :: more := by
  cases symbols using markLetter.induct with
  | case1 => exact absurd rfl some
  | case2 symbol => exact ⟨_, _, rfl⟩
  | case3 symbol next rest => exact ⟨_, _, rfl⟩

/-- The silences of a letter, with what is heard behind it. -/
theorem addUp_letter {closing : Bool} {rest later : List Heard} (some : symbols ≠ [])
    (behind : Behind closing rest later) :
    addUp (symbols.flatMap Symbol.heard ++ rest) = (markLetter closing symbols).flatMap Mark.heard ++ later := by
  induction symbols using markLetter.induct with
  | case1 => exact absurd rfl some
  | case2 symbol =>
    cases closing with
    | true =>
      have silence : addUp rest = .silence 1000 :: later := behind
      show addUp (.tone 321 symbol.tone :: .silence symbol.gap :: rest) = _
      rw [addUp, addUp, silence]
      rfl
    | false =>
      obtain ⟨rfl, rfl⟩ : rest = [] ∧ later = [] := behind
      rfl
  | case3 symbol next more ih =>
    have within := ih (List.cons_ne_nil next more)
    obtain ⟨length, tail, tone⟩ := exists_tone closing (List.cons_ne_nil next more)
    rw [tone, List.cons_append] at within
    have here := addUp_silence symbol.gap within
    show addUp (.tone 321 symbol.tone :: .silence symbol.gap :: ((next :: more).flatMap Symbol.heard ++ rest)) = _
    rw [addUp, here, ← List.cons_append, ← tone]
    rfl

/-- Letters are heard as a silence and their marks. -/
theorem behind_raw (all : ∀ l ∈ letters, l ≠ []) :
    Behind (letters ≠ []) (raw letters) ((marks letters).flatMap Mark.heard) := by
  induction letters with
  | nil => exact ⟨rfl, rfl⟩
  | cons letter letters ih =>
    obtain ⟨some, others⟩ := List.forall_mem_cons.1 all
    have within := addUp_letter some (ih others)
    obtain ⟨length, tail, tone⟩ := exists_tone (letters ≠ []) some
    rw [tone, List.cons_append] at within
    show addUp (.silence 1000 :: (letter.flatMap Symbol.heard ++ raw letters)) = _
    rw [addUp_silence _ within, ← List.cons_append, ← tone, ← List.flatMap_append]
    rfl

/-! ## Decoding -/

/-- The marks of what is heard behind the first silence. -/
def readMarks : List Heard → List Mark
  | .tone _ length :: .silence pause :: rest =>
    (if length = 300 then .punct else .linie, 1000 ≤ pause) :: readMarks rest
  | _ => []

/-- The letters of the marks. -/
def readLetters : List Mark → List (List Symbol)
  | [] => []
  | (symbol, true) :: rest => [symbol] :: readLetters rest
  | (symbol, false) :: rest =>
    match readLetters rest with
    | [] => [[symbol]]
    | letter :: later => (symbol :: letter) :: later

/-- The codes of the letters of a signal. -/
def decode (heard : List Heard) : List (List Symbol) := readLetters (readMarks heard.tail)

theorem readMarks_heard (marks : List Mark) : readMarks (marks.flatMap Mark.heard) = marks := by
  induction marks with
  | nil => rfl
  | cons mark marks ih =>
    obtain ⟨symbol, closing⟩ := mark
    show (_, _) :: readMarks (marks.flatMap Mark.heard) = _
    rw [ih]
    cases symbol <;> cases closing <;> rfl

theorem readLetters_closed (some : symbols ≠ []) (rest : List Mark) :
    readLetters (markLetter true symbols ++ rest) = symbols :: readLetters rest := by
  induction symbols using markLetter.induct with
  | case1 => exact absurd rfl some
  | case2 symbol => rfl
  | case3 symbol next more ih =>
    show (match readLetters (markLetter true (next :: more) ++ rest) with
      | [] => [[symbol]]
      | letter :: later => (symbol :: letter) :: later) = _
    rw [ih (List.cons_ne_nil next more)]

theorem readLetters_last (some : symbols ≠ []) : readLetters (markLetter false symbols) = [symbols] := by
  induction symbols using markLetter.induct with
  | case1 => exact absurd rfl some
  | case2 symbol => rfl
  | case3 symbol next more ih =>
    show (match readLetters (markLetter false (next :: more)) with
      | [] => [[symbol]]
      | letter :: later => (symbol :: letter) :: later) = _
    rw [ih (List.cons_ne_nil next more)]

theorem readLetters_marks (all : ∀ l ∈ letters, l ≠ []) : readLetters (marks letters) = letters := by
  induction letters with
  | nil => rfl
  | cons letter letters ih =>
    obtain ⟨some, others⟩ := List.forall_mem_cons.1 all
    cases letters with
    | nil =>
      show readLetters (markLetter false letter ++ []) = _
      rw [List.append_nil, readLetters_last some]
    | cons next letters =>
      show readLetters (markLetter true letter ++ marks (next :: letters)) = _
      rw [readLetters_closed some, ih others]

theorem code_ne_nil {c : Char} {symbols : List Symbol} (coded : code c = some symbols) : symbols ≠ [] := by
  unfold code at coded
  split at coded <;> cases coded <;> exact List.cons_ne_nil _ _

/-- **A signal gives back the codes of its letters.** -/
theorem decode_signal (line : List Char) : decode (signal line) = (readln line).filterMap code := by
  have all : ∀ letter ∈ (readln line).filterMap code, letter ≠ [] := by
    intro letter member
    obtain ⟨c, -, coded⟩ := List.mem_filterMap.1 member
    exact code_ne_nil coded
  have heard := behind_raw all
  rw [signal, main, hear_letters, decode]
  cases letters : (readln line).filterMap code with
  | nil => rfl
  | cons letter later =>
    rw [letters] at heard all
    have whole : addUp (raw (letter :: later)) = .silence 1000 :: (marks (letter :: later)).flatMap Mark.heard := heard
    rw [whole, List.tail_cons, readMarks_heard, readLetters_marks all]

/-- Lines sound the same exactly where the letters that are read of them have the same codes. -/
theorem signal_eq_iff (a b : List Char) :
    signal a = signal b ↔ (readln a).filterMap code = (readln b).filterMap code := by
  constructor
  · intro same
    rw [← decode_signal, ← decode_signal, same]
  · intro same
    rw [signal, signal, main, main, hear_letters, hear_letters, same]

end

/-! ## The code table -/

/-- A character that has a code. -/
abbrev Letter := { c : Char // c ∈ supported }

/-- Each `y` read as an `x`. -/
def asX (c : Char) : Char := if c = 'y' then 'x' else c

/-- The first character with a code. -/
def letterOf (symbols : List Symbol) : Option Char := supported.find? fun c => code c = some symbols

theorem letterOf_code (c : Letter) : (code c).bind letterOf = some (asX c) := by
  have each : supported.all (fun c => (code c).bind letterOf = some (asX c)) = true := by decide
  exact of_decide_eq_true (List.all_eq_true.1 each c c.2)

theorem code_asX (c : Char) : code (asX c) = code c := by
  unfold asX
  split_ifs with same
  · rw [same]
    rfl
  · rfl

/-- The characters of a text over the supported characters. -/
def text (letters : List Letter) : List Char := letters.map Subtype.val

theorem filterMap_code (a : List Char) : (a.map asX).filterMap code = a.filterMap code := by
  rw [List.filterMap_map]
  congr 1
  exact funext code_asX

/-- The codes of a text give back the text with each `y` read as an `x`. -/
theorem filterMap_letterOf (t : List Letter) : ((text t).filterMap code).filterMap letterOf = (text t).map asX := by
  induction t with
  | nil => rfl
  | cons c t ih =>
    obtain ⟨symbols, coded, found⟩ := Option.bind_eq_some_iff.1 (letterOf_code c)
    show ((c.1 :: text t).filterMap code).filterMap letterOf = asX c :: (text t).map asX
    rw [List.filterMap_cons_some coded, List.filterMap_cons_some found, ih]

theorem readln_text (t : List Letter) : readln (text t) = text (t.take 255) := List.map_take.symm

/-- Two different texts sound different exactly where what is read of them still differs with each `y` read as an `x`. -/
theorem signal_ne_iff (t u : List Letter) :
    (t ≠ u → signal (text t) ≠ signal (text u)) ↔
      (t = u ∨ ((text t).take 255).map asX ≠ ((text u).take 255).map asX) := by
  have sound : signal (text t) = signal (text u) ↔ (readln (text t)).map asX = (readln (text u)).map asX := by
    rw [signal_eq_iff]
    constructor
    · intro same
      rw [readln_text, readln_text] at same ⊢
      rw [← filterMap_letterOf, ← filterMap_letterOf, same]
    · intro same
      rw [← filterMap_code (readln (text t)), ← filterMap_code (readln (text u)), same]
  rw [Ne, Ne, sound, or_iff_not_imp_left]
  rfl

/-- `x` and `y` have one code. -/
theorem signal_x_y : ¬ ∀ t u : List Letter, t ≠ u → signal (text t) ≠ signal (text u) := by
  intro distinct
  apply distinct [⟨'x', by decide⟩] [⟨'y', by decide⟩]
  · decide
  · decide

end GtpLibrary.Morse

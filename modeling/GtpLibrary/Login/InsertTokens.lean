import GtpLibrary.Lib.Checks
import GtpLibrary.Login.CreateAnAccount
import GtpLibrary.Login.InsertText

/-!
# The tokens of the `insert`

`insertText_eq` gives the text of the statement for the columns and values of `buildInsert`,
`tokens_statement` what the lexer makes of it, and `readInsert_statement` what is read: each name
and each value on its own.
-/

namespace GtpLibrary.Login

open Lib

/-- An entry of the value list as it is written. -/
def SqlValue.sql : SqlValue → List Byte
  | .text s => byte '"' :: (addslashes s ++ [byte '"'])
  | .number printed => printed
  | .now => Lib.text "NOW()"

/-- The list with its closing bracket in place of the last comma. -/
def closed (items : List (List Byte)) : List Byte := (items.flatMap (· ++ text ",")).dropLast ++ text ")"

/-- The token of a numeral without its sign. -/
def digitsToken (n : List Byte) : Sql.Token :=
  if isDecimal n then .number n else if n.take 2 = text "0x" then .hexadecimal (n.drop 2) else .word n

/-- The sign of a number is a token of its own. -/
def signTokens : List Byte → List Sql.Token
  | c :: _ => if Sql.isSign c then [.symbol c] else []
  | [] => []

/-- The tokens of a number. -/
def numberTokens (printed : List Byte) : List Sql.Token :=
  let p := printed.dropWhile isPhpSpace
  signTokens p ++ [digitsToken (dropSign p)]

/-- The tokens of a value. -/
def SqlValue.tokens : SqlValue → List Sql.Token
  | .text s => [.string s]
  | .number printed => numberTokens printed
  | .now => [.call (Lib.text "NOW"), .symbol (byte '('), .symbol (byte ')')]

/-- The statement as one text. -/
def Insert.statement (insert : Insert) : List Byte :=
  insertHead ++ closed (insert.map Prod.fst) ++ text "value(" ++ closed ((insert.map Prod.snd).map SqlValue.sql) ++
    text ";"

section
variable {properties : List (Name × PhpValue)} {params : Params} {insert : Insert}

/-! ## The loops -/

/-- The loop over the names appends one after the other, or stops at one that is refused. -/
theorem appendColumns_eq (query : List Byte) (properties : List (Name × PhpValue)) :
    appendColumns query properties =
      (properties.mapM columnEntry).map fun names => query ++ names.flatMap (· ++ text ",") := by
  induction properties generalizing query with
  | nil => simp [appendColumns, pure, Except.pure, Except.map]
  | cons property rest ih =>
    rw [appendColumns, List.mapM_cons]
    by_cases alpha : ctypeAlpha property.1 = true
    · rw [if_pos alpha, ih, columnEntry, if_pos alpha]
      cases rest.mapM columnEntry with
      | error code => rfl
      | ok names => simp [bind, Except.bind, Except.map, pure, Except.pure]
    · rw [if_neg alpha, columnEntry, if_neg alpha]
      rfl

/-- A value is appended as it is written, with a comma. -/
theorem valueText_eq (property : Name × PhpValue) :
    valueText property.2 = (valueEntry property).map fun value => value.sql ++ text "," := by
  unfold valueText valueEntry
  cases property.2 with
  | string s =>
    show Except.ok (text "\"" ++ addslashes s ++ text "\",") =
      Except.ok (byte '"' :: (addslashes s ++ [byte '"']) ++ text ",")
    rw [List.cons_append, List.append_assoc, List.append_assoc]
    rfl
  | objectWith value =>
    by_cases numeric : isNumeric value = true
    · simp only [if_pos numeric]
      rfl
    · by_cases now : looselyNow value = true
      · simp only [if_neg numeric, if_pos now]
        rfl
      · simp only [if_neg numeric, if_neg now]
        rfl
  | _ => rfl

/-- The loop over the values, likewise. -/
theorem appendValues_eq (query : List Byte) (properties : List (Name × PhpValue)) :
    appendValues query properties =
      (properties.mapM valueEntry).map fun values => query ++ values.flatMap fun value => value.sql ++ text "," := by
  induction properties generalizing query with
  | nil => simp [appendValues, pure, Except.pure, Except.map]
  | cons property rest ih =>
    rw [appendValues, List.mapM_cons, valueText_eq]
    cases valueEntry property with
    | error code => rfl
    | ok value =>
      simp only [Except.map, ih]
      cases rest.mapM valueEntry with
      | error code => rfl
      | ok values => simp [bind, Except.bind, pure, Except.pure]

/-- The last comma is taken away, and the bracket closed. -/
theorem dropLast_closed (query : List Byte) {items : List (List Byte)} (some : items ≠ []) (behind : List Byte) :
    (query ++ items.flatMap (· ++ text ",")).dropLast ++ (text ")" ++ behind) = query ++ closed items ++ behind := by
  have filled : items.flatMap (· ++ text ",") ≠ [] := by
    obtain ⟨item, rest, rfl⟩ := List.exists_cons_of_ne_nil some
    simp [text]
  rw [List.dropLast_append_of_ne_nil filled, closed]
  simp only [List.append_assoc]

/-- The loops write the columns and the values of `buildInsert`. -/
theorem insertText_eq (some : params.properties ≠ []) :
    insertText params = (buildInsert params).map Insert.statement := by
  rw [insertText, buildInsert, appendColumns_eq]
  cases columns : params.properties.mapM columnEntry with
  | error code => rfl
  | ok names =>
    simp only [bind, Except.bind, Except.map, appendValues_eq]
    cases found : params.properties.mapM valueEntry with
    | error code => rfl
    | ok values =>
      have names_length := (mapM_ok columns).length_eq
      have values_length := (mapM_ok found).length_eq
      have names_some : names ≠ [] := by
        rintro rfl
        exact some (List.length_eq_zero_iff.1 names_length)
      have values_some : values.map SqlValue.sql ≠ [] := by
        intro none
        rw [List.map_eq_nil_iff.1 none] at values_length
        exact some (List.length_eq_zero_iff.1 values_length)
      have firsts : (names.zip values).map Prod.fst = names := List.map_fst_zip (by omega)
      have seconds : (names.zip values).map Prod.snd = values := List.map_snd_zip (by omega)
      have texts : values.flatMap (fun value => value.sql ++ text ",") =
          (values.map SqlValue.sql).flatMap (· ++ text ",") := by
        rw [List.flatMap_map]
      have front := dropLast_closed insertHead names_some (text "value(")
      have whole := dropLast_closed (insertHead ++ closed names ++ text "value(") values_some (text ";")
      simp only [pure, Except.pure, Insert.statement, firsts, seconds, texts]
      rw [show text ")value(" = text ")" ++ text "value(" from rfl, front,
        show text ");" = text ")" ++ text ";" from rfl, whole]

/-! ## Strings and numbers -/

/-- A string whose quotes are escaped is read back as it was. -/
theorem quoted_addslashes (s : List Byte) {behind : List Byte} (other : behind.head? ≠ some (byte '"')) :
    Sql.quoted (byte '"') (addslashes s ++ byte '"' :: behind) = some (s, behind) := by
  induction s with
  | nil => exact Sql.quoted_end other
  | cons c rest ih =>
    have later : addslashes rest ++ byte '"' :: behind ≠ [] := by simp
    rw [addslashes, List.flatMap_cons, ← addslashes, List.append_assoc]
    by_cases zero : c = 0
    · subst zero
      rw [if_pos rfl, List.cons_append, List.cons_append, List.nil_append, Sql.quoted_escape (by decide), ih]
      rfl
    · rw [if_neg zero]
      by_cases special : c = byte '"' ∨ c = 0x27 ∨ c = byte '\\'
      · have kept : Sql.escaped c = [c] := by
          rcases special with rfl | rfl | rfl <;> rfl
        rw [if_pos special, List.cons_append, List.cons_append, List.nil_append, Sql.quoted_escape (by decide), ih,
          kept]
        rfl
      · rw [if_neg special, List.cons_append, List.nil_append,
          Sql.quoted_plain (fun same => special (.inl same)) (fun same => special (.inr (.inr same))) later, ih]
        rfl

/-- The server and PHP take the same sign off. -/
theorem unsigned_eq_dropSign (s : List Byte) : Sql.unsigned s = dropSign s := by
  obtain _ | ⟨c, s⟩ := s
  · rfl
  · by_cases signed : Sql.isSign c = true
    · have dropped : dropSign (c :: s) = s := if_pos signed
      simp [Sql.unsigned, Sql.sign, signed, dropped]
    · have dropped : dropSign (c :: s) = c :: s := if_neg signed
      simp [Sql.unsigned, Sql.sign, signed, dropped]

/-- An exponent that is one to PHP is one to the server. -/
theorem exponent_eq_self {e : List Byte} (whole : isExponent e = true) : Sql.exponent e = e := by
  obtain _ | ⟨c, s⟩ := e
  · rfl
  · simp only [isExponent, Bool.and_eq_true, decide_eq_true_eq] at whole
    obtain ⟨⟨letter, some⟩, all⟩ := whole
    have letter : Sql.isExponentByte c = true := letter
    have first : (dropSign s).head?.any Sql.isDigit = true := by
      obtain ⟨d, rest, same⟩ := List.exists_cons_of_ne_nil some
      rw [same] at all ⊢
      exact List.all_eq_true.1 all d List.mem_cons_self
    have digits : (dropSign s).takeWhile Sql.isDigit = dropSign s :=
      List.takeWhile_eq_self_iff.2 (List.all_eq_true.1 all)
    have parts := Sql.sign_append_unsigned s
    rw [unsigned_eq_dropSign] at parts
    rw [Sql.exponent, unsigned_eq_dropSign, letter, first, digits, parts]
    rfl

/-- A decimal number of PHP is a numeral of the server. -/
theorem isNumeral_of_isDecimal {n : List Byte} (decimal : isDecimal n = true) : Sql.isNumeral n = true := by
  have parts : n.takeWhile Sql.isDigit ++ n.dropWhile Sql.isDigit = n := List.takeWhile_append_dropWhile
  rw [isDecimal] at decimal
  rw [Sql.isNumeral, Bool.and_eq_true, decide_eq_true_eq, Sql.numeral]
  cases rest : n.dropWhile Sql.isDigit with
  | nil =>
    have rest' : n.dropWhile isDigit = [] := rest
    rw [rest', decide_eq_true_eq] at decimal
    obtain ⟨c, tail, rfl⟩ := List.exists_cons_of_ne_nil decimal
    have first : Sql.isDigit c = true := List.dropWhile_eq_nil_iff.1 rest c List.mem_cons_self
    exact ⟨rfl, by simp [Sql.startsNumber, first]⟩
  | cons c fraction =>
    have rest' : n.dropWhile isDigit = c :: fraction := rest
    rw [rest] at parts
    rw [rest'] at decimal
    by_cases point : c = byte '.'
    · simp only [if_pos point, Bool.and_eq_true, Bool.or_eq_true] at decimal
      have power : Sql.exponent (fraction.dropWhile Sql.isDigit) = fraction.dropWhile Sql.isDigit :=
        exponent_eq_self decimal.2
      constructor
      · simp only [if_pos point, power, List.takeWhile_append_dropWhile]
        exact parts
      · obtain _ | ⟨e, tail⟩ := n
        · cases rest
        · by_cases digit : Sql.isDigit e = true
          · simp [Sql.startsNumber, digit]
          · rw [List.dropWhile_cons, if_neg digit] at rest
            obtain ⟨rfl, rfl⟩ := List.cons.inj rest
            have first : tail.head?.any Sql.isDigit = true := decimal.1.resolve_left digit
            simp [Sql.startsNumber, point, List.head?_eq_getElem?] at first ⊢
            exact .inr first
    · simp only [if_neg point, Bool.and_eq_true] at decimal
      have power : Sql.exponent (c :: fraction) = c :: fraction := exponent_eq_self decimal.2
      constructor
      · simp only [if_neg point, power]
        exact parts
      · have first : n.head?.any Sql.isDigit = true := decimal.1
        rw [Sql.startsNumber, first]
        rfl

/-- The shape of a numeral to the base 16. -/
theorem exists_of_isHexadecimal {n : List Byte} (hexadecimal : isHexadecimal n = true) :
    ∃ x s, n = byte '0' :: x :: s ∧ (x = byte 'x' ∨ x = byte 'X') ∧ s ≠ [] ∧ s.all Sql.isHexDigit = true := by
  obtain _ | ⟨zero, _ | ⟨x, s⟩⟩ := n
  · cases hexadecimal
  · cases hexadecimal
  · simp only [isHexadecimal, Bool.and_eq_true, Bool.or_eq_true, decide_eq_true_eq] at hexadecimal
    obtain ⟨⟨⟨rfl, letter⟩, some⟩, all⟩ := hexadecimal
    exact ⟨x, s, rfl, letter, some, all⟩

/-- What a numeric value may be behind its blanks and its sign. -/
def Digits (n : List Byte) : Prop :=
  isDecimal n = true ∨ isHexadecimal n = true ∨ n = text "INF" ∨ n = text "NAN"

/-- A hexadecimal digit could stand in a name. -/
theorem isNameByte_of_isHexDigit : ∀ c : Byte, Sql.isHexDigit c = true → Sql.isNameByte c = true := by decide

/-- A sign is read as a symbol. -/
theorem isSymbol_of_isSign : ∀ c : Byte, Sql.isSign c = true → Sql.isSymbol c = true ∧ c ≠ byte '.' := by decide

/-- The character behind an entry is a token, and ends a name and a numeral. -/
theorem lexes_stop {d : Byte} (stop : d = byte ',' ∨ d = byte ')') :
    Sql.Lexes [d] [.symbol d] ∧ Sql.isNameByte d = false ∧ d ≠ byte '.' ∧ d ≠ byte '(' := by
  have facts : Sql.isSymbol d = true ∧ d ≠ byte '-' ∧ Sql.isNameByte d = false ∧ d ≠ byte '.' ∧ d ≠ byte '(' := by
    rcases stop with rfl | rfl <;> decide
  obtain ⟨symbol, dash, others⟩ := facts
  exact ⟨Sql.lexes_symbol symbol others.2.1 dash, others⟩

/-- Digits are one token, up to the comma or bracket behind them. -/
theorem lexes_digits {n : List Byte} (digits : Digits n) {d : Byte} (stop : d = byte ',' ∨ d = byte ')') :
    Sql.Lexes (n ++ [d]) [digitsToken n, .symbol d] := by
  obtain ⟨closing, name, point, bracket⟩ := lexes_stop stop
  rw [digitsToken]
  by_cases decimal : isDecimal n = true
  · have whole := isNumeral_of_isDecimal decimal
    rw [if_pos decimal]
    exact closing.number (Bool.and_eq_true_iff.1 whole).2 fun behind => Sql.number_append whole name point behind
  · rw [if_neg decimal]
    rcases digits with digits | digits | rfl | rfl
    · exact absurd digits decimal
    · obtain ⟨x, s, rfl, rfl | rfl, some, all⟩ := exists_of_isHexadecimal digits
      · have two : (byte '0' :: byte 'x' :: s).take 2 = text "0x" := rfl
        rw [if_pos two]
        exact closing.number rfl fun behind => Sql.number_hexadecimal some all name behind
      · have two : (byte '0' :: byte 'X' :: s).take 2 ≠ text "0x" := by
          intro same
          exact absurd same (by decide : [byte '0', byte 'X'] ≠ text "0x")
        have names : s.all Sql.isNameByte = true := List.all_eq_true.2 fun c member =>
          isNameByte_of_isHexDigit c (List.all_eq_true.1 all c member)
        rw [if_neg two]
        exact closing.number rfl fun behind => Sql.number_name (by decide) (by decide) names name bracket behind
    · exact closing.word (by decide) name bracket
    · exact closing.word (by decide) name bracket

/-- Digits do not begin with a minus sign, so that no comment begins there. -/
theorem Digits.exists_head {n : List Byte} (digits : Digits n) : ∃ c rest, n = c :: rest ∧ c ≠ byte '-' := by
  have other : ∀ c rest, (Sql.startsNumber (c :: rest) = true ∨ c = byte 'I' ∨ c = byte 'N') → c ≠ byte '-' := by
    rintro c rest start rfl
    rcases start with start | same | same
    · cases start
    · exact absurd same (by decide)
    · exact absurd same (by decide)
  rcases digits with decimal | hexadecimal | rfl | rfl
  · have start : Sql.startsNumber n = true := (Bool.and_eq_true_iff.1 (isNumeral_of_isDecimal decimal)).2
    obtain _ | ⟨c, rest⟩ := n
    · cases start
    · exact ⟨c, rest, rfl, other c rest (.inl start)⟩
  · obtain ⟨x, s, rfl, -⟩ := exists_of_isHexadecimal hexadecimal
    exact ⟨byte '0', x :: s, rfl, by decide⟩
  · exact ⟨byte 'I', text "NF", rfl, by decide⟩
  · exact ⟨byte 'N', text "AN", rfl, by decide⟩

/-- Blanks in front of a number are passed over. -/
theorem lexes_padded {t : List Byte} {read : List Sql.Token} (s : List Byte)
    (rest : Sql.Lexes (s.dropWhile isPhpSpace ++ t) read) : Sql.Lexes (s ++ t) read := by
  induction s with
  | nil => exact rest
  | cons c s ih =>
    rw [List.dropWhile_cons] at rest
    split at rest
    · rename_i blank
      exact (ih rest).blank blank
    · exact rest

/-- A number is its sign and its digits. -/
theorem lexes_number {printed : List Byte} (digits : Digits (dropSign (printed.dropWhile isPhpSpace))) {d : Byte}
    (stop : d = byte ',' ∨ d = byte ')') : Sql.Lexes (printed ++ [d]) (numberTokens printed ++ [.symbol d]) := by
  apply lexes_padded
  have lexes := lexes_digits digits stop
  rw [numberTokens]
  obtain ⟨first, rest, same, dash⟩ := digits.exists_head
  cases p : printed.dropWhile isPhpSpace with
  | nil => rw [p] at same; cases same
  | cons c s =>
    rw [p] at lexes same
    by_cases signed : Sql.isSign c = true
    · have dropped : dropSign (c :: s) = s := if_pos signed
      rw [dropped] at lexes same
      subst same
      have symbol : Sql.isSymbol c = true ∧ c ≠ byte '.' := isSymbol_of_isSign c signed
      simp only [signTokens, signed, if_true, dropped]
      exact lexes.symbol symbol.1 (fun point => absurd point symbol.2) fun _ => dash
    · have dropped : dropSign (c :: s) = c :: s := if_neg signed
      rw [dropped] at lexes
      simp only [signTokens, signed, dropped]
      exact lexes

/-- What a value of the statement is made of. -/
def SqlValue.Readable : SqlValue → Prop
  | .number printed => Digits (dropSign (printed.dropWhile isPhpSpace))
  | _ => True

/-- Each value is read as its own tokens. -/
theorem SqlValue.lexes {value : SqlValue} (readable : value.Readable) {d : Byte}
    (stop : d = byte ',' ∨ d = byte ')') : Sql.Lexes (value.sql ++ [d]) (value.tokens ++ [.symbol d]) := by
  have closing := (lexes_stop stop).1
  cases value with
  | text s =>
    have quote : d ≠ byte '"' := by
      rcases stop with rfl | rfl <;> decide
    have string := closing.string (s := addslashes s ++ [byte '"']) (v := s) fun behind => by
      rw [List.append_assoc]
      exact quoted_addslashes s fun same => quote (Option.some.inj same)
    exact string
  | number printed => exact lexes_number readable stop
  | now =>
    have bracket := closing.symbol (c := byte ')') (by decide) (fun same => absurd same (by decide)) fun same =>
      absurd same (by decide)
    have brackets := bracket.symbol (c := byte '(') (by decide) (by decide) (by decide)
    exact brackets.name (w := Lib.text "NOW") (by decide) (by decide)

/-! ## Lists -/

/-- A list with commas, from its front. -/
theorem closed_cons (item : List Byte) {items : List (List Byte)} (some : items ≠ []) :
    closed (item :: items) = item ++ text "," ++ closed items := by
  have filled : items.flatMap (· ++ text ",") ≠ [] := by
    obtain ⟨item, rest, rfl⟩ := List.exists_cons_of_ne_nil some
    simp [text]
  rw [closed, closed, List.flatMap_cons, List.dropLast_append_of_ne_nil filled, List.append_assoc]

/-- A list in brackets is read element by element. -/
theorem lexes_closed {α : Type} {f : α → List Byte} {g : α → List Sql.Token} {items : List α} (some : items ≠ [])
    (each : ∀ item ∈ items, ∀ d, d = byte ',' ∨ d = byte ')' → Sql.Lexes (f item ++ [d]) (g item ++ [.symbol d])) :
    Sql.Lexes (closed (items.map f)) ([comma].intercalate (items.map g) ++ [bracket]) := by
  induction items with
  | nil => exact absurd rfl some
  | cons item items ih =>
    have first := each item List.mem_cons_self
    cases items with
    | nil =>
      have last := first (byte ')') (.inr rfl)
      have one : closed [f item] = f item ++ [byte ')'] := by
        rw [closed, List.flatMap_singleton, List.dropLast_append_of_ne_nil (by decide)]
        simp [text]
      rw [List.map_singleton, List.map_singleton, one, List.intercalate_singleton]
      exact last
    | cons next items =>
      have later := ih (by simp) fun other member => each other (List.mem_cons_of_mem _ member)
      have both := (first (byte ',') (.inl rfl)).append later
      have many : (next :: items).map g ≠ [] := by simp
      rw [List.map_cons, closed_cons (f item) (by simp), List.map_cons (f := g), List.intercalate_cons_of_ne_nil many,
        List.append_assoc (g item ++ [comma])]
      exact both

/-! ## The statement -/

/-- The fixed part in front of the columns. -/
theorem lexes_head : Sql.Lexes insertHead headTokens :=
  Sql.lexes_spelled [(text "insert", byte ' '), (text "into", byte ' '), (text "partner4_invatamatero", byte '.'),
    (text "utilizatori", byte '(')] (by decide)

/-- An alphabetic name is a name of the server. -/
theorem isName_of_ctypeAlpha {name : Name} (alpha : ctypeAlpha name = true) : Sql.isName name = true := by
  have letters : ∀ c : Byte, (inRange 'A' 'Z' c || inRange 'a' 'z' c) = true →
      Sql.isDigit c = false ∧ Sql.isNameByte c = true := by decide
  simp only [ctypeAlpha, Bool.and_eq_true, decide_eq_true_eq] at alpha
  obtain ⟨some, all⟩ := alpha
  obtain ⟨c, rest, rfl⟩ := List.exists_cons_of_ne_nil some
  have all := List.all_eq_true.1 all
  have names : (c :: rest).all Sql.isNameByte = true := List.all_eq_true.2 fun d member => (letters d (all d member)).2
  rw [Sql.isName, names, Bool.and_true, List.head?_cons, Option.any_some, (letters c (all c List.mem_cons_self)).1]
  rfl

/-- The columns with commas between them. -/
def Insert.columnTokens (insert : Insert) : List Sql.Token :=
  [comma].intercalate ((insert.map Prod.fst).map fun w => [.word w])

/-- The values with commas between them. -/
def Insert.valueTokens (insert : Insert) : List Sql.Token :=
  [comma].intercalate ((insert.map Prod.snd).map SqlValue.tokens)

/-- The statement is read as its parts, one after the other. -/
theorem tokens_statement (some : insert ≠ []) (alpha : ∀ name ∈ insert.map Prod.fst, ctypeAlpha name = true)
    (readable : ∀ value ∈ insert.map Prod.snd, value.Readable) :
    Sql.tokens insert.statement =
      Option.some (headTokens ++ (insert.columnTokens ++ (betweenTokens ++ (insert.valueTokens ++ endTokens)))) := by
  have columns : Sql.Lexes (closed ((insert.map Prod.fst).map id)) (insert.columnTokens ++ [bracket]) := by
    apply lexes_closed (by simpa using some)
    intro name member d stop
    obtain ⟨closing, other, -, bracket⟩ := lexes_stop stop
    exact closing.word (isName_of_ctypeAlpha (alpha name member)) other bracket
  have values : Sql.Lexes (closed ((insert.map Prod.snd).map SqlValue.sql)) (insert.valueTokens ++ [bracket]) := by
    apply lexes_closed (by simpa using some)
    intro value member d stop
    exact SqlValue.lexes (readable value member) stop
  have between : Sql.Lexes (text "value(") [.call (text "value"), .symbol (byte '(')] :=
    Sql.lexes_spelled [(text "value", byte '(')] (by decide)
  have last : Sql.Lexes (text ";") [.symbol (byte ';')] := Sql.lexes_symbol (by decide) (by decide) (by decide)
  have whole := ((((lexes_head.append columns).append between).append values).append last) []
  rw [List.map_id, List.append_nil] at whole
  rw [Insert.statement, whole]
  simp [betweenTokens, endTokens, Sql.tokens, Sql.lex]

/-- A column token is a name or a comma. -/
theorem Insert.columnTokens_ne_bracket {token : Sql.Token} (member : token ∈ insert.columnTokens) :
    token ≠ bracket := by
  have each : ∀ names : List Name, ∀ token ∈ [comma].intercalate (names.map fun w => [Sql.Token.word w]),
      token ≠ bracket := by
    intro names
    induction names with
    | nil => simp
    | cons name names ih =>
      intro token member
      cases names with
      | nil =>
        obtain rfl : token = .word name := by simpa using member
        exact Sql.Token.noConfusion
      | cons next names =>
        rw [List.map_cons, List.intercalate_cons_of_ne_nil (by simp), List.append_assoc] at member
        rcases List.mem_cons.1 member with rfl | member
        · exact Sql.Token.noConfusion
        · rcases List.mem_cons.1 member with rfl | member
          · decide
          · exact ih token member
  exact each _ token member

/-- No value has a comma as a token, so that commas part the values. -/
theorem SqlValue.comma_not_mem_tokens (value : SqlValue) : comma ∉ value.tokens := by
  intro member
  cases value with
  | text s => simp [SqlValue.tokens, comma] at member
  | now => exact absurd member (by decide)
  | number printed =>
    rcases List.mem_append.1 member with sign | digits
    · generalize printed.dropWhile isPhpSpace = p at sign
      obtain _ | ⟨c, s⟩ := p
      · cases sign
      · rw [signTokens] at sign
        split at sign
        · rename_i signed
          obtain rfl : c = byte ',' := by simpa [comma, eq_comm] using sign
          exact absurd signed (by decide)
        · cases sign
    · have digits := (List.mem_singleton.1 digits)
      rw [digitsToken] at digits
      split at digits
      · cases digits
      · split at digits <;> cases digits

/-- What the server reads of the statement: the columns and the values that were put in. -/
theorem readInsert_statement (dialect : Dialect) (some : insert ≠ [])
    (alpha : ∀ name ∈ insert.map Prod.fst, ctypeAlpha name = true)
    (readable : ∀ value ∈ insert.map Prod.snd, value.Readable) :
    readInsert dialect insert.statement =
      ((insert.map Prod.fst).mapM fun name => column dialect [.word name]).bind fun columns =>
        ((insert.map Prod.snd).mapM fun value => literal dialect value.tokens).bind fun values =>
          Option.some (columns, values) := by
  have front : (insert.columnTokens ++ (betweenTokens ++ (insert.valueTokens ++ endTokens))).takeWhile (· ≠ bracket) =
      insert.columnTokens := by
    rw [List.takeWhile_append_of_pos fun token member => by simpa using Insert.columnTokens_ne_bracket member]
    simp [betweenTokens]
  have back : (insert.columnTokens ++ (betweenTokens ++ (insert.valueTokens ++ endTokens))).dropWhile (· ≠ bracket) =
      betweenTokens ++ (insert.valueTokens ++ endTokens) := by
    rw [List.dropWhile_append_of_pos fun token member => by simpa using Insert.columnTokens_ne_bracket member]
    simp [betweenTokens]
  have ends : (insert.valueTokens ++ endTokens).dropSuffix? endTokens = Option.some insert.valueTokens :=
    List.dropSuffix?_eq_some_iff.2 ⟨endTokens, rfl, beq_self_eq_true _⟩
  have columns : insert.columnTokens.splitOn comma = (insert.map Prod.fst).map fun w => [.word w] := by
    apply List.splitOn_intercalate
    · intro tokens member
      obtain ⟨name, -, rfl⟩ := List.mem_map.1 member
      simp [comma]
    · simpa using some
  have values : insert.valueTokens.splitOn comma = (insert.map Prod.snd).map SqlValue.tokens := by
    apply List.splitOn_intercalate
    · intro tokens member
      obtain ⟨value, -, rfl⟩ := List.mem_map.1 member
      exact value.comma_not_mem_tokens
    · simpa using some
  rw [readInsert, tokens_statement some alpha readable]
  simp only [Option.bind_eq_bind, Option.bind_some,
    List.dropPrefix?_append_of_beq _ (beq_self_eq_true headTokens), front, back,
    List.dropPrefix?_append_of_beq _ (beq_self_eq_true betweenTokens), ends, columns, values,
    List.mapM_map]
  rfl

end

end GtpLibrary.Login

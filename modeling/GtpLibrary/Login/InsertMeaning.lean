import GtpLibrary.Login.InsertTokens

/-!
# What the `insert` means

The checks of the loops and the literals of the statement, property by property. Where a check
refuses one, nothing is sent; else the statement reads as asked for if each value does, which is
`entryLiteral_iff`.
-/

namespace GtpLibrary.Login

open Lib

section
variable {dialect : Dialect} {properties : List (Name × PhpValue)} {params : Params} {insert : Insert}

/-! ## One property -/

theorem digitsToken_cases (n : List Byte) :
    (isDecimal n = true ∧ digitsToken n = .number n) ∨
      (isDecimal n ≠ true ∧ ((∃ digits, digitsToken n = .hexadecimal digits) ∨ ∃ w, digitsToken n = .word w)) := by
  rw [digitsToken]
  by_cases decimal : isDecimal n = true
  · exact .inl ⟨decimal, if_pos decimal⟩
  · rw [if_neg decimal]
    split
    · exact .inr ⟨decimal, .inl ⟨_, rfl⟩⟩
    · exact .inr ⟨decimal, .inr ⟨_, rfl⟩⟩

theorem numberLiteral_iff {negative : Bool} {n : List Byte} {q : ℚ} :
    numberLiteral dialect negative n = some (.number q) ↔
      dialect.held n = true ∧ (if negative then -decimalValue n else decimalValue n) = q := by
  cases held : dialect.held n <;> simp [numberLiteral, held]

/-- Only what is written in decimal, and in range, is read as a number, the one that is written. -/
theorem literal_numberTokens_iff (dialect : Dialect) (printed : List Byte) (q : ℚ) :
    literal dialect (numberTokens printed) = some (.number q) ↔
      isDecimal (dropSign (printed.dropWhile isPhpSpace)) = true ∧
        dialect.held (dropSign (printed.dropWhile isPhpSpace)) = true ∧
          signedValue (printed.dropWhile isPhpSpace) = q := by
  rw [numberTokens]
  generalize printed.dropWhile isPhpSpace = p
  obtain ⟨decimal, token⟩ | ⟨decimal, ⟨digits, token⟩ | ⟨w, token⟩⟩ := digitsToken_cases (dropSign p)
  · have read : literal dialect (signTokens p ++ [digitsToken (dropSign p)]) =
        numberLiteral dialect (p.head? = some (byte '-')) (dropSign p) := by
      rw [token]
      obtain _ | ⟨c, s⟩ := p
      · cases decimal
      · rw [signTokens]
        by_cases signed : Sql.isSign c = true
        · rw [if_pos signed]
          by_cases minus : c = byte '-'
          · subst minus
            rfl
          · obtain rfl : c = byte '+' := by simpa [Sql.isSign, minus] using signed
            rfl
        · have minus : c ≠ byte '-' := by
            rintro rfl
            exact signed rfl
          rw [if_neg signed]
          simp [literal, minus]
    rw [read, numberLiteral_iff, signedValue, and_iff_right decimal]
    simp only [decide_eq_true_eq]
  all_goals
    refine ⟨fun read => ?_, fun written => absurd written.1 decimal⟩
    rw [token] at read
    obtain _ | ⟨c, s⟩ := p
    · cases read
    · rw [signTokens] at read
      split at read <;> cases read

/-- What the server reads in place of a value. -/
def entryLiteral (dialect : Dialect) (property : Name × PhpValue) : Option Literal :=
  match valueEntry property with
  | .ok value => literal dialect value.tokens
  | .error _ => none

theorem entryLiteral_iff {property : Name × PhpValue} (took : taken property.2 = true) :
    (∃ value, entryLiteral dialect property = some value ∧ asked property.2 = some value) ↔
      property.2.Ordinary dialect := by
  obtain ⟨name, value⟩ := property
  cases value with
  | string s => exact ⟨fun _ => trivial, fun _ => ⟨.string s, rfl, rfl⟩⟩
  | objectWith value =>
    by_cases numeric : isNumeric value = true
    · have number : value ≠ .bool true := by
        rintro rfl
        cases numeric
      have read : entryLiteral dialect (name, .objectWith value) = literal dialect (numberTokens (toText value)) := by
        simp only [entryLiteral, valueEntry, if_pos numeric]
        rfl
      have meant : asked (.objectWith value) = (numberOf value).map .number := if_pos numeric
      rw [read, meant]
      constructor
      · rintro ⟨found, literal, same⟩
        obtain ⟨q, number', rfl⟩ := Option.map_eq_some_iff.1 same
        obtain ⟨decimal, held, signed⟩ := (literal_numberTokens_iff dialect (toText value) q).1 literal
        exact ⟨number, fun _ => ⟨decimal, held, number'.trans (congrArg some signed.symm)⟩⟩
      · rintro ⟨-, written⟩
        obtain ⟨decimal, held, exact⟩ := written numeric
        refine ⟨.number (signedValue (unpadded value)), ?_, by rw [exact, Option.map_some]⟩
        exact (literal_numberTokens_iff dialect (toText value) _).2 ⟨decimal, held, rfl⟩
    · have loose : looselyNow value = true := by
        simpa [taken, numeric] using took
      have read : entryLiteral dialect (name, .objectWith value) = some .now := by
        simp only [entryLiteral, valueEntry, if_neg numeric, if_pos loose]
        rfl
      have meant : asked (.objectWith value) = if value = .string (text "NOW()") then some .now else none :=
        if_neg numeric
      rw [read, meant]
      cases value with
      | string s =>
        obtain rfl : s = text "NOW()" := of_decide_eq_true loose
        exact ⟨fun _ => ⟨PhpValue.noConfusion, fun written => absurd written numeric⟩, fun _ => ⟨.now, rfl, rfl⟩⟩
      | bool b =>
        obtain rfl : b = true := loose
        refine ⟨?_, fun ⟨other, _⟩ => absurd rfl other⟩
        rintro ⟨_, _, none⟩
        rw [if_neg PhpValue.noConfusion] at none
        cases none
      | _ => cases loose
  | _ => cases took

/-! ## The attempt -/

theorem columnEntry_of_alpha {property : Name × PhpValue} (alpha : ctypeAlpha property.1 = true) :
    columnEntry property = .ok property.1 := if_pos alpha

theorem exists_valueEntry_iff {property : Name × PhpValue} :
    (∃ value, valueEntry property = .ok value) ↔ taken property.2 = true := by
  obtain ⟨name, value⟩ := property
  cases value with
  | string s => exact ⟨fun _ => rfl, fun _ => ⟨_, rfl⟩⟩
  | objectWith value =>
    by_cases numeric : isNumeric value = true
    · simp [valueEntry, taken, numeric]
    · by_cases now : looselyNow value = true
      · simp [valueEntry, taken, numeric, now]
      · simp [valueEntry, taken, numeric, now]
  | _ => simp [valueEntry, taken]

/-- Both loops get through if no check refuses a property. -/
theorem exists_buildInsert_iff : (∃ insert, buildInsert params = .ok insert) ↔
    ∀ property ∈ params.properties, ctypeAlpha property.1 = true ∧ taken property.2 = true := by
  constructor
  · rintro ⟨insert, ok⟩ property member
    obtain ⟨names, values, columns, found, -⟩ := exists_of_buildInsert ok
    obtain ⟨name, -, column⟩ := exists_of_mem (mapM_ok columns) member
    obtain ⟨value, -, entry⟩ := exists_of_mem (mapM_ok found) member
    refine ⟨?_, exists_valueEntry_iff.1 ⟨value, entry⟩⟩
    by_contra other
    rw [columnEntry, if_neg other] at column
    cases column
  · intro all
    obtain ⟨names, columns⟩ := exists_mapM_ok fun property member =>
      ⟨property.1, columnEntry_of_alpha (all property member).1⟩
    obtain ⟨values, found⟩ := exists_mapM_ok fun property member =>
      exists_valueEntry_iff.2 (all property member).2
    refine ⟨names.zip values, ?_⟩
    rw [buildInsert, columns, found]
    rfl

/-- A printed number has no blank in front. -/
theorem unpadded_of_isDecimal {printed : List Byte} (decimal : isDecimal (dropSign printed) = true) :
    printed.dropWhile isPhpSpace = printed := by
  have start : Sql.startsNumber (dropSign printed) = true :=
    (Bool.and_eq_true_iff.1 (isNumeral_of_isDecimal decimal)).2
  have others : ∀ c : Byte, isPhpSpace c = true → Sql.isSign c = false ∧ Sql.isDigit c = false ∧ c ≠ byte '.' := by
    decide
  obtain _ | ⟨c, s⟩ := printed
  · rfl
  · rw [List.dropWhile_cons]
    split
    · rename_i blank
      obtain ⟨sign, digit, point⟩ := others c blank
      have dropped : dropSign (c :: s) = c :: s := if_neg (by rw [← Sql.isSign, sign]; decide)
      rw [dropped] at start
      simp [Sql.startsNumber, digit, point] at start
    · rfl

theorem digits_of_isNumeric {value : PhpValue} (numeric : isNumeric value = true) (printed : value.Printed) :
    Digits (dropSign (unpadded value)) := by
  cases value with
  | string s =>
    rcases Bool.or_eq_true_iff.1 numeric with hexadecimal | decimal
    · refine .inr (.inl ?_)
      show isHexadecimal (dropSign (s.dropWhile isPhpSpace)) = true
      generalize s.dropWhile isPhpSpace = p at hexadecimal
      obtain ⟨x, digits, rfl, -⟩ := exists_of_isHexadecimal hexadecimal
      exact hexadecimal
    · exact .inl decimal
  | number _ p =>
    rcases printed with decimal | rfl | rfl | rfl
    · refine .inl ?_
      rw [unpadded, toText, unpadded_of_isDecimal decimal]
      exact decimal
    · exact .inr (.inr (.inl rfl))
    · exact .inr (.inr (.inl rfl))
    · exact .inr (.inr (.inr rfl))
  | _ => cases numeric

theorem readable_of_valueEntry {property : Name × PhpValue} {value : SqlValue} (printed : property.2.Printed)
    (found : valueEntry property = .ok value) : value.Readable := by
  obtain ⟨name, given⟩ := property
  cases given with
  | string s =>
    cases found
    trivial
  | objectWith given =>
    by_cases numeric : isNumeric given = true
    · simp only [valueEntry, if_pos numeric] at found
      cases found
      exact digits_of_isNumeric numeric printed
    · by_cases now : looselyNow given = true
      · simp only [valueEntry, if_neg numeric, if_pos now] at found
        cases found
        trivial
      · simp only [valueEntry, if_neg numeric, if_neg now] at found
        cases found
  | _ => cases found

/-- The entry is what the loops make of the property. -/
def Enters (property : Name × PhpValue) (entry : Name × SqlValue) : Prop :=
  entry.1 = property.1 ∧ valueEntry property = .ok entry.2

theorem entries_names {entries : Insert} (all : List.Forall₂ Enters properties entries) :
    entries.map Prod.fst = properties.map Prod.fst := by
  induction all with
  | nil => rfl
  | cons first _ ih => rw [List.map_cons, List.map_cons, first.1, ih]

theorem entries_literals {entries : Insert} (all : List.Forall₂ Enters properties entries) :
    ((entries.map Prod.snd).mapM fun value => literal dialect value.tokens) =
      properties.mapM (entryLiteral dialect) := by
  induction all with
  | nil => rfl
  | cons first _ ih => rw [List.map_cons, List.mapM_cons, List.mapM_cons, ih, entryLiteral, first.2]

/-- The statement read back, property by property. -/
theorem readInsert_of_buildInsert (dialect : Dialect) (some : params.properties ≠ [])
    (printed : ∀ property ∈ params.properties, property.2.Printed) (ok : buildInsert params = .ok insert) :
    readInsert dialect insert.statement =
      (params.properties.mapM fun property => column dialect [.word property.1]).bind fun columns =>
        (params.properties.mapM (entryLiteral dialect)).bind fun values => Option.some (columns, values) := by
  have entries := buildInsert_ok ok
  have alpha := fun property member => (exists_buildInsert_iff.1 ⟨insert, ok⟩ property member).1
  have names := entries_names entries
  have nonempty : insert ≠ [] := by
    rintro rfl
    exact some (List.forall₂_nil_right_iff.1 entries)
  rw [readInsert_statement dialect nonempty, entries_literals entries, names, List.mapM_map]
  · rfl
  · rw [names]
    intro name member
    obtain ⟨property, there, rfl⟩ := List.mem_map.1 member
    exact alpha property there
  · intro value member
    obtain ⟨entry, there, rfl⟩ := List.mem_map.1 member
    obtain ⟨property, member, found⟩ := exists_of_mem entries.flip there
    exact readable_of_valueEntry (printed property member) found.2

theorem column_iff {dialect : Dialect} {name : Name} :
    column dialect [.word name] = some name ↔ dialect.reserved (Sql.lower name) = false := by
  cases taken : dialect.reserved (Sql.lower name) <;> simp [column, taken]

/-- The statement reads as asked for if no name is reserved and all values are ordinary. -/
theorem readInsert_asked_iff (dialect : Dialect) (some : params.properties ≠ [])
    (printed : ∀ property ∈ params.properties, property.2.Printed) (ok : buildInsert params = .ok insert) :
    (∃ values, readInsert dialect insert.statement = Option.some (params.properties.map Prod.fst, values) ∧
      List.Forall₂ (fun property value => asked property.2 = Option.some value) params.properties values) ↔
    ∀ property ∈ params.properties, dialect.reserved (Sql.lower property.1) = false ∧ property.2.Ordinary dialect := by
  have all := exists_buildInsert_iff.1 ⟨insert, ok⟩
  have columns : ((params.properties.mapM fun property => column dialect [.word property.1]) =
      Option.some (params.properties.map Prod.fst)) ↔
      ∀ property ∈ params.properties, dialect.reserved (Sql.lower property.1) = false := by
    rw [mapM_eq_some_iff, List.forall₂_map_right_iff, List.forall₂_same]
    exact forall₂_congr fun property _ => column_iff
  have values : (∃ values,
      List.Forall₂ (fun property value => entryLiteral dialect property = Option.some value) params.properties values ∧
      List.Forall₂ (fun property value => asked property.2 = Option.some value) params.properties values) ↔
      ∀ property ∈ params.properties, property.2.Ordinary dialect := by
    rw [exists_results_iff]
    exact forall₂_congr fun property member => entryLiteral_iff (all property member).2
  rw [readInsert_of_buildInsert dialect some printed ok, forall₂_and, ← columns, ← values]
  simp only [← mapM_eq_some_iff, Option.bind_eq_some_iff, Option.some.injEq, Prod.mk.injEq]
  constructor
  · rintro ⟨values, ⟨names, column, literals, read, rfl, rfl⟩, meant⟩
    exact ⟨column, literals, read, meant⟩
  · rintro ⟨column, literals, read, meant⟩
    exact ⟨literals, ⟨_, column, literals, read, rfl, rfl⟩, meant⟩

theorem taken_of_accepted {value : PhpValue} (accept : accepted value = true) : taken value = true := by
  cases value with
  | string s => rfl
  | objectWith value =>
    rcases Bool.or_eq_true_iff.1 accept with numeric | now
    · rw [taken, numeric, Bool.true_or]
    · obtain rfl : value = .string (text "NOW()") := of_decide_eq_true now
      rfl
  | _ => cases accept

theorem accepted_of_asked {value : PhpValue} {literal : Literal} (meant : asked value = some literal) :
    accepted value = true := by
  cases value with
  | string s => rfl
  | objectWith value =>
    rw [asked] at meant
    rw [accepted]
    split at meant
    · rename_i numeric
      rw [numeric, Bool.true_or]
    · split at meant
      · rename_i now
        rw [decide_eq_true now, Bool.or_true]
      · cases meant
  | _ => cases meant

end

/-- **The `insert` means what was asked**, for an email that is not in use, if and only if a check
refuses a property or all of them are ordinary. -/
theorem means_what_was_asked_iff (dialect : Dialect) (collation : Collation) (sessionId : List Byte)
    (db : Database) (params : Params) (outcome : Outcome) (some : params.properties ≠ [])
    (printed : ∀ property ∈ params.properties, property.2.Printed) (answered : outcome.countFails = false)
    (unused : db.countEmail collation (toText params.email) = 0) :
    MeansWhatWasAsked dialect collation sessionId db params outcome ↔ params.Sound dialect := by
  have sent : sentInsert collation db params outcome = ((buildInsert params).map Insert.statement).toOption := by
    rw [sentInsert, if_neg (by rw [answered]; decide), if_neg (not_not.2 unused), insertText_eq some]
  have takes : params.Accepted → ∃ insert, buildInsert params = .ok insert := fun accepts =>
    exists_buildInsert_iff.2 fun property member =>
      ⟨(accepts property member).1, taken_of_accepted (accepts property member).2⟩
  cases built : buildInsert params with
  | error code =>
    rw [built] at sent takes
    have none : ¬ params.Accepted := fun accepts => by
      obtain ⟨insert, same⟩ := takes accepts
      cases same
    have means : MeansWhatWasAsked dialect collation sessionId db params outcome := by
      refine ⟨?_, ?_, fun _ => ⟨code, buildInsert_error built, ?_⟩⟩
      · rw [sent]
        exact ⟨fun there => Bool.noConfusion there, fun accepts => absurd accepts none⟩
      · intro statement there
        rw [sent] at there
        cases there
      · simp only [createAnAccount, answered, unused, built]
        rfl
    refine ⟨fun _ => .inl ?_, fun _ => means⟩
    by_contra all
    have got : ∃ insert, buildInsert params = .ok insert := exists_buildInsert_iff.2 fun property member => by
      have both := fun refused => all ⟨property, member, refused⟩
      simpa using both
    rw [built] at got
    obtain ⟨insert, same⟩ := got
    cases same
  | ok insert =>
    rw [built] at sent
    have statement : sentInsert collation db params outcome = Option.some insert.statement := sent
    have all := exists_buildInsert_iff.1 ⟨insert, built⟩
    have asked := readInsert_asked_iff dialect some printed built
    constructor
    · intro means
      exact .inr (asked.1 (means.read insert.statement statement))
    · rintro (⟨property, member, refused⟩ | ordinary)
      · obtain ⟨alpha, took⟩ := all property member
        rw [alpha, took] at refused
        rcases refused with refused | refused <;> cases refused
      · have accepts : params.Accepted := fun property member => by
          obtain ⟨value, -, meant⟩ := (entryLiteral_iff (all property member).2).2 (ordinary property member).2
          exact ⟨(all property member).1, accepted_of_asked meant⟩
        refine ⟨?_, ?_, fun refused => absurd accepts refused⟩
        · rw [statement]
          exact ⟨fun _ => accepts, fun _ => rfl⟩
        · intro other there
          rw [statement] at there
          cases there
          exact asked.2 ordinary

/-- A server with one reserved word and numbers of up to 65 digits. -/
def shortNumbers : Dialect := ⟨fun w => w = text "select", fun n => n.length ≤ 65⟩

/-- An email, a number and the time. -/
def accountParams : Params :=
  ⟨[(text "email", .string (text "a@b.c")), (text "scor", .objectWith (.number (some (-7)) (text "-7"))),
    (text "ct", .objectWith (.string (text "NOW()")))], by decide⟩

theorem means_what_was_asked_account : MeansWhatWasAsked shortNumbers .binary (text "s") ⟨[], [], 0⟩ accountParams
    ⟨false, none, none, false, true⟩ := by
  refine (means_what_was_asked_iff shortNumbers .binary (text "s") ⟨[], [], 0⟩ accountParams
    ⟨false, none, none, false, true⟩ (by decide) ?_ rfl rfl).2 (.inr ?_)
  · intro property member
    simp only [accountParams, List.mem_cons, List.not_mem_nil, or_false] at member
    rcases member with rfl | rfl | rfl
    · trivial
    · exact .inl (by decide)
    · trivial
  · intro property member
    simp only [accountParams, List.mem_cons, List.not_mem_nil, or_false] at member
    rcases member with rfl | rfl | rfl
    · exact ⟨by decide, trivial⟩
    · refine ⟨by decide, PhpValue.noConfusion, fun _ => ⟨by decide, by decide, ?_⟩⟩
      show some (-7 : ℚ) = some (signedValue (text "-7"))
      decide +kernel
    · exact ⟨by decide, PhpValue.noConfusion, fun numeric => absurd numeric (by decide)⟩

/-- An email, and an object that holds `true`. -/
def trueParams : Params :=
  ⟨[(text "email", .string (text "a@b.c")), (text "ct", .objectWith (.bool true))], by decide⟩

/-- `true` is written as `NOW()`. -/
theorem means_what_was_asked_true : ¬ MeansWhatWasAsked shortNumbers .binary (text "s") ⟨[], [], 0⟩ trueParams
    ⟨false, none, none, false, true⟩ := by
  intro means
  have accepts := means.sent.1 (by decide) (text "ct", .objectWith (.bool true)) (by decide)
  exact absurd accepts.2 (by decide)

end GtpLibrary.Login

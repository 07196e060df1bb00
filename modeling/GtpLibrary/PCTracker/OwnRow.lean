import Mathlib.Data.List.Forall2
import Mathlib.Data.List.TakeWhile
import GtpLibrary.PCTracker.TrackAndView

/-!
# Which rows a request reaches

Both statements are read up to their `where` whatever the request is, so that all depends on what
the rest reads as, the `clause`. Where it is a condition, the request reaches the rows the
condition holds of (`ownRowOnly_iff`); a plain id and a plain password make it the condition that
is meant.
-/

namespace GtpLibrary.PCTracker

open Lib

/-- What stands behind `where`. -/
def clause (id pw : List Byte) : Option Condition := (Sql.tokens (whereText id pw)).bind condition

section
variable {server : Server} {id pw value : List Byte} {n : Nat} {all : Condition}

/-! ## The statements -/

/-- The strings of the registration are those of the lexer. -/
theorem literal_eq_quoted (t : List Byte) : literal t = Sql.quoted (byte '"') t := by
  induction t using literal.induct with
  | case1 => rfl
  | case2 => rfl
  | case3 c quote => rw [literal, Sql.quoted]
  | case4 rest ih => rw [literal, Sql.quoted, if_pos rfl, if_pos rfl, if_pos rfl, if_pos rfl, ih]; rfl
  | case5 d rest quote => rw [literal, Sql.quoted, if_pos rfl, if_pos rfl, if_neg quote, if_neg quote]
  | case6 d rest quote ih => rw [literal, Sql.quoted, if_neg quote, if_pos rfl, if_neg quote, if_pos rfl, ih]; rfl
  | case7 c d rest quote backslash ih =>
    rw [literal, Sql.quoted, if_neg quote, if_neg backslash, if_neg quote, if_neg backslash, ih]
    rfl

theorem quoted_address {ip : List Byte} (written : ip.all isAddressByte = true) {behind : List Byte}
    (other : behind.head? ≠ some (byte '"')) :
    Sql.quoted (byte '"') (ip ++ byte '"' :: behind) = some (ip, behind) := by
  have plain : ∀ c : Byte, isAddressByte c = true → c ≠ byte '"' ∧ c ≠ byte '\\' := by decide
  induction ip with
  | nil => exact Sql.quoted_end other
  | cons c rest ih =>
    rw [List.all_cons, Bool.and_eq_true] at written
    obtain ⟨quote, backslash⟩ := plain c written.1
    rw [List.cons_append, Sql.quoted_plain quote backslash (by simp), ih written.2]
    rfl

theorem lexes_update : Sql.Lexes (text "update pewebro_1Other.ProjectsPCTracker set ip=") updateTokens :=
  Sql.lexes_spelled [(text "update", byte ' '), (text "pewebro_1Other", byte '.'), (text "ProjectsPCTracker", byte ' '),
    (text "set", byte ' '), (text "ip", byte '=')] (by decide)

theorem lexes_select : Sql.Lexes (text "select ip from pewebro_1Other.ProjectsPCTracker ") selectTokens :=
  Sql.lexes_spelled [(text "select", byte ' '), (text "ip", byte ' '), (text "from", byte ' '),
    (text "pewebro_1Other", byte '.'), (text "ProjectsPCTracker", byte ' ')] (by decide)

theorem lexes_where : Sql.Lexes (text "where ") [.word (text "where")] :=
  Sql.lexes_spelled [(text "where", byte ' ')] (by decide)

theorem lexes_address (address : Address) :
    Sql.Lexes (byte '"' :: (address.ip ++ text "\" where ")) [.string address.ip, .word (text "where")] := by
  have behind : Sql.Lexes (byte ' ' :: text "where ") [.word (text "where")] := lexes_where.blank (by decide)
  have string := behind.string (s := address.ip ++ [byte '"']) (v := address.ip) fun more => by
    rw [List.append_assoc]
    exact quoted_address address.written (by simp [byte])
  rwa [List.append_assoc] at string

/-! ## What they read as -/

theorem readWhere_of_where (tokens : List Sql.Token) :
    readWhere (.word (text "where") :: tokens) = condition tokens := by
  rw [readWhere, show Sql.Token.word (text "where") :: tokens = [.word (text "where")] ++ tokens from rfl,
    List.dropPrefix?_append_of_beq tokens (beq_self_eq_true _)]
  rfl

theorem readUpdate_updateText (address : Address) (id pw : List Byte) :
    readUpdate (updateText address id pw) = (clause id pw).map (address.ip, ·) := by
  have lexed := (lexes_update.append (lexes_address address)) (whereText id pw)
  have head : text "update pewebro_1Other.ProjectsPCTracker set ip=\"" =
      text "update pewebro_1Other.ProjectsPCTracker set ip=" ++ [byte '"'] := by decide
  have same : updateText address id pw = text "update pewebro_1Other.ProjectsPCTracker set ip=" ++
      byte '"' :: (address.ip ++ text "\" where ") ++ whereText id pw := by
    rw [updateText, head]
    simp only [List.append_assoc, List.cons_append, List.nil_append]
  rw [readUpdate, same, lexed, clause]
  cases Sql.tokens (whereText id pw) with
  | none => rfl
  | some tokens =>
    simp only [Option.map_some, Option.bind_some, List.append_assoc]
    rw [List.dropPrefix?_append_of_beq _ (beq_self_eq_true _)]
    exact congrArg (Option.map (address.ip, ·)) (readWhere_of_where tokens)

theorem readSelect_selectText (id pw : List Byte) : readSelect (selectText id pw) = clause id pw := by
  have lexed := (lexes_select.append lexes_where) (whereText id pw)
  rw [readSelect, selectText, clause]
  have same : text "select ip from pewebro_1Other.ProjectsPCTracker where " ++ whereText id pw =
      text "select ip from pewebro_1Other.ProjectsPCTracker " ++ text "where " ++ whereText id pw := rfl
  rw [same, lexed]
  cases Sql.tokens (whereText id pw) with
  | none => rfl
  | some tokens =>
    simp only [Option.map_some, Option.bind_some, List.append_assoc]
    rw [List.dropPrefix?_append_of_beq _ (beq_self_eq_true _)]
    exact readWhere_of_where tokens

theorem isNumeral_of_integer (digits : Sql.integer id = some n) : Sql.isNumeral id = true := by
  simp only [Sql.integer, Bool.and_eq_true, decide_eq_true_eq, Option.ite_none_right_eq_some] at digits
  obtain ⟨⟨some, all⟩, -⟩ := digits
  have none : id.dropWhile Sql.isDigit = [] := List.dropWhile_eq_nil_iff.2 (List.all_eq_true.1 all)
  obtain ⟨c, rest, rfl⟩ := List.exists_cons_of_ne_nil some
  have first : Sql.isDigit c = true := List.all_eq_true.1 all c List.mem_cons_self
  simp [Sql.isNumeral, Sql.numeral, none, Sql.startsNumber, first]

theorem tokens_whereText (digits : Sql.integer id = some n) (closed : literal (pw ++ text "\"") = some (value, [])) :
    Sql.tokens (whereText id pw) = some [.word (text "id"), .symbol (byte '='), .number id, .word (text "and"),
      .word (text "password"), .symbol (byte '='), .string value] := by
  have whole := isNumeral_of_integer digits
  have start : Sql.startsNumber id = true := (Bool.and_eq_true_iff.1 whole).2
  have idColumn : Sql.Lexes (text "id=") [.word (text "id"), .symbol (byte '=')] :=
    Sql.lexes_spelled [(text "id", byte '=')] (by decide)
  have pwColumn : Sql.Lexes (text "and password=") [.word (text "and"), .word (text "password"), .symbol (byte '=')] :=
    Sql.lexes_spelled [(text "and", byte ' '), (text "password", byte '=')] (by decide)
  have behindId := pwColumn.blank (c := byte ' ') (by decide)
  have number := behindId.number start fun behind => Sql.number_append whole (by decide) (by decide) behind
  have front := idColumn.append number
  have string : Sql.tokens (byte '"' :: (pw ++ [byte '"'])) = some [.string value] := by
    have found : Sql.next (byte '"' :: (pw ++ text "\"")) = some (.string value, []) := by
      rw [Sql.next, if_pos (by decide), ← literal_eq_quoted, closed]
      rfl
    have read : Sql.tokens (byte '"' :: (pw ++ text "\"" ++ [])) = (Sql.tokens []).map (.string value :: ·) := by
      apply Sql.tokens_of_next (by decide) (Sql.isComment_eq_false (by decide) (.inl (by decide)))
      rw [List.append_nil]
      exact found
    rwa [List.append_nil] at read
  have middle : text " and password=\"" = byte ' ' :: text "and password=" ++ [byte '"'] := rfl
  have same : whereText id pw =
      text "id=" ++ (id ++ byte ' ' :: text "and password=") ++ byte '"' :: (pw ++ [byte '"']) := by
    rw [whereText, middle]
    simp only [List.append_assoc, List.cons_append, List.nil_append]
    rfl
  rw [same, front, string]
  rfl

/-- An id in digits and a password that ends its string at the closing quote. -/
theorem clause_closed (digits : Sql.integer id = some n) (closed : literal (pw ++ text "\"") = some (value, [])) :
    clause id pw = some [[.numbers .id (.value n), .texts .password (.value value)]] := by
  have number : equation [.word (text "id"), .symbol (byte '='), .number id] = some (.numbers .id (.value n)) := by
    simp only [equation, term, digits]
    rfl
  have split : condition [.word (text "id"), .symbol (byte '='), .number id, .word (text "and"),
      .word (text "password"), .symbol (byte '='), .string value] =
      [[[Sql.Token.word (text "id"), .symbol (byte '='), .number id],
      [.word (text "password"), .symbol (byte '='), .string value]]].mapM fun all => all.mapM equation := rfl
  rw [clause, tokens_whereText digits closed, Option.bind_some, split]
  simp only [List.mapM_cons, List.mapM_nil, number]
  rfl

/-! ## What a request reaches -/

theorem ownRowOnly_of_clause (documented : server.Documented) (read : clause id pw = some all)
    (own : ∀ row, all.holds server.same row = true → Owns server id pw row) : OwnRowOnly server id pw := by
  refine ⟨fun address table => ?_, fun table ip shown => ?_⟩
  · show List.Forall₂ _ _ ((server.update (updateText address id pw) table).getD table).rows ∧
      ((server.update (updateText address id pw) table).getD table).nextId = table.nextId
    cases ran : server.update (updateText address id pw) table with
    | none => exact ⟨List.forall₂_same.2 fun row _ => .inl rfl, rfl⟩
    | some after =>
      have updated : readUpdate (updateText address id pw) = some (address.ip, all) := by
        rw [readUpdate_updateText, read]
        rfl
      obtain rfl := documented.update updated ran
      refine ⟨List.forall₂_map_right_iff.2 (List.forall₂_same.2 fun row _ => ?_), rfl⟩
      split
      · rename_i holds
        exact .inr (own row holds)
      · exact .inl rfl
  · simp only [view] at shown
    split at shown
    · rename_i listed
      cases shown
      have ips := documented.select ((readSelect_selectText id pw).trans read) listed
      have member : ip ∈ table.ips server.same all := by
        rw [← ips]
        exact List.mem_singleton_self ip
      obtain ⟨row, chosen, rfl⟩ := List.mem_map.1 member
      obtain ⟨there, holds⟩ := List.mem_filter.1 chosen
      exact ⟨row, there, own row holds, rfl⟩
    · cases shown
    · cases shown

/-- A row that the condition holds of is shown, alone in its table. -/
theorem owns_of_ownRowOnly (documented : server.Documented) (answers : server.Answers) (read : clause id pw = some all)
    (only : OwnRowOnly server id pw) (row : Row) (holds : all.holds server.same row = true) :
    Owns server id pw row := by
  have read := (readSelect_selectText id pw).trans read
  obtain ⟨ips, found⟩ := Option.isSome_iff_exists.1 (answers read ⟨[row], 0⟩)
  have listed : ips = [row.ip] := by
    rw [documented.select read found]
    simp [Table.ips, holds]
  have shown : view server ⟨some id, some pw⟩ ⟨[row], 0⟩ = .address row.ip := by
    rw [listed] at found
    simp only [view, found]
  obtain ⟨owner, member, owns, -⟩ := only.view ⟨[row], 0⟩ row.ip shown
  rwa [List.mem_singleton.1 member] at owns

/-- The condition that is meant holds of the rows of the request, as long as the string is not
told from the password. -/
theorem owns_of_meant (digits : Sql.integer id = some n)
    (equal : ∀ stored, server.same stored value = true → server.same stored pw = true) {row : Row}
    (holds : Condition.holds server.same [[.numbers .id (.value n), .texts .password (.value value)]] row = true) :
    Owns server id pw row := by
  simp only [Condition.holds, List.any_cons, List.any_nil, Bool.or_false, List.all_cons, List.all_nil, Bool.and_true,
    Bool.and_eq_true, Equation.holds, NumberTerm.of, TextTerm.of] at holds
  have id : row.id = n := of_decide_eq_true holds.1
  exact ⟨by rw [id]; exact digits, equal row.password holds.2⟩

/-- **Requests reach their own row** if the id is written in digits and the password is a string
that stands for itself. Among the requests with such an id whose password does not end its
string early, no others do. -/
theorem ownRowOnly_of_plain (server : Server) (documented : server.Documented) (id pw : List Byte) :
    (Plain server id pw → OwnRowOnly server id pw) ∧
      ∀ n value, Sql.integer id = some n → literal (pw ++ text "\"") = some (value, []) → server.Answers →
        OwnRowOnly server id pw → Plain server id pw := by
  constructor
  · rintro ⟨digits, value, closed, equal⟩
    obtain ⟨n, digits⟩ := Option.isSome_iff_exists.1 digits
    exact ownRowOnly_of_clause documented (clause_closed digits closed) fun row => owns_of_meant digits equal
  · intro n value digits closed answers only
    refine ⟨by rw [digits]; rfl, value, closed, fun stored same => ?_⟩
    have holds : Condition.holds server.same [[.numbers .id (.value n), .texts .password (.value value)]]
        ⟨n, stored, []⟩ = true := by
      simp [Condition.holds, Equation.holds, NumberTerm.of, TextTerm.of, same]
    exact (owns_of_ownRowOnly documented answers (clause_closed digits closed) only ⟨n, stored, []⟩ holds).2

end

/-- A server that compares bytes, and fails where it cannot read. -/
def Server.binary : Server where
  same stored s := stored = s
  update t table := (readUpdate t).map fun update => table.setIp (fun stored s => stored = s) update.1 update.2
  select t table := (readSelect t).map (table.ips fun stored s => stored = s)

theorem Server.binary_documented : Server.binary.Documented where
  update := by
    intro t address condition table after read updated
    simp only [Server.binary, read, Option.map_some, Option.some.injEq] at updated
    exact updated.symm
  select := by
    intro t condition table ips read selected
    simp only [Server.binary, read, Option.map_some, Option.some.injEq] at selected
    exact selected.symm

theorem ownRowOnly_of_plain_five : OwnRowOnly .binary (text "5") (text "secret") :=
  (ownRowOnly_of_plain .binary Server.binary_documented (text "5") (text "secret")).1
    ⟨by decide, text "secret", by decide, fun _ same => same⟩

/-- A password that closes its string and goes on with `or "1"="1` reaches every row. -/
theorem ownRowOnly_or : Server.binary.Documented ∧ ¬ OwnRowOnly .binary (text "1") (text "\" or \"1\"=\"1") := by
  refine ⟨Server.binary_documented, fun only => ?_⟩
  have read : clause (text "1") (text "\" or \"1\"=\"1") =
      some [[.numbers .id (.value 1), .texts .password (.value [])],
        [.texts (.value (text "1")) (.value (text "1"))]] := rfl
  have answers : Server.binary.Answers := by
    intro t condition read table
    simp [Server.binary, read]
  have owns := owns_of_ownRowOnly Server.binary_documented answers read only ⟨2, text "other", text "10.0.0.2"⟩ rfl
  exact absurd owns.1 (by decide)

end GtpLibrary.PCTracker

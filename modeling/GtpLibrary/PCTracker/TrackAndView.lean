import Mathlib.Data.List.Basic
import GtpLibrary.Lib.Sql
import GtpLibrary.PCTracker.Register

/-!
# `track.php` and `view.php` of the PC tracker

Both paste the two strings of the request into a `where`: the id as it came, the password
between quotes. What the server makes of a text is a parameter. It is known for an `update` and a
`select` whose condition is put together from `or`, `and` and `=`; a text that turns out to be
something else may do anything.
-/

namespace GtpLibrary.PCTracker

open Lib

/-! ## Conditions -/

/-- What a number is compared with. -/
inductive NumberTerm where
  | id
  | value (n : Nat)

/-- What a text is compared with. -/
inductive TextTerm where
  | password
  | ip
  | value (s : List Byte)

/-- An equation of the condition, between numbers or between texts. -/
inductive Equation where
  | numbers (left right : NumberTerm)
  | texts (left right : TextTerm)

/-- One of the lists has to hold throughout. -/
abbrev Condition := List (List Equation)

/-- The number in a row. -/
def NumberTerm.of (row : Row) : NumberTerm → Nat
  | .id => row.id
  | .value n => n

/-- The text in a row. -/
def TextTerm.of (row : Row) : TextTerm → List Byte
  | .password => row.password
  | .ip => row.ip
  | .value s => s

section
variable (same : List Byte → List Byte → Bool)

/-- Texts are compared as the database does it. -/
def Equation.holds (row : Row) : Equation → Bool
  | .numbers left right => left.of row = right.of row
  | .texts left right => same (left.of row) (right.of row)

/-- One of the alternatives holds, with all its equations. -/
def Condition.holds (condition : Condition) (row : Row) : Bool :=
  condition.any fun all => all.all (Equation.holds same row)

/-- `update … set ip=…` -/
def Table.setIp (table : Table) (ip : List Byte) (condition : Condition) : Table :=
  { table with rows := table.rows.map fun row => if condition.holds same row then { row with ip } else row }

/-- `select ip …` -/
def Table.ips (table : Table) (condition : Condition) : List (List Byte) :=
  (table.rows.filter (condition.holds same)).map Row.ip

end

/-! ## Statements -/

/-- A token as one side of an equation; columns are known in any case of letters. -/
def term : Sql.Token → Option (NumberTerm ⊕ TextTerm)
  | .word name =>
    if Sql.lower name = text "id" then some (.inl .id)
    else if Sql.lower name = text "password" then some (.inr .password)
    else if Sql.lower name = text "ip" then some (.inr .ip)
    else none
  | .number n => (Sql.integer n).map fun value => .inl (.value value)
  | .string s => some (.inr (.value s))
  | _ => none

/-- Three tokens as an equation between terms of one kind. -/
def equation : List Sql.Token → Option Equation
  | [left, equals, right] =>
    if equals = .symbol (byte '=') then
      match term left, term right with
      | some (.inl left), some (.inl right) => some (.numbers left right)
      | some (.inr left), some (.inr right) => some (.texts left right)
      | _, _ => none
    else none
  | _ => none

/-- `and` binds closer than `or`. -/
def condition (tokens : List Sql.Token) : Option Condition :=
  (tokens.splitOnP (Sql.Token.isKeyword (text "or"))).mapM fun all =>
    (all.splitOnP (Sql.Token.isKeyword (text "and"))).mapM equation

/-- `pewebro_1Other.ProjectsPCTracker` -/
def tableTokens : List Sql.Token :=
  [.word (text "pewebro_1Other"), .symbol (byte '.'), .word (text "ProjectsPCTracker")]

/-- The fixed part of the statement of `track.php`. -/
def updateTokens : List Sql.Token :=
  .word (text "update") :: tableTokens ++ [.word (text "set"), .word (text "ip"), .symbol (byte '=')]

/-- The fixed part of the statement of `view.php`. -/
def selectTokens : List Sql.Token :=
  .word (text "select") :: .word (text "ip") :: .word (text "from") :: tableTokens

/-- The condition behind `where`. -/
def readWhere (tokens : List Sql.Token) : Option Condition := (tokens.dropPrefix? [.word (text "where")]).bind condition

/-- The address and the condition of an `update`. -/
def readUpdate (t : List Byte) : Option (List Byte × Condition) :=
  match (Sql.tokens t).bind (·.dropPrefix? updateTokens) with
  | some (.string address :: behind) => (readWhere behind).map (address, ·)
  | _ => none

/-- What a `select` asks for. -/
def readSelect (t : List Byte) : Option Condition :=
  ((Sql.tokens t).bind (·.dropPrefix? selectTokens)).bind readWhere

/-! ## The server -/

/-- What it does with a text as an `update` and as a `select ip`, if it does not fail, and which
texts it takes for equal. -/
structure Server where
  same : List Byte → List Byte → Bool
  update : List Byte → Table → Option Table
  select : List Byte → Table → Option (List (List Byte))

structure Server.Documented (server : Server) : Prop where
  update : ∀ {t address condition table after}, readUpdate t = some (address, condition) →
    server.update t table = some after → after = table.setIp server.same address condition
  select : ∀ {t condition table ips}, readSelect t = some condition →
    server.select t table = some ips → ips = table.ips server.same condition

/-- No `select` fails that it can read. -/
def Server.Answers (server : Server) : Prop :=
  ∀ {t condition}, readSelect t = some condition → ∀ table, (server.select t table).isSome

/-! ## The scripts -/

/-- A byte of `REMOTE_ADDR`. -/
def isAddressByte (c : Byte) : Bool := Sql.isHexDigit c || c = byte '.' || c = byte ':'

/-- `$_SERVER['REMOTE_ADDR']` -/
structure Address where
  ip : List Byte
  written : ip.all isAddressByte

/-- `$_GET['id']` and `$_GET['pw']`. -/
structure Get where
  id : Option (List Byte)
  pw : Option (List Byte)

/-- The condition, with the id and the password as they come. -/
def whereText (id pw : List Byte) : List Byte := text "id=" ++ id ++ text " and password=\"" ++ pw ++ text "\""

/-- The statement of `track.php`. -/
def updateText (address : Address) (id pw : List Byte) : List Byte :=
  text "update pewebro_1Other.ProjectsPCTracker set ip=\"" ++ address.ip ++ text "\" where " ++ whereText id pw

/-- The statement of `view.php`. -/
def selectText (id pw : List Byte) : List Byte :=
  text "select ip from pewebro_1Other.ProjectsPCTracker where " ++ whereText id pw

/-- What `view.php` answers. -/
inductive Page where
  | address (ip : List Byte)
  | wrongCombination
  | error1
  | form
  deriving DecidableEq

/-- The text that is printed for it. -/
def Page.text : Page → List Byte
  | .address ip => ip
  | .wrongCombination => Lib.text "wrong id & password combination"
  | .error1 => Lib.text "error 1"
  | .form => Lib.text ("<script type=\"text/javascript\">function show()\x7b\n" ++
      "\tvar id = document.getElementById(\"id\").value;\n" ++
      "\tvar pw = document.getElementById(\"pw\").value;\n" ++
      "\twindow.location = \"view.php?id=\"+id+\"&pw=\"+pw;\n" ++
      "\t\x7d</script>\n\t<div id=\"goto\">\nID:<input type=\"text\" id=\"id\"/>\n" ++
      "\t<br>Password:<input type=\"password\" id=\"pw\"/>\n" ++
      "\t<br><input type=\"button\" value=\"Show !\" onclick=\"show()\"/>\n\t</div>")

section
variable (server : Server)

/-- The table behind `track.php`, whose page closes its window. -/
def track (get : Get) (address : Address) (table : Table) : Table :=
  match get.id, get.pw with
  | some id, some pw => (server.update (updateText address id pw) table).getD table
  | _, _ => table

/-- `view.php` -/
def view (get : Get) (table : Table) : Page :=
  match get.id, get.pw with
  | some id, some pw =>
    match server.select (selectText id pw) table with
    | some [ip] => .address ip
    | some _ => .wrongCombination
    | none => .error1
  | _, _ => .form

/-- The row has the id and the password of the request, as numbers and as the database compares
texts. -/
def Owns (id pw : List Byte) (row : Row) : Prop := Sql.integer id = some row.id ∧ server.same row.password pw = true

/-- The requests with these strings reach no other row. -/
structure OwnRowOnly (id pw : List Byte) : Prop where
  track : ∀ address table,
    List.Forall₂ (fun before after => after = before ∨ Owns server id pw before) table.rows
        (track server ⟨some id, some pw⟩ address table).rows ∧
      (PCTracker.track server ⟨some id, some pw⟩ address table).nextId = table.nextId
  view : ∀ table ip, view server ⟨some id, some pw⟩ table = .address ip →
    ∃ row ∈ table.rows, Owns server id pw row ∧ row.ip = ip

/-- The id is written in digits, and the password between quotes is one string, which the
database does not tell from the password. -/
def Plain (id pw : List Byte) : Prop :=
  (Sql.integer id).isSome ∧ ∃ value, literal (pw ++ text "\"") = some (value, []) ∧
    ∀ stored, server.same stored value = true → server.same stored pw = true

end

end GtpLibrary.PCTracker

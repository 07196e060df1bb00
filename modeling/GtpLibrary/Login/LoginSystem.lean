import GtpLibrary.Login.Values

/-!
# `LoginSystem::createAnAccount`

The two loops over `$params` build the column list and the value list of one `insert`,
kept here as lists instead of the text with its commas.
What the server and the mail program do in a request is an `Outcome`: which statement
fails, and the ids and times of the rows it adds. A statement that fails adds no row.
The collation of the email column is a parameter; all that is known about it is that a
stored text equals itself.
-/

namespace GtpLibrary.Login

open Lib

abbrev Name := List Byte

/-- The `$params` object: its properties in order. -/
structure Params where
  properties : List (Name × PhpValue)
  distinct : (properties.map Prod.fst).Nodup

/-- `LOGIN_SYSTEM_USERS_TABLE_EMAIL_COLUMN_NAME`. -/
def emailColumn : Name := text "email"

/-- `LOGIN_SYSTEM_USERS_TABLE_ID_COLUMN_NAME`. -/
def idColumn : Name := text "id"

/-- `eval('return $params->email;')`; a property that is not there is `NULL`. -/
def Params.email (params : Params) : PhpValue := (params.properties.lookup emailColumn).getD .null

/-- An entry of the value list. -/
inductive SqlValue
  | text (s : List Byte)
  | number (printed : List Byte)
  | now
  deriving DecidableEq

/-- The columns of an `insert` with their values. -/
abbrev Insert := List (Name × SqlValue)

/-- The body of the first loop: 6 for a name that is not alphabetic. -/
def columnEntry (property : Name × PhpValue) : Except Nat Name :=
  if ctypeAlpha property.1 then .ok property.1 else .error 6

/-- The body of the second loop: the checks around the `switch` on `$value->value`. -/
def valueEntry (property : Name × PhpValue) : Except Nat SqlValue :=
  match property.2 with
  | .string s => .ok (.text s)
  | .objectWith value =>
    if isNumeric value then .ok (.number (toText value))
    else if looselyNow value then .ok .now
    else .error 5
  | .object => .error 3
  | _ => .error 2

/-- Both loops. -/
def buildInsert (params : Params) : Except Nat Insert := do
  let columns ← params.properties.mapM columnEntry
  let values ← params.properties.mapM valueEntry
  return columns.zip values

/-! ## The tables -/

/-- A row of `utilizatori`. -/
structure User where
  id : Nat
  columns : Insert
  deriving DecidableEq

/-- A row of `recuperareParola`. -/
structure Code where
  id : Nat
  cod : List Byte
  utilizator : Nat
  ct : Nat
  deriving DecidableEq

/-- The tables, and `LAST_INSERT_ID()` of the connection. -/
structure Database where
  users : List User
  codes : List Code
  lastInsertId : Nat
  deriving DecidableEq

/-- MySQL compares column names without regard to case. -/
def lowerCase (name : Name) : Name := name.map fun c => if inRange 'A' 'Z' c then c + 0x20 else c

def Insert.value (insert : Insert) (column : Name) : Option SqlValue :=
  (insert.find? fun entry => lowerCase entry.1 = column).map Prod.snd

/-- `=` on the email column. -/
structure Collation where
  same : SqlValue → List Byte → Bool
  refl : ∀ s, same (.text s) s = true

/-- What happens to one request outside of PHP. -/
structure Outcome where
  countFails : Bool
  /-- The id of the new user row, and whether the server generated it. -/
  userRow : Option (Nat × Bool)
  /-- The id and the time of the new code row. -/
  codeRow : Option (Nat × Nat)
  selectFails : Bool
  mailSent : Bool

/-- `count(email)` of the rows with the given email. -/
def Database.countEmail (db : Database) (collation : Collation) (email : List Byte) : Nat :=
  db.users.countP fun user =>
    (Insert.value user.columns emailColumn).any fun stored => collation.same stored email

/-- The `insert` of the user. Without a column the cut of the last comma takes a bracket,
and the text is no statement; a column that stands there twice is an error. An id that is
set in the statement is no `LAST_INSERT_ID()`. -/
def Database.insertUser (db : Database) (insert : Insert) : Option (Nat × Bool) → Option Database
  | none => none
  | some (id, generated) =>
    if insert ≠ [] ∧ (insert.map fun entry => lowerCase entry.1).Nodup then
      let generated := generated || (Insert.value insert idColumn).isNone
      some { db with
        users := db.users ++ [⟨id, insert⟩]
        lastInsertId := if generated then id else db.lastInsertId }
    else none

/-- The `insert` of the verification code, for the user `LAST_INSERT_ID()`. -/
def Database.insertCode (db : Database) (sessionId : List Byte) : Option (Nat × Nat) → Option Database
  | none => none
  | some (id, ct) =>
    some { db with codes := db.codes ++ [⟨id, sessionId, db.lastInsertId, ct⟩], lastInsertId := id }

/-- `createAnAccount`: the returned code and the tables behind it. -/
def createAnAccount (collation : Collation) (sessionId : List Byte) (db : Database) (params : Params)
    (outcome : Outcome) : Nat × Database :=
  if outcome.countFails then (11, db)
  else if db.countEmail collation (toText params.email) ≠ 0 then (1, db)
  else match buildInsert params with
    | .error code => (code, db)
    | .ok insert =>
      match db.insertUser insert outcome.userRow with
      | none => (4, db)
      | some db =>
        match db.insertCode sessionId outcome.codeRow with
        | none => (7, db)
        | some db => if outcome.selectFails then (8, db) else (if outcome.mailSent then 10 else 9, db)

end GtpLibrary.Login

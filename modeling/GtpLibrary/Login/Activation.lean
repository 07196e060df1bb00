import GtpLibrary.Lib.Runs
import GtpLibrary.Login.DistinctEmails

/-!
# `LoginSystem::activateAccount` and `LoginSystem::logIn`

The verification code is computed by the server for every row of `recuperareParola`, and
the row whose code was presented names the user that becomes active. `logIn` looks for
the email and the password; `stare` is not part of its query.
-/

namespace GtpLibrary.Login

open Lib

/-- `LOGIN_SYSTEM_USERS_TABLE_PASSWORD_COLUMN_NAME`. -/
def passwordColumn : Name := text "password"

/-- `LOGIN_SYSTEM_USERS_TABLE_STATE_COLUMN_NAME`. -/
def stateColumn : Name := text "stare"

/-- `LOGIN_SYSTEM_USERS_TABLE_STATE_COLUMN_ACTIVE_STATE`. -/
def activeState : List Byte := text "activ"

/-- `LOGIN_SYSTEM_ACTIVATE_ACCOUNT_TIME_TO_ACTIVATE_IN_HOURS`. -/
def timeToActivateInHours : Nat := 24

/-- `LOGIN_SYSTEM_ACTIVATE_ACCOUNT_WRONG_OR_EXPIRED_CODE_MESSAGE`. -/
def wrongOrExpiredCodeMessage : List Byte := text "Codul dumneavoastra a expirat sau este incorect!"

/-- `LOGIN_SYSTEM_ACTIVATE_ACCOUNT_COULD_NOT_ACTIVATE_USER_MESSAGE`. -/
def couldNotActivateUserMessage : List Byte := text "Activarea a esuat!"

/-- `LOGIN_SYSTEM_ACTIVATE_ACCOUNT_ACCOUNT_ACTIVATED_MESSAGE`. -/
def accountActivatedMessage : List Byte := text "Puteti sa va conectati! Contul dumneavoastra este activ!"

/-- What the server brings: `=` on the email, on the password and on the code, `SHA1`, and
how a time, here in seconds, is printed. -/
structure Server where
  email : Collation
  password : Collation
  code : Collation
  sha1 : List Byte → List Byte
  datetime : Nat → List Byte

variable (server : Server)

/-- `CONCAT(SHA1(cod),SHA1(utilizator),SHA1(ct))`. -/
def Server.verificationCode (row : Code) : List Byte :=
  server.sha1 row.cod ++ server.sha1 (text (toString row.utilizator)) ++ server.sha1 (server.datetime row.ct)

/-- The `where` of `activateAccount`: the row has the code, and `NOW() < (ct + INTERVAL 24 HOUR)`. -/
def Server.accepts (c : List Byte) (now : Nat) (row : Code) : Bool :=
  server.code.same (.text (server.verificationCode row)) c && decide (now < row.ct + timeToActivateInHours * 3600)

/-- A column of a row is set by an `update`. -/
def Insert.set (columns : Insert) (column : Name) (value : SqlValue) : Insert :=
  (column, value) :: columns.filter fun entry => lowerCase entry.1 ≠ column

/-- `set stare="activ"`. -/
def User.activate (user : User) : User :=
  { user with columns := user.columns.set stateColumn (.text activeState) }

/-- When `activateAccount` is called, and which of its statements fail. -/
structure Attempt where
  now : Nat
  selectFails : Bool
  updateFails : Bool
  deleteFails : Bool

/-- `activateAccount`: what it prints, and the tables behind it. -/
def activateAccount (db : Database) (c : List Byte) (attempt : Attempt) : List Byte × Database :=
  if attempt.selectFails then (wrongOrExpiredCodeMessage, db)
  else match db.codes.filter (server.accepts c attempt.now) with
    | [row] =>
      if attempt.updateFails then (couldNotActivateUserMessage, db)
      else (accountActivatedMessage, { db with
        users := db.users.map fun user => if user.id = row.utilizator then user.activate else user
        codes := if attempt.deleteFails then db.codes else db.codes.filter fun code => code.id ≠ row.id })
    | _ => (wrongOrExpiredCodeMessage, db)

/-- `eval('return $params->password;')`. -/
def Params.password (params : Params) : PhpValue := (params.properties.lookup passwordColumn).getD .null

/-- `where email="…" and password="…"`. -/
def Database.withPassword (db : Database) (params : Params) : List User :=
  db.users.filter fun user => user.hasEmail server.email (toText params.email) &&
    (Insert.value user.columns passwordColumn).any fun stored => server.password.same stored (toText params.password)

/-- `$_SESSION['user']`. -/
structure Session where
  data : Option User
  connected : Bool

/-- `LOGIN_SYSTEM_LOG_IN_RETURN_USER_DATA`. -/
def logInReturnUserData : Bool := true

/-- `logIn`: the returned code, and the session behind it. -/
def logIn (db : Database) (params : Params) (fails : Bool) (session : Session) : Nat × Session :=
  if fails then (2, session)
  else match db.withPassword server params with
    | [user] => (1, ⟨if logInReturnUserData then some user else session.data, true⟩)
    | _ => (2, session)

/-! ## Runs -/

inductive Call
  | createAnAccount (sessionId : List Byte) (params : Params) (outcome : Outcome)
  | activateAccount (c : List Byte) (attempt : Attempt)
  | logIn (params : Params) (fails : Bool)

/-- The tables behind a call. -/
def call (db : Database) : Call → Option Database
  | .createAnAccount sessionId params outcome =>
    some (Login.createAnAccount server.email sessionId db params outcome).2
  | .activateAccount c attempt => some (Login.activateAccount server db c attempt).2
  | .logIn _ _ => some db

/-- An account is active behind `set stare="activ"`. -/
def User.Active (user : User) : Prop := Insert.value user.columns stateColumn = some (.text activeState)

/-- The code row is the one that is presented in time. -/
def Presents (db : Database) (c : List Byte) (now : Nat) (row : Code) : Prop :=
  row ∈ db.codes ∧ server.accepts c now row

/-- The call has added the code row together with the account of this id. -/
def AddsAccount (db : Database) (c : Call) (row : Code) (id : Nat) : Prop :=
  ∃ user after, call server db c = some after ∧ user.id = id ∧ after.users = db.users ++ [user] ∧
    after.codes = db.codes ++ [row]

variable {server} {db after : Database}

/-- An account is locked out by a second row with its email and password. -/
theorem logIn_locked_out {params : Params} {fails : Bool} {session : Session} {u v : User} {front middle back : List User}
    (rows : db.withPassword server params = front ++ u :: middle ++ v :: back) :
    logIn server db params fails session = (2, session) := by
  unfold logIn
  split
  · rfl
  · split
    · rename_i user alone
      have lengths := congrArg List.length (rows.symm.trans alone)
      simp at lengths
      omega
    · rfl

theorem logIn_accepts {params : Params} {fails : Bool} {session : Session}
    (accepted : (logIn server db params fails session).1 = 1) : ∃ user, db.withPassword server params = [user] := by
  unfold logIn at accepted
  split at accepted
  · cases accepted
  · split at accepted
    · rename_i user rows
      exact ⟨user, rows⟩
    · cases accepted

/-- Without an accepted code no user is changed. -/
theorem activateAccount_users (c : List Byte) (attempt : Attempt) :
    (activateAccount server db c attempt).2.users = db.users ∨
      ∃ row ∈ db.codes, server.accepts c attempt.now row ∧
        (activateAccount server db c attempt).2.users =
          db.users.map fun user => if user.id = row.utilizator then user.activate else user := by
  unfold activateAccount
  split
  · exact .inl rfl
  · split
    · rename_i row found
      split
      · exact .inl rfl
      · have member : row ∈ db.codes.filter (server.accepts c attempt.now) := by
          rw [found]
          exact List.mem_singleton_self _
        obtain ⟨there, accepted⟩ := List.mem_filter.1 member
        exact .inr ⟨row, there, accepted, rfl⟩
    · exact .inl rfl

/-- No code row is added. -/
theorem activateAccount_codes {row : Code} {c : List Byte} {attempt : Attempt}
    (member : row ∈ (activateAccount server db c attempt).2.codes) : row ∈ db.codes := by
  unfold activateAccount at member
  split at member
  · exact member
  · split at member
    · split at member
      · exact member
      · dsimp only at member
        split at member
        · exact member
        · exact (List.mem_filter.1 member).1
    · exact member

end GtpLibrary.Login

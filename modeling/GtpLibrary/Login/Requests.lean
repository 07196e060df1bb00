import Mathlib.Logic.Function.Basic
import GtpLibrary.Lib.Runs
import GtpLibrary.Login.CreateAnAccount

/-!
# Requests that run at the same time

A request of `createAnAccount` sends up to four statements and a mail. The server runs
each statement at once; between two of them any other request may send its own. The
tables are shared, `LAST_INSERT_ID()` belongs to the connection of the request.
`run_alone` says that a request which nobody interrupts is `createAnAccount`.
-/

namespace GtpLibrary.Login

open Lib

/-- How far a request is. -/
inductive Progress
  | started
  /-- The count query found no row, and the statement for the user is built. -/
  | checked (insert : Insert)
  | userAdded
  | codeAdded
  | selected
  | returned (code : Nat)
  deriving DecidableEq

/-- A request: its session, its parameters, its connection, and how far it has come. -/
structure Request where
  sessionId : List Byte
  params : Params
  lastInsertId : Nat
  progress : Progress

/-- What a request asks of the outside, in order, with what happens to it. -/
inductive Statement
  | count (fails : Bool)
  | insertUser (row : Option (Nat × Bool))
  | insertCode (row : Option (Nat × Nat))
  | selectCode (fails : Bool)
  | mail (sent : Bool)

/-- What PHP does behind the count query: it returns, or goes on with the statement for
the user. -/
def afterCount (collation : Collation) (db : Database) (params : Params) (fails : Bool) : Progress :=
  if fails then .returned 11
  else if db.countEmail collation (toText params.email) ≠ 0 then .returned 1
  else match buildInsert params with
    | .error code => .returned code
    | .ok insert => .checked insert

/-- One statement of a request, at the tables of the server and the id of its connection. -/
def Request.send (collation : Collation) (request : Request) (db : Database) :
    Statement → Option (Progress × Database)
  | .count fails =>
    match request.progress with
    | .started => some (afterCount collation db request.params fails, db)
    | _ => none
  | .insertUser row =>
    match request.progress with
    | .checked insert =>
      match db.insertUser insert row with
      | none => some (.returned 4, db)
      | some db => some (.userAdded, db)
    | _ => none
  | .insertCode row =>
    match request.progress with
    | .userAdded =>
      match db.insertCode request.sessionId row with
      | none => some (.returned 7, db)
      | some db => some (.codeAdded, db)
    | _ => none
  | .selectCode fails =>
    match request.progress with
    | .codeAdded => some (if fails then .returned 8 else .selected, db)
    | _ => none
  | .mail sent =>
    match request.progress with
    | .selected => some (.returned (if sent then 10 else 9), db)
    | _ => none

/-- The tables and the requests, by number. -/
structure System where
  users : List User
  codes : List Code
  requests : Nat → Option Request

/-- The tables as the connection of a request sees them. -/
def System.database (s : System) (request : Request) : Database := ⟨s.users, s.codes, request.lastInsertId⟩

/-- A request arrives, or sends its next statement. -/
inductive Label
  /-- A new request, on a connection with the given `LAST_INSERT_ID()`. -/
  | arrive (r : Nat) (sessionId : List Byte) (params : Params) (lastInsertId : Nat)
  | send (r : Nat) (statement : Statement)

/-- The request behind a statement that left it with the tables `db`. -/
def Request.at (request : Request) (progress : Progress) (db : Database) : Request :=
  { request with lastInsertId := db.lastInsertId, progress := progress }

/-- A request goes on and leaves the database changed. -/
def System.put (s : System) (r : Nat) (request : Request) (progress : Progress) (db : Database) : System where
  users := db.users
  codes := db.codes
  requests := Function.update s.requests r (some (request.at progress db))

/-- A request arrives, or the server answers a statement. -/
def step (collation : Collation) (s : System) : Label → Option System
  | .arrive r sessionId params lastInsertId =>
    match s.requests r with
    | none =>
      some { s with
        requests := Function.update s.requests r (some ⟨sessionId, params, lastInsertId, .started⟩) }
    | some _ => none
  | .send r statement =>
    match s.requests r with
    | none => none
    | some request =>
      (request.send collation (s.database request) statement).map fun next => s.put r request next.1 next.2

section
variable {collation : Collation} {s t : System} {r : Nat} {request : Request} {statement : Statement}

/-- A statement that is answered is a step. -/
theorem step_send (there : s.requests r = some request) {progress : Progress} {db : Database}
    (sent : request.send collation (s.database request) statement = some (progress, db)) :
    step collation s (.send r statement) = some (s.put r request progress db) := by
  simp only [step, there, sent, Option.map_some]

/-- A statement that was taken, with its request. -/
theorem send_of_step (taken : step collation s (.send r statement) = some t) :
    ∃ request progress db, s.requests r = some request ∧
      request.send collation (s.database request) statement = some (progress, db) ∧
      t = s.put r request progress db := by
  simp only [step] at taken
  split at taken
  · cases taken
  · rename_i request there
    obtain ⟨⟨progress, db⟩, sent, rfl⟩ := Option.map_eq_some_iff.1 taken
    exact ⟨request, progress, db, there, sent, rfl⟩

/-- Only the `insert` of a user adds one. -/
theorem Request.users_of_send {db after : Database} {progress : Progress}
    (sent : request.send collation db statement = some (progress, after)) :
    after.users = db.users ∨
      ∃ insert row, statement = .insertUser row ∧ request.progress = .checked insert ∧
        db.insertUser insert row = some after := by
  cases statement with
  | insertUser row =>
    simp only [Request.send] at sent
    split at sent
    · rename_i insert checked
      split at sent
      · cases sent
        exact .inl rfl
      · rename_i written
        cases sent
        exact .inr ⟨insert, row, rfl, checked, written⟩
    · cases sent
  | insertCode row =>
    simp only [Request.send] at sent
    split at sent
    · cases row <;> cases sent <;> exact .inl rfl
    · cases sent
  | count | selectCode | mail =>
    simp only [Request.send] at sent
    split at sent <;> cases sent
    exact .inl rfl

/-- Only the count query leaves a request in front of its `insert`. -/
theorem Request.checked_of_send {db after : Database} {insert : Insert}
    (sent : request.send collation db statement = some (.checked insert, after)) :
    after = db ∧ db.countEmail collation (toText request.params.email) = 0 ∧
      buildInsert request.params = .ok insert := by
  cases statement with
  | count fails =>
    simp only [Request.send, afterCount] at sent
    split at sent
    · split at sent
      · cases sent
      · split at sent
        · cases sent
        · rename_i none
          split at sent
          · cases sent
          · rename_i built
            cases sent
            exact ⟨rfl, not_not.1 none, built⟩
    · cases sent
  | insertUser row | insertCode row =>
    simp only [Request.send] at sent
    split at sent
    · split at sent <;> cases sent
    · cases sent
  | selectCode fails =>
    simp only [Request.send] at sent
    split at sent
    · cases fails <;> cases sent
    · cases sent
  | mail sent' =>
    simp only [Request.send] at sent
    split at sent <;> cases sent

/-! ## A request nobody interrupts -/

@[simp] theorem System.put_request (progress : Progress) (db : Database) :
    (s.put r request progress db).requests r = some (request.at progress db) := Function.update_self ..

/-- What a request sends where `createAnAccount` meets the given outcome. -/
def Outcome.statements (outcome : Outcome) : List Statement :=
  [.count outcome.countFails, .insertUser outcome.userRow, .insertCode outcome.codeRow,
    .selectCode outcome.selectFails, .mail outcome.mailSent]

/-- The request returns behind some of the statements, with the given code and tables. -/
def Ends (collation : Collation) (s : System) (r : Nat) (statements : List Statement) (result : Nat × Database) :
    Prop :=
  ∃ sent t request, sent <+: statements ∧ run (step collation) s (sent.map (Label.send r)) = some t ∧
    t.requests r = some request ∧ request.progress = .returned result.1 ∧ t.database request = result.2

/-- A request that has returned has come to its end. -/
theorem Ends.here {code : Nat} {statements : List Statement} (there : s.requests r = some request)
    (returned : request.progress = .returned code) :
    Ends collation s r statements (code, s.database request) :=
  ⟨[], s, request, List.nil_prefix, rfl, there, returned, rfl⟩

/-- A statement in front of the others. -/
theorem Ends.next {statements : List Statement} {result : Nat × Database} {progress : Progress} {db : Database}
    (there : s.requests r = some request)
    (taken : request.send collation (s.database request) statement = some (progress, db))
    (ends : Ends collation (s.put r request progress db) r statements result) :
    Ends collation s r (statement :: statements) result := by
  obtain ⟨sent, t, request', front, ran, there', returned, tables⟩ := ends
  refine ⟨statement :: sent, t, request', List.cons_prefix_cons.2 ⟨rfl, front⟩, ?_, there', returned, tables⟩
  rw [List.map_cons]
  exact run_cons_eq_some.2 ⟨_, step_send there taken, ran⟩

/-- A request that returns with its first statement. -/
theorem Ends.last {statements : List Statement} {code : Nat} {db : Database} (there : s.requests r = some request)
    (taken : request.send collation (s.database request) statement = some (.returned code, db)) :
    Ends collation s r (statement :: statements) (code, db) :=
  .next there taken (.here (System.put_request ..) rfl)

/-- The next statement behind one that left the request with the tables `db`. -/
theorem Ends.put_next {statements : List Statement} {result : Nat × Database} {progress next : Progress}
    {db after : Database} (taken : (request.at progress db).send collation db statement = some (next, after))
    (ends : Ends collation ((s.put r request progress db).put r (request.at progress db) next after) r statements
      result) :
    Ends collation (s.put r request progress db) r (statement :: statements) result :=
  .next (System.put_request ..) taken ends

/-- The last statement of a request. -/
theorem Ends.put_last {statements : List Statement} {code : Nat} {progress : Progress} {db after : Database}
    (taken : (request.at progress db).send collation db statement = some (.returned code, after)) :
    Ends collation (s.put r request progress db) r (statement :: statements) (code, after) :=
  .last (System.put_request ..) taken

/-- The account could not be inserted. -/
theorem Request.send_insertUser_none {db : Database} {insert : Insert} {row : Option (Nat × Bool)}
    (checked : request.progress = .checked insert) (failed : db.insertUser insert row = none) :
    request.send collation db (.insertUser row) = some (.returned 4, db) := by
  simp only [Request.send, checked, failed]

/-- The account was inserted. -/
theorem Request.send_insertUser_some {db after : Database} {insert : Insert} {row : Option (Nat × Bool)}
    (checked : request.progress = .checked insert) (added : db.insertUser insert row = some after) :
    request.send collation db (.insertUser row) = some (.userAdded, after) := by
  simp only [Request.send, checked, added]

/-- The code could not be inserted. -/
theorem Request.send_insertCode_none {db : Database} {row : Option (Nat × Nat)}
    (added : request.progress = .userAdded) (failed : db.insertCode request.sessionId row = none) :
    request.send collation db (.insertCode row) = some (.returned 7, db) := by
  simp only [Request.send, added, failed]

/-- The code was inserted. -/
theorem Request.send_insertCode_some {db after : Database} {row : Option (Nat × Nat)}
    (added : request.progress = .userAdded) (coded : db.insertCode request.sessionId row = some after) :
    request.send collation db (.insertCode row) = some (.codeAdded, after) := by
  simp only [Request.send, added, coded]

/-- The code is looked up for the mail. -/
theorem Request.send_selectCode {db : Database} {fails : Bool} (coded : request.progress = .codeAdded)
    (found : ¬ fails = true) : request.send collation db (.selectCode fails) = some (.selected, db) := by
  simp [Request.send, coded, found]

/-- **Without interruption a request is `createAnAccount`.** -/
theorem run_alone (outcome : Outcome) (there : s.requests r = some request)
    (fresh : request.progress = .started) :
    Ends collation s r outcome.statements
      (createAnAccount collation request.sessionId (s.database request) request.params outcome) := by
  unfold Outcome.statements createAnAccount
  by_cases fails : outcome.countFails = true
  · rw [if_pos fails]
    apply Ends.last there
    simp [Request.send, fresh, afterCount, fails]
  rw [if_neg fails]
  by_cases found : (s.database request).countEmail collation (toText request.params.email) ≠ 0
  · rw [if_pos found]
    apply Ends.last there
    simp only [Request.send, fresh, afterCount]
    rw [if_neg fails, if_pos found]
  rw [if_neg found]
  cases built : buildInsert request.params with
  | error code =>
    apply Ends.last there
    simp only [Request.send, fresh, afterCount, built]
    rw [if_neg fails, if_neg found]
  | ok insert =>
    have checked : request.send collation (s.database request) (.count outcome.countFails) =
        some (.checked insert, s.database request) := by
      simp only [Request.send, fresh, afterCount, built]
      rw [if_neg fails, if_neg found]
    apply Ends.next there checked
    dsimp only
    cases added : (s.database request).insertUser insert outcome.userRow with
    | none =>
      apply Ends.put_last
      exact Request.send_insertUser_none rfl added
    | some db =>
      apply Ends.put_next (Request.send_insertUser_some rfl added)
      dsimp only
      cases coded : db.insertCode request.sessionId outcome.codeRow with
      | none =>
        apply Ends.put_last
        exact Request.send_insertCode_none rfl coded
      | some db' =>
        apply Ends.put_next (Request.send_insertCode_some rfl coded)
        dsimp only
        by_cases lost : outcome.selectFails = true
        · rw [if_pos lost]
          apply Ends.put_last
          simp [Request.send, Request.at, lost]
        · rw [if_neg lost]
          apply Ends.put_next (Request.send_selectCode rfl lost)
          apply Ends.put_last
          rfl

end

end GtpLibrary.Login

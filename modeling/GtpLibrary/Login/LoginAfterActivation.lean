import GtpLibrary.Login.Activation

/-!
# Who may log in was activated

`logIn` does not look at `stare`, and `createAnAccount` takes any column from its params
object. Where the rows that log in are active and no object names the state column or the id,
every login has an activation before it: a row becomes active only with a code of its id
(`call_active`), so an active row is traced back to the call that presented one
(`active_of_run`). A code of an id was added with the account of this id, as `LAST_INSERT_ID()`
is the id that the server has generated for it (`call_code`).
-/

namespace GtpLibrary.Login

open Lib

/-- Only active accounts log in, and no object names the state column or the id. -/
def Guarded (server : Server) (db : Database) : Call → Prop
  | .createAnAccount _ params _ =>
    ∀ property ∈ params.properties, lowerCase property.1 ≠ stateColumn ∧ lowerCase property.1 ≠ idColumn
  | .activateAccount _ _ => True
  | .logIn params _ => ∀ user, db.withPassword server params = [user] → user.Active

/-- The account's own code: one of the calls has added it with the account, or it was in the tables at the start. -/
def OwnCode (server : Server) (db : Database) (calls : List Call) (row : Code) (id : Nat) : Prop :=
  (row ∈ db.codes ∧ row.utilizator = id) ∨
    ∃ before c later db', calls = before ++ c :: later ∧ run (call server) db before = some db' ∧
      AddsAccount server db' c row id

/-- Among the calls is one of `activateAccount` that presented, in time, the account's own code. -/
def Presented (server : Server) (db : Database) (calls : List Call) (id : Nat) : Prop :=
  ∃ before c attempt later db' row, calls = before ++ Call.activateAccount c attempt :: later ∧
    run (call server) db before = some db' ∧ Presents server db' c attempt.now row ∧ OwnCode server db before row id

section
variable {server : Server} {db next after : Database} {user : User} {row : Code} {calls : List Call} {c : Call} {id : Nat}

/-! ## One call -/

/-- An active row was active before the call, or the call presented a code of its id. -/
theorem call_active (guarded : Guarded server db c) (taken : call server db c = some after)
    (member : user ∈ after.users) (active : user.Active) :
    (∃ old ∈ db.users, old.Active ∧ old.id = user.id) ∨
      ∃ code attempt row, c = .activateAccount code attempt ∧ Presents server db code attempt.now row ∧
        row.utilizator = user.id := by
  cases c with
  | logIn params fails =>
    cases taken
    exact .inl ⟨user, member, active, rfl⟩
  | createAnAccount sessionId params outcome =>
    have exit : Exit sessionId db params (createAnAccount server.email sessionId db params outcome) :=
      createAnAccount_exit
    cases taken
    rcases exit.mem_users member with old | built
    · exact .inl ⟨user, old, active, rfl⟩
    · obtain ⟨property, there, name⟩ := property_of_insert built (Option.isSome_iff_exists.2 ⟨_, active⟩)
      exact absurd name (guarded property there).1
  | activateAccount code attempt =>
    cases taken
    rcases activateAccount_users code attempt with same | ⟨row, there, accepted, users⟩
    · rw [same] at member
      exact .inl ⟨user, member, active, rfl⟩
    · rw [users] at member
      obtain ⟨old, oldMember, rfl⟩ := List.mem_map.1 member
      by_cases own : old.id = row.utilizator
      · rw [if_pos own]
        exact .inr ⟨code, attempt, row, rfl, ⟨there, accepted⟩, own.symm⟩
      · rw [if_neg own] at active ⊢
        exact .inl ⟨old, oldMember, active, rfl⟩

/-- A code row is added with the account that it names. -/
theorem call_code (guarded : Guarded server db c) (taken : call server db c = some after) (member : row ∈ after.codes) :
    row ∈ db.codes ∨ AddsAccount server db c row row.utilizator := by
  cases c with
  | logIn params fails =>
    cases taken
    exact .inl member
  | activateAccount code attempt =>
    cases taken
    exact .inl (activateAccount_codes member)
  | createAnAccount sessionId params outcome =>
    have exit : Exit sessionId db params (createAnAccount server.email sessionId db params outcome) :=
      createAnAccount_exit
    obtain rfl : (createAnAccount server.email sessionId db params outcome).2 = after := Option.some.inj taken
    generalize made : createAnAccount server.email sessionId db params outcome = result at exit member taken
    cases exit with
    | untouched | user => exact .inl member
    | both _ built _ owner =>
      rcases List.mem_append.1 member with old | new
      · exact .inl old
      · obtain rfl := List.mem_singleton.1 new
        refine .inr ⟨_, _, taken, ?_, rfl, rfl⟩
        rcases owner with own | set
        · exact own.symm
        · obtain ⟨property, there, name⟩ := property_of_insert built set
          exact absurd name (guarded property there).2

/-! ## A run -/

theorem OwnCode.cons (guarded : Guarded server db c) (taken : call server db c = some next)
    (own : OwnCode server next calls row id) : OwnCode server db (c :: calls) row id := by
  rcases own with ⟨there, rfl⟩ | ⟨before, c', later, db', rfl, ran, adds⟩
  · rcases call_code guarded taken there with old | adds
    · exact .inl ⟨old, rfl⟩
    · exact .inr ⟨[], c, calls, db, rfl, rfl, adds⟩
  · exact .inr ⟨c :: before, c', later, db', rfl, run_cons_eq_some.2 ⟨next, taken, ran⟩, adds⟩

/-- An active row was active at the start of the run, or its code was presented in the run. -/
theorem active_of_run (along : Along (call server) (Guarded server) db calls)
    (ran : run (call server) db calls = some after) (member : user ∈ after.users) (active : user.Active) :
    (∃ old ∈ db.users, old.Active ∧ old.id = user.id) ∨ Presented server db calls user.id := by
  induction calls generalizing db with
  | nil =>
    cases ran
    exact .inl ⟨user, member, active, rfl⟩
  | cons c calls ih =>
    obtain ⟨next, taken, ran⟩ := run_cons_eq_some.1 ran
    rcases ih (along.2 next taken) ran with ⟨old, oldMember, oldActive, same⟩ | presented
    · rcases call_active along.1 taken oldMember oldActive with ⟨first, there, firstActive, same'⟩ | presents
      · exact .inl ⟨first, there, firstActive, same'.trans same⟩
      · obtain ⟨code, attempt, row, rfl, presents, names⟩ := presents
        exact .inr ⟨[], code, attempt, calls, db, row, rfl, rfl, presents, .inl ⟨presents.1, names.trans same⟩⟩
    · obtain ⟨before, code, attempt, later, db', row, rfl, ran', presents, own⟩ := presented
      exact .inr ⟨c :: before, code, attempt, later, db', row, rfl, run_cons_eq_some.2 ⟨next, taken, ran'⟩, presents,
        own.cons along.1 taken⟩

/-- **No login before activation.** In a guarded run from tables without active users, an
accepted login is one of an account whose own code was presented in time before. -/
theorem logIn_after_activation {params : Params} {fails : Bool} {session : Session}
    (start : ∀ user ∈ db.users, ¬ user.Active)
    (along : Along (call server) (Guarded server) db (calls ++ [.logIn params fails]))
    (ran : run (call server) db calls = some after) (accepted : (logIn server after params fails session).1 = 1) :
    ∃ user, after.withPassword server params = [user] ∧ Presented server db calls user.id := by
  obtain ⟨user, alone⟩ := logIn_accepts accepted
  obtain ⟨alongCalls, guarded⟩ := along_append.1 along
  have active : user.Active := (guarded after ran).1 user alone
  have member : user ∈ after.users := by
    have found : user ∈ after.withPassword server params := by
      rw [alone]
      exact List.mem_singleton_self _
    exact (List.mem_filter.1 found).1
  rcases active_of_run alongCalls ran member active with ⟨old, oldMember, oldActive, -⟩ | presented
  · exact absurd oldActive (start old oldMember)
  · exact ⟨user, alone, presented⟩

end

/-- A server on which session `1` registers user 1 on the first of May 2013; `SHA1` and the
printed time are given where this run asks for them. -/
def mayServer : Server where
  email := .binary
  password := .binary
  code := .binary
  sha1 s := if s = text "1" then text "356a192b7913b04c54574d18c28d46e6395428ab"
    else text "1f42781d0cb0a0fd917b8b983049e2222ba244af"
  datetime _ := text "2013-05-01 10:00:00"

def mayParams : Params := ⟨[(emailColumn, .string (text "a")), (passwordColumn, .string (text "p"))], by decide⟩

def mayRegistration : Call :=
  .createAnAccount (text "1") mayParams ⟨false, some (1, true), some (1, 1367402400), false, true⟩

def mayActivation : Call :=
  .activateAccount (mayServer.verificationCode ⟨1, text "1", 1, 1367402400⟩) ⟨1367406000, false, false, false⟩

def mayUser : User :=
  ⟨1, [(stateColumn, .text activeState), (emailColumn, .text (text "a")), (passwordColumn, .text (text "p"))]⟩

/-- An account is created, activated an hour later, and logs in. -/
theorem logIn_after_activation_may :
    ∃ after, run (call mayServer) ⟨[], [], 0⟩ [mayRegistration, mayActivation] = some after ∧
      (logIn mayServer after mayParams false ⟨none, false⟩).1 = 1 ∧
      ∃ user, after.withPassword mayServer mayParams = [user] ∧
        Presented mayServer ⟨[], [], 0⟩ [mayRegistration, mayActivation] user.id := by
  have accepted : (logIn mayServer ⟨[mayUser], [], 1⟩ mayParams false ⟨none, false⟩).1 = 1 := by decide
  refine ⟨_, by decide, accepted, logIn_after_activation (fun user member => by cases member) ?_
    (by decide) accepted⟩
  refine (along_cons rfl).2 ⟨?_, (along_cons rfl).2 ⟨trivial, ?_⟩⟩
  · show ∀ property ∈ mayParams.properties, lowerCase property.1 ≠ stateColumn ∧ lowerCase property.1 ≠ idColumn
    decide
  refine (along_cons rfl).2 ⟨?_, trivial⟩
  intro user alone
  have row : [mayUser] = [user] := by
    rw [← alone]
    decide
  obtain rfl := List.singleton_inj.1 row
  rfl

/-- An account that was never activated logs in. -/
theorem logIn_without_activation :
    ∃ after, run (call mayServer) ⟨[], [], 0⟩ [mayRegistration] = some after ∧
      (logIn mayServer after mayParams false ⟨none, false⟩).1 = 1 ∧
      ∀ id, ¬ Presented mayServer ⟨[], [], 0⟩ [mayRegistration] id := by
  refine ⟨_, rfl, by decide, ?_⟩
  rintro id ⟨before, c, attempt, later, db', row, split, -⟩
  have member : Call.activateAccount c attempt ∈ [mayRegistration] := by
    rw [split]
    exact List.mem_append_right _ (List.mem_cons_self ..)
  cases List.mem_singleton.1 member

end GtpLibrary.Login

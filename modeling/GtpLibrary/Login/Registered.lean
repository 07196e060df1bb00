import GtpLibrary.Login.LoginAfterActivation

/-!
# Who is registered can log in

Requests that come one after the other keep the emails distinct, no call removes a user, and none
changes an email or a password. So the row of an account is the one that `logIn` finds, also where
`createAnAccount` has returned an error behind the `insert`.
-/

namespace GtpLibrary.Login

open Lib

/-- The call registers the email that it looks up. -/
def Call.EmailChecked : Call → Prop
  | .createAnAccount _ params _ => params.EmailChecked
  | _ => True

/-- The row of an account. -/
structure User.Is (user : User) (id : Nat) (email password : List Byte) : Prop where
  id : user.id = id
  email : Insert.value user.columns emailColumn = some (.text email)
  password : Insert.value user.columns passwordColumn = some (.text password)

section
variable {server : Server} {db after : Database} {params : Params} {outcome : Outcome} {sessionId : List Byte}
  {insert : Insert} {c : Call} {id : Nat} {email password : List Byte} {user : User}

/-! ## The other columns -/

theorem value_set (columns : Insert) {column other : Name} (lower : lowerCase other = other) (away : column ≠ other)
    (value : SqlValue) : Insert.value (columns.set other value) column = Insert.value columns column := by
  have first : lowerCase other ≠ column := fun same => away (same.symm.trans lower)
  have kept : ∀ entry : Name × SqlValue, lowerCase entry.1 = column → lowerCase entry.1 ≠ other :=
    fun entry here same => away (here.symm.trans same)
  unfold Insert.value Insert.set
  rw [List.find?_cons_of_neg (by simpa using first), List.find?_filter]
  congr 2
  funext entry
  by_cases here : lowerCase entry.1 = column
  · simp [here, away]
  · simp [here]

theorem value_activate (user : User) {column : Name} (away : column ≠ stateColumn) :
    Insert.value user.activate.columns column = Insert.value user.columns column :=
  value_set user.columns (by decide) away _

theorem hasEmail_activate (user : User) (collation : Collation) (email : List Byte) :
    user.activate.hasEmail collation email = user.hasEmail collation email := by
  unfold User.hasEmail
  rw [value_activate user (by decide)]

theorem User.Is.activate (is : user.Is id email password) : user.activate.Is id email password where
  id := is.id
  email := (value_activate user (by decide)).trans is.email
  password := (value_activate user (by decide)).trans is.password

/-- What is given as a string stands in the statement. -/
theorem buildInsert_string {column : Name} {s : List Byte} (lower : lowerCase column = column)
    (ok : buildInsert params = .ok insert) (once : (insert.map fun e => lowerCase e.1).Nodup)
    (given : (params.properties.lookup column).getD .null = .string s) : Insert.value insert column = some (.text s) := by
  have there : params.properties.lookup column = some (.string s) := by
    cases found : params.properties.lookup column with
    | none => rw [found] at given; cases given
    | some value =>
      rw [found] at given
      exact congrArg some given
  obtain ⟨front, back, split, -⟩ := List.lookup_eq_some_iff.1 there
  obtain ⟨entry, member, name, value⟩ := exists_of_mem (buildInsert_ok ok)
    (show (column, PhpValue.string s) ∈ params.properties by rw [split]; simp)
  have text : entry.2 = .text s := (Except.ok.inj value).symm
  have found := Insert.value_of_mem once member
  rwa [name, text, lower] at found

/-! ## Distinct emails -/

/-- A user is added behind a count that found none. -/
theorem createAnAccount_users (collation : Collation) (sessionId : List Byte) (db : Database) (params : Params)
    (outcome : Outcome) :
    (createAnAccount collation sessionId db params outcome).2.users = db.users ∨
      ∃ id insert, (createAnAccount collation sessionId db params outcome).2.users = db.users ++ [⟨id, insert⟩] ∧
        buildInsert params = .ok insert ∧ (insert.map fun e => lowerCase e.1).Nodup ∧
        db.countEmail collation (toText params.email) = 0 ∧ ∃ generated, outcome.userRow = some (id, generated) := by
  unfold createAnAccount
  split
  · exact .inl rfl
  · split
    · exact .inl rfl
    · rename_i free
      cases built : buildInsert params with
      | error code => exact .inl rfl
      | ok insert =>
        cases drawn : outcome.userRow with
        | none => exact .inl rfl
        | some row =>
          obtain ⟨id, generated⟩ := row
          simp only [Database.insertUser]
          split
          · exact .inl rfl
          · rename_i added
            simp only [Option.ite_none_right_eq_some, Option.some.injEq] at added
            obtain ⟨⟨-, once⟩, rfl⟩ := added
            refine .inr ⟨id, insert, ?_, rfl, once, not_not.1 free, generated, rfl⟩
            split
            · rfl
            · rename_i coded
              cases code : outcome.codeRow with
              | none =>
                rw [code] at coded
                cases coded
              | some codeRow =>
                obtain ⟨codeId, ct⟩ := codeRow
                rw [code] at coded
                cases coded
                split <;> rfl

theorem DistinctEmails.map {collation : Collation} {users : List User} {f : User → User}
    (same : ∀ user email, (f user).hasEmail collation email = user.hasEmail collation email)
    (distinct : DistinctEmails collation users) : DistinctEmails collation (users.map f) := by
  rw [DistinctEmails, List.pairwise_map]
  simp only [same]
  exact distinct

theorem createAnAccount_distinct {collation : Collation} (equality : collation.Equality)
    (distinct : DistinctEmails collation db.users) (checked : params.EmailChecked) :
    DistinctEmails collation (createAnAccount collation sessionId db params outcome).2.users := by
  rcases createAnAccount_users collation sessionId db params outcome with same | ⟨id, insert, added, built, once, free, -⟩
  · rw [same]
    exact distinct
  · rw [added]
    -- the request of its own at tables that nobody else uses
    let s : System := ⟨db.users, db.codes, fun _ => none⟩
    have passed : Checked collation s.users ⟨sessionId, params, 0, .started⟩ insert := by
      refine ⟨built, fun email given user member => ?_⟩
      have none := countEmail_eq_zero free user member
      rwa [show params.email = .string email from given] at none
    exact Checked.distinct (s := s) equality passed distinct once checked

theorem call_distinct (equality : server.email.Equality) (distinct : DistinctEmails server.email db.users)
    (checked : c.EmailChecked) (taken : call server db c = some after) : DistinctEmails server.email after.users := by
  cases c with
  | createAnAccount sessionId params outcome =>
    cases taken
    exact createAnAccount_distinct equality distinct checked
  | logIn params fails =>
    cases taken
    exact distinct
  | activateAccount code attempt =>
    cases taken
    rcases activateAccount_users code attempt with same | ⟨row, -, -, users⟩
    · rw [same]
      exact distinct
    · rw [users]
      refine distinct.map fun user email => ?_
      split
      · exact hasEmail_activate user server.email email
      · rfl

/-! ## The row of an account -/

/-- No call removes the row or gives it another email or password. -/
theorem call_is (there : ∃ user ∈ db.users, user.Is id email password) (taken : call server db c = some after) :
    ∃ user ∈ after.users, user.Is id email password := by
  obtain ⟨user, member, is⟩ := there
  cases c with
  | createAnAccount sessionId params outcome =>
    cases taken
    refine ⟨user, ?_, is⟩
    rcases createAnAccount_users server.email sessionId db params outcome with same | ⟨id, insert, added, -⟩
    · rw [same]
      exact member
    · rw [added]
      exact List.mem_append_left _ member
  | logIn params fails =>
    cases taken
    exact ⟨user, member, is⟩
  | activateAccount code attempt =>
    cases taken
    rcases activateAccount_users code attempt with same | ⟨row, -, -, users⟩
    · rw [same]
      exact ⟨user, member, is⟩
    · rw [users]
      refine ⟨_, List.mem_map.2 ⟨user, member, rfl⟩, ?_⟩
      split
      · exact is.activate
      · exact is

theorem createAnAccount_is (collation : Collation) {generated : Bool}
    (row : outcome.userRow = some (id, generated))
    (created : (createAnAccount collation sessionId db params outcome).1 ∈ [7, 8, 9, 10])
    (given : params.email = .string email) (secret : params.password = .string password) :
    ∃ user ∈ (createAnAccount collation sessionId db params outcome).2.users, user.Is id email password := by
  have exit : Exit sessionId db params (createAnAccount collation sessionId db params outcome) := createAnAccount_exit
  rcases createAnAccount_users collation sessionId db params outcome with same | ⟨id', insert, added, built, once, -, _, row'⟩
  · -- behind the other codes there is one user more
    have longer : (createAnAccount collation sessionId db params outcome).2.users ≠ db.users := by
      generalize createAnAccount collation sessionId db params outcome = result at exit created
      cases exit with
      | untouched known =>
        simp only [untouchedCodes, List.mem_cons, List.not_mem_nil, or_false] at known created
        omega
      | user | both => simp
    exact absurd same longer
  · cases row.symm.trans row'
    rw [added]
    refine ⟨_, List.mem_append_right _ (List.mem_singleton_self _), rfl, ?_, ?_⟩
    · exact buildInsert_string (by decide) built once given
    · exact buildInsert_string (by decide) built once secret

/-- A row that is alone with its email is the one that is found. -/
theorem filter_eq_singleton {α : Type} {p : α → Bool} {l : List α} {a : α} (alone : l.Pairwise fun x y => p x → ¬ p y)
    (member : a ∈ l) (holds : p a) : l.filter p = [a] := by
  induction l with
  | nil => cases member
  | cons b l ih =>
    rw [List.pairwise_cons] at alone
    rcases List.mem_cons.1 member with rfl | later
    · rw [List.filter_cons_of_pos holds, List.filter_eq_nil_iff.2 fun x inside => alone.1 x inside holds]
    · rw [List.filter_cons_of_neg fun first => alone.1 a later first holds, ih alone.2 later]

/-- **Who is registered can log in.** Behind a `createAnAccount` that has added its user, in every
later state, `logIn` with the email answers by the password alone. -/
theorem logIn_registered (equality : server.email.Equality) (start : DistinctEmails server.email db.users)
    {generated : Bool} {before later : List Call} {first last : Database}
    (checked : ∀ c ∈ before ++ .createAnAccount sessionId params outcome :: later, c.EmailChecked)
    (ran : run (call server) db before = some first) (row : outcome.userRow = some (id, generated))
    (created : (createAnAccount server.email sessionId first params outcome).1 ∈ [7, 8, 9, 10])
    (given : params.email = .string email) (secret : params.password = .string password)
    (ran' : run (call server) (createAnAccount server.email sessionId first params outcome).2 later = some last)
    (shown : Params) (own : toText shown.email = email) (session : Session) :
    ∃ user, user.Is id email password ∧ logIn server last shown false session =
      if server.password.same (.text password) (toText shown.password) then (1, ⟨some user, true⟩) else (2, session) := by
  obtain ⟨checkedBefore, checkedHere, checkedLater⟩ := List.forall_mem_append.1 checked |>.imp_right List.forall_mem_cons.1
  have distinctAlong : ∀ {calls : List Call} {s t : Database}, (∀ c ∈ calls, c.EmailChecked) →
      DistinctEmails server.email s.users → run (call server) s calls = some t → DistinctEmails server.email t.users := by
    intro calls s t all distinct ran
    let Distinct : Database → Prop := fun db => DistinctEmails server.email db.users
    have keep : ∀ {s t c}, Distinct s → c.EmailChecked → call server s c = some t → Distinct t := call_distinct equality
    have start : Distinct s := distinct
    show Distinct t
    exact (Along.of_labels all).invariant keep start ran
  have distinct := distinctAlong checkedLater
    (createAnAccount_distinct equality (distinctAlong checkedBefore start ran) checkedHere) ran'
  obtain ⟨user, member, is⟩ := run_invariant (fun db => ∃ user ∈ db.users, user.Is id email password) call_is
    (createAnAccount_is server.email row created given secret) ran'
  have answers : user.hasEmail server.email (toText shown.email) = true := by
    rw [User.hasEmail, is.email, own]
    exact server.email.refl email
  have alone := filter_eq_singleton (distinct.imp fun apart => apart (toText shown.email)) member answers
  have found : last.withPassword server shown =
      [user].filter fun user => (Insert.value user.columns passwordColumn).any fun stored =>
        server.password.same stored (toText shown.password) := by
    rw [← alone, List.filter_filter, Database.withPassword]
    exact List.filter_congr fun user _ => Bool.and_comm _ _
  refine ⟨user, is, ?_⟩
  unfold logIn
  rw [if_neg Bool.false_ne_true, found]
  by_cases known : server.password.same (.text password) (toText shown.password) = true
  · rw [if_pos known, List.filter_cons_of_pos (by rw [is.password]; exact known)]
    rfl
  · rw [if_neg known, List.filter_cons_of_neg (by rw [is.password]; exact known)]
    rfl

end

/-- The verification code is not added, and somebody else registers. -/
theorem logIn_registered_seven : ∃ last,
    run (call mayServer) (createAnAccount .binary (text "1") ⟨[], [], 0⟩ mayParams ⟨false, some (1, true), none, false, true⟩).2
      [.createAnAccount (text "2") (paramsOf (text "b")) ⟨false, some (2, true), some (1, 0), false, true⟩] = some last ∧
    ∃ user, user.Is 1 (text "a") (text "p") ∧
      logIn mayServer last mayParams false ⟨none, false⟩ = (1, ⟨some user, true⟩) := by
  have checked : ∀ c ∈ [] ++ Call.createAnAccount (text "1") mayParams ⟨false, some (1, true), none, false, true⟩ ::
      [.createAnAccount (text "2") (paramsOf (text "b")) ⟨false, some (2, true), some (1, 0), false, true⟩],
      c.EmailChecked := by
    simp only [List.nil_append, List.forall_mem_cons]
    exact ⟨.inl ⟨text "a", rfl⟩, .inl ⟨text "b", rfl⟩, nofun⟩
  have start : DistinctEmails mayServer.email (Database.users ⟨[], [], 0⟩) := List.Pairwise.nil
  refine ⟨_, rfl, ?_⟩
  exact logIn_registered Collation.binary_equality start checked rfl rfl (by decide) rfl rfl rfl mayParams rfl ⟨none, false⟩

end GtpLibrary.Login

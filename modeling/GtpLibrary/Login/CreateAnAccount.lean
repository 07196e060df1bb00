import GtpLibrary.Lib.Checks
import GtpLibrary.Login.LoginSystem

/-!
# What an attempt to create an account leaves behind

There is no transaction: a code from 7 on is returned behind one or two rows that stay.
`createAnAccount_cases` says what each exit has written, and `refused_of_row` what a row
left behind means to the next attempt with the same email.
-/

namespace GtpLibrary.Login

open Lib

/-- A property of the object names the id column. -/
def Params.SetsId (params : Params) : Prop := ∃ property ∈ params.properties, lowerCase property.1 = idColumn

section
variable {collation : Collation} {sessionId : List Byte} {db : Database} {params : Params} {outcome : Outcome}
  {insert : Insert} {code : Nat}

/-! ## The statement -/

theorem columnEntry_ok {property : Name × PhpValue} {name : Name} (ok : columnEntry property = .ok name) :
    name = property.1 := by
  unfold columnEntry at ok
  split at ok <;> cases ok
  rfl

theorem columnEntry_error {property : Name × PhpValue} (failed : columnEntry property = .error code) :
    code ∈ [2, 3, 5, 6] := by
  unfold columnEntry at failed
  split at failed <;> cases failed
  decide

theorem valueEntry_error {property : Name × PhpValue} (failed : valueEntry property = .error code) :
    code ∈ [2, 3, 5, 6] := by
  unfold valueEntry at failed
  split at failed
  · cases failed
  · split at failed
    · cases failed
    · split at failed <;> cases failed
      decide
  · cases failed
    decide
  · cases failed
    decide

/-- The loops return one of the codes for bad properties. -/
theorem buildInsert_error (failed : buildInsert params = .error code) : code ∈ [2, 3, 5, 6] := by
  simp only [buildInsert, bind, Except.bind, pure, Except.pure] at failed
  split at failed
  · rename_i columns
    cases failed
    obtain ⟨property, -, failed⟩ := mapM_error columns
    exact columnEntry_error failed
  · split at failed
    · rename_i values
      cases failed
      obtain ⟨property, -, failed⟩ := mapM_error values
      exact valueEntry_error failed
    · cases failed

/-- Behind the loops there are a column and a value for each property. -/
theorem exists_of_buildInsert (ok : buildInsert params = .ok insert) :
    ∃ names values, params.properties.mapM columnEntry = .ok names ∧ params.properties.mapM valueEntry = .ok values ∧
      insert = names.zip values := by
  simp only [buildInsert, bind, Except.bind, pure, Except.pure] at ok
  split at ok
  · cases ok
  · rename_i names columns
    split at ok
    · cases ok
    · rename_i values found
      cases ok
      exact ⟨names, values, columns, found, rfl⟩

/-- The entries of the statement are the properties, each with its value. -/
theorem buildInsert_ok (ok : buildInsert params = .ok insert) :
    List.Forall₂ (fun property entry => entry.1 = property.1 ∧ valueEntry property = .ok entry.2)
      params.properties insert := by
  obtain ⟨names, values, columns, found, rfl⟩ := exists_of_buildInsert ok
  refine (forall₂_side_by_side (mapM_ok columns) (mapM_ok found)).imp fun property entry both => ?_
  exact ⟨columnEntry_ok both.1, both.2⟩

/-- A column that stands once in the statement is found. -/
theorem Insert.value_of_mem {entry : Name × SqlValue} (once : (insert.map fun e => lowerCase e.1).Nodup)
    (member : entry ∈ insert) : Insert.value insert (lowerCase entry.1) = some entry.2 := by
  induction insert with
  | nil => cases member
  | cons first rest ih =>
    rw [List.map_cons, List.nodup_cons] at once
    rcases List.mem_cons.1 member with rfl | member
    · simp [Insert.value]
    · have other : lowerCase first.1 ≠ lowerCase entry.1 := fun same =>
        once.1 (same ▸ List.mem_map_of_mem (f := fun e => lowerCase e.1) member)
      rw [← ih once.2 member, Insert.value, List.find?_cons_of_neg (by simpa using other)]
      rfl

/-- A text email stands in the statement as it is. -/
theorem buildInsert_email {email : List Byte} (ok : buildInsert params = .ok insert)
    (once : (insert.map fun e => lowerCase e.1).Nodup) (given : params.email = .string email) :
    Insert.value insert emailColumn = some (.text email) := by
  have there : params.properties.lookup emailColumn = some (.string email) := by
    cases found : params.properties.lookup emailColumn with
    | none => rw [Params.email, found] at given; cases given
    | some value =>
      rw [Params.email, found] at given
      exact congrArg some given
  obtain ⟨front, back, split, -⟩ := List.lookup_eq_some_iff.1 there
  obtain ⟨entry, member, name, value⟩ := exists_of_mem (buildInsert_ok ok)
    (show (emailColumn, PhpValue.string email) ∈ params.properties by rw [split]; simp)
  have text : entry.2 = .text email := (Except.ok.inj value).symm
  have found := Insert.value_of_mem once member
  rw [name, text] at found
  exact found

/-! ## The exits -/

/-- The codes behind which nothing was written. -/
def untouchedCodes : List Nat := [1, 2, 3, 4, 5, 6, 11]

/-- What each exit has written. -/
inductive Exit (sessionId : List Byte) (db : Database) (params : Params) : Nat × Database → Prop
  | untouched {code : Nat} (known : code ∈ untouchedCodes) : Exit sessionId db params (code, db)
  | user {insert : Insert} {id lastInsertId : Nat} (built : buildInsert params = .ok insert)
      (once : (insert.map fun e => lowerCase e.1).Nodup) :
      Exit sessionId db params (7, ⟨db.users ++ [⟨id, insert⟩], db.codes, lastInsertId⟩)
  | both {insert : Insert} {code id lastInsertId : Nat} {row : Code} (known : code ∈ [8, 9, 10])
      (built : buildInsert params = .ok insert) (once : (insert.map fun e => lowerCase e.1).Nodup)
      (owner : row.utilizator = id ∨ (Insert.value insert idColumn).isSome) (cod : row.cod = sessionId) :
      Exit sessionId db params (code, ⟨db.users ++ [⟨id, insert⟩], db.codes ++ [row], lastInsertId⟩)

theorem insertUser_some {choice : Option (Nat × Bool)} {after : Database}
    (written : db.insertUser insert choice = some after) :
    (insert.map fun e => lowerCase e.1).Nodup ∧
      ∃ id last, after = ⟨db.users ++ [⟨id, insert⟩], db.codes, last⟩ ∧
        (last = id ∨ (Insert.value insert idColumn).isSome) := by
  cases choice with
  | none => cases written
  | some choice =>
    obtain ⟨id, generated⟩ := choice
    simp only [Database.insertUser, Option.ite_none_right_eq_some, Option.some.injEq] at written
    obtain ⟨⟨-, once⟩, rfl⟩ := written
    refine ⟨once, id, _, rfl, ?_⟩
    cases set : Insert.value insert idColumn with
    | none => exact .inl (by simp)
    | some value => exact .inr rfl

theorem createAnAccount_exit :
    Exit sessionId db params (createAnAccount collation sessionId db params outcome) := by
  unfold createAnAccount
  split
  · exact .untouched (by decide)
  · split
    · exact .untouched (by decide)
    · cases built : buildInsert params with
      | error code =>
        have known := buildInsert_error built
        apply Exit.untouched
        simp only [untouchedCodes, List.mem_cons, List.not_mem_nil, or_false] at known ⊢
        omega
      | ok insert =>
        cases written : db.insertUser insert outcome.userRow with
        | none =>
          simp only [written]
          exact .untouched (by decide)
        | some after =>
          obtain ⟨once, id, last, rfl, own⟩ := insertUser_some written
          simp only [written]
          cases outcome.codeRow with
          | none => exact .user built once
          | some row =>
            obtain ⟨codeId, ct⟩ := row
            have known :
                (if outcome.selectFails then 8 else if outcome.mailSent then 10 else 9) ∈ [8, 9, 10] := by
              split
              · decide
              · split <;> decide
            have exit : Exit sessionId db params (_, ⟨db.users ++ [⟨id, insert⟩],
                db.codes ++ [⟨codeId, sessionId, last, ct⟩], codeId⟩) := .both known built once own rfl
            simp only [Database.insertCode]
            split <;> simpa [*] using exit

/-- A user behind an attempt was there before, or has the columns of its statement. -/
theorem Exit.mem_users {result : Nat × Database} {user : User} (exit : Exit sessionId db params result)
    (member : user ∈ result.2.users) : user ∈ db.users ∨ buildInsert params = .ok user.columns := by
  cases exit with
  | untouched => exact .inl member
  | user built | both _ built =>
    rcases List.mem_append.1 member with old | new
    · exact .inl old
    · obtain rfl := List.mem_singleton.1 new
      exact .inr built

/-! ## The next attempt -/

/-- As long as the row is there, an attempt with the email of `params` is refused as a
duplicate, unless its count query fails. -/
def Refuses (collation : Collation) (params : Params) (user : User) : Prop :=
  ∀ email, params.email = .string email → ∀ (sessionId : List Byte) (later : Database) (retry : Params)
    (outcome : Outcome), user ∈ later.users → retry.email = .string email →
      createAnAccount collation sessionId later retry outcome = (if outcome.countFails then 11 else 1, later)

theorem refuses_of_row {id : Nat} (built : buildInsert params = .ok insert)
    (once : (insert.map fun e => lowerCase e.1).Nodup) : Refuses collation params ⟨id, insert⟩ := by
  intro email given sessionId later retry outcome there same
  have counted : later.countEmail collation (toText retry.email) ≠ 0 := by
    refine Nat.pos_iff_ne_zero.1 (List.countP_pos_iff.2 ⟨_, there, ?_⟩)
    rw [buildInsert_email built once given, same]
    exact collation.refl email
  unfold createAnAccount
  by_cases fails : outcome.countFails = true
  · rw [if_pos fails, if_pos fails]
  · rw [if_neg fails, if_neg fails, if_pos counted]

/-- The statement sets a column only where the object has such a property. -/
theorem property_of_insert {column : Name} (built : buildInsert params = .ok insert)
    (set : (Insert.value insert column).isSome = true) :
    ∃ property ∈ params.properties, lowerCase property.1 = column := by
  obtain ⟨value, found⟩ := Option.isSome_iff_exists.1 set
  obtain ⟨entry, found, -⟩ := Option.map_eq_some_iff.1 found
  obtain ⟨property, member, name, -⟩ :=
    exists_of_mem (buildInsert_ok built).flip (List.mem_of_find?_eq_some found)
  exact ⟨property, member, name ▸ by simpa using List.find?_some found⟩

/-- **What an attempt leaves behind.** With 10, 9 and 8 one user row and one code row were
added, the latter for the former unless the object sets the id column; with 7 one user row
and no code row; otherwise nothing. A user row, once there, makes the next attempts with
the same email fail. -/
theorem createAnAccount_effect (collation : Collation) (sessionId : List Byte) (db : Database) (params : Params)
    (outcome : Outcome) :
    let (code, after) := createAnAccount collation sessionId db params outcome
    (code ∈ [8, 9, 10] ∧ ∃ user row, after.users = db.users ++ [user] ∧ after.codes = db.codes ++ [row] ∧
      row.cod = sessionId ∧ (row.utilizator = user.id ∨ params.SetsId) ∧ Refuses collation params user) ∨
    (code = 7 ∧ ∃ user, after.users = db.users ++ [user] ∧ after.codes = db.codes ∧
      Refuses collation params user) ∨
    (code ∈ untouchedCodes ∧ after.users = db.users ∧ after.codes = db.codes) := by
  have exit : Exit sessionId db params (createAnAccount collation sessionId db params outcome) :=
    createAnAccount_exit
  cases exit' : createAnAccount collation sessionId db params outcome with
  | mk code after =>
    rw [exit'] at exit
    cases exit with
    | untouched known => exact .inr (.inr ⟨known, rfl, rfl⟩)
    | user built once => exact .inr (.inl ⟨rfl, _, rfl, rfl, refuses_of_row built once⟩)
    | both known built once owner cod =>
      exact .inl ⟨known, _, _, rfl, rfl, cod, owner.imp_right (property_of_insert built),
        refuses_of_row built once⟩

end

/-- Equality of bytes. -/
def Collation.binary : Collation := ⟨fun stored email => stored = .text email, fun s => by simp⟩

/-- The server does not add the verification code. -/
theorem createAnAccount_leaves_user :
    ∃ params outcome, createAnAccount .binary (text "s") ⟨[], [], 0⟩ params outcome =
      (7, ⟨[⟨1, [(text "email", .text (text "a@b.c"))]⟩], [], 1⟩) :=
  ⟨⟨[(text "email", .string (text "a@b.c"))], by decide⟩, ⟨false, some (1, true), none, false, true⟩, by decide⟩

end GtpLibrary.Login

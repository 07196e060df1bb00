import GtpLibrary.Login.Requests

/-!
# One account for each email

The count query and the `insert` of a request are two statements. What keeps the emails
distinct is that no other request with the same email adds its row between the two, and
that the statement sets the email that was checked. `emails_stay_distinct` is the
invariant under this condition on the schedule; `same_email_twice` is a schedule without it.
-/

namespace GtpLibrary.Login

open Lib

/-- `where email="…"` finds the row. -/
def User.hasEmail (collation : Collation) (email : List Byte) (user : User) : Bool :=
  (Insert.value user.columns emailColumn).any fun stored => collation.same stored email

/-- No email finds two rows. -/
def DistinctEmails (collation : Collation) (users : List User) : Prop :=
  users.Pairwise fun u v => ∀ email, u.hasEmail collation email → ¬ v.hasEmail collation email

/-- `=` on the column is an equality: what equals a text that equals a second one equals the second one. -/
def Collation.Equality (collation : Collation) : Prop :=
  ∀ stored s email, collation.same stored email → collation.same (.text s) email → collation.same stored s

/-- The email that the statement sets, if any, is the one that was looked up. -/
def Params.EmailChecked (params : Params) : Prop :=
  (∃ email, params.email = .string email) ∨ ∀ property ∈ params.properties, lowerCase property.1 ≠ emailColumn

/-- Nobody with an equal email stands between the count query and the `insert`. -/
def Undisturbed (collation : Collation) (s : System) (r : Nat) (email : List Byte) : Prop :=
  ∀ r' ≠ r, ∀ other insert, s.requests r' = some other → other.progress = .checked insert →
    ∀ email', other.params.email = .string email' → ¬ collation.same (.text email) email'

/-- A user is added only with the checked email, and while nobody else is about to add an
equal one. -/
def Alone (collation : Collation) (s : System) : Label → Prop
  | .send r (.insertUser _) => ∀ request, s.requests r = some request →
      request.params.EmailChecked ∧
        ∀ email, request.params.email = .string email → Undisturbed collation s r email
  | _ => True

section
variable {collation : Collation} {s t : System} {r : Nat} {request : Request} {insert : Insert}

theorem countEmail_eq_zero {db : Database} {email : List Byte} (none : db.countEmail collation email = 0) :
    ∀ user ∈ db.users, ¬ user.hasEmail collation email :=
  List.countP_eq_zero.1 none

/-- What a request that passed its check relies on. -/
structure Checked (collation : Collation) (users : List User) (request : Request) (insert : Insert) : Prop where
  built : buildInsert request.params = .ok insert
  free : ∀ email, request.params.email = .string email → ∀ user ∈ users, ¬ user.hasEmail collation email

/-- The emails are distinct, and those that were checked are free. -/
structure Emails (collation : Collation) (s : System) : Prop where
  distinct : DistinctEmails collation s.users
  checked : ∀ r request insert, s.requests r = some request → request.progress = .checked insert →
    Checked collation s.users request insert

/-- The row that a request adds answers to no email but the checked one. -/
theorem Checked.hasEmail_row (checked : Checked collation s.users request insert)
    (once : (insert.map fun e => lowerCase e.1).Nodup) (same : request.params.EmailChecked) {id : Nat}
    {email : List Byte} (has : User.hasEmail collation email ⟨id, insert⟩) :
    ∃ text, request.params.email = .string text ∧ collation.same (.text text) email := by
  unfold User.hasEmail at has
  rcases same with ⟨text, given⟩ | absent
  · rw [buildInsert_email checked.built once given] at has
    exact ⟨text, given, has⟩
  · cases set : Insert.value insert emailColumn with
    | none =>
      rw [set] at has
      cases has
    | some stored =>
      obtain ⟨property, member, name⟩ := property_of_insert checked.built (by rw [set]; rfl)
      exact absurd name (absent property member)

/-- The new row keeps the emails distinct. -/
theorem Checked.distinct (equality : collation.Equality) (checked : Checked collation s.users request insert)
    (distinct : DistinctEmails collation s.users) (once : (insert.map fun e => lowerCase e.1).Nodup)
    (same : request.params.EmailChecked) {id : Nat} :
    DistinctEmails collation (s.users ++ [⟨id, insert⟩]) := by
  refine List.pairwise_append.2 ⟨distinct, List.pairwise_singleton .., ?_⟩
  intro user member row new email has hasRow
  obtain rfl := List.mem_singleton.1 new
  obtain ⟨text, given, equal⟩ := checked.hasEmail_row once same hasRow
  apply checked.free text given user member
  obtain ⟨stored, set, equal'⟩ := (Option.any_eq_true _ _).1 has
  exact (Option.any_eq_true _ _).2 ⟨stored, set, equality stored text email equal' equal⟩

/-- A request that others let alone stays as it was. -/
theorem System.put_other {r' : Nat} (other : r' ≠ r) (progress : Progress) (db : Database) :
    (s.put r request progress db).requests r' = s.requests r' := Function.update_of_ne other ..

/-- A statement that adds no user. -/
theorem Emails.put {progress : Progress} {db : Database} (emails : Emails collation s)
    (users : db.users = s.users)
    (checked : ∀ insert, progress = .checked insert → Checked collation s.users request insert) :
    Emails collation (s.put r request progress db) := by
  constructor
  · rw [System.put, users]
    exact emails.distinct
  · intro r' request' insert there pending
    rw [System.put, users]
    by_cases own : r' = r
    · subst own
      rw [System.put_request, Option.some.injEq] at there
      subst there
      obtain ⟨built, free⟩ := checked insert pending
      exact ⟨built, free⟩
    · rw [System.put_other own] at there
      exact emails.checked r' request' insert there pending

/-- The `insert` of a user. -/
theorem Emails.add {id lastInsertId : Nat} (equality : collation.Equality) (emails : Emails collation s)
    (there : s.requests r = some request) (pending : request.progress = .checked insert)
    (once : (insert.map fun e => lowerCase e.1).Nodup) (same : request.params.EmailChecked)
    (alone : ∀ email, request.params.email = .string email → Undisturbed collation s r email) :
    Emails collation (s.put r request .userAdded ⟨s.users ++ [⟨id, insert⟩], s.codes, lastInsertId⟩) := by
  have checked := emails.checked r request insert there pending
  refine ⟨checked.distinct equality emails.distinct once same, ?_⟩
  intro r' request' insert' there' pending'
  by_cases own : r' = r
  · subst own
    rw [System.put_request, Option.some.injEq] at there'
    subst there'
    cases pending'
  · rw [System.put_other own] at there'
    obtain ⟨built, free⟩ := emails.checked r' request' insert' there' pending'
    apply Checked.mk built
    intro email given user member has
    rcases List.mem_append.1 member with old | new
    · exact free email given user old has
    · obtain rfl := List.mem_singleton.1 new
      obtain ⟨text, given', equal⟩ := checked.hasEmail_row once same has
      exact alone text given' r' own request' insert' there' pending' email given equal

theorem Emails.step (equality : collation.Equality) {label : Label} (emails : Emails collation s)
    (alone : Alone collation s label) (taken : step collation s label = some t) : Emails collation t := by
  cases label with
  | arrive r sessionId params lastInsertId =>
    simp only [Login.step] at taken
    split at taken
    · cases taken
      refine ⟨emails.distinct, ?_⟩
      intro r' request' insert there pending
      dsimp only at there
      by_cases own : r' = r
      · subst own
        rw [Function.update_self, Option.some.injEq] at there
        subst there
        cases pending
      · rw [Function.update_of_ne own] at there
        exact emails.checked r' request' insert there pending
    · cases taken
  | send r statement =>
    obtain ⟨request, progress, db, there, sent, rfl⟩ := send_of_step taken
    rcases Request.users_of_send sent with users | ⟨insert, row, rfl, pending, added⟩
    · apply emails.put users
      intro insert checked
      subst checked
      obtain ⟨-, none, built⟩ := Request.checked_of_send sent
      refine ⟨built, ?_⟩
      intro email given
      rw [given] at none
      exact countEmail_eq_zero none
    · obtain ⟨same, alone⟩ := alone request there
      obtain ⟨once, id, last, rfl, -⟩ := insertUser_some added
      rw [Request.send_insertUser_some pending added, Option.some.injEq, Prod.mk.injEq] at sent
      rw [← sent.1]
      exact emails.add equality there pending once same alone

/-- **One account for each email.** Where every user is added undisturbed and with the
checked email, no run makes an email find two rows. -/
theorem emails_stay_distinct {labels : List Label} (equality : collation.Equality)
    (idle : ∀ r, s.requests r = none) (start : DistinctEmails collation s.users)
    (along : Along (step collation) (Alone collation) s labels)
    (ran : run (step collation) s labels = some t) : DistinctEmails collation t.users := by
  have initial : Emails collation s := by
    constructor
    · exact start
    · intro r request insert there
      rw [idle r] at there
      cases there
  have final : Emails collation t := along.invariant (fun emails alone taken => emails.step equality alone taken)
    initial ran
  exact final.distinct

end

def paramsOf (email : List Byte) : Params := ⟨[(emailColumn, .string email)], List.nodup_singleton _⟩

def noSystem : System := ⟨[], [], fun _ => none⟩

theorem Collation.binary_equality : Collation.binary.Equality := by
  intro stored s email first second
  simp only [Collation.binary, decide_eq_true_eq, SqlValue.text.injEq] at first second ⊢
  rw [first, second]

/-- Two requests with one email at the same time; the second looks for it behind the `insert`
of the first. -/
theorem emails_stay_distinct_a :
    ∃ t, run (step .binary) noSystem
        [.arrive 0 (text "s") (paramsOf (text "a")) 0, .arrive 1 (text "t") (paramsOf (text "a")) 0,
          .send 0 (.count false), .send 0 (.insertUser (some (1, true))), .send 1 (.count false)] = some t ∧
      DistinctEmails .binary t.users := by
  obtain ⟨t, ran⟩ : ∃ t, run (step .binary) noSystem
      [.arrive 0 (text "s") (paramsOf (text "a")) 0, .arrive 1 (text "t") (paramsOf (text "a")) 0,
        .send 0 (.count false), .send 0 (.insertUser (some (1, true))), .send 1 (.count false)] = some t :=
    ⟨_, rfl⟩
  have start : DistinctEmails .binary noSystem.users := List.Pairwise.nil
  refine ⟨t, ran, emails_stay_distinct Collation.binary_equality (fun _ => rfl) start ?_ ran⟩
  refine (along_cons rfl).2 ⟨trivial, (along_cons rfl).2 ⟨trivial, (along_cons rfl).2 ⟨trivial, ?_⟩⟩⟩
  refine (along_cons rfl).2 ⟨?_, (along_cons rfl).2 ⟨trivial, trivial⟩⟩
  intro request there
  cases there
  refine ⟨.inl ⟨text "a", rfl⟩, ?_⟩
  intro email given r' other request' insert there pending
  by_cases one : r' = 1
  · subst one
    cases there
    cases pending
  · simp [System.put, Function.update, other, one, noSystem] at there

/-- Both requests look for the email before either adds its row. -/
theorem same_email_twice :
    ∃ t, run (step .binary) noSystem
        [.arrive 0 (text "s") (paramsOf (text "a")) 0, .arrive 1 (text "t") (paramsOf (text "a")) 0,
          .send 0 (.count false), .send 1 (.count false), .send 0 (.insertUser (some (1, true))),
          .send 1 (.insertUser (some (2, true)))] = some t ∧
      DistinctEmails .binary noSystem.users ∧ ¬ DistinctEmails .binary t.users := by
  refine ⟨_, rfl, List.Pairwise.nil, ?_⟩
  intro distinct
  have pair := List.pairwise_pair.1 distinct
  exact pair (text "a") (by decide) (by decide)

end GtpLibrary.Login

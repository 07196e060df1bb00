import GtpLibrary.PCTracker.Register

/-!
# The id that a registrant is shown

The id is right if the next value of the column is one more than the number of rows that was
counted. That is so where no row was added in between, none was ever removed and no failed
`insert` has taken a value. What a request was shown stays as it is, so that a wrong id is never
put right.
-/

namespace GtpLibrary.PCTracker

open Lib

/-- When a request adds its row the table has as many rows as it counted, the next value of the column is
one more, and its password is a string of the database that stands for itself. -/
def Undisturbed (requests : Nat → Request) (s : State) : Label → Prop
  | .insert r _ => s.progress r = .counted (s.table.rows.length + 1) ∧ s.table.nextId = s.table.rows.length + 1 ∧
      (requests r).stored = some (requests r).password
  | .count .. => True

section
variable {requests : Nat → Request} {s t u : State} {label : Label} {labels : List Label} {r r' id : Nat} {effect : Effect}
  {added : Option Nat}

/-! ## The statement -/

theorem literal_cons {c : Byte} {more : List Byte} (quote : c ≠ byte '"') (backslash : c ≠ byte '\\') (some : more ≠ []) :
    literal (c :: more) = (literal more).map fun (value, behind) => (c :: value, behind) := by
  obtain ⟨d, rest, rfl⟩ := List.exists_cons_of_ne_nil some
  rw [literal, if_neg quote, if_neg backslash]

theorem literal_plain {password : List Byte} (quote : byte '"' ∉ password) (backslash : byte '\\' ∉ password)
    (behind : List Byte) : literal (password ++ text "\"," ++ behind) = some (password, text "," ++ behind) := by
  induction password with
  | nil => rfl
  | cons c rest ih =>
    rw [List.mem_cons, not_or] at quote backslash
    rw [List.cons_append, List.cons_append, literal_cons (Ne.symm quote.1) (Ne.symm backslash.1) (by simp [text]),
      ih quote.2 backslash.2]
    rfl

/-- A password without quotes and backslashes stands for itself. -/
theorem stored_of_plain {request : Request} (quote : byte '"' ∉ request.password)
    (backslash : byte '\\' ∉ request.password) : request.stored = some request.password := by
  have values : request.values.drop 1 =
      request.password ++ text "\"," ++ (text " \"" ++ request.ip ++ text "\")") := by
    unfold Request.values
    simp only [List.append_assoc]
    rfl
  have behind : text "," ++ (text " \"" ++ request.ip ++ text "\")") = text ", \"" ++ request.ip ++ text "\")" := rfl
  unfold Request.stored
  rw [values, literal_plain quote backslash, behind]
  exact if_pos rfl

/-! ## What a step does -/

theorem step_cases (taken : step requests s label = some t) :
    (∃ r answered, label = .count r answered ∧ s.progress r = .arrived ∧ t = count s r answered) ∨
      ∃ r id effect, label = .insert r effect ∧ s.progress r = .counted id ∧ insert requests s r id effect = some t := by
  cases label with
  | count r answered =>
    rw [step] at taken
    split at taken
    · rename_i arrived
      cases taken
      exact .inl ⟨r, answered, rfl, arrived, rfl⟩
    · cases taken
  | insert r effect =>
    rw [step] at taken
    split at taken
    · rename_i id counted
      exact .inr ⟨r, id, effect, rfl, counted, taken⟩
    · cases taken

/-- Where the statement reads as it is meant. -/
theorem insert_cases (meant : (requests r).stored = some (requests r).password)
    (taken : insert requests s r id effect = some t) :
    (effect = .added ∧ t = (s.setTable (s.table.add (requests r).password (requests r).ip)).setProgress r
        (.shown id (some s.table.nextId))) ∨
      ∃ lost, effect = .refused lost ∧ t = (s.setTable (s.table.skip lost)).setProgress r .error2 := by
  unfold insert at taken
  rw [meant] at taken
  cases effect with
  | added => exact .inl ⟨rfl, (Option.some.inj taken).symm⟩
  | refused lost => exact .inr ⟨lost, rfl, (Option.some.inj taken).symm⟩
  | rewritten table succeeds => cases taken

theorem progress_setProgress {progress : Progress} :
    (s.setProgress r progress).progress r' = if r' = r then progress else s.progress r' :=
  Function.update_apply ..

/-- A request that ended stays as it is. -/
theorem progress_kept (taken : step requests s label = some t) (shown : s.progress r = .shown id added) :
    t.progress r = .shown id added := by
  have other : ∀ (table : Table) {q : Nat} {progress : Progress}, s.progress q ≠ .shown id added →
      ((s.setTable table).setProgress q progress).progress r = .shown id added := by
    intro table q progress different
    rw [progress_setProgress, if_neg fun same : r = q => different (same ▸ shown)]
    exact shown
  obtain ⟨q, answered, -, arrived, rfl⟩ | ⟨q, id', effect, -, counted, taken⟩ := step_cases taken
  · exact other s.table (by rw [arrived]; exact Progress.noConfusion)
  · have different : s.progress q ≠ .shown id added := by
      rw [counted]
      exact Progress.noConfusion
    unfold insert at taken
    split at taken <;> cases taken <;> exact other _ different

/-! ## Undisturbed runs -/

/-- Each id that was shown is that of a row of its requester, and the column is past it. -/
structure Registered (requests : Nat → Request) (s : State) : Prop where
  own : ∀ r id added, s.progress r = .shown id added → added = some id ∧ id < s.table.nextId ∧
    ∃ row ∈ s.table.rows, row.id = id ∧ row.password = (requests r).password
  distinct : ∀ r r' id added added', s.progress r = .shown id added → s.progress r' = .shown id added' → r' = r

theorem Registered.start (starts : Starts s) : Registered requests s where
  own r id added shown := by
    rw [starts.arrived] at shown
    cases shown
  distinct r r' id added added' shown := by
    rw [starts.arrived] at shown
    cases shown

theorem Registered.showsOwnIds (registered : Registered requests s) : ShowsOwnIds requests s := by
  intro r id added shown
  obtain ⟨own, -, row⟩ := registered.own r id added shown
  refine ⟨⟨own, row⟩, ?_⟩
  rintro r' id' added' different shown' rfl
  exact different (registered.distinct r r' id' added added' shown shown')

/-- A request that is shown nothing does not change what the others were shown. -/
theorem Registered.setProgress (registered : Registered requests s) {progress : Progress}
    (silent : ∀ id added, progress ≠ .shown id added) : Registered requests (s.setProgress r progress) := by
  have before : ∀ {q id added}, (s.setProgress r progress).progress q = .shown id added →
      s.progress q = .shown id added := by
    intro q id added shown
    rw [progress_setProgress] at shown
    split at shown
    · exact absurd shown (silent id added)
    · exact shown
  exact ⟨fun q id added shown => registered.own q id added (before shown),
    fun q q' id added added' shown shown' => registered.distinct q q' id added added' (before shown) (before shown')⟩

/-- A value of the column that is taken in vain is shown to nobody. -/
theorem Registered.skip (registered : Registered requests s) (lost : Bool) :
    Registered requests (s.setTable (s.table.skip lost)) := by
  have onward : s.table.nextId ≤ (s.table.skip lost).nextId := by
    cases lost
    · exact le_rfl
    · exact Nat.le_succ _
  have rows : (s.table.skip lost).rows = s.table.rows := by cases lost <;> rfl
  refine ⟨fun q id added shown => ?_, registered.distinct⟩
  obtain ⟨own, before, row⟩ := registered.own q id added shown
  refine ⟨own, before.trans_le onward, ?_⟩
  show ∃ row ∈ (s.table.skip lost).rows, _
  rw [rows]
  exact row

/-- The row that a request adds has the id it is shown, where that is the next one. -/
theorem Registered.add (registered : Registered requests s) :
    Registered requests ((s.setTable (s.table.add (requests r).password (requests r).ip)).setProgress r
      (.shown s.table.nextId (some s.table.nextId))) := by
  constructor
  · intro q id added shown
    rw [progress_setProgress] at shown
    split at shown
    · rename_i same
      cases shown
      subst same
      exact ⟨rfl, Nat.lt_succ_self _, ⟨s.table.nextId, (requests q).password, (requests q).ip⟩,
        List.mem_append_right _ (List.mem_singleton_self _), rfl, rfl⟩
    · obtain ⟨own, before, row, member, rest⟩ := registered.own q id added shown
      exact ⟨own, Nat.lt_succ_of_lt before, row, List.mem_append_left _ member, rest⟩
  · intro q q' id added added' shown shown'
    rw [progress_setProgress] at shown shown'
    split at shown <;> split at shown'
    · rename_i same same'
      exact same'.trans same.symm
    · cases shown
      have before := (registered.own q' _ added' shown').2.1
      omega
    · cases shown'
      have before := (registered.own q _ added shown).2.1
      omega
    · exact registered.distinct q q' id added added' shown shown'

theorem Registered.step (registered : Registered requests s) (undisturbed : Undisturbed requests s label)
    (taken : step requests s label = some t) : Registered requests t := by
  obtain ⟨r, answered, -, -, rfl⟩ | ⟨r, id, effect, rfl, counted, taken⟩ := step_cases taken
  · apply registered.setProgress
    intro id added
    split <;> exact Progress.noConfusion
  · obtain ⟨whole, next, meant⟩ := undisturbed
    rw [whole, ← next] at counted
    cases counted
    obtain ⟨-, rfl⟩ | ⟨lost, rfl, rfl⟩ := insert_cases meant taken
    · exact registered.add
    · exact (registered.skip lost).setProgress fun id added => Progress.noConfusion

/-- Another next value makes the id wrong, whatever comes behind it. -/
theorem shows_other_id (counted : s.progress r = .counted id) (other : id ≠ s.table.nextId) (taken : step requests s (.insert r .added) = some t)
    (ran : run (PCTracker.step requests) t labels = some u) : ¬ ShowsOwnIds requests u := by
  have shown : t.progress r = .shown id (some s.table.nextId) := by
    rw [step, counted] at taken
    dsimp only [insert] at taken
    cases stored : (requests r).stored with
    | none =>
      rw [stored] at taken
      cases taken
    | some password =>
      rw [stored] at taken
      cases taken
      rw [progress_setProgress, if_pos rfl]
  have still : u.progress r = .shown id (some s.table.nextId) :=
    run_invariant (fun v => v.progress r = .shown id (some s.table.nextId)) (fun shown taken => progress_kept taken shown)
      shown ran
  intro own
  have same := (own r id _ still).1.1
  exact other (Option.some.inj same).symm

/-- **Everybody is shown the own id** in every run whose inserts are undisturbed. -/
theorem shows_own_ids (starts : Starts s) (undisturbed : Along (PCTracker.step requests) (Undisturbed requests) s labels)
    (ran : run (PCTracker.step requests) s labels = some t) : ShowsOwnIds requests t :=
  (undisturbed.invariant Registered.step (.start starts) ran).showsOwnIds

end

/-! ## Two requests -/

/-- Requests 0 and 1 register with different passwords. -/
def twoRequests (r : Nat) : Request := ⟨if r = 0 then text "alpha" else text "beta", text "10.0.0.1"⟩

def empty : State := ⟨⟨[], 1⟩, fun _ => .arrived⟩

theorem starts_empty : Starts empty where
  ids := rfl
  next := Nat.one_pos
  arrived _ := rfl

/-- One after the other. -/
def inTurn : List Label := [.count 0 true, .insert 0 .added, .count 1 true, .insert 1 .added]

theorem shows_own_ids_in_turn :
    ∃ t, run (step twoRequests) empty inTurn = some t ∧ t.progress 1 = .shown 2 (some 2) ∧ ShowsOwnIds twoRequests t := by
  have undisturbed : Along (step twoRequests) (Undisturbed twoRequests) empty inTurn := by
    refine ⟨trivial, ?_⟩
    rintro _ ⟨⟩
    refine ⟨⟨rfl, rfl, by decide⟩, ?_⟩
    rintro _ ⟨⟩
    refine ⟨trivial, ?_⟩
    rintro _ ⟨⟩
    refine ⟨⟨rfl, rfl, by decide⟩, ?_⟩
    exact fun _ _ => trivial
  exact ⟨_, rfl, rfl, shows_own_ids starts_empty undisturbed rfl⟩

/-- Both count the empty table, then both add their rows: request 1 is shown the id of
request 0. -/
theorem both_shown_one : Starts empty ∧
    ∃ t, run (step twoRequests) empty [.count 0 true, .count 1 true, .insert 0 .added, .insert 1 .added] = some t ∧
      t.progress 0 = .shown 1 (some 1) ∧ t.progress 1 = .shown 1 (some 2) ∧ ¬ ShowsOwnIds twoRequests t := by
  refine ⟨starts_empty, _, rfl, rfl, rfl, fun own => ?_⟩
  have same := (own 1 1 (some 2) rfl).1.1
  cases same

end GtpLibrary.PCTracker

import GtpLibrary.Lib.Registry
import GtpLibrary.PCTracker.OwnRow
import GtpLibrary.PCTracker.ShownIds

/-!
# The table as a registry

Registrations, calls of `track.php` and of `view.php` come in any order, and a statement may fail. As
long as no password is part of a statement, the table is a registry with an entry for each id: a
registration adds one, `track.php` changes the address of the entry whose password it is given, and
`view.php` looks it up.
-/

namespace GtpLibrary.PCTracker

open Lib
open Lib.Registry (Entry Entries Event)

/-- What changes the table. -/
inductive Operation where
  | register (label : Label)
  | track (get : Get) (address : Address)

section
variable (server : Server) (requests : Nat → Request)

/-- An operation on the server. -/
def operate (s : State) : Operation → Option State
  | .register label => step requests s label
  | .track get address => some (s.setTable (track server get address s.table))

/-- The id is written in digits and the password is one string for the database, with this value. -/
def Reads (id pw : List Byte) (n : Nat) (value : List Byte) : Prop :=
  Sql.integer id = some n ∧ literal (pw ++ text "\"") = some (value, [])

/-- No statement is rewritten by what is put into it. -/
def Meant : Operation → Prop
  | .register (.insert _ (.rewritten ..)) => False
  | .register _ => True
  | .track ⟨some id, some pw⟩ _ => ∃ n value, Reads id pw n value
  | .track _ _ => True

/-- The table as it is used. -/
def Table.entries (table : Table) : Entries Nat (List Byte) (List Byte) := fun n =>
  (table.rows.find? fun row => row.id = n).map fun row => ⟨row.password, row.ip⟩

/-- What an operation is for the registry; one that fails is nothing. -/
def event (s : State) : Operation → Option (Event Nat (List Byte) (List Byte))
  | .register (.insert r .added) =>
    (requests r).stored.map fun password => .register s.table.nextId password (requests r).ip
  | .register _ => none
  | .track ⟨some id, some pw⟩ address =>
    if (server.update (updateText address id pw) s.table).isSome then
      (Sql.integer id).bind fun n => (literal (pw ++ text "\"")).map fun (value, _) => .change n value address.ip
    else none
  | .track _ _ => none

/-- The events of a run. -/
def events : State → List Operation → List (Event Nat (List Byte) (List Byte))
  | _, [] => []
  | s, operation :: later =>
    (event server requests s operation).toList ++ ((operate server requests s operation).elim [] fun t => events t later)

end

/-- The ids of the rows are different and come before the next one. -/
structure Distinct (table : Table) : Prop where
  nodup : (table.rows.map Row.id).Nodup
  below : ∀ row ∈ table.rows, row.id < table.nextId

section
variable {server : Server} {requests : Nat → Request} {s t : State} {operation : Operation} {operations : List Operation}
  {table : Table} {row : Row} {id pw value ip : List Byte} {n : Nat} {address : Address}

/-! ## Rows and entries -/

/-- Only one row has a given id. -/
theorem find_id {rows : List Row} (nodup : (rows.map Row.id).Nodup) (member : row ∈ rows) :
    rows.find? (fun other => other.id = row.id) = some row := by
  induction rows with
  | nil => cases member
  | cons first rows ih =>
    rw [List.map_cons, List.nodup_cons] at nodup
    rcases List.mem_cons.1 member with rfl | later
    · exact List.find?_cons_of_pos (by simp)
    · have other : first.id ≠ row.id := fun same => nodup.1 (same ▸ List.mem_map_of_mem later)
      rw [List.find?_cons_of_neg (by simpa using other)]
      exact ih nodup.2 later

/-- The entry of an id is that of its row. -/
theorem Distinct.entry (distinct : Distinct table) (member : row ∈ table.rows) :
    table.entries row.id = some ⟨row.password, row.ip⟩ := by
  rw [Table.entries, find_id distinct.nodup member]
  rfl

/-! ## One operation -/

/-- The ids of the table are distinct at the start. -/
theorem Distinct.of_starts (starts : Starts s) : Distinct s.table where
  nodup := by
    rw [starts.ids]
    exact List.nodup_range'
  below row member := by
    have inside := List.mem_map_of_mem (f := Row.id) member
    rw [starts.ids, List.mem_range'_1] at inside
    have behind := starts.next
    omega

/-- A row that is added has a new id. -/
theorem Distinct.add (distinct : Distinct table) (password ip : List Byte) : Distinct (table.add password ip) where
  nodup := by
    show ((table.rows ++ [_]).map Row.id).Nodup
    rw [List.map_append, List.nodup_append]
    refine ⟨distinct.nodup, List.nodup_singleton _, ?_⟩
    rintro m inside _ last rfl
    obtain ⟨row, member, rfl⟩ := List.mem_map.1 inside
    have below := distinct.below row member
    rw [List.map_singleton, List.mem_singleton] at last
    exact absurd last (Nat.ne_of_lt below)
  below row member := by
    rcases List.mem_append.1 member with inside | last
    · exact Nat.lt_succ_of_lt (distinct.below row inside)
    · rw [List.mem_singleton.1 last]
      exact Nat.lt_succ_self _

/-- An id that is skipped is no id of the table. -/
theorem Distinct.skip (distinct : Distinct table) (lost : Bool) : Distinct (table.skip lost) := by
  cases lost
  · exact distinct
  · exact ⟨distinct.nodup, fun row member => Nat.lt_succ_of_lt (distinct.below row member)⟩

/-- A change touches no id. -/
theorem Distinct.setIp (distinct : Distinct table) (same : List Byte → List Byte → Bool) (ip : List Byte)
    (condition : Condition) : Distinct (table.setIp same ip condition) := by
  have kept : ∀ row : Row, (if condition.holds same row then { row with ip } else row).id = row.id := by
    intro row
    split <;> rfl
  constructor
  · show ((table.rows.map _).map Row.id).Nodup
    rw [List.map_map, show (Row.id ∘ fun row => if condition.holds same row then { row with ip } else row) = Row.id from
      funext kept]
    exact distinct.nodup
  · intro row member
    obtain ⟨before, inside, rfl⟩ := List.mem_map.1 member
    rw [kept]
    exact distinct.below before inside

/-- Adding a row is a registration. -/
theorem entries_add (distinct : Distinct table) (same : List Byte → List Byte → Bool) (password ip : List Byte) :
    (table.add password ip).entries = table.entries.apply same (.register table.nextId password ip) := by
  funext n
  show ((table.rows ++ [_]).find? _).map _ = Function.update table.entries table.nextId _ n
  rw [List.find?_append]
  by_cases new : n = table.nextId
  · subst new
    have absent : table.rows.find? (fun row => row.id = table.nextId) = none := by
      rw [List.find?_eq_none]
      intro row member
      simpa using Nat.ne_of_lt (distinct.below row member)
    rw [Function.update_self, absent]
    simp
  · rw [Function.update_of_ne new]
    have other : [(⟨table.nextId, password, ip⟩ : Row)].find? (fun row => row.id = n) = none := by
      simpa using Ne.symm new
    rw [other, Option.or_none]
    rfl

/-- The condition that is meant, of a row. -/
theorem holds_meant (same : List Byte → List Byte → Bool) (row : Row) :
    Condition.holds same [[.numbers .id (.value n), .texts .password (.value value)]] row =
      (decide (row.id = n) && same row.password value) := by
  show ((decide (row.id = n) && (same row.password value && true)) || false) = _
  rw [Bool.and_true, Bool.or_false]

/-- Setting the address is a change. -/
theorem entries_setIp (same : List Byte → List Byte → Bool) :
    (table.setIp same ip [[.numbers .id (.value n), .texts .password (.value value)]]).entries =
      table.entries.apply same (.change n value ip) := by
  funext m
  show ((table.rows.map _).find? _).map _ = Function.update table.entries n _ m
  rw [List.find?_map]
  have kept : ((fun row : Row => decide (row.id = m)) ∘ fun row : Row =>
      if Condition.holds same [[.numbers .id (.value n), .texts .password (.value value)]] row then { row with ip } else row) =
      fun row => decide (row.id = m) := by
    funext row
    simp only [Function.comp_apply]
    split <;> rfl
  rw [kept]
  cases found : table.rows.find? fun row => row.id = m with
  | none =>
    by_cases here : m = n
    · subst here
      rw [Function.update_self, Table.entries, found]
      rfl
    · rw [Function.update_of_ne here, Table.entries, found]
      rfl
  | some row =>
    have number : row.id = m := by simpa using List.find?_some found
    by_cases here : m = n
    · subst here
      rw [Function.update_self, Table.entries, found, Option.map_some, Option.map_some, Option.map_some, Option.map_some,
        holds_meant, decide_eq_true number, Bool.true_and, Entry.change]
      split <;> rfl
    · rw [Function.update_of_ne here, Table.entries, found, Option.map_some, Option.map_some, Option.map_some, holds_meant,
        decide_eq_false fun same => here (number.symm.trans same), Bool.false_and]
      rfl

theorem track_table (get : Get) (address : Address) : (s.setTable (track server get address s.table)).table =
    track server get address s.table := rfl

/-- The clause that an id and a password make. -/
theorem Reads.clause (reads : Reads id pw n value) :
    clause id pw = some [[.numbers .id (.value n), .texts .password (.value value)]] := clause_closed reads.1 reads.2

/-- `track.php` as it is meant. -/
theorem track_reads (documented : server.Documented) (reads : Reads id pw n value) (address : Address) (table : Table) :
    track server ⟨some id, some pw⟩ address table = table ∧ server.update (updateText address id pw) table = none ∨
      track server ⟨some id, some pw⟩ address table =
        table.setIp server.same address.ip [[.numbers .id (.value n), .texts .password (.value value)]] ∧
      (server.update (updateText address id pw) table).isSome := by
  simp only [track]
  cases ran : server.update (updateText address id pw) table with
  | none => exact .inl ⟨rfl, rfl⟩
  | some after =>
    right
    refine ⟨documented.update ?_ ran, rfl⟩
    rw [readUpdate_updateText, reads.clause]
    rfl

/-- A change takes no id. -/
theorem nextId_track (documented : server.Documented) {get : Get} (meant : Meant (.track get address)) :
    (track server get address table).nextId = table.nextId := by
  obtain ⟨id, pw⟩ := get
  cases id with
  | none => rfl
  | some id =>
    cases pw with
    | none => rfl
    | some pw =>
      obtain ⟨n, value, reads⟩ := meant
      rcases track_reads documented reads address table with ⟨same, -⟩ | ⟨changed, -⟩
      · rw [same]
      · rw [changed]
        rfl

/-- Ids are never given again. -/
theorem nextId_le (documented : server.Documented) (meant : Meant operation)
    (taken : operate server requests s operation = some t) : s.table.nextId ≤ t.table.nextId := by
  cases operation with
  | register label =>
    obtain ⟨r, answered, rfl, -, rfl⟩ | ⟨r, id, effect, rfl, -, taken⟩ := @step_cases requests _ _ _ taken
    · exact Nat.le_refl _
    · unfold insert at taken
      split at taken
      · cases taken
        exact Nat.le_succ _
      · rename_i lost _
        cases taken
        cases lost
        · exact Nat.le_refl _
        · exact Nat.le_succ _
      · exact meant.elim
      · cases taken
  | track get address =>
    cases taken
    exact Nat.le_of_eq (nextId_track documented meant).symm

/-- A registration is given the next id. -/
theorem key_register {password : List Byte} (here : event server requests s operation = some (.register n password ip)) :
    n = s.table.nextId := by
  unfold event at here
  split at here
  · obtain ⟨_, _, same⟩ := Option.map_eq_some_iff.1 here
    cases same
    rfl
  · cases here
  · split at here
    · obtain ⟨m, _, mapped⟩ := Option.bind_eq_some_iff.1 here
      obtain ⟨_, _, same⟩ := Option.map_eq_some_iff.1 mapped
      cases same
    · cases here
  · cases here

/-- What an operation does to the registry. -/
theorem Distinct.operate (distinct : Distinct s.table) (documented : server.Documented) (meant : Meant operation)
    (taken : operate server requests s operation = some t) :
    Distinct t.table ∧
      t.table.entries = (event server requests s operation).toList.foldl (Entries.apply server.same) s.table.entries := by
  cases operation with
  | register label =>
    obtain ⟨r, answered, rfl, -, rfl⟩ | ⟨r, id, effect, rfl, -, taken⟩ := @step_cases requests _ _ _ taken
    · exact ⟨distinct, rfl⟩
    · unfold insert at taken
      split at taken
      · rename_i password stored _
        cases taken
        refine ⟨distinct.add password _, ?_⟩
        rw [PCTracker.event, stored]
        exact entries_add distinct server.same password _
      · rename_i lost _
        cases taken
        refine ⟨distinct.skip lost, ?_⟩
        cases lost <;> rfl
      · exact meant.elim
      · cases taken
  | track get address =>
    cases taken
    rw [track_table]
    obtain ⟨id, pw⟩ := get
    cases id with
    | none => exact ⟨distinct, rfl⟩
    | some id =>
      cases pw with
      | none => exact ⟨distinct, rfl⟩
      | some pw =>
        obtain ⟨n, value, reads⟩ := meant
        rcases track_reads documented reads address s.table with ⟨same, failed⟩ | ⟨changed, ran⟩
        · rw [same, PCTracker.event, failed]
          exact ⟨distinct, rfl⟩
        · rw [changed, PCTracker.event, if_pos ran, reads.1, reads.2]
          exact ⟨distinct.setIp _ _ _, entries_setIp server.same⟩

/-- At most one row has an id. -/
theorem filter_id (p : Row → Bool) (n : Nat) {rows : List Row} (nodup : (rows.map Row.id).Nodup) :
    (rows.filter fun row => row.id = n && p row) = ((rows.find? fun row => row.id = n).filter p).toList := by
  induction rows with
  | nil => rfl
  | cons first rows ih =>
    rw [List.map_cons, List.nodup_cons] at nodup
    by_cases here : first.id = n
    · have none : (rows.filter fun row => row.id = n && p row) = [] := by
        rw [List.filter_eq_nil_iff]
        intro row member
        have other : row.id ≠ n := fun same => nodup.1 (here ▸ same ▸ List.mem_map_of_mem member)
        simp [other]
      rw [List.filter_cons, none, List.find?_cons_of_pos (by simpa using here), Option.filter_some, decide_eq_true here,
        Bool.true_and]
      split <;> rfl
    · rw [List.filter_cons_of_neg (by simp [here]), List.find?_cons_of_neg (by simpa using here)]
      exact ih nodup.2

/-- `view.php` looks an entry up, where its statement is answered. -/
theorem view_reads (documented : server.Documented) (reads : Reads id pw n value) (distinct : Distinct table) :
    view server ⟨some id, some pw⟩ table =
      if (server.select (selectText id pw) table).isSome then
        (table.entries.look server.same n value).elim .wrongCombination .address
      else .error1 := by
  simp only [view]
  cases ran : server.select (selectText id pw) table with
  | none => rfl
  | some ips =>
    have listed : ips = (table.rows.filter fun row => row.id = n && server.same row.password value).map Row.ip := by
      rw [documented.select ((readSelect_selectText id pw).trans reads.clause) ran, Table.ips]
      exact congrArg _ (List.filter_congr fun row _ => holds_meant server.same row)
    have alone := filter_id (fun row => server.same row.password value) n distinct.nodup
    rw [Option.isSome_some, if_pos rfl, listed, alone, Entries.look, Table.entries]
    cases found : table.rows.find? fun row => row.id = n with
    | none => rfl
    | some row =>
      simp only [Option.filter_some, Option.map_some, Option.bind_some]
      cases server.same row.password value <;> rfl

/-! ## Every run -/

/-- The registry behind a run, and what `view.php` shows then. -/
structure IsRegistry (server : Server) (requests : Nat → Request) (s t : State) (operations : List Operation) : Prop where
  entries : t.table.entries = (events server requests s operations).foldl (Entries.apply server.same) s.table.entries
  view : ∀ id pw n value, Reads id pw n value →
    view server ⟨some id, some pw⟩ t.table =
      if (server.select (selectText id pw) t.table).isSome then
        (t.table.entries.look server.same n value).elim .wrongCombination .address
      else .error1

/-- The ids stay distinct in every run. -/
theorem Distinct.run (distinct : Distinct s.table) (documented : server.Documented)
    (meant : Along (PCTracker.operate server requests) (fun _ => Meant) s operations)
    (ran : Lib.run (PCTracker.operate server requests) s operations = some t) :
    Distinct t.table ∧
      t.table.entries = (events server requests s operations).foldl (Entries.apply server.same) s.table.entries := by
  induction operations generalizing s with
  | nil =>
    cases ran
    exact ⟨distinct, rfl⟩
  | cons operation operations ih =>
    obtain ⟨next, taken, ran⟩ := run_cons_eq_some.1 ran
    obtain ⟨kept, entries⟩ := distinct.operate documented meant.1 taken
    obtain ⟨last, later⟩ := ih kept (meant.2 next taken) ran
    refine ⟨last, ?_⟩
    rw [later, events, taken, List.foldl_append, ← entries]
    rfl

/-- **The table is a registry** in every run that rewrites no statement: registrations add entries, `track.php`
changes those whose password it is given, and `view.php` looks them up. -/
theorem isRegistry (documented : server.Documented) (starts : Starts s)
    (meant : Along (operate server requests) (fun _ => Meant) s operations)
    (ran : run (operate server requests) s operations = some t) : IsRegistry server requests s t operations := by
  obtain ⟨distinct, entries⟩ := (Distinct.of_starts starts).run documented meant ran
  exact ⟨entries, fun id pw n value reads => view_reads documented reads distinct⟩

/-- No id is given again. -/
theorem events_fresh (documented : server.Documented) (used : n < s.table.nextId)
    (meant : Along (operate server requests) (fun _ => Meant) s operations)
    (ran : run (operate server requests) s operations = some t) :
    ∀ event ∈ events server requests s operations, ∀ password ip, event ≠ .register n password ip := by
  induction operations generalizing s with
  | nil => nofun
  | cons operation operations ih =>
    obtain ⟨next, taken, ran⟩ := run_cons_eq_some.1 ran
    have onward := nextId_le documented meant.1 taken
    intro event member password ip
    rw [events, taken] at member
    rcases List.mem_append.1 member with here | later
    · rintro rfl
      have own := key_register (Option.mem_toList.1 here)
      omega
    · exact ih (Nat.lt_of_lt_of_le used onward) (meant.2 next taken) ran event later password ip

/-- **The last call counts**: whoever has registered is shown the address of the last call of `track.php` that was
given a password the database takes for the own one, or the one of the registration, whatever was called
in between. -/
theorem shows_last (documented : server.Documented) {before : List Operation} {start : State} (starts : Starts start)
    (meant : Along (operate server requests) (fun _ => Meant) start (before ++ operations))
    (registered : run (operate server requests) start before = some s) (member : row ∈ s.table.rows)
    (ran : run (operate server requests) s operations = some t) (reads : Reads id pw row.id value)
    (known : server.same row.password value = true)
    (answered : (server.select (selectText id pw) t.table).isSome) :
    view server ⟨some id, some pw⟩ t.table = .address
      ((((events server requests s operations).filterMap (Event.gives server.same row.id row.password)).getLast?).getD
        row.ip) := by
  obtain ⟨first, later⟩ := along_append.1 meant
  have later := later s registered
  have distinct := ((Distinct.of_starts starts).run documented first registered).1
  obtain ⟨after, entries⟩ := distinct.run documented later ran
  have entry := Registry.entry_foldl server.same (distinct.entry member)
    (events_fresh documented (distinct.below row member) later ran)
  rw [← entries] at entry
  rw [view_reads documented reads after, if_pos answered, Registry.look_of_entry server.same entry known]
  rfl

end

/-! ## Two computers -/

/-- The first one registers. -/
def registers : List Operation := [.register (.count 0 true), .register (.insert 0 .added)]

/-- It gets another address, the second one registers, and somebody tries the first one's id with the second one's
password. -/
def tracks : List Operation :=
  [.track ⟨some (text "1"), some (text "alpha")⟩ ⟨text "10.0.0.7", by decide⟩, .register (.count 1 true),
    .register (.insert 1 .added),
    .track ⟨some (text "1"), some (text "beta")⟩ ⟨text "10.0.0.9", by decide⟩]

theorem meant_tracks : Along (operate .binary twoRequests) (fun _ => Meant) empty (registers ++ tracks) := by
  apply Along.of_labels
  have alpha : Reads (text "1") (text "alpha") 1 (text "alpha") := ⟨by decide, by decide⟩
  have beta : Reads (text "1") (text "beta") 1 (text "beta") := ⟨by decide, by decide⟩
  simp only [registers, tracks, List.cons_append, List.nil_append, List.forall_mem_cons, List.not_mem_nil, false_implies,
    implies_true, and_true]
  exact ⟨trivial, trivial, ⟨_, _, alpha⟩, trivial, trivial, ⟨_, _, beta⟩⟩

theorem isRegistry_tracks : ∃ t, run (operate .binary twoRequests) empty (registers ++ tracks) = some t ∧
    IsRegistry .binary twoRequests empty t (registers ++ tracks) :=
  ⟨_, rfl, isRegistry Server.binary_documented starts_empty meant_tracks rfl⟩

theorem shows_last_tracks : ∃ s t, run (operate .binary twoRequests) empty registers = some s ∧
    run (operate .binary twoRequests) s tracks = some t ∧
    view .binary ⟨some (text "1"), some (text "alpha")⟩ t.table = .address (text "10.0.0.7") := by
  refine ⟨_, _, rfl, rfl, ?_⟩
  have reads : Reads (text "1") (text "alpha") 1 (text "alpha") := ⟨by decide, by decide⟩
  exact (shows_last Server.binary_documented starts_empty meant_tracks rfl (List.mem_singleton_self _) rfl reads rfl
    rfl).trans rfl

end GtpLibrary.PCTracker

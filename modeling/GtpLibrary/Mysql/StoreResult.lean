import GtpLibrary.Mysql.Ownership

/-!
# What `store_result` promises and what the object serves

`Serves` and `Silent` speak of all later calls; for an object that shares its result with
no other, `serves_iff` and `silent_iff` bring them down to the rows it has not served yet.
The return value is computed from the new pointer, while an occupied object keeps the old
one, so the two agree exactly when `Agrees` holds before the call.
-/

namespace GtpLibrary.Mysql

open Lib (run run_cons_eq_some Along)

/-- The call makes no copy of an object. -/
def Call.Uncopied : Call → Prop
  | .copyConstruct _ _ | .copyAssign _ _ => False
  | _ => True

/-- Of the object `x` the call reads rows at most. -/
def Call.Reads (x : Nat) : Call → Prop
  | .destroy y | .storeResult _ y _ => y ≠ x
  | call => call.Uncopied

instance : (call : Call) → Decidable call.Uncopied
  | .copyConstruct _ _ | .copyAssign _ _ => isFalse id
  | .construct _ | .destroy _ | .query _ _ | .storeResult _ _ _ | .fetchRow _ _ => isTrue trivial

/-- What `fetch_row` returned for `x` in a run. -/
def answers (x : Nat) (calls : List Call) : List (Option Row) :=
  calls.filterMap fun
    | .fetchRow y row => if y = x then some row else none
    | _ => none

/-- `num_rows` and the following calls of `fetch_row` enumerate the rows, then NULL. -/
def Client.Serves (s : Client) (x : Nat) (rows : List Row) : Prop :=
  s.numRows x = some rows.length ∧
    ∀ calls t, run step s calls = some t → (∀ call ∈ calls, call.Reads x) →
      answers x calls = (List.range (answers x calls).length).map fun i => rows[i]?

/-- The following calls of `fetch_row` serve no row. -/
def Client.Silent (s : Client) (x : Nat) : Prop :=
  ∀ calls t, run step s calls = some t → (∀ call ∈ calls, call.Reads x) → ∀ row ∈ answers x calls, row = none

/-- The truth of what `store_result` returned when it led from `s` to `t`. -/
def Truthful (s : Client) (conn x : Nat) (returned : Bool) (t : Client) : Prop :=
  if returned then t.Serves x (s.latest conn) else t.Silent x

/-- The object is empty, or what it holds happens to be what is expected of it: the same
rows, not read yet, for a new result; no row that is not read for NULL. -/
def Agrees (s : Client) (conn x : Nat) (result : Option Handle) : Prop :=
  s.objects x = some ⟨none⟩ ∨ ∃ g r, s.Holds x g ∧ s.results g = some r ∧
    if result.isSome then r.rows = s.latest conn ∧ r.unread = r.rows else r.unread = []

/-- The rows that the object has not served yet. -/
def Client.unread (s : Client) (x : Nat) : List Row :=
  (((s.objects x).bind MysqlResultSet.resultSet).bind s.results).elim [] MysqlRes.unread

section
variable {s t : Client} {call : Call} {conn x : Nat} {result : Option Handle} {returned : Bool}

theorem Call.Uncopied.unshared (uncopied : call.Uncopied) : Unshared s call := by
  cases call with
  | copyConstruct | copyAssign => exact uncopied.elim
  | _ => trivial

theorem Call.Reads.uncopied (reads : call.Reads x) : call.Uncopied := by
  cases call with
  | copyConstruct | copyAssign => exact reads
  | _ => trivial

theorem exclusive_of_run {calls : List Call} (uncopied : ∀ call ∈ calls, call.Uncopied)
    (ran : run step .initial calls = some s) : Exclusive s :=
  (Along.of_labels uncopied).invariant (fun exclusive uncopied taken => exclusive.step uncopied.unshared taken)
    .initial ran

/-! ## Reading on -/

theorem unread_congr (objects : t.objects x = s.objects x)
    (results : ∀ h, s.Holds x h → t.results h = s.results h) : t.unread x = s.unread x := by
  simp only [Client.unread, objects]
  cases held : s.objects x with
  | none => rfl
  | some r =>
    obtain ⟨pointer⟩ := r
    cases pointer with
    | none => rfl
    | some h => simp only [Option.bind_some, results h held]

theorem unread_of_holds {h : Handle} {r : MysqlRes} (holds : s.Holds x h) (held : s.results h = some r) :
    s.unread x = r.unread := by
  rw [Client.Holds] at holds
  simp only [Client.unread, holds, Option.bind_some, held, Option.elim_some]

theorem unread_of_empty (empty : s.objects x = some ⟨none⟩) : s.unread x = [] := by
  simp only [Client.unread, empty, Option.bind_some, Option.bind_none, Option.elim_none]

/-- A call on something else leaves the rows of `x` alone. -/
theorem unread_frame (exclusive : Exclusive s) (there : s.objects x ≠ none) (reads : call.Reads x)
    (other : ∀ row, call ≠ .fetchRow x row) (taken : step s call = some t) :
    t.objects x = s.objects x ∧ t.unread x = s.unread x := by
  have same : ∀ {y : Nat} {r : Option MysqlResultSet} {results : Handle → Option MysqlRes}, y ≠ x →
      t.objects = Function.update s.objects y r → t.results = results →
      (∀ h, s.Holds x h → results h = s.results h) → t.objects x = s.objects x ∧ t.unread x = s.unread x := by
    rintro y r _ different objects rfl results
    have objects : t.objects x = s.objects x := by rw [objects, Function.update_of_ne different.symm]
    exact ⟨objects, unread_congr objects results⟩
  cases step_taken taken with
  | construct free => exact same (fun eq => there (eq ▸ free)) rfl rfl fun _ _ => rfl
  | copyConstruct | copyAssign => exact reads.elim
  | destroyEmpty target => exact same (r := none) reads rfl rfl fun _ _ => rfl
  | @destroyFull y g target =>
    apply same (r := none) reads rfl rfl
    intro h holds
    apply Function.update_of_ne
    rintro rfl
    exact reads (exclusive.apart target holds)
  | query conn rows => exact ⟨rfl, rfl⟩
  | storeNull target => exact same reads rfl rfl fun _ _ => rfl
  | storeNew target fresh =>
    apply same reads rfl rfl
    intro h holds
    apply Function.update_of_ne
    rintro rfl
    exact fresh (exclusive.loaded holds).1
  | storeDropped target fresh =>
    apply same reads rfl rfl
    intro h holds
    apply Function.update_of_ne
    rintro rfl
    exact fresh (exclusive.loaded holds).1
  | fetchNull target => exact ⟨rfl, rfl⟩
  | @fetchNext y g r target held =>
    refine ⟨rfl, unread_congr rfl fun h holds => Function.update_of_ne ?_ _ _⟩
    rintro rfl
    exact other _ (by rw [exclusive.apart target holds])

theorem unread_fetch {row : Option Row} (taken : step s (.fetchRow x row) = some t) :
    t.objects x = s.objects x ∧ row = (s.unread x).head? ∧ t.unread x = (s.unread x).tail := by
  cases step_taken taken with
  | fetchNull target =>
    rw [unread_of_empty target]
    exact ⟨rfl, rfl, rfl⟩
  | @fetchNext x h r target held =>
    rw [unread_of_holds target held]
    refine ⟨rfl, by rw [MysqlRes.unread, List.head?_drop], ?_⟩
    rw [MysqlRes.unread, List.tail_drop]
    exact unread_of_holds (r := ⟨r.rows, r.fetched + 1⟩) target (Function.update_self h _ s.results)

/-- The calls enumerate what is unread. -/
theorem answers_eq (exclusive : Exclusive s) (there : s.objects x ≠ none) {calls : List Call}
    (ran : run step s calls = some t) (reads : ∀ call ∈ calls, call.Reads x) :
    answers x calls = (List.range (answers x calls).length).map fun i => (s.unread x)[i]? := by
  induction calls generalizing s with
  | nil => rfl
  | cons call calls ih =>
    obtain ⟨next, taken, later⟩ := run_cons_eq_some.1 ran
    have reads' := fun call member => reads call (List.mem_cons_of_mem _ member)
    have exclusive' := exclusive.step (reads call (List.mem_cons_self ..)).uncopied.unshared taken
    by_cases fetches : ∃ row, call = .fetchRow x row
    · obtain ⟨row, rfl⟩ := fetches
      obtain ⟨objects, head, tail⟩ := unread_fetch taken
      have split : answers x (.fetchRow x row :: calls) = row :: answers x calls := by simp [answers]
      have rest := ih exclusive' (objects ▸ there) later reads'
      rw [split, List.length_cons, List.range_succ_eq_map, List.map_cons, List.map_map, head,
        ← List.head?_eq_getElem?]
      conv_lhs => rw [rest, tail]
      simp
    · have skipped : answers x (call :: calls) = answers x calls := by
        rw [answers, List.filterMap_cons_none, answers]
        cases call with
        | fetchRow y row => exact if_neg fun same => fetches ⟨row, by rw [same]⟩
        | _ => rfl
      obtain ⟨objects, unread⟩ := unread_frame exclusive there (reads call (List.mem_cons_self ..))
        (fun row same => fetches ⟨row, same⟩) taken
      rw [skipped, ← unread]
      exact ih exclusive' (objects ▸ there) later reads'

theorem exists_fetch (exclusive : Exclusive s) (there : s.objects x ≠ none) :
    ∃ row next, step s (.fetchRow x row) = some next := by
  obtain ⟨⟨pointer⟩, target⟩ := Option.ne_none_iff_exists'.1 there
  cases pointer with
  | none => exact ⟨none, s, by simp [step, Client.fetchRow, target, Client.mysqlFetchRow]⟩
  | some h =>
    obtain ⟨r, held⟩ := (exclusive.loaded target).2
    obtain ⟨next, fetched⟩ : ∃ next, s.mysqlFetchRow (some h) = some (r.rows[r.fetched]?, next) :=
      ⟨_, by rw [Client.mysqlFetchRow, held, Option.map_some]⟩
    refine ⟨r.rows[r.fetched]?, next, ?_⟩
    rw [step, Client.fetchRow, target, Option.bind_some, fetched]
    exact if_pos rfl

/-- Any number of calls of `fetch_row` is possible. -/
theorem exists_fetches (exclusive : Exclusive s) (there : s.objects x ≠ none) (n : Nat) :
    ∃ calls t, run step s calls = some t ∧ (∀ call ∈ calls, call.Reads x) ∧ (answers x calls).length = n := by
  induction n generalizing s with
  | zero => exact ⟨[], s, rfl, by simp, rfl⟩
  | succ n ih =>
    obtain ⟨row, next, taken⟩ := exists_fetch exclusive there
    obtain ⟨objects, -, -⟩ := unread_fetch taken
    have exclusive' := exclusive.step (show Unshared s (.fetchRow x row) from trivial) taken
    obtain ⟨calls, t, ran, reads, length⟩ := ih exclusive' (objects ▸ there)
    refine ⟨.fetchRow x row :: calls, t, run_cons_eq_some.2 ⟨next, taken, ran⟩, ?_,
      by simp [answers, ← length]⟩
    rintro call (⟨⟩ | ⟨_, member⟩)
    · trivial
    · exact reads call member

theorem serves_iff (exclusive : Exclusive s) (there : s.objects x ≠ none) (rows : List Row) :
    s.Serves x rows ↔ s.numRows x = some rows.length ∧ s.unread x = rows := by
  refine and_congr_right fun _ => ⟨fun enumerates => List.ext_getElem? fun i => ?_, ?_⟩
  · obtain ⟨calls, t, ran, reads, length⟩ := exists_fetches exclusive there (i + 1)
    have same := (answers_eq exclusive there ran reads).symm.trans (enumerates calls t ran reads)
    rw [length, List.map_inj_left] at same
    exact same i (List.mem_range.2 (Nat.lt_succ_self i))
  · rintro rfl calls t ran reads
    exact answers_eq exclusive there ran reads

theorem silent_iff (exclusive : Exclusive s) (there : s.objects x ≠ none) :
    s.Silent x ↔ s.unread x = [] := by
  constructor
  · intro silent
    obtain ⟨calls, t, ran, reads, length⟩ := exists_fetches exclusive there 1
    have first := answers_eq exclusive there ran reads
    rw [length] at first
    have none : (s.unread x)[0]? = none := silent calls t ran reads _ (by rw [first]; simp)
    simpa using none
  · intro empty calls t ran reads row member
    rw [answers_eq exclusive there ran reads, empty] at member
    obtain ⟨i, -, same⟩ := List.mem_map.1 member
    exact same.symm

/-! ## The call -/

theorem storeResult_returned (stored : s.storeResult conn x result = some (returned, t)) :
    returned = result.isSome ∧ step s (.storeResult conn x result) = some t := by
  refine ⟨?_, by rw [step, stored]; rfl⟩
  simp only [Client.storeResult, Option.bind_eq_some_iff, Option.map_eq_some_iff, Prod.mk.injEq] at stored
  obtain ⟨-, -, -, -, same, -⟩ := stored
  exact same.symm

/-- A new result in an empty object. -/
theorem holds_of_stored_empty {h : Handle} (empty : s.objects x = some ⟨none⟩)
    (taken : step s (.storeResult conn x (some h)) = some t) :
    t.Holds x h ∧ t.results h = some ⟨s.latest conn, 0⟩ := by
  cases step_taken taken with
  | storeNew target fresh => exact ⟨Function.update_self .., Function.update_self ..⟩
  | storeDropped target fresh => cases empty.symm.trans target

/-- An occupied object keeps its result. -/
theorem holds_of_stored_occupied (exclusive : Exclusive s) {g : Handle} (holds : s.Holds x g)
    (taken : step s (.storeResult conn x result) = some t) :
    t.Holds x g ∧ t.results g = s.results g := by
  cases step_taken taken with
  | storeNull target => exact ⟨(Function.update_self ..).trans (target.symm.trans holds), rfl⟩
  | storeNew target fresh => cases holds.symm.trans target
  | storeDropped target fresh =>
    refine ⟨(Function.update_self ..).trans (target.symm.trans holds), Function.update_of_ne ?_ ..⟩
    rintro rfl
    exact fresh (exclusive.loaded holds).1

theorem objects_of_holds {h : Handle} (holds : s.Holds x h) : s.objects x ≠ none :=
  fun gone => Option.some_ne_none _ (holds.symm.trans gone)

theorem numRows_of_holds {h : Handle} {r : MysqlRes} (holds : s.Holds x h) (held : s.results h = some r) :
    s.numRows x = some r.rows.length := by
  rw [Client.Holds] at holds
  simp only [Client.numRows, holds, Option.bind_some, Client.mysqlNumRows, held, Option.map_some]

theorem agrees_of_holds {g : Handle} {r : MysqlRes} (holds : s.Holds x g) (held : s.results g = some r) :
    Agrees s conn x result ↔
      if result.isSome then r.rows = s.latest conn ∧ r.unread = r.rows else r.unread = [] := by
  constructor
  · rintro (empty | ⟨g', r', holds', held', agrees⟩)
    · cases holds.symm.trans empty
    · cases holds.symm.trans holds'
      cases held.symm.trans held'
      exact agrees
  · exact fun agrees => .inr ⟨g, r, holds, held, agrees⟩

/-- Into an empty object the outcome is stored as it is. -/
theorem truthful_of_empty (exclusive : Exclusive t) (empty : s.objects x = some ⟨none⟩)
    (taken : step s (.storeResult conn x result) = some t) : Truthful s conn x result.isSome t := by
  cases result with
  | none =>
    have empty' : t.objects x = some ⟨none⟩ := by
      cases step_taken taken with
      | storeNull there => exact (Function.update_self ..).trans (there.symm.trans empty)
    exact (silent_iff exclusive (by simp [empty'])).2 (unread_of_empty empty')
  | some h =>
    obtain ⟨holds, held⟩ := holds_of_stored_empty empty taken
    exact (serves_iff exclusive (objects_of_holds holds) _).2
      ⟨numRows_of_holds holds held, unread_of_holds holds held⟩

/-- An object serves just these rows when it holds them and none was fetched. -/
theorem serves_iff_of_holds (exclusive : Exclusive t) {g : Handle} {r : MysqlRes} (holds : t.Holds x g)
    (held : t.results g = some r) (rows : List Row) :
    t.Serves x rows ↔ r.rows = rows ∧ r.unread = r.rows := by
  rw [serves_iff exclusive (objects_of_holds holds), numRows_of_holds holds held, unread_of_holds holds held,
    Option.some.injEq]
  constructor
  · rintro ⟨length, unread⟩
    have whole : r.unread = r.rows :=
      (List.drop_suffix _ _).eq_of_length (by rw [← MysqlRes.unread, unread, length])
    exact ⟨whole.symm.trans unread, whole⟩
  · rintro ⟨same, whole⟩
    exact ⟨by rw [same], whole.trans same⟩

/-- **What `store_result` returns is true exactly in these cases**, in every state that
queries, results and reads lead to. -/
theorem storeResult_truthful_iff {calls : List Call} (uncopied : ∀ call ∈ calls, call.Uncopied)
    (ran : run step .initial calls = some s) (stored : s.storeResult conn x result = some (returned, t)) :
    Truthful s conn x returned t ↔ Agrees s conn x result := by
  obtain ⟨rfl, taken⟩ := storeResult_returned stored
  have exclusive := exclusive_of_run uncopied ran
  have exclusive' := exclusive.step (show Unshared s (.storeResult conn x result) from trivial) taken
  obtain ⟨⟨pointer⟩, target, -⟩ := Option.bind_eq_some_iff.1 stored
  cases pointer with
  | none => exact iff_of_true (truthful_of_empty exclusive' target taken) (.inl target)
  | some g =>
    obtain ⟨holds, kept⟩ := holds_of_stored_occupied exclusive target taken
    obtain ⟨r, held⟩ := (exclusive.loaded target).2
    rw [held] at kept
    rw [agrees_of_holds target held]
    cases result with
    | none =>
      simp only [Truthful, Option.isSome_none, Bool.false_eq_true, if_false]
      rw [silent_iff exclusive' (objects_of_holds holds), unread_of_holds holds kept]
    | some h => exact serves_iff_of_holds exclusive' holds kept (s.latest conn)

end

/-- A fresh object. -/
theorem storeResult_truthful_iff_fresh :
    ∃ s t, run step .initial [.construct 0, .query 0 [[none]]] = some s ∧
      s.storeResult 0 0 (some 1) = some (true, t) ∧
      (Truthful s 0 0 true t ↔ Agrees s 0 0 (some 1)) :=
  ⟨_, _, rfl, rfl, storeResult_truthful_iff
    (show ∀ call ∈ [Call.construct 0, .query 0 [[none]]], call.Uncopied by decide) rfl rfl⟩

/-- An object that holds the result without rows of an earlier query. -/
theorem reused_object_lies :
    ∃ s t, run step .initial
        [.construct 0, .query 0 [], .storeResult 0 0 (some 1), .query 0 [[none]]] = some s ∧
      s.storeResult 0 0 (some 2) = some (true, t) ∧ ¬ Truthful s 0 0 true t := by
  refine ⟨_, _, rfl, rfl, fun truthful => ?_⟩
  have count := truthful.1
  exact absurd count (by decide)

end GtpLibrary.Mysql

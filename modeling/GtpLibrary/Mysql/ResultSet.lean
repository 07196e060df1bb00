import Mathlib.Logic.Function.Basic
import GtpLibrary.Lib.Runs

/-!
# `real::mysql_result_set` and `real::mysql_connection::store_result`

The client library is the environment: what `mysql_query` makes the server answer,
whether `mysql_store_result` returns NULL or a new `MYSQL_RES`, and the row that
`mysql_fetch_row` returns stand in the label of the call, which is enabled only where the
library may act so. A `MYSQL_RES` is known by a number that is never given twice.
Objects are known by their numbers too; NULL is `none`.
-/

namespace GtpLibrary.Mysql

open Function (update)

abbrev Handle := Nat

/-- A row of C strings; NULL stands for the SQL NULL. -/
abbrev Row := List (Option (List (BitVec 8)))

/-- A `MYSQL_RES`: its rows and how many of them were fetched. -/
structure MysqlRes where
  rows : List Row
  fetched : Nat
  deriving DecidableEq

/-- What `mysql_fetch_row` has not returned yet. -/
def MysqlRes.unread (r : MysqlRes) : List Row := r.rows.drop r.fetched

/-- `real::mysql_result_set`. -/
structure MysqlResultSet where
  resultSet : Option Handle
  deriving DecidableEq

/-- The constructor. -/
def MysqlResultSet.construct : MysqlResultSet := ⟨none⟩

/-- `mysql_result_set::init`: an occupied object keeps its pointer. -/
def MysqlResultSet.init (r : MysqlResultSet) (result : Option Handle) : MysqlResultSet :=
  if r.resultSet = none then ⟨result⟩ else r

@[simp] theorem MysqlResultSet.init_none (r : MysqlResultSet) : r.init none = r := by
  cases r with
  | mk pointer => cases pointer <;> rfl

/-- The objects of a program, what the library holds for it, and the pointers that went
through `mysql_store_result` and `mysql_free_result` so far. -/
structure Client where
  objects : Nat → Option MysqlResultSet
  latest : Nat → List Row
  results : Handle → Option MysqlRes
  returned : List Handle
  freed : List Handle

def Client.initial : Client := ⟨fun _ => none, fun _ => [], fun _ => none, [], []⟩

namespace Client

/-! ## The library -/

/-- `mysql_store_result` with its outcome: NULL, or a new result with the rows of the
connection's latest query. -/
def mysqlStoreResult (s : Client) (conn : Nat) : Option Handle → Option Client
  | none => some s
  | some h =>
    if h ∈ s.returned then none
    else some { s with
      results := update s.results h (some ⟨s.latest conn, 0⟩), returned := h :: s.returned }

/-- `mysql_free_result`; NULL is ignored. -/
def mysqlFreeResult (s : Client) : Option Handle → Client
  | none => s
  | some h => { s with results := update s.results h none, freed := h :: s.freed }

/-- `mysql_num_rows`, without a value on a pointer that is NULL or freed. -/
def mysqlNumRows (s : Client) (pointer : Option Handle) : Option Nat :=
  (pointer.bind s.results).map fun r => r.rows.length

/-- `mysql_fetch_row`: NULL behind the last row and on a NULL pointer, without a value on
a freed one. -/
def mysqlFetchRow (s : Client) : Option Handle → Option (Option Row × Client)
  | none => some (none, s)
  | some h =>
    (s.results h).map fun r =>
      (r.rows[r.fetched]?, { s with results := update s.results h (some ⟨r.rows, r.fetched + 1⟩) })

/-! ## The wrappers -/

/-- `mysql_result_set::num_rows`. -/
def numRows (s : Client) (x : Nat) : Option Nat :=
  (s.objects x).bind fun r => s.mysqlNumRows r.resultSet

/-- `mysql_result_set::fetch_row`. -/
def fetchRow (s : Client) (x : Nat) : Option (Option Row × Client) :=
  (s.objects x).bind fun r => s.mysqlFetchRow r.resultSet

/-- `mysql_connection::store_result` into the object `x`, the library's outcome being `result`. -/
def storeResult (s : Client) (conn x : Nat) (result : Option Handle) : Option (Bool × Client) :=
  (s.objects x).bind fun r =>
    (s.mysqlStoreResult conn result).map fun s =>
      (result.isSome, { s with objects := update s.objects x (some (r.init result)) })

end Client

/-- What a program does with the objects. The copies are those the compiler generates. -/
inductive Call
  | construct (x : Nat)
  | copyConstruct (x source : Nat)
  | copyAssign (x source : Nat)
  | destroy (x : Nat)
  | query (conn : Nat) (rows : List Row)
  | storeResult (conn x : Nat) (result : Option Handle)
  | fetchRow (x : Nat) (row : Option Row)
  deriving DecidableEq

/-- One call. -/
def step (s : Client) : Call → Option Client
  | .construct x =>
    if s.objects x = none then some { s with objects := update s.objects x (some .construct) } else none
  | .copyConstruct x source =>
    if s.objects x = none then
      (s.objects source).map fun r => { s with objects := update s.objects x (some r) }
    else none
  | .copyAssign x source =>
    if s.objects x = none then none
    else (s.objects source).map fun r => { s with objects := update s.objects x (some r) }
  | .destroy x =>
    -- the destructor calls `mysql_free_result`
    (s.objects x).map fun r =>
      let freed := s.mysqlFreeResult r.resultSet
      { freed with objects := update freed.objects x none }
  | .query conn rows => some { s with latest := update s.latest conn rows }
  | .storeResult conn x result => (s.storeResult conn x result).map Prod.snd
  | .fetchRow x row => (s.fetchRow x).bind fun (answer, t) => if answer = row then some t else none

/-- What a call does, by the call. -/
inductive Taken (s : Client) : Call → Client → Prop
  | construct {x : Nat} (free : s.objects x = none) :
      Taken s (.construct x) { s with objects := update s.objects x (some .construct) }
  | copyConstruct {x source : Nat} {r : MysqlResultSet} (free : s.objects x = none)
      (copied : s.objects source = some r) :
      Taken s (.copyConstruct x source) { s with objects := update s.objects x (some r) }
  | copyAssign {x source : Nat} {r old : MysqlResultSet} (target : s.objects x = some old)
      (copied : s.objects source = some r) :
      Taken s (.copyAssign x source) { s with objects := update s.objects x (some r) }
  | destroyEmpty {x : Nat} (target : s.objects x = some ⟨none⟩) :
      Taken s (.destroy x) { s with objects := update s.objects x none }
  | destroyFull {x : Nat} {h : Handle} (target : s.objects x = some ⟨some h⟩) :
      Taken s (.destroy x)
        { s with
          objects := update s.objects x none
          results := update s.results h none
          freed := h :: s.freed }
  | query (conn : Nat) (rows : List Row) :
      Taken s (.query conn rows) { s with latest := update s.latest conn rows }
  | storeNull {conn x : Nat} {r : MysqlResultSet} (target : s.objects x = some r) :
      Taken s (.storeResult conn x none) { s with objects := update s.objects x (some r) }
  | storeNew {conn x : Nat} {h : Handle} (target : s.objects x = some ⟨none⟩) (fresh : h ∉ s.returned) :
      Taken s (.storeResult conn x (some h))
        { s with
          objects := update s.objects x (some ⟨some h⟩)
          results := update s.results h (some ⟨s.latest conn, 0⟩)
          returned := h :: s.returned }
  | storeDropped {conn x : Nat} {h g : Handle} (target : s.objects x = some ⟨some g⟩)
      (fresh : h ∉ s.returned) :
      Taken s (.storeResult conn x (some h))
        { s with
          objects := update s.objects x (some ⟨some g⟩)
          results := update s.results h (some ⟨s.latest conn, 0⟩)
          returned := h :: s.returned }
  | fetchNull {x : Nat} (target : s.objects x = some ⟨none⟩) : Taken s (.fetchRow x none) s
  | fetchNext {x : Nat} {h : Handle} {r : MysqlRes} (target : s.objects x = some ⟨some h⟩)
      (held : s.results h = some r) :
      Taken s (.fetchRow x r.rows[r.fetched]?)
        { s with results := update s.results h (some ⟨r.rows, r.fetched + 1⟩) }

theorem step_taken {s t : Client} {call : Call} (taken : step s call = some t) : Taken s call t := by
  cases call with
  | construct x =>
    simp only [step, Option.ite_none_right_eq_some, Option.some.injEq] at taken
    exact taken.2 ▸ .construct taken.1
  | copyConstruct x source =>
    simp only [step, Option.ite_none_right_eq_some, Option.map_eq_some_iff] at taken
    obtain ⟨free, r, copied, rfl⟩ := taken
    exact .copyConstruct free copied
  | copyAssign x source =>
    simp only [step, Option.ite_none_left_eq_some, Option.map_eq_some_iff] at taken
    obtain ⟨some, r, copied, rfl⟩ := taken
    obtain ⟨old, target⟩ := Option.ne_none_iff_exists'.1 some
    exact .copyAssign target copied
  | destroy x =>
    simp only [step, Option.map_eq_some_iff] at taken
    obtain ⟨⟨pointer⟩, target, rfl⟩ := taken
    cases pointer with
    | none => exact .destroyEmpty target
    | some h => exact .destroyFull target
  | query conn rows =>
    simp only [step, Option.some.injEq] at taken
    exact taken ▸ .query conn rows
  | storeResult conn x result =>
    simp only [step, Client.storeResult, Option.map_eq_some_iff, Option.bind_eq_some_iff] at taken
    obtain ⟨_, ⟨r, target, s', stored, rfl⟩, rfl⟩ := taken
    cases result with
    | none =>
      simp only [Client.mysqlStoreResult, Option.some.injEq] at stored
      rw [MysqlResultSet.init_none]
      exact stored ▸ .storeNull target
    | some h =>
      simp only [Client.mysqlStoreResult, Option.ite_none_left_eq_some, Option.some.injEq] at stored
      obtain ⟨pointer⟩ := r
      cases pointer with
      | none => exact stored.2 ▸ .storeNew target stored.1
      | some g => exact stored.2 ▸ .storeDropped target stored.1
  | fetchRow x row =>
    simp only [step, Client.fetchRow, Option.bind_eq_some_iff, Option.ite_none_right_eq_some,
      Option.some.injEq] at taken
    obtain ⟨⟨answer, t'⟩, ⟨⟨pointer⟩, target, fetched⟩, rfl, rfl⟩ := taken
    cases pointer with
    | none =>
      simp only [Client.mysqlFetchRow, Option.some.injEq, Prod.mk.injEq] at fetched
      obtain ⟨rfl, rfl⟩ := fetched
      exact .fetchNull target
    | some h =>
      simp only [Client.mysqlFetchRow, Option.map_eq_some_iff, Prod.mk.injEq] at fetched
      obtain ⟨r, held, rfl, rfl⟩ := fetched
      exact .fetchNext target held

/-- The object `x` exists and holds the pointer `h`. -/
def Client.Holds (s : Client) (x : Nat) (h : Handle) : Prop := s.objects x = some ⟨some h⟩

end GtpLibrary.Mysql

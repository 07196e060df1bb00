import Mathlib.Logic.Function.Basic
import GtpLibrary.Lib.Bytes
import GtpLibrary.Lib.Runs

/-!
# `register.php` of the PC tracker

A request counts the rows and then adds one. The two are statements of their own, and requests
take theirs in any order. The password is put between double quotes as it was posted; where
the database reads a text of its own there, what the statement does is left open.
-/

namespace GtpLibrary.PCTracker

open Lib

structure Row where
  id : Nat
  password : List Byte
  ip : List Byte
  deriving DecidableEq

/-- `ProjectsPCTracker`, with the next value of its `id` column. -/
structure Table where
  rows : List Row
  nextId : Nat

/-- `$_POST['password']` and `$_SERVER['REMOTE_ADDR']`. -/
structure Request where
  password : List Byte
  ip : List Byte

/-! ## The statement -/

/-- The text behind `values(`. -/
def Request.values (request : Request) : List Byte :=
  text "\"" ++ request.password ++ text "\", \"" ++ request.ip ++ text "\")"

/-- What a backslash and a character stand for in a string of MySQL. -/
def escaped (c : Byte) : List Byte :=
  if c = byte '0' then [0]
  else if c = byte 'b' then [8]
  else if c = byte 'n' then [10]
  else if c = byte 'r' then [13]
  else if c = byte 't' then [9]
  else if c = byte 'Z' then [26]
  else if c = byte '%' ∨ c = byte '_' then [byte '\\', c]
  else [c]

/-- A string of MySQL from behind its opening quote: its value, and what stands behind it. -/
def literal : List Byte → Option (List Byte × List Byte)
  | [] => none
  | [c] => if c = byte '"' then some ([], []) else none
  | c :: d :: rest =>
    if c = byte '"' then
      if d = byte '"' then (literal rest).map fun (value, behind) => (c :: value, behind)
      else some ([], d :: rest)
    else if c = byte '\\' then (literal rest).map fun (value, behind) => (escaped d ++ value, behind)
    else (literal (d :: rest)).map fun (value, behind) => (c :: value, behind)

/-- The password that the statement adds, where it reads as two strings. -/
def Request.stored (request : Request) : Option (List Byte) :=
  match literal (request.values.drop 1) with
  | some (value, behind) => if behind = text ", \"" ++ request.ip ++ text "\")" then some value else none
  | none => none

/-! ## Requests -/

/-- Where a request stands. Next to the id that the page shows is the one of the row that was
added, which the script does not ask for. -/
inductive Progress where
  | arrived
  | counted (id : Nat)
  | shown (id : Nat) (added : Option Nat)
  | error1
  | error2
  deriving DecidableEq

structure State where
  table : Table
  progress : Nat → Progress

/-- What the database does with an `insert`. -/
inductive Effect where
  | added
  /-- An `insert` that fails may have taken a value of the column. -/
  | refused (lost : Bool)
  /-- The password ends its string, and the rest of it is part of the statement. -/
  | rewritten (table : Table) (succeeds : Bool)

inductive Label where
  | count (r : Nat) (answered : Bool)
  | insert (r : Nat) (effect : Effect)

namespace State

def setProgress (s : State) (r : Nat) (progress : Progress) : State :=
  { s with progress := Function.update s.progress r progress }

def setTable (s : State) (table : Table) : State := { s with table }

end State

/-- A row with the next id. -/
def Table.add (table : Table) (password ip : List Byte) : Table where
  rows := table.rows ++ [⟨table.nextId, password, ip⟩]
  nextId := table.nextId + 1

def Table.skip (table : Table) (lost : Bool) : Table := if lost then { table with nextId := table.nextId + 1 } else table

section
variable (requests : Nat → Request)

/-- `select count(id)` -/
def count (s : State) (r : Nat) (answered : Bool) : State :=
  s.setProgress r (if answered then .counted (s.table.rows.length + 1) else .error1)

/-- `insert into …`, and the page of a request that computed `id`. -/
def insert (s : State) (r id : Nat) (effect : Effect) : Option State :=
  match effect, (requests r).stored with
  | .added, some password =>
    some ((s.setTable (s.table.add password (requests r).ip)).setProgress r (.shown id (some s.table.nextId)))
  | .refused lost, _ => some ((s.setTable (s.table.skip lost)).setProgress r .error2)
  | .rewritten table succeeds, none =>
    some ((s.setTable table).setProgress r (if succeeds then .shown id none else .error2))
  | _, _ => none

def step (s : State) : Label → Option State
  | .count r answered => if s.progress r = .arrived then some (count s r answered) else none
  | .insert r effect =>
    match s.progress r with
    | .counted id => insert requests s r id effect
    | _ => none

/-- The rows have the ids from 1 on, the next value of the column is behind them, and no request
was handled. -/
structure Starts (s : State) : Prop where
  ids : s.table.rows.map Row.id = List.range' 1 s.table.rows.length
  next : s.table.rows.length < s.table.nextId
  arrived : ∀ r, s.progress r = .arrived

/-- Each requester is shown the id of the row that was added with its password, and nobody
else is shown it. -/
def ShowsOwnIds (s : State) : Prop :=
  ∀ r id added, s.progress r = .shown id added →
    (added = some id ∧ ∃ row ∈ s.table.rows, row.id = id ∧ row.password = (requests r).password) ∧
      ∀ r' id' added', r' ≠ r → s.progress r' = .shown id' added' → id' ≠ id

end

end GtpLibrary.PCTracker

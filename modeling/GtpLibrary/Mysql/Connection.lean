import GtpLibrary.Lib.Ledger
import GtpLibrary.Lib.Runs

/-!
# `real::mysql_connection`

The destructor closes what was initialised, whether `close` was called before or not, and the
copies that the compiler generates copy both the `MYSQL` and the flag. What `mysql_init` returns
stands in the label of the construction; an initialisation is known by a number that is never
given twice, and a `MYSQL` by the initialisation it stems from.
-/

namespace GtpLibrary.Mysql.Connection

open Function (update)
open Lib (run Along Ledger)

abbrev Initialisation := Nat

/-- `real::mysql_connection`. -/
structure MysqlConnection where
  conn : Option Initialisation
  isInitialized : Bool
  deriving DecidableEq

/-- `init`, with what `mysql_init` returns. -/
def MysqlConnection.init (c : MysqlConnection) : Option Initialisation → Bool × MysqlConnection
  | none => (false, c)
  | some h => (true, { c with conn := some h })

/-- The constructor. -/
def MysqlConnection.construct (ret : Option Initialisation) : MysqlConnection :=
  let (isInitialized, c) := MysqlConnection.init ⟨none, false⟩ ret
  { c with isInitialized := isInitialized }

/-- The objects of a program, and the initialisations that succeeded and were closed so far. -/
structure Program where
  objects : Nat → Option MysqlConnection
  initialised : List Initialisation
  closed : List Initialisation

def Program.initial : Program := ⟨fun _ => none, [], []⟩

/-- The methods that leave the `MYSQL` open and the flag as it is. -/
inductive Method
  | connect
  | ping
  | query
  | fieldCount
  | affectedRows
  | error
  | errorNumber
  | storeResult
  deriving DecidableEq

/-- What a program does with the objects. -/
inductive Call
  | construct (x : Nat) (ret : Option Initialisation)
  | copyConstruct (x source : Nat)
  | copyAssign (x source : Nat)
  | method (x : Nat) (method : Method)
  | close (x : Nat)
  | destroy (x : Nat)
  deriving DecidableEq

namespace Program

/-- `mysql_close`; a `MYSQL` that was never initialised is no initialisation's. -/
def mysqlClose (s : Program) : Option Initialisation → Program
  | none => s
  | some h => { s with closed := h :: s.closed }

/-- The destructor. -/
def destruct (s : Program) (c : MysqlConnection) : Program := if c.isInitialized then s.mysqlClose c.conn else s

end Program

/-- One call. -/
def step (s : Program) : Call → Option Program
  | .construct x ret =>
    if s.objects x = none ∧ ∀ h ∈ ret, h ∉ s.initialised then
      some { s with
        objects := update s.objects x (some (.construct ret))
        initialised := ret.toList ++ s.initialised }
    else none
  | .copyConstruct x source =>
    if s.objects x = none then
      (s.objects source).map fun c => { s with objects := update s.objects x (some c) }
    else none
  | .copyAssign x source =>
    if s.objects x = none then none
    else (s.objects source).map fun c => { s with objects := update s.objects x (some c) }
  | .method x _ => (s.objects x).map fun _ => s
  | .close x => (s.objects x).map fun c => s.mysqlClose c.conn
  | .destroy x => (s.objects x).map fun c => { s.destruct c with objects := update s.objects x none }

/-! ## Ownership -/

/-- Each object has the initialisation of its `MYSQL`. -/
def Program.ledger (s : Program) : Ledger Nat Initialisation where
  held x := (s.objects x).bind MysqlConnection.conn
  acquired := s.initialised
  released := s.closed

/-- The flags are right, and each initialisation has one object, or was closed once. -/
structure Owned (s : Program) : Prop where
  flagged : ∀ {x c}, s.objects x = some c → c.isInitialized = c.conn.isSome
  accounted : s.ledger.Accounted

/-- The call is no `close`, and copies no initialised object. -/
def Sole (s : Program) : Call → Prop
  | .copyConstruct _ source => ∀ c ∈ s.objects source, c.isInitialized = false
  | .copyAssign x source => s.objects x = s.objects source
  | .close _ => False
  | _ => True

instance (s : Program) : (call : Call) → Decidable (Sole s call)
  | .copyConstruct _ source => inferInstanceAs (Decidable (∀ c ∈ s.objects source, c.isInitialized = false))
  | .copyAssign x source => inferInstanceAs (Decidable (s.objects x = s.objects source))
  | .close _ => isFalse id
  | .construct _ _ | .method _ _ | .destroy _ => isTrue trivial

section
variable {s t : Program} {call : Call} {x : Nat} {c : MysqlConnection}

theorem Owned.initial : Owned .initial where
  flagged there := nomatch there
  accounted := Ledger.Accounted.empty

theorem Owned.conn_eq_none (owned : Owned s) (there : s.objects x = some c) (flag : c.isInitialized = false) :
    c.conn = none := by
  rw [owned.flagged there] at flag
  exact Option.isSome_eq_false_iff.1 flag |> Option.isNone_iff_eq_none.1

theorem flagged_update (owned : Owned s) {r : Option MysqlConnection}
    (right : ∀ c ∈ r, c.isInitialized = c.conn.isSome) {y : Nat} (there : update s.objects x r y = some c) :
    c.isInitialized = c.conn.isSome := by
  by_cases same : y = x
  · rw [same, Function.update_self] at there
    exact right c there
  · rw [Function.update_of_ne same] at there
    exact owned.flagged there

/-- An object takes the place of one that held the same. -/
theorem Owned.replace (owned : Owned s) {r : Option MysqlConnection} (right : ∀ c ∈ r, c.isInitialized = c.conn.isSome)
    (same : r.bind MysqlConnection.conn = (s.objects x).bind MysqlConnection.conn) :
    Owned { s with objects := update s.objects x r } where
  flagged there := flagged_update owned right there
  accounted := by
    have kept : Program.ledger { s with objects := update s.objects x r } = s.ledger := by
      unfold Program.ledger
      rw [Ledger.bind_update, same, Function.update_eq_self]
    rw [kept]
    exact owned.accounted

theorem Owned.construct (owned : Owned s) {ret : Option Initialisation} (free : s.objects x = none)
    (fresh : ∀ h ∈ ret, h ∉ s.initialised) :
    Owned { s with
      objects := update s.objects x (some (.construct ret))
      initialised := ret.toList ++ s.initialised } := by
  cases ret with
  | none =>
    apply owned.replace
    · rintro c ⟨⟩
      rfl
    · rw [free]
      rfl
  | some h =>
    refine ⟨fun there => flagged_update owned ?_ there, ?_⟩
    · rintro c ⟨⟩
      rfl
    · have acquired : Program.ledger { s with
          objects := update s.objects x (some (.construct (some h)))
          initialised := (some h).toList ++ s.initialised } = s.ledger.acquire x h := by
        unfold Program.ledger Ledger.acquire
        rw [Ledger.bind_update]
        rfl
      rw [acquired]
      refine owned.accounted.acquire ?_ (fresh h rfl)
      show (s.objects x).bind MysqlConnection.conn = none
      rw [free]
      rfl

theorem Owned.destroy (owned : Owned s) (there : s.objects x = some c) :
    Owned { s.destruct c with objects := update s.objects x none } := by
  have flag := owned.flagged there
  cases held : c.conn with
  | none =>
    rw [held, Option.isSome_none] at flag
    have untouched : s.destruct c = s := by
      rw [Program.destruct, flag]
      rfl
    rw [untouched]
    apply owned.replace
    · rintro c ⟨⟩
    · rw [there, Option.bind_some, held]
      rfl
  | some h =>
    rw [held, Option.isSome_some] at flag
    have closes : s.destruct c = { s with closed := h :: s.closed } := by
      rw [Program.destruct, flag, held]
      rfl
    have released : Program.ledger { s.destruct c with objects := update s.objects x none } = s.ledger.release x h := by
      rw [closes]
      unfold Program.ledger Ledger.release
      rw [Ledger.bind_update]
      rfl
    refine ⟨fun there => flagged_update owned (by rintro c ⟨⟩) there, ?_⟩
    rw [released]
    apply owned.accounted.release
    show (s.objects x).bind MysqlConnection.conn = some h
    rw [there, Option.bind_some, held]

/-- What a call keeps that closes nothing and copies nothing initialised. -/
theorem Owned.step (owned : Owned s) (sole : Sole s call) (taken : step s call = some t) : Owned t := by
  cases call with
  | construct x ret =>
    simp only [Connection.step, Option.ite_none_right_eq_some, Option.some.injEq] at taken
    obtain ⟨⟨free, fresh⟩, rfl⟩ := taken
    exact owned.construct free fresh
  | copyConstruct x source =>
    simp only [Connection.step, Option.ite_none_right_eq_some, Option.map_eq_some_iff] at taken
    obtain ⟨free, c, copied, rfl⟩ := taken
    apply owned.replace
    · rintro c ⟨⟩
      exact owned.flagged copied
    · rw [free, Option.bind_some, owned.conn_eq_none copied (sole c copied)]
      rfl
  | copyAssign x source =>
    simp only [Connection.step, Option.ite_none_left_eq_some, Option.map_eq_some_iff] at taken
    obtain ⟨-, c, copied, rfl⟩ := taken
    have same : s.objects x = some c := Eq.trans sole copied
    apply owned.replace
    · rintro c ⟨⟩
      exact owned.flagged copied
    · rw [same]
  | method x method =>
    simp only [Connection.step, Option.map_eq_some_iff] at taken
    obtain ⟨-, -, rfl⟩ := taken
    exact owned
  | close x => cases sole
  | destroy x =>
    simp only [Connection.step, Option.map_eq_some_iff] at taken
    obtain ⟨c, there, rfl⟩ := taken
    exact owned.destroy there

/-- No initialisation was closed twice, and each was closed when the last object is destroyed. -/
def ClosedOnce (s : Program) : Prop :=
  ∀ h ∈ s.initialised, s.closed.count h ≤ 1 ∧ ((∀ x, s.objects x = none) → s.closed.count h = 1)

/-- **Ownership over a run.** -/
theorem closedOnce_of_sole {calls : List Call} (sole : Along step Sole .initial calls)
    (ran : run step .initial calls = some t) : ClosedOnce t := by
  have owned : Owned t := sole.invariant (fun owned sole taken => owned.step sole taken) .initial ran
  intro h member
  constructor
  · exact owned.accounted.count_le_one member
  · intro gone
    apply owned.accounted.settled _ h member
    intro x
    show (t.objects x).bind MysqlConnection.conn = none
    rw [gone x]
    rfl

end

/-- Objects of which one is copied before there was any memory for it. -/
theorem closedOnce_of_sole_two :
    ∃ calls t, run step .initial calls = some t ∧ t.initialised = [7] ∧ ClosedOnce t :=
  ⟨[.construct 0 none, .copyConstruct 1 0, .construct 2 (some 7), .method 2 .connect, .copyAssign 2 2,
      .destroy 2, .destroy 1, .destroy 0], _, rfl, rfl,
    closedOnce_of_sole (show Along step Sole .initial [.construct 0 none, .copyConstruct 1 0,
      .construct 2 (some 7), .method 2 .connect, .copyAssign 2 2, .destroy 2, .destroy 1, .destroy 0] by decide) rfl⟩

/-- What was closed is closed again by the destructor. -/
theorem closed_object_closes : ∃ t,
    run step .initial [.construct 0 (some 7), .method 0 .connect, .close 0, .destroy 0] = some t ∧ ¬ ClosedOnce t := by
  refine ⟨_, rfl, fun once => ?_⟩
  exact absurd (once 7 (by decide)).1 (by decide)

end GtpLibrary.Mysql.Connection

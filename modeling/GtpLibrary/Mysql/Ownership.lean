import GtpLibrary.Lib.Ledger
import GtpLibrary.Mysql.ResultSet

/-!
# Who frees a result

`Exclusive` holds as long as no copy of a pointer is made: the objects hold different,
loaded results. `Accounted` also needs that no result is dropped, which `store_result`
does with a new one when its target is occupied. Then a result is either held, and not
freed yet, or was freed once.
-/

namespace GtpLibrary.Mysql

open Function (update)
open Lib (run run_invariant Along Ledger)

/-- The call makes no second copy of a pointer. -/
def Unshared (s : Client) : Call → Prop
  | .copyConstruct _ source => ∀ r ∈ s.objects source, r.resultSet = none
  | .copyAssign x source => s.objects x = s.objects source
  | _ => True

/-- The call stores a result in an empty object only, and makes no second copy of a pointer. -/
def Sole (s : Client) : Call → Prop
  | .storeResult _ x result => result = none ∨ ∀ r ∈ s.objects x, r.resultSet = none
  | call => Unshared s call

instance (s : Client) : (call : Call) → Decidable (Unshared s call)
  | .copyConstruct _ source => inferInstanceAs (Decidable (∀ r ∈ s.objects source, r.resultSet = none))
  | .copyAssign x source => inferInstanceAs (Decidable (s.objects x = s.objects source))
  | .construct _ | .destroy _ | .query _ _ | .storeResult _ _ _ | .fetchRow _ _ => isTrue trivial

instance (s : Client) : (call : Call) → Decidable (Sole s call)
  | .storeResult _ x result =>
    inferInstanceAs (Decidable (result = none ∨ ∀ r ∈ s.objects x, r.resultSet = none))
  | .copyConstruct x source => inferInstanceAs (Decidable (Unshared s (.copyConstruct x source)))
  | .copyAssign x source => inferInstanceAs (Decidable (Unshared s (.copyAssign x source)))
  | .construct _ | .destroy _ | .query _ _ | .fetchRow _ _ => isTrue trivial

theorem Sole.unshared {s : Client} {call : Call} (sole : Sole s call) : Unshared s call := by
  cases call with
  | storeResult => trivial
  | _ => exact sole

/-- The objects hold different results, which the library has loaded. -/
structure Exclusive (s : Client) : Prop where
  apart : ∀ {x y h}, s.Holds x h → s.Holds y h → x = y
  loaded : ∀ {x h}, s.Holds x h → h ∈ s.returned ∧ ∃ r, s.results h = some r

/-- Every result is held by an object, or was freed once. -/
structure Accounted (s : Client) : Prop extends Exclusive s where
  once : ∀ h ∈ s.returned,
    ((∃ x, s.Holds x h) ∧ s.freed.count h = 0) ∨ ((∀ x, ¬ s.Holds x h) ∧ s.freed.count h = 1)
  known : ∀ h ∈ s.freed, h ∈ s.returned

section
variable {s t : Client} {call : Call}

theorem Client.holds_update {x : Nat} {r : Option MysqlResultSet} {y : Nat} {h : Handle}
    (objects : t.objects = update s.objects x r) :
    t.Holds y h ↔ if y = x then r = some ⟨some h⟩ else s.Holds y h := by
  simp only [Client.Holds, objects, Function.update_apply]
  split <;> rfl

/-- An update by an empty object, or by the object that is there, brings no new holder. -/
theorem Client.holds_of_update {x : Nat} {r : Option MysqlResultSet} {y : Nat} {h : Handle}
    (objects : t.objects = update s.objects x r) (empty : r = s.objects x ∨ ∀ o ∈ r, o.resultSet = none)
    (holds : t.Holds y h) : s.Holds y h := by
  rw [holds_update objects] at holds
  split at holds
  · rename_i same
    rcases empty with there | empty
    · rw [same, Client.Holds, ← there, holds]
    · exact absurd (empty _ holds) (Option.some_ne_none h)
  · exact holds

theorem Client.holds_of_store {x : Nat} {h : Handle} {y : Nat} {g : Handle}
    (objects : t.objects = update s.objects x (some ⟨some h⟩)) (holds : t.Holds y g) :
    (y = x ∧ g = h) ∨ s.Holds y g := by
  rw [holds_update objects] at holds
  split at holds
  · exact .inl ⟨‹_›, by simpa using holds.symm⟩
  · exact .inr holds

theorem Exclusive.of_holds (exclusive : Exclusive s) (holders : ∀ {x h}, t.Holds x h → s.Holds x h)
    (returned : ∀ h ∈ s.returned, h ∈ t.returned)
    (results : ∀ {x h}, t.Holds x h → s.Holds x h → (∃ r, s.results h = some r) → ∃ r, t.results h = some r) :
    Exclusive t where
  apart first second := exclusive.apart (holders first) (holders second)
  loaded holds := ⟨returned _ (exclusive.loaded (holders holds)).1,
    results holds (holders holds) (exclusive.loaded (holders holds)).2⟩

/-- One call without a second copy of a pointer. -/
theorem Exclusive.step (exclusive : Exclusive s) (unshared : Unshared s call)
    (taken : step s call = some t) : Exclusive t := by
  cases step_taken taken with
  | construct free =>
    exact exclusive.of_holds (Client.holds_of_update rfl (.inr (by rintro o ⟨⟩; rfl))) (fun _ => id)
      fun _ _ => id
  | copyConstruct free copied =>
    exact exclusive.of_holds (Client.holds_of_update rfl (.inr (by rintro o ⟨⟩; exact unshared _ copied)))
      (fun _ => id) fun _ _ => id
  | copyAssign target copied =>
    exact exclusive.of_holds (Client.holds_of_update rfl (.inl (copied.symm.trans unshared.symm)))
      (fun _ => id) fun _ _ => id
  | destroyEmpty target =>
    exact exclusive.of_holds (Client.holds_of_update (r := none) rfl (.inr (by rintro o ⟨⟩))) (fun _ => id)
      fun _ _ => id
  | @destroyFull x g target =>
    refine exclusive.of_holds (Client.holds_of_update (r := none) rfl (.inr (by rintro o ⟨⟩))) (fun _ => id)
      fun {y h} after before loaded => ?_
    have other : h ≠ g := by
      rintro rfl
      obtain rfl := exclusive.apart before target
      rw [Client.holds_update rfl, if_pos rfl] at after
      cases after
    simpa [Function.update_of_ne other] using loaded
  | query conn rows => exact exclusive.of_holds id (fun _ => id) fun _ _ => id
  | storeNull target =>
    exact exclusive.of_holds (Client.holds_of_update rfl (.inl target.symm)) (fun _ => id) fun _ _ => id
  | @storeNew conn x h target fresh =>
    have old : ∀ {y g}, s.Holds y g → g ≠ h := fun held same => fresh (same ▸ (exclusive.loaded held).1)
    constructor
    · intro y z g first second
      rcases Client.holds_of_store rfl first with ⟨here, same⟩ | held <;>
        rcases Client.holds_of_store rfl second with ⟨here', same'⟩ | held'
      · exact here.trans here'.symm
      · exact absurd same (old held')
      · exact absurd same' (old held)
      · exact exclusive.apart held held'
    · intro y g holds
      rcases Client.holds_of_store rfl holds with ⟨-, rfl⟩ | holds
      · exact ⟨List.mem_cons_self .., _, Function.update_self ..⟩
      · exact ⟨List.mem_cons_of_mem _ (exclusive.loaded holds).1,
          by simpa [Function.update_of_ne (old holds)] using (exclusive.loaded holds).2⟩
  | @storeDropped conn x h g target fresh =>
    refine exclusive.of_holds (Client.holds_of_update rfl (.inl target.symm)) (fun _ => List.mem_cons_of_mem _)
      fun {y g} _ before loaded => ?_
    have other : g ≠ h := fun same => fresh (same ▸ (exclusive.loaded before).1)
    simpa [Function.update_of_ne other] using loaded
  | fetchNull target => exact exclusive
  | @fetchNext x h r target held =>
    refine exclusive.of_holds id (fun _ => id) fun {y g} _ _ loaded => ?_
    by_cases same : g = h
    · exact ⟨_, by rw [same]; exact Function.update_self ..⟩
    · simpa [Function.update_of_ne same] using loaded

/-! ## The account -/

/-- Each object has the result that it points to. -/
def Client.ledger (s : Client) : Ledger Nat Handle where
  held x := (s.objects x).bind MysqlResultSet.resultSet
  acquired := s.returned
  released := s.freed

theorem Client.held_ledger {x : Nat} {h : Handle} : s.ledger.held x = some h ↔ s.Holds x h := by
  constructor
  · intro held
    obtain ⟨⟨pointer⟩, there, points⟩ := Option.bind_eq_some_iff.1 held
    exact there.trans (congrArg (fun p => some (MysqlResultSet.mk p)) points)
  · intro holds
    exact Option.bind_eq_some_iff.2 ⟨_, holds, rfl⟩

theorem Accounted.ledger (accounted : Accounted s) : s.ledger.Accounted where
  apart first second := accounted.apart (Client.held_ledger.1 first) (Client.held_ledger.1 second)
  owned held := (accounted.loaded (Client.held_ledger.1 held)).1
  known := accounted.known
  once := by
    simp only [ne_eq, Client.held_ledger]
    exact accounted.once

theorem Accounted.of_ledger (exclusive : Exclusive s) (account : s.ledger.Accounted) : Accounted s where
  toExclusive := exclusive
  known := account.known
  once := by
    simp only [← Client.held_ledger]
    exact account.once

/-- An object takes the place of one with the same pointer. -/
theorem Client.ledger_replace {x : Nat} {r : Option MysqlResultSet} (objects : t.objects = update s.objects x r)
    (same : r.bind MysqlResultSet.resultSet = (s.objects x).bind MysqlResultSet.resultSet)
    (returned : t.returned = s.returned) (freed : t.freed = s.freed) : t.ledger = s.ledger := by
  unfold Client.ledger
  rw [objects, Ledger.bind_update, same, Function.update_eq_self, returned, freed]

/-- An object without a result gets a new one. -/
theorem Client.ledger_acquire {x : Nat} {h : Handle} (objects : t.objects = update s.objects x (some ⟨some h⟩))
    (returned : t.returned = h :: s.returned) (freed : t.freed = s.freed) :
    t.ledger = s.ledger.acquire x h := by
  unfold Client.ledger Ledger.acquire
  rw [objects, Ledger.bind_update, returned, freed]
  rfl

/-- An object is destroyed with its result. -/
theorem Client.ledger_release {x : Nat} {h : Handle} (objects : t.objects = update s.objects x none)
    (returned : t.returned = s.returned) (freed : t.freed = h :: s.freed) :
    t.ledger = s.ledger.release x h := by
  unfold Client.ledger Ledger.release
  rw [objects, Ledger.bind_update, returned, freed]
  rfl

/-- One call that neither drops a result nor copies a pointer. -/
theorem Accounted.step (accounted : Accounted s) (sole : Sole s call) (taken : step s call = some t) :
    Accounted t := by
  have account := accounted.ledger
  have carry : ∀ {l : Ledger Nat Handle}, l.Accounted → t.ledger = l → t.ledger.Accounted := by
    intro l account same
    rw [same]
    exact account
  apply Accounted.of_ledger (accounted.toExclusive.step sole.unshared taken)
  -- only a new result and a destroyed holder change the account
  cases step_taken taken with
  | construct free =>
    refine carry account (Client.ledger_replace rfl ?_ rfl rfl)
    rw [free]
    rfl
  | copyConstruct free copied =>
    refine carry account (Client.ledger_replace rfl ?_ rfl rfl)
    rw [free, Option.bind_some, sole _ copied]
    rfl
  | copyAssign target copied =>
    refine carry account (Client.ledger_replace rfl ?_ rfl rfl)
    rw [copied.symm.trans sole.symm]
  | destroyEmpty target =>
    refine carry account (Client.ledger_replace (r := none) rfl ?_ rfl rfl)
    rw [target]
    rfl
  | destroyFull target =>
    exact carry (account.release (Client.held_ledger.2 target)) (Client.ledger_release rfl rfl rfl)
  | query conn rows => exact account
  | storeNull target =>
    refine carry account (Client.ledger_replace rfl ?_ rfl rfl)
    rw [target]
  | @storeNew conn x h target fresh =>
    refine carry (account.acquire ?_ fresh) (Client.ledger_acquire rfl rfl rfl)
    show (s.objects x).bind MysqlResultSet.resultSet = none
    rw [target]
    rfl
  | @storeDropped conn x h g target fresh =>
    rcases sole with none | empty
    · cases none
    · exact absurd (empty _ target) (Option.some_ne_none g)
  | fetchNull target => exact account
  | fetchNext target held => exact account

theorem Exclusive.initial : Exclusive .initial := ⟨fun holds => (nomatch holds), fun holds => (nomatch holds)⟩

theorem Accounted.initial : Accounted .initial :=
  ⟨.initial, by simp [Client.initial], by simp [Client.initial]⟩

/-- The library returned `h`, no object holds it, and it was not freed. -/
structure Leaked (s : Client) (h : Handle) : Prop where
  returned : h ∈ s.returned
  unheld : ∀ x, ¬ s.Holds x h
  unfreed : s.freed.count h = 0

/-- Nothing a program does finds a leaked result again. -/
theorem Leaked.step {h : Handle} (leaked : Leaked s h) (taken : step s call = some t) : Leaked t h := by
  have update_unheld : ∀ {x : Nat} {r : Option MysqlResultSet}, t.objects = update s.objects x r →
      r ≠ some ⟨some h⟩ → ∀ y, ¬ t.Holds y h := by
    intro x r objects other y holds
    rw [Client.holds_update objects] at holds
    split at holds
    · exact other holds
    · exact leaked.unheld y holds
  have other : ∀ {x : Nat} {r : MysqlResultSet}, s.objects x = some r → some r ≠ some ⟨some h⟩ :=
    fun there same => leaked.unheld _ (there.trans same)
  cases step_taken taken with
  | construct free =>
    exact ⟨leaked.returned, update_unheld rfl (by simp [MysqlResultSet.construct]), leaked.unfreed⟩
  | copyConstruct free copied => exact ⟨leaked.returned, update_unheld rfl (other copied), leaked.unfreed⟩
  | copyAssign target copied => exact ⟨leaked.returned, update_unheld rfl (other copied), leaked.unfreed⟩
  | destroyEmpty target =>
    exact ⟨leaked.returned, update_unheld (r := none) rfl (Option.some_ne_none _).symm, leaked.unfreed⟩
  | @destroyFull x g target =>
    have different : g ≠ h := fun same => other target (by rw [same])
    exact ⟨leaked.returned, update_unheld (r := none) rfl (Option.some_ne_none _).symm,
      (List.count_cons_of_ne different).trans leaked.unfreed⟩
  | query conn rows => exact ⟨leaked.returned, leaked.unheld, leaked.unfreed⟩
  | storeNull target => exact ⟨leaked.returned, update_unheld rfl (other target), leaked.unfreed⟩
  | @storeNew conn x g target fresh =>
    have different : g ≠ h := fun same => fresh (same ▸ leaked.returned)
    exact ⟨List.mem_cons_of_mem _ leaked.returned, update_unheld rfl (by simpa using different),
      leaked.unfreed⟩
  | @storeDropped conn x h' g target fresh =>
    exact ⟨List.mem_cons_of_mem _ leaked.returned, update_unheld rfl (other target), leaked.unfreed⟩
  | fetchNull target => exact leaked
  | fetchNext target held => exact ⟨leaked.returned, leaked.unheld, leaked.unfreed⟩

theorem Leaked.run {h : Handle} {calls : List Call} (leaked : Leaked s h)
    (ran : Lib.run Mysql.step s calls = some t) : Leaked t h :=
  run_invariant (Leaked · h) (fun leaked taken => leaked.step taken) leaked ran

/-- A result stored into an occupied object leaks. -/
theorem leaked_of_store (exclusive : Exclusive s) {conn x : Nat} {h g : Handle}
    (target : s.Holds x g) (unfreed : h ∉ s.freed) (taken : step s (.storeResult conn x (some h)) = some t) :
    Leaked t h := by
  cases step_taken taken with
  | storeNew empty fresh => cases target.symm.trans empty
  | storeDropped occupied fresh =>
    refine ⟨List.mem_cons_self .., fun y holds => ?_, List.count_eq_zero.2 unfreed⟩
    exact fresh (exclusive.loaded (Client.holds_of_update rfl (.inl occupied.symm) holds)).1

/-- When the last object is destroyed, each result the library returned was freed once. -/
def FreedOnce (s : Client) : Prop :=
  (∀ x, s.objects x = none) → ∀ h ∈ s.returned, s.freed.count h = 1

/-- **Ownership over a run.** -/
theorem freedOnce_of_sole {calls : List Call} (sole : Along step Sole .initial calls)
    (ran : run step .initial calls = some t) : FreedOnce t := by
  have accounted : Accounted t := sole.invariant (fun a s r => a.step s r) .initial ran
  intro gone
  apply accounted.ledger.settled
  intro x
  show (t.objects x).bind MysqlResultSet.resultSet = none
  rw [gone]
  rfl

end

/-- Two objects, one of them used again after a query without a result. -/
theorem freedOnce_of_sole_two :
    ∃ calls t, run step .initial calls = some t ∧ t.returned = [8, 7] ∧ FreedOnce t :=
  ⟨[.construct 0, .storeResult 0 0 none, .storeResult 0 0 (some 7), .construct 1, .storeResult 1 1 (some 8),
      .copyAssign 0 0, .destroy 0, .destroy 1], _, rfl, rfl,
    freedOnce_of_sole (show Along step Sole .initial [.construct 0, .storeResult 0 0 none,
      .storeResult 0 0 (some 7), .construct 1, .storeResult 1 1 (some 8), .copyAssign 0 0, .destroy 0,
      .destroy 1] by decide) rfl⟩

/-- A second result stored in one object is never freed. -/
theorem reused_object_leaks : ∃ t, run step .initial
      [.construct 0, .storeResult 0 0 (some 7), .storeResult 0 0 (some 8), .destroy 0] = some t ∧
    ¬ FreedOnce t := by
  refine ⟨_, rfl, fun freed => ?_⟩
  have gone := freed (fun x => by cases x <;> rfl) 8 (by decide)
  exact absurd gone (by decide)

end GtpLibrary.Mysql

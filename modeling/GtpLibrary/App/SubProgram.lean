import Mathlib.Data.List.Perm.Basic
import Mathlib.Data.Set.List
import GtpLibrary.Lib.Runs

/-!
# Self-registration of sub programs

`application.cpp` constructs the global `sub_programs`; each source file that uses
`REGISTER_SUB_PROGRAM` has one dynamic initialiser a use, which calls
`sub_programs.push_back`. The language fixes the order of the initialisers of one file
and leaves the order of the files open. A call on a vector that is not constructed yet
has no defined behaviour: the run of the initialisers has no state then.
-/

namespace GtpLibrary.App

open Lib (run run_cons run_append)

/-- `sub_program`. -/
structure SubProgram where
  name : String
  ptr : List String → Int
  args : List String

/-- The global `sub_programs` while the initialisers run. -/
inductive SubPrograms
  | unconstructed
  | constructed (contents : List SubProgram)

/-- A dynamic initialiser. -/
inductive Initialiser
  | construct
  | register (program : SubProgram)

/-- `REGISTER_SUB_PROGRAM`: the initialiser of `bool_add_main_NAME`. -/
def registerSubProgram (name : String) (pointer : List String → Int) (arguments : List String) :
    Initialiser :=
  .register ⟨name, pointer, arguments⟩

def initialise : SubPrograms → Initialiser → Option SubPrograms
  | _, .construct => some (.constructed [])
  | .constructed contents, .register program => some (.constructed (contents ++ [program]))
  | .unconstructed, .register _ => none

/-- The sub programs that the source files register, file by file. -/
abbrev Files := List (List SubProgram)

/-- An order in which the initialisers of the files and of `application.cpp` may run. -/
structure InitOrder (files : Files) where
  order : List Initialiser
  all : order.Perm (.construct :: files.flatten.map .register)
  within : ∀ file ∈ files, (file.map .register).Sublist order

/-- When `application::run` starts, the vector was not touched before its construction
and contains every registered sub program once. -/
def Registered (files : Files) (order : List Initialiser) : Prop :=
  ∃ contents, run initialise .unconstructed order = some (.constructed contents) ∧ contents.Perm files.flatten

/-! ## `application::run` -/

inductive Event
  | print (text : String)
  | call (ptr : List String → Int) (args : List String)

/-- The body of the range `for`. -/
def runProgram (program : SubProgram) : List Event :=
  [.print ("=== Running application: " ++ program.name ++ " ==="), .call program.ptr program.args]

/-- `application::run`: what it does, and `EXIT_SUCCESS`. -/
def applicationRun (subPrograms : List SubProgram) : List Event × Int :=
  ([.print "GTP_CPP_Library example applications.",
      .print (toString subPrograms.length ++ " applications registered.")] ++
    subPrograms.flatMap runProgram, 0)

/-- The calls among the events. -/
def calls (events : List Event) : List ((List String → Int) × List String) :=
  events.filterMap fun
    | .call ptr args => some (ptr, args)
    | .print _ => none

theorem calls_applicationRun (subPrograms : List SubProgram) :
    calls (applicationRun subPrograms).1 = subPrograms.map fun program => (program.ptr, program.args) := by
  have each : ∀ programs : List SubProgram,
      calls (programs.flatMap runProgram) = programs.map fun program => (program.ptr, program.args) := by
    intro programs
    induction programs with
    | nil => rfl
    | cons program programs ih =>
      rw [List.flatMap_cons, calls, List.filterMap_append, List.map_cons, ← ih]
      rfl
  exact each subPrograms

/-! ## Orders -/

theorem run_registrations (contents programs : List SubProgram) :
    run initialise (.constructed contents) (programs.map .register) =
      some (.constructed (contents ++ programs)) := by
  induction programs generalizing contents with
  | nil => rw [List.append_nil]; rfl
  | cons program programs ih =>
    rw [List.map_cons, run_cons, initialise, Option.bind_some, ih, List.append_assoc, List.singleton_append]

/-- Initialisers that are a permutation of registrations are registrations. -/
theorem exists_programs {order : List Initialiser} {programs : List SubProgram}
    (all : order.Perm (programs.map .register)) :
    ∃ contents : List SubProgram, order = contents.map .register ∧ contents.Perm programs := by
  have registers : order ∈ Set.range (List.map Initialiser.register) := by
    rw [Set.range_list_map]
    intro i member
    obtain ⟨p, -, same⟩ := List.mem_map.1 (all.subset member)
    exact ⟨p, same⟩
  obtain ⟨contents, rfl⟩ := registers
  exact ⟨contents, rfl, (List.map_perm_map_iff fun _ _ same => Initialiser.register.inj same).1 all⟩

variable {files : Files}

/-- A defined run starts with the construction. -/
theorem head_of_run {order : List Initialiser} {state : SubPrograms} (some : order ≠ [])
    (ran : run initialise .unconstructed order = .some state) : order.head? = .some .construct := by
  cases order with
  | nil => exact absurd rfl some
  | cons first order =>
    cases first with
    | construct => rfl
    | register program => cases ran

/-- **Registration works exactly in the orders that construct the vector first.** -/
theorem registered_iff_constructed_first (order : InitOrder files) :
    Registered files order.order ↔ order.order.head? = some .construct := by
  constructor
  · rintro ⟨contents, ran, -⟩
    apply head_of_run _ ran
    intro none
    have all := order.all
    rw [none] at all
    exact List.cons_ne_nil _ _ all.nil_eq.symm
  · intro first
    obtain ⟨rest, eq⟩ := List.head?_eq_some_iff.1 first
    have all := order.all
    rw [eq] at all ⊢
    obtain ⟨contents, rfl, perm⟩ := exists_programs all.cons_inv
    exact ⟨contents, run_registrations [] contents, perm⟩

/-- Where registration works, `application::run` calls each registered program once. -/
theorem calls_of_registered {order : List Initialiser} (registered : Registered files order) :
    ∃ contents, run initialise .unconstructed order = some (.constructed contents) ∧
      (calls (applicationRun contents).1).Perm
        (files.flatten.map fun program => (program.ptr, program.args)) := by
  obtain ⟨contents, ran, perm⟩ := registered
  exact ⟨contents, ran, calls_applicationRun contents ▸ perm.map _⟩

/-- One file, linked in front of `application.cpp`. -/
theorem registered_depends_on_order :
    ∃ (files : Files) (order : InitOrder files), ¬ Registered files order.order :=
  ⟨[[⟨"real_socket_test", fun _ => 0, ["--server"]⟩]],
    ⟨[registerSubProgram "real_socket_test" (fun _ => 0) ["--server"], .construct], .swap .., by
      rintro file ⟨⟩
      · exact .cons_cons _ (List.nil_sublist _)
      · rename_i member
        cases member⟩,
    fun ⟨_, ran, _⟩ => nomatch ran⟩

end GtpLibrary.App

import Mathlib.Logic.Function.Basic
import Mathlib.Data.List.Basic

/-!
# Registries

An entry has a secret; whoever shows one that is taken for it may change the value of the entry and
look it up. After any events an entry has the value of the last change that was for it
(`entry_foldl`).
-/

namespace GtpLibrary.Lib.Registry

open Function (update)

variable {Key Secret Value : Type}

structure Entry (Secret Value : Type) where
  secret : Secret
  value : Value

abbrev Entries (Key Secret Value : Type) := Key → Option (Entry Secret Value)

inductive Event (Key Secret Value : Type) where
  | register (key : Key) (secret : Secret) (value : Value)
  | change (key : Key) (secret : Secret) (value : Value)

def Event.key : Event Key Secret Value → Key
  | .register key _ _ | .change key _ _ => key

section
variable (same : Secret → Secret → Bool)

def Entry.change (entry : Entry Secret Value) (secret : Secret) (value : Value) : Entry Secret Value :=
  if same entry.secret secret then { entry with value } else entry

def Entries.look (entries : Entries Key Secret Value) (key : Key) (secret : Secret) : Option Value :=
  (entries key).bind fun entry => if same entry.secret secret then some entry.value else none

theorem look_of_entry {entries : Entries Key Secret Value} {key : Key} {secret shown : Secret} {value : Value}
    (entry : entries key = some ⟨secret, value⟩) (known : same secret shown = true) :
    entries.look same key shown = some value := by
  rw [Entries.look, entry, Option.bind_some, if_pos known]

variable [DecidableEq Key]

def Entries.apply (entries : Entries Key Secret Value) : Event Key Secret Value → Entries Key Secret Value
  | .register key secret value => update entries key (some ⟨secret, value⟩)
  | .change key secret value => update entries key ((entries key).map fun entry => entry.change same secret value)

/-- The value that an event gives to an entry with this key and this secret. -/
def Event.gives (key : Key) (secret : Secret) : Event Key Secret Value → Option Value
  | .register .. => none
  | .change k shown value => if k = key ∧ same secret shown = true then some value else none

end

section
variable [DecidableEq Key] {same : Secret → Secret → Bool} {entries : Entries Key Secret Value} {key : Key} {secret shown : Secret}
  {value : Value} {event : Event Key Secret Value} {events : List (Event Key Secret Value)}

/-- Events for other keys leave an entry alone. -/
theorem apply_of_ne (other : event.key ≠ key) : entries.apply same event key = entries key := by
  cases event with
  | register | change => exact Function.update_of_ne (Ne.symm other) _ _

theorem apply_entry (entry : entries key = some ⟨secret, value⟩) (fresh : ∀ s v, event ≠ .register key s v) :
    entries.apply same event key = some ⟨secret, (event.gives same key secret).getD value⟩ := by
  cases event with
  | register k s v =>
    have other : (Event.register k s v).key ≠ key := by
      rintro rfl
      exact fresh s v rfl
    exact (apply_of_ne other).trans entry
  | change k shown v =>
    by_cases here : k = key
    · subst here
      show update entries k _ k = _
      rw [Function.update_self, entry, Option.map_some, Entry.change, Event.gives]
      by_cases known : same secret shown = true
      · rw [if_pos known, if_pos ⟨rfl, known⟩]
        rfl
      · rw [if_neg known, if_neg fun both => known both.2]
        rfl
    · rw [show entries.apply same (.change k shown v) key = entries key from apply_of_ne here, Event.gives,
        if_neg fun both => here both.1]
      exact entry

variable (same) in
/-- **The last change counts**: an entry that is not registered again has the value of the last event that was
for it, or the one it had. -/
theorem entry_foldl (entry : entries key = some ⟨secret, value⟩)
    (fresh : ∀ event ∈ events, ∀ s v, event ≠ .register key s v) :
    events.foldl (Entries.apply same) entries key =
      some ⟨secret, ((events.filterMap (Event.gives same key secret)).getLast?).getD value⟩ := by
  induction events generalizing entries value with
  | nil => exact entry
  | cons event events ih =>
    obtain ⟨here, later⟩ := List.forall_mem_cons.1 fresh
    rw [List.foldl_cons, ih (apply_entry entry here) later]
    cases given : event.gives same key secret with
    | none => rw [List.filterMap_cons_none given, Option.getD_none]
    | some v =>
      rw [List.filterMap_cons_some given, List.getLast?_cons, Option.getD_some]
      rfl

end

end GtpLibrary.Lib.Registry

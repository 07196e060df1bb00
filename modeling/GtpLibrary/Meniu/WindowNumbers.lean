import GtpLibrary.Lib.Numbers
import GtpLibrary.Meniu.OpenWindow

/-!
# The numbers of the open windows

The counter, the set and the command stay in step with the desktop: the set holds the numbers
of the windows, which differ, and the command is disabled while there are 255 of them. A
number is therefore free whenever a window can be opened.
-/

namespace GtpLibrary.Meniu
open GtpLibrary.Lib GtpLibrary.Lib.Numbers

/-- The numbers on the desktop. -/
def State.numbers (s : State) : List Nat := s.desktop.map fun w => w.number.toNat

structure InStep (s : State) : Prop where
  allotted : Allotted maxWindows s.numbers s.winN
  count : s.nrFereastra = BitVec.ofNat 16 s.desktop.length
  full : .cmopen ∈ s.disabled ↔ s.desktop.length = maxWindows

section
variable {extent : Rect} {s t : State} {wtitle : List Byte} {k i : Nat} {w : Fereastra} {call : Call} {calls : List Call}

theorem InStep.length_le (inStep : InStep s) : s.desktop.length ≤ maxWindows := by
  have few := inStep.allotted.length_le
  unfold State.numbers at few
  rwa [List.length_map] at few

theorem getWindowNumber_of_next {winN : Finset Nat} (free : next maxWindows winN = some i) :
    getWindowNumber winN = (BitVec.ofNat 16 i, insert i winN) := by
  unfold next at free
  unfold getWindowNumber
  rw [free]

theorem toNat_number (small : i ≤ maxWindows) : (BitVec.ofNat 16 i).toNat = i := by
  unfold maxWindows at small
  rw [BitVec.toNat_ofNat, Nat.mod_eq_of_lt (by omega)]

theorem toInt_eq_toNat {number : Integer} (small : number.toNat ≤ maxWindows) : number.toInt = number.toNat := by
  apply BitVec.toInt_eq_toNat_of_lt
  unfold maxWindows at small
  omega

theorem toInt_number (small : i ≤ maxWindows) : (BitVec.ofNat 16 i).toInt = i := by
  have value := toNat_number small
  rw [toInt_eq_toNat (value.trans_le small), value]

/-- A number of an open window is one that is put back. -/
theorem putWindowNumber_eq {winN : Finset Nat} {number : Integer} (positive : 1 ≤ number.toNat)
    (small : number.toNat ≤ maxWindows) : putWindowNumber winN number = winN.erase number.toNat := by
  have one : (1 : Integer).toInt = 1 := by decide
  unfold putWindowNumber BitVec.sle
  rw [toInt_eq_toNat small, one, toInt_number (Nat.le_refl _), if_pos]
  simp only [Bool.and_eq_true, decide_eq_true_eq]
  omega

/-- The counter reaches the greatest number with the last window. -/
theorem full_iff (few : s.desktop.length < maxWindows) :
    (BitVec.ofNat 16 maxWindows).sle (BitVec.ofNat 16 s.desktop.length + 1) = true ↔ s.desktop.length + 1 = maxWindows := by
  have next : BitVec.ofNat 16 s.desktop.length + 1 = BitVec.ofNat 16 (s.desktop.length + 1) := (BitVec.ofNat_add ..).symm
  rw [BitVec.sle, next, toInt_number (Nat.le_refl _), toInt_number few, decide_eq_true_eq]
  omega

/-! ## The calls -/

/-- What an enabled `openwindow` does. -/
theorem openWindow_eq (extent : Rect) (wtitle : List Byte) (inStep : InStep s) (room : s.desktop.length < maxWindows) :
    ∃ i, next maxWindows s.winN = some i ∧ openWindow extent s wtitle =
      { nrFereastra := s.nrFereastra + 1
        winN := insert i s.winN
        disabled := if s.desktop.length + 1 = maxWindows then s.disabled ∪ {.cmopen} else s.disabled
        desktop :=
          ⟨{ extent with a := (s.nrFereastra, s.nrFereastra) }, wtitle, BitVec.ofNat 16 i, true⟩ :: s.desktop } := by
  have fewer : s.numbers.length < maxWindows := by
    unfold State.numbers
    rwa [List.length_map]
  obtain ⟨i, free⟩ := inStep.allotted.exists_next fewer
  refine ⟨i, free, ?_⟩
  unfold openWindow init
  simp only [getWindowNumber_of_next free, inStep.count, full_iff room]
  split <;> rfl

theorem InStep.openWindow (inStep : InStep s) (enabled : .cmopen ∉ s.disabled) : InStep (openWindow extent s wtitle) := by
  have few := inStep.length_le
  have room : s.desktop.length < maxWindows := by
    rw [inStep.full] at enabled
    omega
  obtain ⟨i, free, eq⟩ := openWindow_eq extent wtitle inStep room
  rw [eq]
  constructor
  · unfold State.numbers
    rw [List.map_cons, toNat_number (next_eq_some free).2.1]
    exact inStep.allotted.take free
  · rw [inStep.count, List.length_cons]
    exact (BitVec.ofNat_add ..).symm
  · rw [List.length_cons]
    split
    · simp [*]
    · simp [*]

theorem InStep.close (inStep : InStep s) (here : s.desktop[k]? = some w) : InStep (close s k w) := by
  have few := inStep.length_le
  obtain ⟨inside, -⟩ := List.getElem?_eq_some_iff.1 here
  have holder : s.numbers[k]? = some w.number.toNat := by
    unfold State.numbers
    rw [List.getElem?_map, here]
    rfl
  obtain ⟨positive, small⟩ := inStep.allotted.within _ (List.mem_of_getElem? holder)
  have left : (s.desktop.eraseIdx k).length = s.desktop.length - 1 := List.length_eraseIdx_of_lt inside
  constructor
  · show Allotted maxWindows ((s.desktop.eraseIdx k).map _) (putWindowNumber s.winN w.number)
    rw [putWindowNumber_eq positive small, ← List.eraseIdx_map]
    exact inStep.allotted.giveBack holder
  · show s.nrFereastra - 1 = BitVec.ofNat 16 (s.desktop.eraseIdx k).length
    rw [inStep.count, left]
    have whole : s.desktop.length = s.desktop.length - 1 + 1 := by omega
    conv_lhs => rw [whole, BitVec.ofNat_add]
    exact BitVec.add_sub_cancel ..
  · show .cmopen ∈ s.disabled \ {.cmopen} ↔ (s.desktop.eraseIdx k).length = maxWindows
    rw [left]
    simp only [Finset.mem_sdiff, Finset.mem_singleton, not_true_eq_false, and_false, false_iff]
    omega

theorem InStep.idle (inStep : InStep s) : InStep (idle s) := by
  have same : .cmopen ∈ (Meniu.idle s).disabled ↔ .cmopen ∈ s.disabled := by
    unfold Meniu.idle State.enableCommands State.disableCommands
    split <;> simp
  have rest : (Meniu.idle s).desktop = s.desktop ∧ (Meniu.idle s).winN = s.winN ∧
      (Meniu.idle s).nrFereastra = s.nrFereastra := by
    unfold Meniu.idle
    split <;> exact ⟨rfl, rfl, rfl⟩
  obtain ⟨desktop, winN, nrFereastra⟩ := rest
  constructor
  · unfold State.numbers
    rw [desktop, winN]
    exact inStep.allotted
  · rw [desktop, nrFereastra]
    exact inStep.count
  · rw [desktop, same]
    exact inStep.full

theorem InStep.step (inStep : InStep s) (taken : step extent s call = some t) : InStep t := by
  cases call with
  | openWindow wtitle =>
    rw [Meniu.step] at taken
    split at taken
    · cases taken
    · rename_i enabled
      cases taken
      exact inStep.openWindow enabled
  | close k =>
    rw [Meniu.step, Option.map_eq_some_iff] at taken
    obtain ⟨w, here, rfl⟩ := taken
    exact inStep.close here
  | idle =>
    cases taken
    exact inStep.idle

theorem inStep_initial : InStep {} where
  allotted := .nil
  count := rfl
  full := by decide

theorem InStep.run (ran : run (Meniu.step extent) {} calls = some s) : InStep s :=
  run_invariant InStep (fun inStep taken => inStep.step taken) inStep_initial ran

theorem InStep.enabled_iff (inStep : InStep s) : .cmopen ∉ s.disabled ↔ s.desktop.length < maxWindows := by
  have few := inStep.length_le
  rw [inStep.full]
  omega

theorem InStep.nrFereastra (inStep : InStep s) : s.nrFereastra.toInt = s.desktop.length := by
  rw [inStep.count, toInt_number inStep.length_le]

/-- The loop of `getwindownumber` finds a number for a window that may be opened. -/
theorem InStep.getWindowNumber_ne (inStep : InStep s) (enabled : .cmopen ∉ s.disabled) :
    (getWindowNumber s.winN).1 ≠ wnNoNumber := by
  obtain ⟨i, free, -⟩ := openWindow_eq ⟨0, 0⟩ [] inStep (inStep.enabled_iff.1 enabled)
  obtain ⟨positive, small, -⟩ := next_eq_some free
  rw [getWindowNumber_of_next free]
  intro zero
  have value := toNat_number small
  rw [show BitVec.ofNat 16 i = 0 from zero] at value
  exact absurd value (by simp; omega)

/-- **Window numbers.** After any calls the open windows have different numbers from 1 to
255, which are those in the set, the counter counts them, `cmopen` is enabled while there are
fewer than 255, and a window that may be opened gets a number. -/
theorem window_numbers (ran : run (step extent) {} calls = some s) :
    s.numbers.Nodup ∧ (∀ n ∈ s.numbers, 1 ≤ n ∧ n ≤ 255) ∧ (∀ n, n ∈ s.winN ↔ n ∈ s.numbers) ∧
      s.nrFereastra.toInt = s.desktop.length ∧ (.cmopen ∉ s.disabled ↔ s.desktop.length < 255) ∧
      (.cmopen ∉ s.disabled → (getWindowNumber s.winN).1 ≠ wnNoNumber) := by
  have inStep := InStep.run ran
  exact ⟨inStep.allotted.distinct, inStep.allotted.within, inStep.allotted.mem, inStep.nrFereastra, inStep.enabled_iff,
    inStep.getWindowNumber_ne⟩

end

/-- Three windows, of which the second is closed, and one that takes its number. -/
def reuse : List Call := [.openWindow notitle, .openWindow notitle, .openWindow notitle, .close 1, .openWindow notitle]

/-- What they leave on a screen of 80 columns and 23 rows. -/
def reused : State := (run (step ⟨(0, 0), (80, 23)⟩) {} reuse).getD {}

theorem window_numbers_reused :
    reused.numbers = [2, 3, 1] ∧ reused.numbers.Nodup ∧ (∀ n ∈ reused.numbers, 1 ≤ n ∧ n ≤ 255) ∧
      (∀ n, n ∈ reused.winN ↔ n ∈ reused.numbers) ∧ reused.nrFereastra.toInt = reused.desktop.length ∧
      (.cmopen ∉ reused.disabled ↔ reused.desktop.length < 255) ∧
      (.cmopen ∉ reused.disabled → (getWindowNumber reused.winN).1 ≠ wnNoNumber) :=
  ⟨by decide, window_numbers (show run (step ⟨(0, 0), (80, 23)⟩) {} reuse = some reused from rfl)⟩

end GtpLibrary.Meniu

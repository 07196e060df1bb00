import Mathlib.Data.List.TakeWhile
import GtpLibrary.Lib.Bytes

/-!
# Arrays of C

An array has the length it was declared with. A write or a read that leaves it has no meaning,
so it is `none`; what an array holds before its first write is any list of that length.
-/

namespace GtpLibrary.Lib.Arrays

/-- An array of `n` elements. -/
abbrev CArray (α : Type*) (n : Nat) := { cells : List α // cells.length = n }

section
variable {α : Type*} {n : Nat}

/-- Elements are written from an index on. -/
def CArray.write (a : CArray α n) (index : Int) (l : List α) : Option (CArray α n) :=
  if room : 0 ≤ index ∧ index.toNat + l.length ≤ n then
    some ⟨a.1.take index.toNat ++ l ++ a.1.drop (index.toNat + l.length), by
      have whole := a.2
      simp only [List.length_append, List.length_take, List.length_drop]
      omega⟩
  else none

/-- The element at an index. -/
def element (l : List α) (index : Int) : Option α := if 0 ≤ index then l[index.toNat]? else none

/-- The bytes from an index to the first NUL. -/
def CArray.string (a : CArray Byte n) (index : Nat) : Option (List Byte) :=
  if (a.1.drop index).contains 0 then some (cString (a.1.drop index)) else none

/-- The bytes that `strncpy` writes: as many as it is told, with NULs behind the C string. -/
def strncpy (source : List Byte) (count : Nat) : List Byte :=
  cString (source.take count) ++ List.replicate (count - (cString (source.take count)).length) 0

variable {k : Nat}

/-- A string is copied with its NUL. -/
def CArray.strcpy (a : CArray Byte n) (source : List Byte) : Option (CArray Byte n) := a.write 0 (source ++ [0])

/-- The string of an array is copied behind that of another one. -/
def CArray.strcat (a : CArray Byte n) (source : CArray Byte k) : Option (CArray Byte n) := do
  let begun ← a.string 0
  let more ← source.string 0
  a.write begun.length (more ++ [0])

end

/-! ## Writing -/

section
variable {α : Type*} {n : Nat} {a : CArray α n} {index : Int} {l left old right : List α}

/-- A write takes the place of as many elements. -/
theorem write_eq_some (index : Int) (l : List α) (cells : a.1 = left ++ old ++ right) (here : index = left.length)
    (same : l.length = old.length) : ∃ b : CArray α n, a.write index l = some b ∧ b.1 = left ++ l ++ right := by
  have whole := a.2
  rw [cells, List.length_append, List.length_append] at whole
  have room : 0 ≤ index ∧ index.toNat + l.length ≤ n := by omega
  refine ⟨_, dif_pos room, ?_⟩
  show a.1.take index.toNat ++ l ++ a.1.drop (index.toNat + l.length) = left ++ l ++ right
  have start : index.toNat = left.length := by omega
  have front : a.1.take index.toNat = left := by
    rw [start, cells, List.append_assoc, List.take_left]
  have behind : a.1.drop (index.toNat + l.length) = right := by
    rw [start, same, ← List.length_append, cells, List.drop_left]
  rw [front, behind]

theorem write_eq_none (outside : ¬ (0 ≤ index ∧ index.toNat + l.length ≤ n)) : a.write index l = none :=
  dif_neg outside

/-- Behind what stands in front there is room, or not. -/
theorem write_behind (index : Int) (l : List α) (cells : a.1 = left ++ right) (here : index = left.length)
    (room : l.length ≤ right.length) :
    ∃ b : CArray α n, a.write index l = some b ∧ b.1 = left ++ l ++ right.drop l.length := by
  have parts : a.1 = left ++ right.take l.length ++ right.drop l.length := by
    rw [cells, List.append_assoc, List.take_append_drop]
  exact write_eq_some index l parts here (List.length_take_of_le room).symm

theorem write_behind_eq_none (cells : a.1 = left ++ right) (here : index = left.length)
    (full : right.length < l.length) : a.write index l = none := by
  apply write_eq_none
  have whole := a.2
  rw [cells, List.length_append] at whole
  omega

end

/-! ## C strings -/

theorem zero_not_mem_cString (s : List Byte) : 0 ∉ cString s := by
  intro member
  have other := List.mem_takeWhile_imp (p := (· != 0)) member
  cases other

theorem cString_append {s : List Byte} (clean : (0 : Byte) ∉ s) (rest : List Byte) :
    cString (s ++ rest) = s ++ cString rest := by
  apply List.takeWhile_append_of_pos
  intro c member
  exact bne_iff_ne.2 fun zero => clean (zero ▸ member)

/-- What stands behind a NUL does not count. -/
theorem cString_append_zero (s rest : List Byte) : cString (s ++ 0 :: rest) = cString s := by
  induction s with
  | nil => rfl
  | cons c s ih =>
    by_cases zero : c = 0
    · rw [zero]
      rfl
    · have first (l : List Byte) : cString (c :: l) = c :: cString l := List.takeWhile_cons_of_pos (bne_iff_ne.2 zero)
      rw [List.cons_append, first, first, ih]

theorem string_eq_some {n : Nat} {a : CArray Byte n} {index : Nat} {s rest : List Byte}
    (cells : a.1.drop index = s ++ 0 :: rest) : a.string index = some (cString s) := by
  have nul : (a.1.drop index).contains (0 : Byte) := by
    rw [List.contains_iff_mem, cells]
    exact List.mem_append_right s List.mem_cons_self
  unfold CArray.string
  rw [if_pos nul, cells, cString_append_zero]

/-- A string ends where the bytes of it do exactly where a NUL stands behind them. -/
theorem string_eq_some_iff {n : Nat} {a : CArray Byte n} {index : Nat} {s rest : List Byte}
    (cells : a.1.drop index = s ++ rest) (clean : (0 : Byte) ∉ s) :
    a.string index = some s ↔ rest.head? = some 0 := by
  cases rest with
  | nil =>
    apply iff_of_false
    · have none : ¬ (a.1.drop index).contains (0 : Byte) := by
        rw [List.contains_iff_mem, cells, List.append_nil]
        exact clean
      unfold CArray.string
      rw [if_neg none]
      exact (Option.some_ne_none s).symm
    · exact (Option.some_ne_none 0).symm
  | cons x rest =>
    rw [List.head?_cons, Option.some_inj]
    by_cases zero : x = 0
    · rw [zero] at cells
      rw [string_eq_some cells, cString_eq_self clean]
      exact iff_of_true rfl zero
    · apply iff_of_false
      · intro read
        unfold CArray.string at read
        split_ifs at read
        have longer : cString (x :: rest) = x :: cString rest := List.takeWhile_cons_of_pos (bne_iff_ne.2 zero)
        rw [cells, cString_append clean, longer, Option.some_inj, List.append_right_eq_self] at read
        cases read
      · exact zero

/-- A string with its NUL is copied behind what stands in front. -/
theorem write_string {n : Nat} {a : CArray Byte n} {left right : List Byte} (index : Int) (s : List Byte)
    (cells : a.1 = left ++ right) (here : index = left.length) (room : s.length < right.length) :
    ∃ b : CArray Byte n, a.write index (s ++ [0]) = some b ∧ ∃ rest, b.1 = left ++ s ++ 0 :: rest := by
  obtain ⟨b, wrote, now⟩ := write_behind index (s ++ [0]) cells here (by rw [List.length_append]; exact room)
  refine ⟨b, wrote, right.drop (s ++ [0]).length, ?_⟩
  rw [now]
  simp only [List.append_assoc, List.singleton_append]

/-- A NUL is written behind what stands in front. -/
theorem write_nul {n : Nat} {a : CArray Byte n} {left right : List Byte} (index : Int)
    (cells : a.1 = left ++ right) (here : index = left.length) (room : 0 < right.length) :
    ∃ b : CArray Byte n, a.write index [0] = some b ∧ ∃ rest, b.1 = left ++ 0 :: rest := by
  obtain ⟨b, wrote, rest, now⟩ := write_string index [] cells here room
  rw [List.append_nil] at now
  exact ⟨b, wrote, rest, now⟩

/-- A C string has no NUL, and the array holds one behind it. -/
theorem string_length_lt {n : Nat} {a : CArray Byte n} {s : List Byte} (read : a.string 0 = some s) :
    0 ∉ s ∧ s.length < n := by
  unfold CArray.string at read
  split_ifs at read with nul
  cases read
  refine ⟨zero_not_mem_cString _, ?_⟩
  have short := cString_length_lt (List.contains_iff_mem.1 nul)
  rw [List.drop_zero, a.2] at short
  exact short

/-- A string that has room is at the beginning, and it is what is read there. -/
theorem strcpy_spec {n : Nat} {s : List Byte} (clean : (0 : Byte) ∉ s) (room : s.length < n) (a : CArray Byte n) :
    ∃ (b : CArray Byte n) (rest : List Byte), a.strcpy s = some b ∧ b.1 = s ++ 0 :: rest ∧
      (0 :: rest).length = n - s.length ∧ b.string 0 = some s := by
  obtain ⟨b, wrote, rest, cells⟩ := write_string 0 s (List.nil_append a.1).symm rfl (by rw [a.2]; exact room)
  rw [List.nil_append] at cells
  have string : b.string 0 = some (cString s) := string_eq_some cells
  rw [cString_eq_self clean] at string
  have whole := b.2
  rw [cells, List.length_append] at whole
  exact ⟨b, rest, wrote, cells, by omega, string⟩

/-- A text that has room in front of any string of an array, and the string behind it. -/
theorem string_strcat {n k : Nat} {header : List Byte} (clean : (0 : Byte) ∉ header) (room : header.length + k ≤ n)
    (filled : 0 < k) (message : CArray Byte n) (source : CArray Byte k) :
    ((message.strcpy header).bind fun message => (message.strcat source).bind fun message => message.string 0) =
      (source.string 0).map (header ++ ·) := by
  obtain ⟨begun, rest, copied, first, left, start⟩ := strcpy_spec clean (by omega) message
  rw [copied, Option.bind_some]
  cases read : source.string 0 with
  | none =>
    have nothing : begun.strcat source = none := by
      simp only [CArray.strcat, start, read, Option.bind_eq_bind, Option.bind_some, Option.bind_none]
    rw [nothing]
    rfl
  | some s =>
    obtain ⟨noNul, short⟩ := string_length_lt read
    obtain ⟨joined, wrote, more, done⟩ := write_string header.length s first rfl (by omega)
    have appended : begun.strcat source = some joined := by
      simp only [CArray.strcat, start, read, Option.bind_eq_bind, Option.bind_some, wrote]
    have string : joined.string 0 = some (cString (header ++ s)) := string_eq_some done
    rw [appended, Option.bind_some, string, cString_append clean, cString_eq_self noNul]
    rfl

end GtpLibrary.Lib.Arrays

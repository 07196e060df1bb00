import Mathlib.Algebra.Ring.Nat
import Mathlib.Data.List.Basic
import Mathlib.Tactic.Common

/-!
# Regrouping octets as sextets

Three eight-bit digits and four six-bit digits are the same 24 bits. The two
directions are total functions on digit lists: a short last group is filled with
zero bits on the way to sextets, and on the way back the bits that do not make up
an octet are dropped. `Tidy` says which sextet lists are images: no lone sextet,
and the filling bits of a short last group are zero.
-/

namespace GtpLibrary.Lib.Sextets

/-- Octets to sextets, most significant bits first. -/
def toSextets : List Nat → List Nat
  | a :: b :: c :: rest =>
    a / 4 :: (a % 4 * 16 + b / 16) :: (b % 16 * 4 + c / 64) :: c % 64 :: toSextets rest
  | [a, b] => [a / 4, a % 4 * 16 + b / 16, b % 16 * 4]
  | [a] => [a / 4, a % 4 * 16]
  | [] => []

/-- Sextets to octets, dropping an incomplete last octet. -/
def fromSextets : List Nat → List Nat
  | p :: q :: r :: s :: rest =>
    (p * 4 + q / 16) :: (q % 16 * 16 + r / 4) :: (r % 4 * 64 + s) :: fromSextets rest
  | [p, q, r] => [p * 4 + q / 16, q % 16 * 16 + r / 4]
  | [p, q] => [p * 4 + q / 16]
  | [_] => []
  | [] => []

/-- The last group is complete, or what fills its last sextet is zero. -/
def Tidy : List Nat → Prop
  | _ :: _ :: _ :: _ :: rest => Tidy rest
  | [_, _, r] => r % 4 = 0
  | [_, q] => q % 16 = 0
  | [_] => False
  | [] => True

/-- Octets go by groups of three. -/
theorem octets_induction {motive : List Nat → Prop} (group : ∀ a b c rest, motive rest → motive (a :: b :: c :: rest))
    (two : ∀ a b, motive [a, b]) (one : ∀ a, motive [a]) (nil : motive []) : ∀ l, motive l
  | a :: b :: c :: rest => group a b c rest (octets_induction group two one nil rest)
  | [a, b] => two a b
  | [a] => one a
  | [] => nil

/-- Sextets go by groups of four. -/
theorem sextets_induction {motive : List Nat → Prop}
    (group : ∀ p q r s rest, motive rest → motive (p :: q :: r :: s :: rest)) (three : ∀ p q r, motive [p, q, r])
    (two : ∀ p q, motive [p, q]) (one : ∀ p, motive [p]) (nil : motive []) : ∀ l, motive l
  | p :: q :: r :: s :: rest => group p q r s rest (sextets_induction group three two one nil rest)
  | [p, q, r] => three p q r
  | [p, q] => two p q
  | [p] => one p
  | [] => nil

theorem toSextets_lt {l : List Nat} (octets : ∀ x ∈ l, x < 256) : ∀ y ∈ toSextets l, y < 64 := by
  induction l using octets_induction with
  | group a b c rest ih =>
    simp only [List.forall_mem_cons] at octets
    simp only [toSextets, List.forall_mem_cons]
    exact ⟨by omega, by omega, by omega, by omega, ih octets.2.2.2⟩
  | two a b => simp [toSextets] at octets ⊢; omega
  | one a => simp [toSextets] at octets ⊢; omega
  | nil => simp [toSextets]

theorem fromSextets_lt {l : List Nat} (sextets : ∀ x ∈ l, x < 64) :
    ∀ y ∈ fromSextets l, y < 256 := by
  induction l using sextets_induction with
  | group p q r s rest ih =>
    simp only [List.forall_mem_cons] at sextets
    simp only [fromSextets, List.forall_mem_cons]
    exact ⟨by omega, by omega, by omega, ih sextets.2.2.2.2⟩
  | three p q r => simp [fromSextets] at sextets ⊢; omega
  | two p q => simp [fromSextets] at sextets ⊢; omega
  | one p => simp [fromSextets]
  | nil => simp [fromSextets]

/-- Octets survive the round trip. -/
theorem fromSextets_toSextets {l : List Nat} (octets : ∀ x ∈ l, x < 256) :
    fromSextets (toSextets l) = l := by
  induction l using octets_induction with
  | group a b c rest ih =>
    simp only [List.forall_mem_cons] at octets
    simp only [toSextets, fromSextets, ih octets.2.2.2, List.cons.injEq, and_true]
    omega
  | two a b =>
    simp only [List.forall_mem_cons] at octets
    simp only [toSextets, fromSextets, List.cons.injEq, and_true]
    omega
  | one a =>
    simp only [List.forall_mem_cons] at octets
    simp only [toSextets, fromSextets, List.cons.injEq, and_true]
    omega
  | nil => rfl

/-- Sextets survive the other round trip when the last group is tidy. -/
theorem toSextets_fromSextets {l : List Nat} (sextets : ∀ x ∈ l, x < 64) (tidy : Tidy l) :
    toSextets (fromSextets l) = l := by
  induction l using sextets_induction with
  | group p q r s rest ih =>
    simp only [List.forall_mem_cons] at sextets
    simp only [fromSextets, toSextets, ih sextets.2.2.2.2 tidy, List.cons.injEq, and_true]
    omega
  | three p q r =>
    simp only [List.forall_mem_cons] at sextets
    simp only [Tidy] at tidy
    simp only [fromSextets, toSextets, List.cons.injEq, and_true]
    omega
  | two p q =>
    simp only [List.forall_mem_cons] at sextets
    simp only [Tidy] at tidy
    simp only [fromSextets, toSextets, List.cons.injEq, and_true]
    omega
  | one p => exact tidy.elim
  | nil => rfl

theorem tidy_toSextets (l : List Nat) : Tidy (toSextets l) := by
  induction l using octets_induction with
  | group a b c rest ih => simpa [toSextets, Tidy] using ih
  | two a b => simp [toSextets, Tidy]
  | one a => simp [toSextets, Tidy]
  | nil => trivial

/-- The number of sextets, with the filling that completes the groups of four. -/
theorem length_toSextets (l : List Nat) :
    (toSextets l).length + (3 - l.length % 3) % 3 = 4 * ((l.length + 2) / 3) := by
  induction l using octets_induction with
  | group a b c rest ih => simp only [toSextets, List.length_cons]; omega
  | two a b => simp [toSextets]
  | one a => simp [toSextets]
  | nil => rfl

theorem length_fromSextets (l : List Nat) : (fromSextets l).length = 6 * l.length / 8 := by
  induction l using sextets_induction with
  | group p q r s rest ih => simp only [fromSextets, List.length_cons, ih]; omega
  | three p q r => simp [fromSextets]
  | two p q => simp [fromSextets]
  | one p => simp [fromSextets]
  | nil => rfl

/-- A lone last sextet yields no octet. -/
theorem fromSextets_dropLast {l : List Nat} (lone : l.length % 4 = 1) : fromSextets l.dropLast = fromSextets l := by
  induction l using sextets_induction with
  | group p q r s rest ih =>
    have later : rest.length % 4 = 1 := by
      simp only [List.length_cons] at lone
      omega
    have some : rest ≠ [] := by
      rintro rfl
      cases later
    rw [List.dropLast_cons_of_ne_nil (by simp), List.dropLast_cons_of_ne_nil (by simp),
      List.dropLast_cons_of_ne_nil (by simp), List.dropLast_cons_of_ne_nil some, fromSextets, fromSextets, ih later]
  | three p q r => cases lone
  | two p q => cases lone
  | one p => rfl
  | nil => cases lone

/-- The octets of whole groups of four sextets with `k` filling ones ask for `k` filling
sextets again. -/
theorem filling_eq {n k : Nat} (few : k ≤ 2) (whole : (n + k) % 4 = 0) :
    (3 - 6 * n / 8 % 3) % 3 = k := by
  obtain ⟨m, groups⟩ := Nat.dvd_of_mod_eq_zero whole
  obtain rfl | rfl | rfl : k = 0 ∨ k = 1 ∨ k = 2 := by omega
  · have octets : 6 * n / 8 = 3 * m := by omega
    omega
  · have octets : 6 * n / 8 = 3 * (m - 1) + 2 := by omega
    omega
  · have octets : 6 * n / 8 = 3 * (m - 1) + 1 := by omega
    omega

/-- `Tidy`, read off the number of filling sextets and the last sextet: each filling
sextet stands for two unused bits of the last one. -/
theorem tidy_iff (l : List Nat) :
    Tidy l ↔ ∃ k ≤ 2, (l.length + k) % 4 = 0 ∧ ∀ v ∈ l.getLast?, v % 4 ^ k = 0 := by
  induction l using sextets_induction with
  | group p q r s rest ih =>
    rw [Tidy, ih]
    have whole : ∀ k, ((p :: q :: r :: s :: rest).length + k) % 4 = (rest.length + k) % 4 := by
      intro k; simp only [List.length_cons]; omega
    simp only [whole]
    cases rest with
    | nil =>
      -- a last complete group leaves no filling, so no bit of `s` is unused
      constructor
      · intro _
        exact ⟨0, by omega, rfl, by simp [Nat.mod_one]⟩
      · intro _
        exact ⟨0, by omega, rfl, by simp⟩
    | cons t rest => simp only [List.getLast?_cons_cons]
  | three p q r =>
    constructor
    · intro tidy
      exact ⟨1, by omega, by simp, by simpa [Tidy] using tidy⟩
    · rintro ⟨k, small, len, last⟩
      obtain rfl : k = 1 := by simp only [List.length_cons, List.length_nil] at len; omega
      simpa [Tidy] using last
  | two p q =>
    constructor
    · intro tidy
      exact ⟨2, by omega, by simp, by simpa [Tidy] using tidy⟩
    · rintro ⟨k, small, len, last⟩
      obtain rfl : k = 2 := by simp only [List.length_cons, List.length_nil] at len; omega
      simpa [Tidy] using last
  | one p =>
    constructor
    · exact False.elim
    · rintro ⟨k, small, len, -⟩
      simp only [List.length_cons, List.length_nil] at len
      omega
  | nil =>
    constructor
    · intro _
      exact ⟨0, by omega, rfl, by simp⟩
    · intro _
      trivial

/-! ## The same bits -/

/-- The last `width` binary digits of a number, most significant first. -/
def bits : (width n : Nat) → List Bool
  | 0, _ => []
  | width + 1, n => bits width (n / 2) ++ [n % 2 == 1]

@[simp] theorem length_bits (width n : Nat) : (bits width n).length = width := by
  induction width generalizing n with
  | zero => rfl
  | succ width ih => rw [bits, List.length_append, ih, List.length_singleton]

/-- The digits of a number put together from two. -/
theorem bits_append (front high : Nat) {back low : Nat} (small : low < 2 ^ back) :
    bits (front + back) (high * 2 ^ back + low) = bits front high ++ bits back low := by
  induction back generalizing low with
  | zero =>
    obtain rfl : low = 0 := by omega
    simp [bits]
  | succ back ih =>
    rw [pow_succ] at small
    have half : (high * 2 ^ (back + 1) + low) / 2 = high * 2 ^ back + low / 2 := by
      rw [pow_succ, ← Nat.mul_assoc]
      omega
    have last : (high * 2 ^ (back + 1) + low) % 2 = low % 2 := by
      rw [pow_succ, ← Nat.mul_assoc]
      omega
    rw [← Nat.add_assoc, bits, half, last, ih (by omega), List.append_assoc]
    rfl

theorem bits_split (front back n : Nat) :
    bits (front + back) n = bits front (n / 2 ^ back) ++ bits back (n % 2 ^ back) := by
  rw [← bits_append front _ (Nat.mod_lt n (Nat.two_pow_pos back)), Nat.div_add_mod']

section
variable {q r s : Nat}

/-- The first octet of a group, by its sextets. -/
theorem bits_first (p : Nat) (hq : q < 64) : bits 8 (p * 4 + q / 16) = bits 6 p ++ bits 2 (q / 16) :=
  bits_append 6 p (show q / 16 < 2 ^ 2 by omega)

theorem bits_second (q : Nat) (hr : r < 64) : bits 8 (q % 16 * 16 + r / 4) = bits 4 (q % 16) ++ bits 4 (r / 4) :=
  bits_append 4 (q % 16) (show r / 4 < 2 ^ 4 by omega)

theorem bits_third (r : Nat) (hs : s < 64) : bits 8 (r % 4 * 64 + s) = bits 2 (r % 4) ++ bits 6 s :=
  bits_append 2 (r % 4) (show s < 2 ^ 6 from hs)

end

/-- Octets are the bits of their sextets; the bits of an incomplete last octet are dropped. -/
theorem fromSextets_bits {l : List Nat} (sextets : ∀ x ∈ l, x < 64) :
    (fromSextets l).flatMap (bits 8) = (l.flatMap (bits 6)).take (8 * (6 * l.length / 8)) := by
  induction l using sextets_induction with
  | group p q r s rest ih =>
    simp only [List.forall_mem_cons] at sextets
    obtain ⟨-, hq, hr, hs, small⟩ := sextets
    have count : 8 * (6 * (p :: q :: r :: s :: rest).length / 8) =
        (bits 6 p ++ bits 6 q ++ bits 6 r ++ bits 6 s).length + 8 * (6 * rest.length / 8) := by
      simp only [List.length_append, length_bits, List.length_cons]
      omega
    have group : (p :: q :: r :: s :: rest).flatMap (bits 6) =
        (bits 6 p ++ bits 6 q ++ bits 6 r ++ bits 6 s) ++ rest.flatMap (bits 6) := by
      simp only [List.flatMap_cons, List.append_assoc]
    rw [count, group, List.take_length_add_append, ← ih small, bits_split 2 4 q, bits_split 4 2 r]
    simp only [fromSextets, List.flatMap_cons, bits_first p hq, bits_second q hr, bits_third r hs, List.append_assoc]
    rfl
  | three p q r =>
    simp only [List.forall_mem_cons] at sextets
    obtain ⟨-, hq, hr, -⟩ := sextets
    have octets : [p, q, r].flatMap (bits 6) =
        (bits 8 (p * 4 + q / 16) ++ bits 8 (q % 16 * 16 + r / 4)) ++ bits 2 (r % 4) := by
      rw [bits_first p hq, bits_second q hr]
      simp only [List.flatMap_cons, List.flatMap_nil, bits_split 2 4 q, bits_split 4 2 r, List.append_assoc,
        List.append_nil]
      rfl
    rw [octets, List.take_left' (by simp)]
    simp [fromSextets]
  | two p q =>
    simp only [List.forall_mem_cons] at sextets
    obtain ⟨-, hq, -⟩ := sextets
    have octets : [p, q].flatMap (bits 6) = bits 8 (p * 4 + q / 16) ++ bits 4 (q % 16) := by
      rw [bits_first p hq]
      simp only [List.flatMap_cons, List.flatMap_nil, bits_split 2 4 q, List.append_assoc, List.append_nil]
      rfl
    rw [octets, List.take_left' (by simp)]
    simp [fromSextets]
  | one p => simp [fromSextets]
  | nil => rfl

end GtpLibrary.Lib.Sextets

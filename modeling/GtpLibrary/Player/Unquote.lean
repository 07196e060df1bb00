import Mathlib.Data.List.SplitBy
import GtpLibrary.Player.Urlparse

/-!
# What `unquote` makes of the parts of a text

An ASCII character that is no part of an escape separates what stands in front of it from what
stands behind it (`unquote_separator`). Texts that are decoded together give no more characters
than those decoded apart (`weight_unquote_append`): an escape or a sequence of UTF-8 that goes
over the boundary gives one character for two at least.
-/

namespace GtpLibrary.Player

open Lib Lib.Forms

/-- How many characters there are other than slashes. -/
def weight (s : Str) : Nat := s.countP (· ≠ '/')

/-! ## The decoder of UTF-8 -/

/-- The bytes that go on with a sequence are no first bytes. -/
def Continues : Option Sequence → Prop
  | none => True
  | some sequence => 0x80 ≤ sequence.low ∧ sequence.high ≤ 0xbf

instance : DecidablePred Continues := fun sequence => by
  cases sequence with
  | none => exact .isTrue trivial
  | some sequence => exact inferInstanceAs (Decidable (_ ∧ _))

/-- Between two sequences everything may follow. -/
theorem continues_none : Continues none := trivial

/-- A first byte begins a sequence that continuation bytes continue. -/
theorem continues_begin : ∀ b : Byte, Continues (beginSequence b).2 := by decide

/-- A continuation byte begins nothing. -/
theorem begin_continuation : ∀ b : Byte, 0x80 ≤ b → b ≤ 0xbf →
    (beginSequence b).1 = [replacement] ∧ (beginSequence b).2.isNone = true := by decide

/-- An ASCII byte is a character of its own. -/
theorem begin_ascii : ∀ b : Byte, b < 0x80 →
    (beginSequence b).1 = [Char.ofNat b.toNat] ∧ (beginSequence b).2.isNone = true := by decide

/-- Between two sequences a byte begins one. -/
theorem advance_none (b : Byte) : advance none b = beginSequence b := rfl

/-- A byte out of range ends the sequence with a replacement, and is read anew. -/
theorem advance_outside {sequence : Sequence} {b : Byte} (outside : ¬ (sequence.low ≤ b ∧ b ≤ sequence.high)) :
    advance (some sequence) b = (replacement :: (beginSequence b).1, (beginSequence b).2) := if_neg outside

/-- A byte in range ends the sequence with a character, or continues it. -/
theorem advance_inside {sequence : Sequence} {b : Byte} (inside : sequence.low ≤ b ∧ b ≤ sequence.high) :
    (∃ c, advance (some sequence) b = ([c], none)) ∨
      ∃ next, Continues (some next) ∧ advance (some sequence) b = ([], some next) := by
  unfold advance
  simp only
  rw [if_pos inside]
  split
  · exact .inl ⟨_, rfl⟩
  · exact .inr ⟨_, ⟨BitVec.le_refl _, BitVec.le_refl _⟩, rfl⟩

/-- Decoding goes byte by byte. -/
@[simp] theorem decodeReplace_cons (sequence : Option Sequence) (b : Byte) (t : List Byte) :
    decodeReplace sequence (b :: t) = (advance sequence b).1 ++ decodeReplace (advance sequence b).2 t := by
  cases sequence <;> rfl

/-- What is expected is always a continuation byte. -/
theorem continues_advance (sequence : Option Sequence) (b : Byte) : Continues (advance sequence b).2 := by
  cases sequence with
  | none => exact continues_begin b
  | some sequence =>
    by_cases inside : sequence.low ≤ b ∧ b ≤ sequence.high
    · obtain ⟨c, step⟩ | ⟨next, continues, step⟩ := advance_inside inside
      · rw [step]
        trivial
      · rw [step]
        exact continues
    · rw [advance_outside inside]
      exact continues_begin b

/-- The weight is additive. -/
@[simp] theorem weight_append (s t : Str) : weight (s ++ t) = weight s + weight t := List.countP_append

/-- One character adds at most one. -/
theorem weight_cons_le (c : Char) (s : Str) : weight (c :: s) ≤ weight s + 1 := by
  unfold weight
  rw [List.countP_cons]
  split <;> omega

/-- A character other than the slash adds one. -/
theorem weight_cons {c : Char} (other : c ≠ '/') (s : Str) : weight (c :: s) = weight s + 1 :=
  List.countP_cons_of_pos (decide_eq_true other)

/-- A replacement is no slash. -/
theorem replacement_ne : replacement ≠ '/' := by decide

/-- A sequence that was begun is worth one character at most. -/
theorem weight_pending {sequence : Sequence} (continues : Continues (some sequence)) (t : List Byte) :
    weight (decodeReplace (some sequence) t) ≤ weight (decodeReplace none t) + 1 := by
  induction t generalizing sequence with
  | nil => exact weight_cons_le replacement []
  | cons b t ih =>
    by_cases inside : sequence.low ≤ b ∧ b ≤ sequence.high
    · obtain ⟨alone, done⟩ := begin_continuation b (BitVec.le_trans continues.1 inside.1)
        (BitVec.le_trans inside.2 continues.2)
      have single : decodeReplace none (b :: t) = replacement :: decodeReplace none t := by
        rw [decodeReplace_cons, advance_none, alone, Option.isNone_iff_eq_none.1 done]
        rfl
      rw [single, weight_cons replacement_ne, decodeReplace_cons]
      obtain ⟨c, step⟩ | ⟨next, later, step⟩ := advance_inside inside
      · rw [step]
        have one := weight_cons_le c (decodeReplace none t)
        exact one.trans (Nat.le_succ _)
      · rw [step]
        exact (ih later).trans (Nat.le_succ _)
    · rw [decodeReplace_cons, advance_outside inside]
      exact weight_cons_le replacement _

/-- Bytes that are decoded together give no more than those decoded apart. -/
theorem weight_decodeReplace_append {sequence : Option Sequence} (continues : Continues sequence) (s t : List Byte) :
    weight (decodeReplace sequence (s ++ t)) ≤ weight (decodeReplace sequence s) + weight (decodeReplace none t) := by
  induction s generalizing sequence with
  | nil =>
    cases sequence with
    | none => exact Nat.le_add_left _ _
    | some sequence =>
      have bound := weight_pending continues t
      have one : weight (decodeReplace (some sequence) []) = 1 := weight_cons replacement_ne []
      rw [List.nil_append, one]
      omega
  | cons b s ih =>
    have later := ih (continues_advance sequence b)
    rw [List.cons_append, decodeReplace_cons, decodeReplace_cons, weight_append, weight_append]
    omega

/-- An ASCII byte separates what stands in front of it from what stands behind it. -/
theorem decodeReplace_append_cons {c : Byte} (ascii : c < 0x80) {sequence : Option Sequence}
    (continues : Continues sequence) (s t : List Byte) :
    decodeReplace sequence (s ++ c :: t) = decodeReplace sequence s ++ Char.ofNat c.toNat :: decodeReplace none t := by
  obtain ⟨alone, done⟩ := begin_ascii c ascii
  have begun : beginSequence c = ([Char.ofNat c.toNat], none) :=
    Prod.ext alone (Option.isNone_iff_eq_none.1 done)
  induction s generalizing sequence with
  | nil =>
    cases sequence with
    | none =>
      rw [List.nil_append, decodeReplace_cons, advance_none, begun]
      rfl
    | some sequence =>
      have outside : ¬ (sequence.low ≤ c ∧ c ≤ sequence.high) := by
        rintro ⟨low, -⟩
        exact BitVec.not_le.2 ascii (BitVec.le_trans continues.1 low)
      rw [List.nil_append, decodeReplace_cons, advance_outside outside, begun]
      rfl
  | cons b s ih =>
    rw [List.cons_append, decodeReplace_cons, decodeReplace_cons, ih (continues_advance sequence b), List.append_assoc]

/-! ## Escapes -/

/-- A byte alone is at most one character. -/
theorem weight_byte : ∀ b : Byte, weight (decodeReplace none [b]) ≤ 1 := by decide

/-- A hexadecimal digit is neither `%` nor a slash. -/
theorem hexDigit_plain : ∀ b : Byte, (hexValue b).isSome = true →
    b ≠ byte '%' ∧ b < 0x80 ∧ Char.ofNat b.toNat ≠ '/' := by decide

/-- An ASCII byte other than the slash adds a character wherever it stands. -/
theorem weight_ascii {b : Byte} (ascii : b < 0x80) (other : Char.ofNat b.toNat ≠ '/') {sequence : Option Sequence}
    (continues : Continues sequence) (t : List Byte) :
    weight (decodeReplace sequence (b :: t)) = weight (decodeReplace sequence []) + 1 + weight (decodeReplace none t) := by
  have parts := decodeReplace_append_cons ascii continues [] t
  rw [List.nil_append] at parts
  rw [parts, weight_append, weight_cons other]
  omega

/-- The byte of an escape is worth one character at most. -/
theorem weight_escape (d : Byte) {sequence : Option Sequence} (continues : Continues sequence) (t : List Byte) :
    weight (decodeReplace sequence (d :: t)) ≤ weight (decodeReplace sequence []) + 1 + weight (decodeReplace none t) := by
  have first := weight_decodeReplace_append continues [] (d :: t)
  have second := weight_decodeReplace_append continues_none [d] t
  have one := weight_byte d
  rw [List.nil_append] at first
  rw [List.singleton_append] at second
  omega

/-- A digit that follows no `%` stands for itself. -/
theorem percentDecode_hexDigit {b : Byte} (digit : (hexValue b).isSome = true) (t : List Byte) :
    percentDecode (b :: t) = b :: percentDecode t :=
  percentDecode_cons_of_ne (hexDigit_plain b digit).1 t

/-- One byte in front of a text. -/
theorem weight_percentDecode_cons (a : Byte) {sequence : Option Sequence} (continues : Continues sequence)
    (t : List Byte) : weight (decodeReplace sequence (percentDecode (a :: t))) ≤
      weight (decodeReplace sequence [a]) + weight (decodeReplace none (percentDecode t)) := by
  by_cases begun : ∃ high low rest d, t = high :: low :: rest ∧ escaped a high low = some d
  · -- one byte together, where the percent sign and the two digits stood apart
    obtain ⟨high, low, rest, d, rfl, found⟩ := begun
    obtain ⟨rfl, first, second⟩ := escaped_eq_some found
    obtain ⟨-, ascii, other⟩ := hexDigit_plain high first
    obtain ⟨-, ascii', other'⟩ := hexDigit_plain low second
    have together := weight_escape d continues (percentDecode rest)
    have percent := weight_ascii (b := byte '%') (by decide) (by decide) continues []
    rw [percentDecode_escaped found, percent, percentDecode_hexDigit first, percentDecode_hexDigit second,
      weight_ascii ascii other continues_none, weight_ascii ascii' other' continues_none]
    omega
  · have alone : percentDecode (a :: t) = [a] ++ percentDecode t := by
      apply percentDecode_cons
      intro high low rest split
      exact Option.eq_none_iff_forall_ne_some.2 fun d found => begun ⟨high, low, rest, d, split, found⟩
    rw [alone]
    exact weight_decodeReplace_append continues [a] _

/-- Texts that are decoded together give no more than those decoded apart. -/
theorem weight_percentDecode_append {sequence : Option Sequence} (continues : Continues sequence) (s t : List Byte) :
    weight (decodeReplace sequence (percentDecode (s ++ t))) ≤
      weight (decodeReplace sequence (percentDecode s)) + weight (decodeReplace none (percentDecode t)) := by
  induction s using percentDecode.induct generalizing sequence with
  | case1 a high low rest d found ih =>
    have later := ih (continues_advance sequence d)
    simp only [List.cons_append, percentDecode, found, decodeReplace_cons, weight_append]
    omega
  | case2 a high low rest found ih =>
    have later := ih (continues_advance sequence a)
    simp only [List.cons_append] at later
    simp only [List.cons_append, percentDecode, found, decodeReplace_cons, weight_append]
    omega
  | case3 s short =>
    rcases s with _ | ⟨a, _ | ⟨b, _ | ⟨e, rest⟩⟩⟩
    · exact weight_decodeReplace_append continues [] (percentDecode t)
    · exact weight_percentDecode_cons a continues t
    · -- the last digit alone may stand behind the boundary
      by_cases begun : ∃ low rest d, t = low :: rest ∧ escaped a b low = some d
      · obtain ⟨low, rest, d, rfl, found⟩ := begun
        obtain ⟨rfl, first, second⟩ := escaped_eq_some found
        obtain ⟨-, ascii, other⟩ := hexDigit_plain b first
        obtain ⟨-, ascii', other'⟩ := hexDigit_plain low second
        have together := weight_escape d continues (percentDecode rest)
        have percent := weight_ascii (b := byte '%') (by decide) (by decide) continues [b]
        show weight (decodeReplace sequence (percentDecode (byte '%' :: b :: low :: rest))) ≤
          weight (decodeReplace sequence [byte '%', b]) + _
        rw [percentDecode_escaped found, percent, weight_ascii ascii other continues_none, percentDecode_hexDigit second,
          weight_ascii ascii' other' continues_none]
        omega
      · have alone : percentDecode (a :: b :: t) = a :: percentDecode (b :: t) := by
          apply percentDecode_cons
          intro high low rest split
          obtain ⟨rfl, rfl⟩ := List.cons.inj split
          exact Option.eq_none_iff_forall_ne_some.2 fun d found => begun ⟨low, rest, d, rfl, found⟩
        have later := weight_percentDecode_cons b (continues_advance sequence a) t
        show weight (decodeReplace sequence (percentDecode (a :: b :: t))) ≤
          weight (decodeReplace sequence [a, b]) + _
        rw [alone, decodeReplace_cons, decodeReplace_cons sequence a, weight_append, weight_append]
        omega
    · exact absurd rfl (short a b e rest)

/-! ## `unquote` -/

/-- The byte of an ASCII character is its code. -/
theorem toNat_byte {c : Char} (ascii : isAscii c = true) : (byte c).toNat = c.toNat := by
  have small : c.toNat < 128 := of_decide_eq_true ascii
  rw [byte, BitVec.toNat_ofNat, Nat.mod_eq_of_lt (by omega)]

/-- The byte of an ASCII character is below 128. -/
theorem byte_lt {c : Char} (ascii : isAscii c = true) : byte c < 0x80 := by
  have small : c.toNat < 128 := of_decide_eq_true ascii
  rw [BitVec.lt_def, toNat_byte ascii]
  exact small

/-- ASCII characters differ in their bytes. -/
theorem byte_inj {c d : Char} (ascii : isAscii c = true) (ascii' : isAscii d = true) (same : byte c = byte d) :
    c = d := by
  have codes := congrArg BitVec.toNat same
  rw [toNat_byte ascii, toNat_byte ascii'] at codes
  exact Char.toNat_inj.1 codes

/-- An ASCII character that is no part of an escape. -/
def IsSeparator (c : Char) : Prop := isAscii c = true ∧ c ≠ '%' ∧ hexValue (byte c) = none

/-- What is made of one part. -/
def unquotePart (part : Str) : Str :=
  if part.all isAscii then decodeReplace none (percentDecode (part.map byte)) else part

/-- A separator is never part of an escape, so both sides are unquoted on their own. -/
theorem unquotePart_separator {c : Char} (separator : IsSeparator c) {s t : Str} (front : ∀ a ∈ s, isAscii a = true)
    (back : ∀ a ∈ t, isAscii a = true) : unquotePart (s ++ c :: t) = unquotePart s ++ c :: unquotePart t := by
  obtain ⟨ascii, percent, digit⟩ := separator
  have other : byte c ≠ byte '%' := fun same => percent (byte_inj ascii (by decide) same)
  have all : ∀ a ∈ s ++ c :: t, isAscii a = true :=
    List.forall_mem_append.2 ⟨front, List.forall_mem_cons.2 ⟨ascii, back⟩⟩
  rw [unquotePart, unquotePart, unquotePart, if_pos (List.all_eq_true.2 all), if_pos (List.all_eq_true.2 front),
    if_pos (List.all_eq_true.2 back), List.map_append, List.map_cons, percentDecode_append_cons other digit,
    decodeReplace_append_cons (byte_lt ascii) continues_none, toNat_byte ascii, Char.ofNat_toNat]

/-- Text that is unquoted in two parts does not weigh less. -/
theorem weight_unquotePart_append {s t : Str} (front : ∀ a ∈ s, isAscii a = true) (back : ∀ a ∈ t, isAscii a = true) :
    weight (unquotePart (s ++ t)) ≤ weight (unquotePart s) + weight (unquotePart t) := by
  have all : ∀ a ∈ s ++ t, isAscii a = true := List.forall_mem_append.2 ⟨front, back⟩
  rw [unquotePart, unquotePart, unquotePart, if_pos (List.all_eq_true.2 all), if_pos (List.all_eq_true.2 front),
    if_pos (List.all_eq_true.2 back), List.map_append]
  exact weight_percentDecode_append continues_none _ _

/-- A part without a percent sign stays as it is. -/
theorem unquotePart_of_free {part : Str} (free : '%' ∉ part) : unquotePart part = part := by
  unfold unquotePart
  split_ifs with ascii
  · rw [List.all_eq_true] at ascii
    induction part with
    | nil => rfl
    | cons c part ih =>
      obtain ⟨first, later⟩ := List.forall_mem_cons.1 ascii
      rw [List.mem_cons, not_or] at free
      have other : byte c ≠ byte '%' := fun same => free.1 (byte_inj (by decide) first same.symm)
      have parts := decodeReplace_append_cons (byte_lt first) continues_none [] (percentDecode (part.map byte))
      rw [List.nil_append, toNat_byte first, Char.ofNat_toNat] at parts
      rw [List.map_cons, percentDecode_cons_of_ne other, parts, ih free.2 later]
      rfl
  · rfl

/-- Neighbours that the regular expression keeps together. -/
def sameKind (a b : Char) : Bool := isAscii a = isAscii b

/-- The text is cut into runs of ASCII and of other characters. -/
theorem unquote_eq (s : Str) : unquote s = (s.splitBy sameKind).flatMap unquotePart := by
  by_cases percent : '%' ∈ s
  · rw [unquote, if_neg (not_not.2 percent)]
    rfl
  · have each : ∀ part ∈ s.splitBy sameKind, unquotePart part = part := by
      intro part member
      apply unquotePart_of_free
      intro inside
      apply percent
      rw [← List.flatten_splitBy sameKind s]
      exact List.mem_flatten.2 ⟨part, member, inside⟩
    rw [unquote, if_pos percent, List.flatMap_congr each, List.flatMap_id', List.flatten_splitBy]

/-- A stretch of characters of one kind. -/
theorem unquote_stretch {kind : Bool} {s t : Str} (some : s ≠ []) (front : ∀ a ∈ s, isAscii a = kind)
    (back : ∀ a ∈ t.head?, isAscii a ≠ kind) : unquote (s ++ t) = unquotePart s ++ unquote t := by
  have chain : s.IsChain fun a b => sameKind a b = true := by
    apply List.Pairwise.isChain
    apply List.pairwise_of_forall_mem_list
    intro a first b second
    exact decide_eq_true ((front a first).trans (front b second).symm)
  have apart : ∀ a ∈ s.getLast?, ∀ b ∈ t.head?, sameKind a b = false := by
    intro a last b head
    apply decide_eq_false
    rw [front a (List.mem_of_mem_getLast? last)]
    exact (back b head).symm
  rw [unquote_eq, unquote_eq, List.splitBy_append apart, List.splitBy_of_isChain some chain, List.flatMap_append,
    List.flatMap_singleton]

/-- A run of ASCII is unquoted on its own. -/
theorem unquote_ascii {s t : Str} (front : ∀ a ∈ s, isAscii a = true) (back : ∀ a ∈ t.head?, isAscii a ≠ true) :
    unquote (s ++ t) = unquotePart s ++ unquote t := by
  cases s with
  | nil => rfl
  | cons a s => exact unquote_stretch (List.cons_ne_nil a s) front back

/-- ASCII is one run. -/
theorem unquote_of_ascii {s : Str} (ascii : ∀ a ∈ s, isAscii a = true) : unquote s = unquotePart s := by
  have whole := unquote_ascii (t := []) ascii (by simp)
  rwa [List.append_nil, show unquote [] = [] from rfl, List.append_nil] at whole

/-- The stretch of one kind that a text begins with. -/
theorem exists_stretch (kind : Bool) (s : Str) :
    ∃ x y, s = x ++ y ∧ (∀ a ∈ x, isAscii a = kind) ∧ ∀ a ∈ y.head?, isAscii a ≠ kind := by
  refine ⟨s.takeWhile (isAscii · == kind), s.dropWhile (isAscii · == kind),
    List.takeWhile_append_dropWhile.symm, ?_, ?_⟩
  · intro a member
    exact beq_iff_eq.1 (List.all_eq_true.1 List.all_takeWhile a member)
  · intro a member
    have stop := List.head?_dropWhile_not (isAscii · == kind) s
    rw [Option.mem_def.1 member] at stop
    simpa using stop

/-- A character outside ASCII is kept. -/
theorem unquote_wide {c : Char} (wide : isAscii c = false) (t : Str) : unquote (c :: t) = c :: unquote t := by
  have stretch : ∀ {s u : Str}, (∀ a ∈ s, isAscii a = false) → (∀ a ∈ u.head?, isAscii a ≠ false) →
      unquote (s ++ u) = s ++ unquote u := by
    intro s u front back
    cases s with
    | nil => rfl
    | cons a s =>
      have other : ¬ (a :: s).all isAscii = true := by
        rw [List.all_cons, front a List.mem_cons_self, Bool.false_and]
        exact Bool.false_ne_true
      rw [unquote_stretch (List.cons_ne_nil a s) front back, unquotePart, if_neg other]
  obtain ⟨x, y, rfl, front, back⟩ := exists_stretch false t
  have first : ∀ a ∈ c :: x, isAscii a = false := List.forall_mem_cons.2 ⟨wide, front⟩
  rw [← List.cons_append, stretch first back, stretch front back, List.cons_append]

/-- A text is in ASCII, or it goes on behind a first character that is not. -/
theorem stretch_induction {motive : Str → Prop} (ascii : ∀ s, (∀ a ∈ s, isAscii a = true) → motive s)
    (wide : ∀ s c t, (∀ a ∈ s, isAscii a = true) → isAscii c = false → motive t → motive (s ++ c :: t)) (s : Str) :
    motive s := by
  induction n : s.length using Nat.strongRecOn generalizing s with
  | ind n ih =>
    obtain ⟨x, y, rfl, front, back⟩ := exists_stretch true s
    cases y with
    | nil =>
      rw [List.append_nil]
      exact ascii x front
    | cons c t =>
      apply wide x c t front (Bool.eq_false_iff.2 (back c rfl))
      apply ih t.length _ t rfl
      rw [← n, List.length_append, List.length_cons]
      omega

/-- A run of ASCII ends at a character outside it. -/
theorem unquote_append_wide {s : Str} (front : ∀ a ∈ s, isAscii a = true) {c : Char} (wide : isAscii c = false)
    (t : Str) : unquote (s ++ c :: t) = unquotePart s ++ c :: unquote t := by
  rw [unquote_ascii front, unquote_wide wide]
  intro a member
  obtain rfl : c = a := Option.some.inj member
  rw [wide]
  exact Bool.false_ne_true

/-- **A separator separates.** -/
theorem unquote_separator {c : Char} (separator : IsSeparator c) (s t : Str) :
    unquote (s ++ c :: t) = unquote s ++ c :: unquote t := by
  induction s using stretch_induction with
  | ascii s front =>
    obtain ⟨x, y, rfl, back, behind⟩ := exists_stretch true t
    have all : ∀ a ∈ s ++ c :: x, isAscii a = true :=
      List.forall_mem_append.2 ⟨front, List.forall_mem_cons.2 ⟨separator.1, back⟩⟩
    have parts := unquote_ascii all behind
    rw [unquotePart_separator separator front back, List.append_assoc, List.cons_append] at parts
    rw [parts, unquote_ascii back behind, unquote_of_ascii front, List.append_assoc, List.cons_append]
  | wide s d u front wide ih =>
    rw [List.append_assoc, List.cons_append, unquote_append_wide front wide, unquote_append_wide front wide, ih,
      List.append_assoc, List.cons_append]

/-- **Texts that are decoded together give no more than those decoded apart.** -/
theorem weight_unquote_append (s t : Str) : weight (unquote (s ++ t)) ≤ weight (unquote s) + weight (unquote t) := by
  induction s using stretch_induction with
  | ascii s front =>
    obtain ⟨x, y, rfl, back, behind⟩ := exists_stretch true t
    have all : ∀ a ∈ s ++ x, isAscii a = true := List.forall_mem_append.2 ⟨front, back⟩
    have together := weight_unquotePart_append front back
    rw [← List.append_assoc, unquote_ascii all behind, unquote_ascii back behind, unquote_of_ascii front, weight_append,
      weight_append]
    omega
  | wide s d u front wide ih =>
    have right := weight_append (unquotePart s) (d :: unquote (u ++ t))
    have left := weight_append (unquotePart s) (d :: unquote u)
    rw [List.append_assoc, List.cons_append, unquote_append_wide front wide, unquote_append_wide front wide, right, left]
    unfold weight at *
    rw [List.countP_cons, List.countP_cons]
    omega

end GtpLibrary.Player

import Mathlib.Algebra.Order.BigOperators.Group.List
import Mathlib.Algebra.Order.Ring.Nat
import Mathlib.Tactic.Common
import GtpLibrary.Lib.Bytes
import GtpLibrary.Lib.Lists

/-!
# Forms in a request body

Decoding `application/x-www-form-urlencoded`: the pieces between ampersands, each a name and a
value on the two sides of its first equals sign, with plus signs for blanks and percent signs
in front of the digits of a byte. An empty piece is no pair.
-/

namespace GtpLibrary.Lib.Forms

/-- The value of a hexadecimal digit. -/
def hexValue (c : Byte) : Option Nat :=
  if byte '0' ≤ c ∧ c ≤ byte '9' then some (c.toNat - 48)
  else if byte 'A' ≤ c ∧ c ≤ byte 'F' then some (c.toNat - 55)
  else if byte 'a' ≤ c ∧ c ≤ byte 'f' then some (c.toNat - 87)
  else none

/-- The byte of an escape. -/
def escaped (percent high low : Byte) : Option Byte :=
  if percent = byte '%' then do return BitVec.ofNat 8 (16 * (← hexValue high) + (← hexValue low)) else none

/-- Each percent sign with two hexadecimal digits is the byte they name. -/
def percentDecode : List Byte → List Byte
  | c :: high :: low :: rest =>
    match escaped c high low with
    | some d => d :: percentDecode rest
    | none => c :: percentDecode (high :: low :: rest)
  | t => t

/-- A plus sign is a blank. -/
def plusToSpace (t : List Byte) : List Byte := t.map fun c => if c = byte '+' then byte ' ' else c

/-- Plus signs first, then the escapes. -/
def decodeText (t : List Byte) : List Byte := percentDecode (plusToSpace t)

abbrev Pair := List Byte × List Byte

/-- What stands in front of the first equals sign. -/
def nameSide (piece : List Byte) : List Byte := piece.takeWhile (· ≠ byte '=')

/-- What stands behind it. -/
def valueSide (piece : List Byte) : List Byte := (piece.dropWhile (· ≠ byte '=')).drop 1

/-- Both sides of a piece are decoded. -/
def decodePair (piece : List Byte) : Pair := (decodeText (nameSide piece), decodeText (valueSide piece))

/-- Empty pieces are no pairs. -/
def decodeForm (body : List Byte) : List Pair :=
  ((body.splitOn (byte '&')).filter (· ≠ [])).map decodePair

/-- A pair as it is written when nothing is encoded. -/
def rawPair (pair : Pair) : List Byte := pair.1 ++ byte '=' :: pair.2

/-- Pairs joined without being encoded. -/
def rawForm (pairs : List Pair) : List Byte := [byte '&'].intercalate (pairs.map rawPair)

/-- An escape stands somewhere in the text. -/
def hasEscape : List Byte → Bool
  | c :: high :: low :: rest => (escaped c high low).isSome || hasEscape (high :: low :: rest)
  | _ => false

/-- A text that is its own encoding. -/
def Verbatim (t : List Byte) : Prop := byte '&' ∉ t ∧ byte '+' ∉ t ∧ hasEscape t = false

/-! ## Texts -/

/-- Without an escape nothing is decoded. -/
theorem percentDecode_of_hasEscape {t : List Byte} (none : hasEscape t = false) : percentDecode t = t := by
  induction t using percentDecode.induct with
  | case1 c high low rest d found ih => simp [hasEscape, found] at none
  | case2 c high low rest found ih =>
    simp only [hasEscape, Bool.or_eq_false_iff] at none
    simp only [percentDecode, found, ih none.2]
  | case3 t short => simp [percentDecode]

/-! ## Escapes -/

/-- An escape is a percent sign and two hexadecimal digits. -/
theorem escaped_eq_some {c high low d : Byte} (found : escaped c high low = some d) :
    c = byte '%' ∧ (hexValue high).isSome ∧ (hexValue low).isSome := by
  unfold escaped at found
  split at found
  · rename_i percent
    simp only [Option.bind_eq_bind, Option.pure_def, Option.bind_eq_some_iff] at found
    obtain ⟨a, first, b, second, -⟩ := found
    exact ⟨percent, by rw [first]; rfl, by rw [second]; rfl⟩
  · cases found

/-- Three bytes become one. -/
theorem percentDecode_escaped {c high low d : Byte} (found : escaped c high low = some d) (t : List Byte) :
    percentDecode (c :: high :: low :: t) = d :: percentDecode t := by
  simp only [percentDecode, found]

/-- A byte that begins no escape stands for itself. -/
theorem percentDecode_cons {c : Byte} {t : List Byte}
    (none : ∀ high low rest, t = high :: low :: rest → escaped c high low = none) :
    percentDecode (c :: t) = c :: percentDecode t := by
  rcases t with _ | ⟨high, _ | ⟨low, rest⟩⟩
  · rfl
  · rfl
  · rw [percentDecode, none high low rest rfl]

/-- Every other byte stays. -/
theorem percentDecode_cons_of_ne {c : Byte} (other : c ≠ byte '%') (t : List Byte) :
    percentDecode (c :: t) = c :: percentDecode t := by
  apply percentDecode_cons
  intro high low rest _
  exact Option.eq_none_iff_forall_ne_some.2 fun d found => other (escaped_eq_some found).1

/-- A byte that is no part of an escape separates what stands in front of it from what stands
behind it. -/
theorem percentDecode_append_cons {c : Byte} (other : c ≠ byte '%') (digit : hexValue c = none) (s t : List Byte) :
    percentDecode (s ++ c :: t) = percentDecode s ++ c :: percentDecode t := by
  have one : ∀ a : Byte, percentDecode (a :: c :: t) = a :: c :: percentDecode t := by
    intro a
    rw [← percentDecode_cons_of_ne other]
    apply percentDecode_cons
    rintro _ low rest ⟨⟩
    refine Option.eq_none_iff_forall_ne_some.2 fun d found => ?_
    have high := (escaped_eq_some found).2.1
    rw [digit] at high
    cases high
  have two : ∀ a b : Byte, percentDecode (a :: b :: c :: t) = a :: b :: c :: percentDecode t := by
    intro a b
    rw [← one]
    apply percentDecode_cons
    rintro _ _ rest ⟨⟩
    refine Option.eq_none_iff_forall_ne_some.2 fun d found => ?_
    have low := (escaped_eq_some found).2.2
    rw [digit] at low
    cases low
  induction s using percentDecode.induct with
  | case1 a high low rest d found ih =>
    simp only [List.cons_append, percentDecode_escaped found, ih]
  | case2 a high low rest found ih =>
    simp only [List.cons_append, percentDecode, found] at ih ⊢
    rw [ih]
  | case3 s short =>
    rcases s with _ | ⟨a, _ | ⟨b, _ | ⟨e, rest⟩⟩⟩
    · exact percentDecode_cons_of_ne other t
    · exact one a
    · exact two a b
    · exact absurd rfl (short a b e rest)

/-! ## Weights -/

/-- How many bytes there are that are no separators. Decoding never adds one, and an escape
loses two at least. -/
def weight (t : List Byte) : Nat := t.countP fun c => c ≠ byte '&' ∧ c ≠ byte '='

def weightPair (pair : Pair) : Nat := weight pair.1 + weight pair.2

/-- A byte weighs one or nothing. -/
theorem weight_cons_le (c : Byte) (t : List Byte) : weight t ≤ weight (c :: t) ∧ weight (c :: t) ≤ weight t + 1 := by
  unfold weight
  rw [List.countP_cons]
  split <;> omega

/-- A byte in front keeps the order of weights. -/
theorem weight_cons_le_cons (c : Byte) {s t : List Byte} (less : weight s ≤ weight t) :
    weight (c :: s) ≤ weight (c :: t) := by
  unfold weight at *
  rw [List.countP_cons, List.countP_cons]
  omega

theorem weight_append (s t : List Byte) : weight (s ++ t) = weight s + weight t := List.countP_append

/-- No hexadecimal digit separates. -/
theorem weight_hexDigit : ∀ c : Byte, (hexValue c).isSome → c ≠ byte '&' ∧ c ≠ byte '=' := by decide

/-- An escape weighs three. -/
theorem weight_escaped {c high low d : Byte} (found : escaped c high low = some d) (rest : List Byte) :
    weight (c :: high :: low :: rest) = weight rest + 3 := by
  obtain ⟨percent, first, second⟩ := escaped_eq_some found
  have here : c ≠ byte '&' ∧ c ≠ byte '=' := percent ▸ by decide
  have next := weight_hexDigit high first
  have last := weight_hexDigit low second
  unfold weight
  simp [here, next, last]

/-- Decoding takes weight exactly where there is an escape. -/
theorem weight_percentDecode (t : List Byte) :
    weight (percentDecode t) ≤ weight t ∧ (hasEscape t = true → weight (percentDecode t) < weight t) := by
  induction t using percentDecode.induct with
  | case1 c high low rest d found ih =>
    have before := weight_escaped found rest
    have behind := (weight_cons_le d (percentDecode rest)).2
    simp only [percentDecode, found]
    constructor
    · omega
    · intro
      omega
  | case2 c high low rest found ih =>
    simp only [percentDecode, found, hasEscape, Option.isSome_none, Bool.false_or]
    refine ⟨weight_cons_le_cons c ih.1, fun later => ?_⟩
    have less := ih.2 later
    unfold weight at *
    rw [List.countP_cons, List.countP_cons (a := c)]
    omega
  | case3 t short =>
    have same : percentDecode t = t := by
      unfold percentDecode
      split
      · exact absurd rfl (short _ _ _ _)
      · rfl
    have none : hasEscape t = false := by
      unfold hasEscape
      split
      · exact absurd rfl (short _ _ _ _)
      · rfl
    rw [same, none]
    exact ⟨Nat.le_refl _, fun found => by cases found⟩

/-! ## Plus signs -/

/-- Plus signs are no hexadecimal digits. -/
theorem hexValue_plusToSpace : ∀ c : Byte, hexValue (if c = byte '+' then byte ' ' else c) = hexValue c := by decide

/-- Nor do they become percent signs. -/
theorem percent_plusToSpace : ∀ c : Byte, (if c = byte '+' then byte ' ' else c) = byte '%' ↔ c = byte '%' := by decide

/-- Nor do they become separators. -/
theorem separator_plusToSpace : ∀ c : Byte, (((if c = byte '+' then byte ' ' else c) ≠ byte '&' ∧
    (if c = byte '+' then byte ' ' else c) ≠ byte '=') ↔ (c ≠ byte '&' ∧ c ≠ byte '=')) := by decide

/-- So blanks for plus signs weigh as much. -/
theorem weight_plusToSpace (t : List Byte) : weight (plusToSpace t) = weight t := by
  unfold weight plusToSpace
  rw [List.countP_map]
  congr 1
  funext c
  exact decide_eq_decide.2 (separator_plusToSpace c)

/-- And the escapes are the same. -/
theorem hasEscape_plusToSpace (t : List Byte) : hasEscape (plusToSpace t) = hasEscape t := by
  induction t using hasEscape.induct with
  | case1 c high low rest ih =>
    have same : escaped (if c = byte '+' then byte ' ' else c) (if high = byte '+' then byte ' ' else high)
        (if low = byte '+' then byte ' ' else low) = escaped c high low := by
      unfold escaped
      simp only [percent_plusToSpace, hexValue_plusToSpace]
    show ((escaped _ _ _).isSome || hasEscape (plusToSpace (high :: low :: rest))) = _
    rw [same, ih]
    rfl
  | case2 t short =>
    rcases t with _ | ⟨c, _ | ⟨d, _ | ⟨e, rest⟩⟩⟩
    · rfl
    · rfl
    · rfl
    · exact absurd rfl (short c d e rest)

/-- Both together take weight exactly where there is an escape. -/
theorem weight_decodeText (t : List Byte) :
    weight (decodeText t) ≤ weight t ∧ (hasEscape t = true → weight (decodeText t) < weight t) := by
  have decoded := weight_percentDecode (plusToSpace t)
  rwa [weight_plusToSpace, hasEscape_plusToSpace] at decoded

/-- Without an escape only plus signs change. -/
theorem decodeText_of_hasEscape {t : List Byte} (none : hasEscape t = false) : decodeText t = plusToSpace t :=
  percentDecode_of_hasEscape ((hasEscape_plusToSpace t).trans none)

/-- Decoding never lengthens a text. -/
theorem length_decodeText_le (t : List Byte) : (decodeText t).length ≤ t.length := by
  have shorter : ∀ t : List Byte, (percentDecode t).length ≤ t.length := by
    intro t
    induction t using percentDecode.induct with
    | case1 c high low rest d found ih =>
      simp only [percentDecode, found, List.length_cons]
      omega
    | case2 c high low rest found ih =>
      simp only [percentDecode, found, List.length_cons] at ih ⊢
      omega
    | case3 t short => simp [percentDecode]
  exact (shorter (plusToSpace t)).trans_eq (List.length_map ..)

/-- A text stays as it is exactly if it has no plus sign. -/
theorem plusToSpace_eq_self_iff {t : List Byte} : plusToSpace t = t ↔ byte '+' ∉ t := by
  have changes : ∀ c : Byte, (if c = byte '+' then byte ' ' else c) = c ↔ c ≠ byte '+' := by decide
  have self : plusToSpace t = t ↔ ∀ c ∈ t, (if c = byte '+' then byte ' ' else c) = c := by
    simpa [plusToSpace] using
      List.map_inj_left (f := fun c : Byte => if c = byte '+' then byte ' ' else c) (g := id) (l := t)
  rw [self]
  simp only [changes]
  exact ⟨fun other member => other _ member rfl, fun free c member same => free (same ▸ member)⟩

/-- No ampersand comes from a plus sign. -/
theorem plusToSpace_amp {t : List Byte} : byte '&' ∈ plusToSpace t → byte '&' ∈ t := by
  have from' : ∀ c : Byte, (if c = byte '+' then byte ' ' else c) = byte '&' → c = byte '&' := by decide
  intro member
  obtain ⟨c, inside, same⟩ := List.mem_map.1 member
  exact from' c same ▸ inside

/-! ## Pairs -/

section
variable {pair : Pair} {pairs : List Pair} {piece : List Byte}

/-- The first equals sign weighs nothing. -/
theorem weight_sides (piece : List Byte) : weight (nameSide piece) + weight (valueSide piece) = weight piece := by
  have whole := congrArg weight (List.takeWhile_append_dropWhile (p := (· ≠ byte '=')) (l := piece))
  rw [weight_append] at whole
  unfold nameSide valueSide
  rw [← whole, Nat.add_left_cancel_iff]
  cases behind : piece.dropWhile (· ≠ byte '=') with
  | nil => rfl
  | cons c rest =>
    have stop := List.head?_dropWhile_not (· ≠ byte '=') piece
    rw [behind] at stop
    have equals : c = byte '=' := by simpa using stop
    rw [equals]
    rfl

/-- A piece is at least as heavy as its pair. -/
theorem weight_decodePair (piece : List Byte) : weightPair (decodePair piece) ≤ weight piece := by
  rw [← weight_sides]
  exact Nat.add_le_add (weight_decodeText _).1 (weight_decodeText _).1

/-- A piece that keeps its weight gives no ampersand. -/
theorem amp_of_weight (free : byte '&' ∉ piece) (kept : weight piece ≤ weightPair (decodePair piece)) :
    byte '&' ∉ (decodePair piece).1 ∧ byte '&' ∉ (decodePair piece).2 := by
  have name := weight_decodeText (nameSide piece)
  have value := weight_decodeText (valueSide piece)
  rw [← weight_sides] at kept
  change _ ≤ weight (decodeText (nameSide piece)) + weight (decodeText (valueSide piece)) at kept
  have noName : hasEscape (nameSide piece) = false := by
    rw [Bool.eq_false_iff]
    intro found
    have less := name.2 found
    omega
  have noValue : hasEscape (valueSide piece) = false := by
    rw [Bool.eq_false_iff]
    intro found
    have less := value.2 found
    omega
  unfold decodePair
  rw [decodeText_of_hasEscape noName, decodeText_of_hasEscape noValue]
  constructor
  · exact fun member => free ((List.takeWhile_prefix _).subset (plusToSpace_amp member))
  · exact fun member => free ((List.dropWhile_suffix _).subset (List.mem_of_mem_drop (plusToSpace_amp member)))

/-- A name without an equals sign is parted from its value where it was joined. -/
theorem sides_rawPair (free : byte '=' ∉ pair.1) :
    nameSide (rawPair pair) = pair.1 ∧ valueSide (rawPair pair) = pair.2 := by
  have other : ∀ c ∈ pair.1, decide (c ≠ byte '=') = true := by
    intro c member
    exact decide_eq_true fun same => free (same ▸ member)
  unfold nameSide valueSide rawPair
  rw [List.takeWhile_append_of_pos other, List.dropWhile_append_of_pos other]
  simp

/-- Otherwise the name that is read is shorter. -/
theorem length_nameSide_lt (member : byte '=' ∈ pair.1) : (nameSide (rawPair pair)).length < pair.1.length := by
  obtain ⟨front, back, split, free⟩ := List.eq_append_cons_of_mem member
  have same : rawPair pair = rawPair (front, back ++ byte '=' :: pair.2) := by
    unfold rawPair
    rw [split, List.append_assoc]
    rfl
  rw [same, (sides_rawPair free).1, split, List.length_append, List.length_cons]
  exact Nat.lt_add_of_pos_right (Nat.succ_pos _)

/-- One pair that is written alone. -/
theorem decodePair_rawPair_iff : decodePair (rawPair pair) = pair ↔
    byte '=' ∉ pair.1 ∧ decodeText pair.1 = pair.1 ∧ decodeText pair.2 = pair.2 := by
  constructor
  · intro same
    have free : byte '=' ∉ pair.1 := by
      intro member
      have shorter := length_nameSide_lt member
      have decoded := length_decodeText_le (nameSide (rawPair pair))
      have name : decodeText (nameSide (rawPair pair)) = pair.1 := congrArg Prod.fst same
      rw [name] at decoded
      omega
    unfold decodePair at same
    rw [(sides_rawPair free).1, (sides_rawPair free).2] at same
    exact ⟨free, congrArg Prod.fst same, congrArg Prod.snd same⟩
  · rintro ⟨free, name, value⟩
    unfold decodePair
    rw [(sides_rawPair free).1, (sides_rawPair free).2, name, value]

/-- A text is its own decoding exactly without plus signs and escapes. -/
theorem decodeText_eq_self_iff {t : List Byte} : decodeText t = t ↔ byte '+' ∉ t ∧ hasEscape t = false := by
  constructor
  · intro same
    have none : hasEscape t = false := by
      rw [Bool.eq_false_iff]
      intro found
      have less := (weight_decodeText t).2 found
      rw [same] at less
      exact Nat.lt_irrefl _ less
    rw [decodeText_of_hasEscape none] at same
    exact ⟨plusToSpace_eq_self_iff.1 same, none⟩
  · rintro ⟨free, none⟩
    rw [decodeText_of_hasEscape none]
    exact plusToSpace_eq_self_iff.2 free

/-! ## Forms -/

/-- Ampersands weigh nothing. -/
theorem weight_intercalate (pieces : List (List Byte)) :
    weight ([byte '&'].intercalate pieces) = (pieces.map weight).sum := by
  induction pieces with
  | nil => rfl
  | cons piece pieces ih =>
    cases pieces with
    | nil => simp
    | cons next pieces =>
      rw [List.intercalate_cons_cons, weight_append, weight_append, ih, List.map_cons, List.sum_cons]
      rfl

/-- Nor does the equals sign of a pair. -/
theorem weight_rawPair (pair : Pair) : weight (rawPair pair) = weightPair pair := by
  unfold rawPair weightPair
  rw [weight_append]
  rfl

/-- The pieces of a raw form weigh together what the pairs do. -/
theorem weight_pieces (pairs : List Pair) :
    ((((rawForm pairs).splitOn (byte '&')).filter (· ≠ [])).map weight).sum = (pairs.map weightPair).sum := by
  have dropped : ∀ pieces : List (List Byte), ((pieces.filter (· ≠ [])).map weight).sum = (pieces.map weight).sum := by
    intro pieces
    induction pieces with
    | nil => rfl
    | cons piece pieces ih =>
      by_cases empty : piece = []
      · rw [List.filter_cons_of_neg (by simpa using empty), ih, empty]
        simp [weight]
      · rw [List.filter_cons_of_pos (by simpa using empty), List.map_cons, List.sum_cons, ih, List.map_cons, List.sum_cons]
  rw [dropped, ← weight_intercalate, List.intercalate_splitOn, rawForm, weight_intercalate, List.map_map]
  exact congrArg List.sum (List.map_congr_left fun pair _ => weight_rawPair pair)

/-- Pairs without ampersands are parted where they were joined. -/
theorem splitOn_rawForm (some : pairs ≠ []) (free : ∀ pair ∈ pairs, byte '&' ∉ pair.1 ∧ byte '&' ∉ pair.2) :
    ((rawForm pairs).splitOn (byte '&')).filter (· ≠ []) = pairs.map rawPair := by
  have clean : ∀ piece ∈ pairs.map rawPair, byte '&' ∉ piece := by
    intro piece member
    obtain ⟨pair, inside, rfl⟩ := List.mem_map.1 member
    obtain ⟨name, value⟩ := free pair inside
    unfold rawPair
    rw [List.mem_append, List.mem_cons]
    rintro (here | here | here)
    · exact name here
    · exact absurd here (by decide)
    · exact value here
  have filled : ∀ piece ∈ pairs.map rawPair, decide (piece ≠ []) = true := by
    intro piece member
    obtain ⟨pair, -, rfl⟩ := List.mem_map.1 member
    exact decide_eq_true (List.append_ne_nil_of_right_ne_nil _ (List.cons_ne_nil _ _))
  unfold rawForm
  rw [List.splitOn_intercalate _ clean (mt List.map_eq_nil_iff.1 some), List.filter_eq_self.2 filled]

/-- No ampersand can be decoded from a raw form that gives its pairs back: an escape would
take weight away. -/
theorem free_of_decodeForm (same : decodeForm (rawForm pairs) = pairs) :
    ∀ pair ∈ pairs, byte '&' ∉ pair.1 ∧ byte '&' ∉ pair.2 := by
  intro pair member
  rw [← same] at member
  obtain ⟨piece, inside, rfl⟩ := List.mem_map.1 member
  have free : byte '&' ∉ piece := not_mem_of_mem_splitOn (List.mem_of_mem_filter inside)
  apply amp_of_weight free
  by_contra lost
  have less := List.sum_lt_sum (fun piece => weightPair (decodePair piece)) weight
    (fun piece _ => weight_decodePair piece) ⟨piece, inside, Nat.lt_of_not_le lost⟩
  rw [weight_pieces] at less
  unfold decodeForm at same
  have total := congrArg (fun pairs => (pairs.map weightPair).sum) same
  rw [List.map_map] at total
  exact Nat.ne_of_lt less total

/-- **Nothing is encoded, and nothing need be**: the pairs come back exactly if the names and
the values are their own encodings. -/
theorem decodeForm_rawForm_iff : decodeForm (rawForm pairs) = pairs ↔
    ∀ pair ∈ pairs, byte '=' ∉ pair.1 ∧ Verbatim pair.1 ∧ Verbatim pair.2 := by
  have each : (∀ pair ∈ pairs, byte '&' ∉ pair.1 ∧ byte '&' ∉ pair.2) → (decodeForm (rawForm pairs) = pairs ↔
      ∀ pair ∈ pairs, byte '=' ∉ pair.1 ∧ decodeText pair.1 = pair.1 ∧ decodeText pair.2 = pair.2) := by
    intro free
    rcases eq_or_ne pairs [] with rfl | some
    · exact iff_of_true rfl fun pair none => by cases none
    · have self := List.map_inj_left (f := decodePair ∘ rawPair) (g := id) (l := pairs)
      rw [List.map_id] at self
      unfold decodeForm
      rw [splitOn_rawForm some free, List.map_map, self]
      exact forall₂_congr fun pair _ => decodePair_rawPair_iff
  constructor
  · intro same pair member
    have free := free_of_decodeForm same
    obtain ⟨name, first, second⟩ := (each free).1 same pair member
    rw [decodeText_eq_self_iff] at first second
    exact ⟨name, ⟨(free pair member).1, first⟩, ⟨(free pair member).2, second⟩⟩
  · intro verbatim
    apply (each fun pair member => ⟨(verbatim pair member).2.1.1, (verbatim pair member).2.2.1⟩).2
    intro pair member
    obtain ⟨name, first, second⟩ := verbatim pair member
    exact ⟨name, decodeText_eq_self_iff.2 first.2, decodeText_eq_self_iff.2 second.2⟩

end

end GtpLibrary.Lib.Forms

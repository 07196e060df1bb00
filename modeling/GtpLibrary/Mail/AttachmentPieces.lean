import GtpLibrary.Mail.Attachment
import GtpLibrary.Mail.Base64RoundTrip

/-!
# When an attachment is complete

Turn `k` stands at `15000 * k`, modulo `2^32`. Up to the first wrap the pieces lie side by
side. A loop that wraps adds much of the text again, and a text of `2^32` characters or
more has no index at which it ends.
-/

namespace GtpLibrary.Mail
open GtpLibrary.Lib

/-- The counter at turn `k`. -/
def indexAt (k : Nat) : Nat := 15000 * k % 2 ^ 32

/-- How often the counter has wrapped before turn `k`. -/
def wraps (k : Nat) : Nat := 15000 * k / 2 ^ 32

/-- What a turn adds. -/
def pieceAt (fileContent : List Byte) (k : Nat) : List Byte := (fileContent.drop (indexAt k)).take 15000

/-- The first turn that is not taken is `k`. -/
def EndsAtTurn (length k : Nat) : Prop := length ≤ indexAt k ∧ ∀ j < k, indexAt j < length

section
variable {fileContent : List Byte} {ce : CurlEmail} {k length : Nat}

theorem indexAt_lt (k : Nat) : indexAt k < 2 ^ 32 := Nat.mod_lt _ (by decide)

theorem toNat_ofNat_index (k : Nat) : (BitVec.ofNat 32 (15000 * k)).toNat = indexAt k := BitVec.toNat_ofNat ..

theorem next_index (k : Nat) : BitVec.ofNat 32 (15000 * k) + chunkSize = BitVec.ofNat 32 (15000 * (k + 1)) :=
  (BitVec.ofNat_add ..).symm

theorem toNat_toSize (i : BitVec 32) : (toSize i).toNat = i.toNat := BitVec.toNat_setWidth_of_le (by decide)

theorem toNat_size (small : fileContent.length < 2 ^ 64) : (size fileContent).toNat = fileContent.length := by
  rw [size, BitVec.toNat_ofNat, Nat.mod_eq_of_lt small]

theorem toSize_ult (small : fileContent.length < 2 ^ 64) (i : BitVec 32) :
    (toSize i).ult (size fileContent) = decide (i.toNat < fileContent.length) := by
  rw [BitVec.ult, toNat_toSize, toNat_size small]

/-! ## The loop -/

/-- Both branches of the body take what stands at the index, 15000 characters at most. -/
theorem addPiece_eq (small : fileContent.length < 2 ^ 64) (inside : indexAt k < fileContent.length) :
    addPiece fileContent ce (BitVec.ofNat 32 (15000 * k)) = ce.addData (pieceAt fileContent k) := by
  have position : (toSize (BitVec.ofNat 32 (15000 * k))).toNat = indexAt k := by
    rw [toNat_toSize, toNat_ofNat_index]
  have rest : (size fileContent - toSize (BitVec.ofNat 32 (15000 * k))).toNat = fileContent.length - indexAt k := by
    rw [BitVec.toNat_sub_of_le, toNat_size small, position]
    rw [BitVec.le_def, toNat_size small, position]
    exact inside.le
  unfold addPiece substr pieceAt
  rw [next_index, toSize_ult small, toNat_ofNat_index, position, rest]
  split
  · rfl
  · rename_i last
    rw [decide_eq_true_eq] at last
    have few : fileContent.length - indexAt k ≤ 15000 := by
      unfold indexAt at *
      omega
    rw [List.take_of_length_le (by rw [List.length_drop]), List.take_of_length_le (by rwa [List.length_drop])]

/-- The loop ends at the first index behind the text. -/
theorem addPieces_eq_some (small : fileContent.length < 2 ^ 64) {fuel j : Nat} {result : CurlEmail} :
    addPieces fileContent fuel (BitVec.ofNat 32 (15000 * j)) ce = some result ↔
      ∃ more < fuel, fileContent.length ≤ indexAt (j + more) ∧ (∀ l < more, indexAt (j + l) < fileContent.length) ∧
        result = ((List.range' j more).map (pieceAt fileContent)).foldl CurlEmail.addData ce := by
  induction fuel generalizing j ce with
  | zero => simp [addPieces]
  | succ fuel ih =>
    rw [addPieces, toSize_ult small, toNat_ofNat_index, next_index]
    by_cases inside : indexAt j < fileContent.length
    · rw [decide_eq_true inside, if_pos rfl, addPiece_eq small inside, ih]
      constructor
      · rintro ⟨more, enough, stop, before, rfl⟩
        refine ⟨more + 1, by omega, ?_, ?_, rfl⟩
        · rwa [← Nat.add_assoc, Nat.add_right_comm]
        · intro l below
          cases l with
          | zero => exact inside
          | succ l =>
            rw [← Nat.add_assoc, Nat.add_right_comm]
            exact before l (by omega)
      · rintro ⟨more, enough, stop, before, rfl⟩
        cases more with
        | zero => exact absurd inside (Nat.not_lt.2 stop)
        | succ more =>
          refine ⟨more, by omega, ?_, ?_, rfl⟩
          · rwa [← Nat.add_assoc, Nat.add_right_comm] at stop
          · intro l below
            have later := before (l + 1) (by omega)
            rwa [← Nat.add_assoc, Nat.add_right_comm] at later
    · rw [decide_eq_false inside, if_neg Bool.false_ne_true]
      constructor
      · intro same
        cases same
        exact ⟨0, by omega, Nat.le_of_not_lt inside, fun l below => absurd below (Nat.not_lt_zero l), rfl⟩
      · rintro ⟨more, enough, stop, before, rfl⟩
        cases more with
        | zero => rfl
        | succ more => exact absurd (before 0 (by omega)) inside

theorem mailContent_foldl (pieces : List (List Byte)) :
    (pieces.foldl CurlEmail.addData ce).mailContent = ce.mailContent ++ pieces.map (· ++ CurlEmail.crlf) := by
  induction pieces generalizing ce with
  | nil => exact (List.append_nil _).symm
  | cons piece pieces ih =>
    rw [List.foldl_cons, ih, List.map_cons]
    exact List.append_assoc ..

/-- The mail shows which pieces were added. -/
theorem foldl_addData_injective {pieces other : List (List Byte)}
    (same : pieces.foldl CurlEmail.addData ce = other.foldl CurlEmail.addData ce) : pieces = other := by
  have lines := congrArg CurlEmail.mailContent same
  simp only [mailContent_foldl] at lines
  exact (List.map_injective_iff.2 (List.append_left_injective _)) (List.append_cancel_left lines)

/-- The pieces of the first `k` turns. -/
def piecesUpTo (fileContent : List Byte) (k : Nat) : List (List Byte) := (List.range k).map (pieceAt fileContent)

theorem length_pieceAt_le {piece : List Byte} (member : piece ∈ piecesUpTo fileContent k) : piece.length ≤ 15000 := by
  obtain ⟨j, -, rfl⟩ := List.mem_map.1 member
  exact List.length_take_le ..

/-! ## The encoding -/

/-- The length is narrowed to an `unsigned int` before the text is encoded. -/
theorem encodeContent_eq (content : List Byte) :
    encodeContent content = Base64.encode (content.take (content.length % 2 ^ 32)) := by
  have narrow : (BitVec.ofNat 32 content.length).toNat = content.length % 2 ^ 32 := BitVec.toNat_ofNat ..
  have whole : (BitVec.ofNat 32 content.length).toNat = (content.take (content.length % 2 ^ 32)).length := by
    rw [narrow, List.length_take, Nat.min_eq_left (Nat.mod_le ..)]
  rw [← base64Encode_standard whole, encodeContent, base64Encode, base64Encode, narrow, List.take_take, Nat.min_self]

theorem length_encode (content : List Byte) : (Base64.encode content).length = 4 * ((content.length + 2) / 3) := by
  have len := Sextets.length_toSextets (Base64.codes content)
  unfold Base64.codes at len
  rw [List.length_map] at len
  unfold Base64.encode Base64.codes
  rw [List.length_append, List.length_map, List.length_replicate, len]

theorem length_encodeContent (content : List Byte) :
    (encodeContent content).length = 4 * ((content.length % 2 ^ 32 + 2) / 3) := by
  rw [encodeContent_eq, length_encode, List.length_take, Nat.min_eq_left (Nat.mod_le ..)]

/-- What the loop does, by its turns. -/
theorem attachesWhole_iff_turns {content : List Byte} : AttachesWhole content ce ↔
    ∃ k, EndsAtTurn (encodeContent content).length k ∧
      (piecesUpTo (encodeContent content) k).flatten = Base64.encode content := by
  have size := length_encodeContent content
  have spec : ∀ fuel result, attach content fuel ce = some result ↔ ∃ k < fuel,
      EndsAtTurn (encodeContent content).length k ∧
        result = (piecesUpTo (encodeContent content) k).foldl CurlEmail.addData ce := by
    intro fuel result
    have loop : addPieces (encodeContent content) fuel (BitVec.ofNat 32 (15000 * 0)) ce = some result ↔ _ :=
      addPieces_eq_some (by omega)
    have start : BitVec.ofNat 32 (15000 * 0) = 0 := rfl
    simp only [start, Nat.zero_add, ← List.range_eq_range'] at loop
    simpa only [attach, EndsAtTurn, piecesUpTo, and_assoc] using loop
  constructor
  · rintro ⟨fuel, pieces, added, -, whole⟩
    obtain ⟨k, -, ends, same⟩ := (spec fuel _).1 added
    exact ⟨k, ends, foldl_addData_injective same ▸ whole⟩
  · rintro ⟨k, ends, whole⟩
    exact ⟨k + 1, _, (spec _ _).2 ⟨k, Nat.lt_succ_self k, ends, rfl⟩, fun piece => length_pieceAt_le, whole⟩

/-! ## No wrap -/

theorem indexAt_of_le (few : k ≤ 286331) : indexAt k = 15000 * k := Nat.mod_eq_of_lt (by omega)

/-- Pieces side by side. -/
theorem flatten_pieces (text : List Byte) (few : k ≤ 286332) :
    (piecesUpTo text k).flatten = text.take (15000 * k) := by
  unfold piecesUpTo
  induction k with
  | zero => rfl
  | succ k ih =>
    rw [List.range_succ, List.map_append, List.flatten_append, ih (by omega), List.map_singleton, List.flatten_singleton,
      pieceAt, indexAt_of_le (by omega), Nat.mul_add_one, List.take_add]

/-- A short text is added piece by piece. -/
theorem attachesWhole_of_short {content : List Byte} (short : content.length ≤ 3221223750) : AttachesWhole content ce := by
  have narrow : content.length % 2 ^ 32 = content.length := Nat.mod_eq_of_lt (by omega)
  have size := length_encodeContent content
  have same := encodeContent_eq content
  rw [narrow] at size same
  rw [List.take_length] at same
  have few : ((encodeContent content).length + 14999) / 15000 ≤ 286331 := by omega
  refine attachesWhole_iff_turns.2 ⟨((encodeContent content).length + 14999) / 15000, ⟨?_, ?_⟩, ?_⟩
  · rw [indexAt_of_le few]
    omega
  · intro j before
    rw [indexAt_of_le (by omega)]
    omega
  · rw [flatten_pieces _ (by omega), List.take_of_length_le (by omega), same]

/-! ## Wraps -/

/-- The counter comes back to 0 after `2^29` turns, so that a loop that ends does so before. -/
theorem EndsAtTurn.wraps_lt (ends : EndsAtTurn length k) : wraps k < 1875 := by
  have early : k < 2 ^ 29 := by
    by_contra late
    have again : indexAt (k - 2 ^ 29) = indexAt k := by
      unfold indexAt
      omega
    have before := ends.2 (k - 2 ^ 29) (by omega)
    have stop := ends.1
    omega
  unfold wraps
  omega

theorem next_without_wrap (room : indexAt k + 15000 < 2 ^ 32) :
    wraps (k + 1) = wraps k ∧ indexAt (k + 1) = indexAt k + 15000 := by
  unfold wraps indexAt at *
  omega

theorem next_with_wrap (full : 2 ^ 32 ≤ indexAt k + 15000) :
    wraps (k + 1) = wraps k + 1 ∧ indexAt (k + 1) + 2 ^ 32 = indexAt k + 15000 := by
  unfold wraps indexAt at *
  omega

/-- How many characters have been added before turn `k`: each wrap adds the text, but for the
less than 15000 characters in front of where it starts. -/
theorem length_flatten_bounds (text : List Byte) (small : text.length < 2 ^ 32)
    (before : ∀ j < k, indexAt j < text.length) :
    wraps k * text.length + min (indexAt k) text.length ≤ (piecesUpTo text k).flatten.length + wraps k * 15000 ∧
      (piecesUpTo text k).flatten.length ≤ wraps k * text.length + min (indexAt k) text.length := by
  induction k with
  | zero => simp [piecesUpTo, wraps, indexAt]
  | succ k ih =>
    have inside := before k (Nat.lt_succ_self k)
    obtain ⟨low, high⟩ := ih fun j below => before j (by omega)
    have added : (piecesUpTo text (k + 1)).flatten.length =
        (piecesUpTo text k).flatten.length + min 15000 (text.length - indexAt k) := by
      unfold piecesUpTo
      rw [List.range_succ, List.map_append, List.flatten_append, List.map_singleton, List.flatten_singleton,
        List.length_append, pieceAt, List.length_take, List.length_drop]
    have reaches : indexAt k + min 15000 (text.length - indexAt k) = min (indexAt k + 15000) text.length := by omega
    rw [Nat.min_eq_left (Nat.le_of_lt inside)] at low high
    rw [added]
    by_cases wrapped : indexAt k + 15000 < 2 ^ 32
    · obtain ⟨same, next⟩ := next_without_wrap wrapped
      rw [same, next, ← reaches]
      constructor <;> omega
    · obtain ⟨same, next⟩ := next_with_wrap (Nat.le_of_not_lt wrapped)
      rw [Nat.min_eq_right (by omega)] at reaches
      have start : min (indexAt (k + 1)) text.length ≤ 15000 := Nat.le_trans (Nat.min_le_left ..) (by omega)
      rw [same, Nat.add_one_mul, Nat.add_one_mul]
      -- of the next index only the bounds matter
      generalize indexAt (k + 1) = index at *
      constructor <;> omega

/-- What is added after a wrap does not make the encoding of the file. -/
theorem short_of_attachesWhole {content : List Byte} (attached : AttachesWhole content ce) :
    content.length ≤ 3221223750 := by
  obtain ⟨k, ends, whole⟩ := attachesWhole_iff_turns.1 attached
  have stop := ends.1
  have below := indexAt_lt k
  have few := ends.wraps_lt
  have length := congrArg List.length whole
  rw [length_encode] at length
  obtain ⟨low, high⟩ := length_flatten_bounds (encodeContent content) (by omega) ends.2
  rw [Nat.min_eq_right stop, length] at low high
  have size := length_encodeContent content
  rcases Nat.eq_zero_or_pos (wraps k) with none | some
  · have all : 15000 * k < 2 ^ 32 := by
      unfold wraps at none
      omega
    rw [indexAt, Nat.mod_eq_of_lt all] at stop
    rw [none] at low high
    omega
  · -- the turn in front of the first wrap is taken
    have first : 15000 * 286331 < (encodeContent content).length := by
      have turn := ends.2 286331 (by unfold wraps at some; omega)
      rwa [indexAt_of_le (Nat.le_refl _)] at turn
    obtain ⟨gap, sum⟩ : ∃ gap, (encodeContent content).length + gap = 2 ^ 32 := ⟨_, Nat.add_sub_of_le (by omega)⟩
    have product : wraps k * (encodeContent content).length + wraps k * gap = wraps k * 2 ^ 32 := by
      rw [← Nat.mul_add, sum]
    have least : wraps k * 4 ≤ wraps k * gap := Nat.mul_le_mul_left _ (by omega)
    have most : wraps k * gap ≤ wraps k * 2292 := Nat.mul_le_mul_left _ (by omega)
    have less : 4 * (content.length / 2 ^ 32) < 3 * wraps k := by omega
    have enough : 3 * wraps k ≤ 4 * (content.length / 2 ^ 32) := by omega
    omega

end

/-- **The attachment loop ends and loses nothing exactly for files of at most 3221223750
bytes.** The encoding of a longer one does not end in front of the first wrap, or it is not
the encoding of the whole file. -/
theorem attachesWhole_iff (content : List Byte) (ce : CurlEmail) :
    AttachesWhole content ce ↔ content.length ≤ 3221223750 :=
  ⟨short_of_attachesWhole, attachesWhole_of_short⟩

/-- One byte more. -/
theorem attachment_repeats : ¬ AttachesWhole (List.replicate 3221223751 0) {} := by
  intro attached
  have short := short_of_attachesWhole attached
  rw [List.length_replicate] at short
  omega

end GtpLibrary.Mail

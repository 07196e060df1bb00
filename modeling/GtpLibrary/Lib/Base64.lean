import Mathlib.Tactic.Common
import GtpLibrary.Lib.Bytes
import GtpLibrary.Lib.Sextets

/-!
# Base64

The standard encoding, over the regrouping of `Lib.Sextets`, and the reading of it that
passes over foreign characters and ends at the padding.
-/

namespace GtpLibrary.Lib.Base64
open Sextets

/-- The 64 symbols, in the order of their sextets. -/
def alphabet : List Byte := text "ABCDEFGHIJKLMNOPQRSTUVWXYZabcdefghijklmnopqrstuvwxyz0123456789+/"

/-- The symbol of a sextet. -/
def symbol (n : Nat) : Byte := alphabet.getD n 0

/-- The sextet of a symbol; other bytes have none. -/
def sextet (c : Byte) : Option Nat := alphabet.idxOf? c

/-- The octets of a text. -/
def codes (l : List Byte) : List Nat := l.map BitVec.toNat

/-- The symbols of the sextets, filled up to a whole group. -/
def encode (l : List Byte) : List Byte :=
  (toSextets (codes l)).map symbol ++ List.replicate ((3 - l.length % 3) % 3) (byte '=')

/-- The octets up to the first pad; foreign bytes are skipped. -/
def decode (s : List Byte) : List Byte :=
  (fromSextets ((s.takeWhile (· ≠ byte '=')).filterMap sextet)).map (BitVec.ofNat 8)

/-! ## The alphabet -/

/-- The codes of the alphabet. -/
def alphabetCodes : List Nat := List.range' 65 26 ++ (List.range' 97 26 ++ (List.range' 48 10 ++ [43, 47]))

theorem map_toNat_alphabet : alphabet.map BitVec.toNat = alphabetCodes := by decide

/-- There are as many symbols as sextets. -/
theorem length_alphabet : alphabet.length = 64 := by
  have len := congrArg List.length map_toNat_alphabet
  rwa [List.length_map] at len

/-- The symbols are letters, digits, `+` and `/`. -/
theorem mem_alphabet {c : Byte} : c ∈ alphabet ↔
    (65 ≤ c.toNat ∧ c.toNat < 91) ∨ (97 ≤ c.toNat ∧ c.toNat < 123) ∨ (48 ≤ c.toNat ∧ c.toNat < 58) ∨
      c.toNat = 43 ∨ c.toNat = 47 := by
  have injective : Function.Injective (BitVec.toNat : Byte → Nat) := fun _ _ => BitVec.eq_of_toNat_eq
  rw [← List.mem_map_of_injective injective, map_toNat_alphabet, alphabetCodes]
  simp only [List.mem_append, List.mem_range'_1, List.mem_cons, List.not_mem_nil, or_false]

/-- No symbol stands for two sextets. -/
theorem nodup_alphabet : alphabet.Nodup := by
  have distinct : alphabetCodes.Nodup := by decide
  rw [← map_toNat_alphabet] at distinct
  exact distinct.of_map _

theorem getElem?_symbol {n : Nat} (small : n < 64) : alphabet[n]? = some (symbol n) := by
  have inside : n < alphabet.length := length_alphabet ▸ small
  rw [symbol, List.getD_eq_getElem?_getD, List.getElem?_eq_getElem inside, Option.getD_some]

theorem symbol_mem {n : Nat} (small : n < 64) : symbol n ∈ alphabet := List.mem_of_getElem? (getElem?_symbol small)

/-- Each symbol stands for one sextet. -/
theorem sextet_eq_some {c : Byte} {n : Nat} : sextet c = some n ↔ n < 64 ∧ symbol n = c := by
  unfold sextet
  rw [List.idxOf?_eq_some_iff]
  constructor
  · rintro ⟨inside, here, -⟩
    have small : n < 64 := length_alphabet ▸ inside
    have found := getElem?_symbol small
    rw [List.getElem?_eq_getElem inside, Option.some.injEq] at found
    exact ⟨small, found.symm.trans here⟩
  · rintro ⟨small, rfl⟩
    obtain ⟨inside, here⟩ := List.getElem?_eq_some_iff.1 (getElem?_symbol small)
    refine ⟨inside, here, fun j before same => ?_⟩
    have equal := nodup_alphabet.getElem_inj_iff.1 (same.trans here.symm)
    omega

/-- A symbol is read as the sextet it stands for. -/
theorem sextet_symbol {n : Nat} (small : n < 64) : sextet (symbol n) = some n := sextet_eq_some.2 ⟨small, rfl⟩

/-- Every symbol stands for a sextet. -/
theorem exists_sextet {c : Byte} (inside : c ∈ alphabet) : ∃ n, sextet c = some n :=
  Option.isSome_iff_exists.1 (List.isSome_idxOf?.2 inside)

/-- The pad is no symbol. -/
theorem pad_not_mem : byte '=' ∉ alphabet := by
  rw [mem_alphabet]
  decide

/-! ## Round trip -/

theorem codes_lt (l : List Byte) : ∀ n ∈ codes l, n < 256 := by
  intro n member
  obtain ⟨c, -, rfl⟩ := List.mem_map.1 member
  exact c.isLt

/-- An encoded text is made of symbols and pads. -/
theorem mem_encode {l : List Byte} {c : Byte} (member : c ∈ encode l) : c ∈ alphabet ∨ c = byte '=' := by
  rcases List.mem_append.1 member with h | h
  · obtain ⟨n, sextet, rfl⟩ := List.mem_map.1 h
    exact .inl (symbol_mem (toSextets_lt (codes_lt l) n sextet))
  · exact .inr (List.eq_of_mem_replicate h)

/-- What is neither a symbol nor the padding does not occur. -/
theorem not_mem_encode {l : List Byte} {c : Byte} (foreign : c ∉ alphabet) (notPad : c ≠ byte '=') : c ∉ encode l := by
  intro member
  rcases mem_encode member with inside | pad
  · exact foreign inside
  · exact notPad pad

/-- In front of the padding stand the sextets, and what is foreign. -/
theorem front_encode (l : List Byte) {rest : List Byte} (foreign : ∀ c ∈ rest, c ∉ alphabet) :
    ∃ cs, (encode l ++ rest).takeWhile (· ≠ byte '=') = (toSextets (codes l)).map symbol ++ cs ∧
      ∀ c ∈ cs, c ∉ alphabet := by
  have front : ∀ c ∈ (toSextets (codes l)).map symbol, c ≠ byte '=' := by
    intro c member
    obtain ⟨n, sextet, rfl⟩ := List.mem_map.1 member
    have inside := symbol_mem (toSextets_lt (codes_lt l) n sextet)
    exact fun pad => pad_not_mem (pad ▸ inside)
  unfold encode
  rw [List.append_assoc, List.takeWhile_append_of_pos (by simpa using front)]
  refine ⟨_, rfl, fun c member => ?_⟩
  rcases List.mem_append.1 ((List.takeWhile_prefix _).subset member) with pad | behind
  · rw [List.eq_of_mem_replicate pad]
    exact pad_not_mem
  · exact foreign c behind

/-- The round trip, whatever foreign characters come behind. -/
theorem decode_encode_append (l : List Byte) {rest : List Byte} (foreign : ∀ c ∈ rest, c ∉ alphabet) :
    decode (encode l ++ rest) = l := by
  obtain ⟨cs, front, outside⟩ := front_encode l foreign
  have small := toSextets_lt (codes_lt l)
  have values : ((toSextets (codes l)).map symbol).filterMap sextet = toSextets (codes l) := by
    rw [List.filterMap_map]
    calc (toSextets (codes l)).filterMap (sextet ∘ symbol)
      _ = (toSextets (codes l)).filterMap some := List.filterMap_congr fun n member => sextet_symbol (small n member)
      _ = toSextets (codes l) := List.filterMap_some
  have nothing : cs.filterMap sextet = [] :=
    List.filterMap_eq_nil_iff.2 fun c member => List.idxOf?_eq_none_iff.2 (outside c member)
  unfold decode
  rw [front, List.filterMap_append, values, nothing, List.append_nil, fromSextets_toSextets (codes_lt l), codes,
    List.map_map]
  exact (List.map_congr_left fun c _ => BitVec.ofNat_toNat ..).trans (by simp)

/-- The round trip. -/
theorem decode_encode (l : List Byte) : decode (encode l) = l := by
  have plain := decode_encode_append l fun c (member : c ∈ []) => absurd member List.not_mem_nil
  rwa [List.append_nil] at plain

/-- What is neither a symbol nor the padding may stand anywhere. -/
theorem decode_filter {p : Byte → Bool} (passes : ∀ c, c ∈ alphabet ∨ c = byte '=' → p c = true) (s : List Byte) :
    decode (s.filter p) = decode s := by
  have same : ((s.filter p).takeWhile (· ≠ byte '=')).filterMap sextet =
      (s.takeWhile (· ≠ byte '=')).filterMap sextet := by
    induction s with
    | nil => rfl
    | cons c s ih =>
      by_cases pad : c = byte '='
      · rw [List.filter_cons_of_pos (passes c (.inr pad))]
        simp [pad]
      · rw [List.takeWhile_cons_of_pos (by simpa using pad)]
        by_cases passed : p c = true
        · rw [List.filter_cons_of_pos passed, List.takeWhile_cons_of_pos (by simpa using pad), List.filterMap_cons,
            List.filterMap_cons, ih]
        · have foreign : sextet c = none := List.idxOf?_eq_none_iff.2 fun inside => passed (passes c (.inl inside))
          rw [List.filter_cons_of_neg passed, ih, List.filterMap_cons_none foreign]
  rw [decode, decode, same]

/-- An encoding that is cut into pieces, with something foreign behind each of them. -/
theorem decode_pieces {pieces : List (List Byte)} {content rest : List Byte} (whole : pieces.flatten = encode content)
    (foreign : ∀ c ∈ rest, c ∉ alphabet ∧ c ≠ byte '=') : decode (pieces.flatMap (· ++ rest)) = content := by
  have dropped : rest.filter (fun c => decide (c ∈ alphabet ∨ c = byte '=')) = [] := by
    rw [List.filter_eq_nil_iff]
    intro c member known
    exact (of_decide_eq_true known).elim (foreign c member).1 (foreign c member).2
  have symbols : ∀ c ∈ pieces.flatten, decide (c ∈ alphabet ∨ c = byte '=') = true := fun c member =>
    decide_eq_true (mem_encode (whole ▸ member))
  have kept : (pieces.flatMap (· ++ rest)).filter (fun c => decide (c ∈ alphabet ∨ c = byte '=')) = pieces.flatten := by
    clear whole
    induction pieces with
    | nil => rfl
    | cons piece pieces ih =>
      rw [List.flatten_cons, List.forall_mem_append] at symbols
      rw [List.flatMap_cons, List.filter_append, List.filter_append, List.filter_eq_self.2 symbols.1, dropped,
        List.append_nil, ih symbols.2, List.flatten_cons]
  rw [← decode_filter (fun c known => decide_eq_true known), kept, whole, decode_encode]

end GtpLibrary.Lib.Base64

import Mathlib.Data.Finset.Preimage
import GtpLibrary.Html.HTMLDocument
import GtpLibrary.Lib.Cells
import GtpLibrary.Login.Values

/-!
# The attributes of a `Body`

`setAttribute` appends and `getAttribute` takes the first entry that is loosely equal. PHP
compares two numeric strings as numbers; which numbers are the same is a parameter. Values are
of any type that has a text; `null`, which cannot be told from nothing, is not among them.
-/

namespace GtpLibrary.Html

open Lib

/-! ## The code -/

/-- `is_numeric` of a string. -/
def numeric (s : Str) : Bool := (s.all fun c => c.toNat < 128) && Login.isNumericString (s.map byte)

section
variable {Value : Type} (sameNumber : Str → Str → Bool) (toText : Value → Str)

/-- `==` between strings. -/
def looselyEqual (s t : Str) : Bool := if numeric s && numeric t then sameNumber s t else s = t

/-- The names and values in the order of the calls. -/
abbrev Attributes (Value : Type) := List (Str × Value)

def setAttribute (attributes : Attributes Value) (attr : Str × Value) : Attributes Value := attributes ++ [attr]

def getAttribute (attributes : Attributes Value) (name : Str) : Option Value :=
  (attributes.find? fun attr => looselyEqual sameNumber attr.1 name).map Prod.snd

/-- A turn of the loop of `__toString`. -/
def attributeCode (attr : Str × Value) : Str := ' ' :: attr.1 ++ "=\"".toList ++ toText attr.2 ++ ['"']

/-- What `__toString` writes in front of the elements. -/
def startTag (attributes : Attributes Value) : Str :=
  "<body".toList ++ attributes.flatMap (attributeCode toText) ++ ['>']

end

/-- The text of a body begins with the tag. -/
theorem bodyToString_startTag (s : Documents) (document : HTMLDocument) :
    (bodyToString s document).1 =
      startTag id document.attributes ++ (elementsToString s document.elements).1 ++ "</body>".toList := by
  have joined (a b elements c : Str) : a ++ b ++ '>' :: elements ++ c = a ++ b ++ ['>'] ++ elements ++ c := by simp
  exact joined _ (document.attributes.flatMap (attributeCode id)) _ _

/-! ## A map -/

section
variable {Value : Type} (sameNumber : Str → Str → Bool) (toText : Value → Str)

/-- After the calls, each name has the value of its last call, and so has the tag, once. -/
structure BehavesAsMap (calls : Attributes Value) : Prop where
  get : ∀ name, getAttribute sameNumber (calls.foldl setAttribute []) name = lastWrite calls name
  tag : ∃ entries : Attributes Value, (entries.map Prod.fst).Nodup ∧
    (∀ name value, (name, value) ∈ entries ↔ lastWrite calls name = some value) ∧
    startTag toText (calls.foldl setAttribute []) = startTag toText entries

/-- PHP's comparison of two numeric strings as numbers. Blanks in front of the second one do not
matter to it where the two are not one string. -/
structure ComparesNumbers : Prop where
  refl : ∀ s, sameNumber s s = true
  blanks : ∀ s t k, s ≠ t → sameNumber s t = true → sameNumber s (List.replicate k ' ' ++ t) = true

end

section
variable {Value : Type} {sameNumber : Str → Str → Bool} {toText : Value → Str} {calls : Attributes Value}

theorem foldl_setAttribute (attributes calls : Attributes Value) :
    calls.foldl setAttribute attributes = attributes ++ calls := by
  induction calls generalizing attributes with
  | nil => exact (List.append_nil attributes).symm
  | cons attr calls ih =>
    rw [List.foldl_cons, ih, setAttribute, List.append_assoc]
    rfl

theorem numeric_blanks (s : Str) (k : Nat) : numeric (List.replicate k ' ' ++ s) = numeric s := by
  induction k with
  | zero => rfl
  | succ k ih =>
    rw [← ih]
    rfl

theorem looselyEqual_self (numbers : ComparesNumbers sameNumber) (s : Str) : looselyEqual sameNumber s s = true := by
  unfold looselyEqual
  split_ifs
  · exact numbers.refl s
  · exact decide_eq_true rfl

/-- What is loosely equal to another string is so to ever longer ones. -/
theorem looselyEqual_blanks (numbers : ComparesNumbers sameNumber) {s t : Str} (other : s ≠ t)
    (equal : looselyEqual sameNumber s t = true) (k : Nat) :
    looselyEqual sameNumber s (List.replicate k ' ' ++ t) = true := by
  unfold looselyEqual at equal ⊢
  rw [numeric_blanks]
  split_ifs at equal ⊢ with both
  · exact numbers.blanks s t k other equal
  · exact absurd (of_decide_eq_true equal) other

/-- No name that is set is loosely equal to another string. -/
def Separate (sameNumber : Str → Str → Bool) (calls : Attributes Value) : Prop :=
  ∀ name ∈ calls.map Prod.fst, ∀ other, looselyEqual sameNumber name other = true → name = other

theorem separate_of_not_numeric (texts : ∀ name ∈ calls.map Prod.fst, numeric name = false) :
    Separate sameNumber calls := by
  intro name member other equal
  rw [looselyEqual, texts name member, Bool.false_and] at equal
  exact of_decide_eq_true equal

theorem getAttribute_eq (numbers : ComparesNumbers sameNumber) (distinct : (calls.map Prod.fst).Nodup)
    (separate : Separate sameNumber calls) (name : Str) :
    getAttribute sameNumber calls name = lastWrite calls name := by
  have exact : ∀ attr ∈ calls, looselyEqual sameNumber attr.1 name = decide (attr.1 = name) := by
    intro attr member
    rw [Bool.eq_iff_iff, decide_eq_true_eq]
    constructor
    · exact separate attr.1 (List.mem_map_of_mem member) name
    · rintro rfl
      exact looselyEqual_self numbers attr.1
  rw [getAttribute, List.find?_congr exact, find?_eq_lastWrite distinct]

/-- A name that is not set, but loosely equal to one that is. -/
theorem exists_unset (numbers : ComparesNumbers sameNumber) {s t : Str} (other : s ≠ t)
    (equal : looselyEqual sameNumber s t = true) (names : List Str) :
    ∃ u, looselyEqual sameNumber s u = true ∧ u ∉ names := by
  have distinct : Function.Injective fun k => List.replicate k ' ' ++ t := by
    intro j k same
    have lengths := congrArg List.length (List.append_cancel_right same)
    rwa [List.length_replicate, List.length_replicate] at lengths
  obtain ⟨k, unset⟩ := Infinite.exists_notMem_finset (names.toFinset.preimage _ distinct.injOn)
  rw [Finset.mem_preimage, List.mem_toFinset] at unset
  exact ⟨_, looselyEqual_blanks numbers other equal k, unset⟩

theorem separate_of_get (numbers : ComparesNumbers sameNumber)
    (get : ∀ name, getAttribute sameNumber calls name = lastWrite calls name) : Separate sameNumber calls := by
  intro name member other equal
  by_contra different
  obtain ⟨u, alike, unset⟩ := exists_unset numbers different equal (calls.map Prod.fst)
  have nothing := get u
  rw [lastWrite_eq_none_iff.2 unset, getAttribute, Option.map_eq_none_iff, List.find?_eq_none] at nothing
  obtain ⟨attr, set, rfl⟩ := List.mem_map.1 member
  exact nothing attr set alike

theorem eq_of_sublist {entries : Attributes Value} (sublist : entries.Sublist calls)
    (long : (calls.flatMap (attributeCode toText)).length ≤ (entries.flatMap (attributeCode toText)).length) :
    entries = calls := by
  induction sublist with
  | slnil => rfl
  | cons attr sublist ih =>
    rw [List.flatMap_cons, List.length_append] at long
    have same := ih (by omega)
    have filled : 0 < (attributeCode toText attr).length := Nat.succ_pos _
    rw [same] at long
    omega
  | cons_cons attr sublist ih =>
    rw [List.flatMap_cons, List.flatMap_cons, List.length_append, List.length_append] at long
    rw [ih (by omega)]

/-- Fewer entries give a shorter tag. -/
theorem perm_of_startTag {entries : Attributes Value} (fewer : entries.Subperm calls)
    (same : startTag toText calls = startTag toText entries) : entries.Perm calls := by
  obtain ⟨taken, perm, sublist⟩ := fewer
  have lengths := congrArg List.length (List.append_cancel_left (List.append_cancel_right same))
  have long := (perm.flatMap_right (attributeCode toText)).length_eq
  rw [eq_of_sublist sublist (lengths.trans long.symm).le] at perm
  exact perm.symm

theorem nodup_of_tag (entries : Attributes Value) (distinct : (entries.map Prod.fst).Nodup)
    (last : ∀ name value, (name, value) ∈ entries ↔ lastWrite calls name = some value)
    (same : startTag toText calls = startTag toText entries) : (calls.map Prod.fst).Nodup := by
  have fewer : entries.Subperm calls := by
    apply List.subperm_of_subset (distinct.of_map Prod.fst)
    intro ⟨name, value⟩ member
    exact mem_of_lastWrite ((last name value).1 member)
  exact ((perm_of_startTag fewer same).map Prod.fst).nodup_iff.1 distinct

end

/-- **Attributes behave as a map exactly where the names are pairwise different and none of them is
loosely equal to another string.** -/
theorem behavesAsMap_iff {Value : Type} {sameNumber : Str → Str → Bool} (numbers : ComparesNumbers sameNumber)
    (toText : Value → Str) (calls : Attributes Value) :
    BehavesAsMap sameNumber toText calls ↔ (calls.map Prod.fst).Nodup ∧ Separate sameNumber calls := by
  have all : calls.foldl setAttribute [] = calls := foldl_setAttribute [] calls
  constructor
  · rintro ⟨get, entries, distinct, last, same⟩
    rw [all] at get same
    exact ⟨nodup_of_tag entries distinct last same, separate_of_get numbers get⟩
  · rintro ⟨distinct, separate⟩
    refine ⟨?_, calls, distinct, ?_, ?_⟩
    · rw [all]
      exact getAttribute_eq numbers distinct separate
    · intro name value
      exact ⟨lastWrite_of_nodup distinct, mem_of_lastWrite⟩
    · rw [all]

/-- Compares what is behind the blanks. -/
def sameBehindBlanks (s t : Str) : Bool := s.dropWhile (· = ' ') = t.dropWhile (· = ' ')

theorem sameBehindBlanks_compares : ComparesNumbers sameBehindBlanks where
  refl s := decide_eq_true rfl
  blanks s t k _ same := by
    have behind : (List.replicate k ' ' ++ t).dropWhile (· = ' ') = t.dropWhile (· = ' ') := by
      induction k with
      | zero => rfl
      | succ k ih => exact ih
    unfold sameBehindBlanks
    rw [behind]
    exact same

theorem behavesAsMap_two :
    BehavesAsMap sameBehindBlanks id [("class".toList, "a".toList), ("id".toList, "b".toList)] := by
  refine (behavesAsMap_iff sameBehindBlanks_compares id _).2 ⟨by decide, separate_of_not_numeric ?_⟩
  intro name member
  rcases List.mem_pair.1 member with rfl | rfl
  · decide
  · decide

/-- The first of two values stays. -/
theorem behavesAsMap_twice : ¬ ∀ calls : Attributes Str, BehavesAsMap sameBehindBlanks id calls := by
  intro map
  have last := (map [("class".toList, "a".toList), ("class".toList, "b".toList)]).get "class".toList
  exact absurd last (by decide)

end GtpLibrary.Html

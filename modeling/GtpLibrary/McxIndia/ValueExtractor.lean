import GtpLibrary.Lib.Bytes
import GtpLibrary.Lib.Search

/-!
# Values in a page

`valueExtractor` cuts at two delimiters one after the other. Each cut computes with what
`strpos` returns, and PHP counts its `false` as 0 there: a missing closing delimiter leaves the
empty string, but a missing opening one leaves the page from the delimiter's length on.
-/

namespace GtpLibrary.McxIndia

open Lib Lib.Search

/-- `substr` for a start that is not negative. A negative length counts from the end. -/
def substr (string : List Byte) (start : Nat) (length : Int) : List Byte :=
  let rest := string.drop start
  rest.take (if 0 ≤ length then length.toNat else rest.length - (-length).toNat)

/-- The result of `strpos` where a number is wanted. -/
def strpos (haystack needle : List Byte) : Nat := (position needle haystack).getD 0

def stringGetBefore (string before : List Byte) : List Byte := substr string 0 (strpos string before)

def stringGetAfter (string after : List Byte) : List Byte :=
  let pos := strpos string after + after.length
  substr string pos (string.length - pos)

/-- `'id="' . $tag . '" value="'` -/
def opening (tag : List Byte) : List Byte := text "id=\"" ++ tag ++ text "\" value=\""

def closing : List Byte := text "\" />"

def valueExtractor (from' tag : List Byte) : List Byte :=
  let r := stringGetAfter from' (opening tag)
  stringGetBefore r closing

/-! ## What is wanted -/

/-- `value` stands between the first opening delimiter and the next closing one. -/
def Between (page tag value : List Byte) : Prop :=
  ∃ front behind rest, First (opening tag) page front behind ∧ First closing behind value rest

/-- The text between the delimiters, and nothing if one is missing. -/
def Extracts (page tag result : List Byte) : Prop :=
  (∀ value, Between page tag value → result = value) ∧ ((∀ value, ¬ Between page tag value) → result = [])

section
variable {page tag string needle front behind value : List Byte}

/-! ## The two cuts -/

theorem substr_zero (string : List Byte) (n : Nat) : substr string 0 n = string.take n := by
  unfold substr
  dsimp only
  rw [if_pos (Int.natCast_nonneg n), Int.toNat_natCast, List.drop_zero]

theorem substr_rest (string : List Byte) (start : Nat) :
    substr string start (string.length - start) = string.drop start := by
  unfold substr
  apply List.take_of_length_le
  rw [List.length_drop]
  split <;> omega

theorem stringGetBefore_first (one : First needle string front behind) : stringGetBefore string needle = front := by
  unfold stringGetBefore strpos
  rw [one.position, Option.getD_some, substr_zero, one.split, List.take_left]

theorem stringGetBefore_missing (missing : ¬ needle <:+: string) : stringGetBefore string needle = [] := by
  unfold stringGetBefore strpos
  rw [position_eq_none_iff.2 missing, Option.getD_none, substr_zero, List.take_zero]

theorem stringGetAfter_eq (string after : List Byte) :
    stringGetAfter string after = string.drop (strpos string after + after.length) :=
  substr_rest ..

theorem stringGetAfter_first (one : First needle string front behind) : stringGetAfter string needle = behind := by
  rw [stringGetAfter_eq]
  unfold strpos
  rw [one.position, Option.getD_some, one.split, ← List.drop_drop, List.drop_left, List.drop_left]

theorem stringGetAfter_missing (missing : ¬ needle <:+: string) :
    stringGetAfter string needle = string.drop needle.length := by
  rw [stringGetAfter_eq]
  unfold strpos
  rw [position_eq_none_iff.2 missing, Option.getD_none, Nat.zero_add]

/-! ## Both -/

/-- A page with the opening delimiter is read as wanted. -/
theorem extracts_of_opening (occurs : opening tag <:+: page) : Extracts page tag (valueExtractor page tag) := by
  obtain ⟨front, behind, here⟩ := exists_first_iff.2 occurs
  unfold valueExtractor
  rw [stringGetAfter_first here]
  by_cases closes : closing <:+: behind
  · obtain ⟨value, rest, ends⟩ := exists_first_iff.2 closes
    rw [stringGetBefore_first ends]
    constructor
    · rintro other ⟨front', behind', rest', here', ends'⟩
      obtain ⟨-, rfl⟩ := here.unique here'
      exact (ends.unique ends').1
    · intro none
      exact absurd ⟨front, behind, rest, here, ends⟩ (none value)
  · rw [stringGetBefore_missing closes]
    refine ⟨?_, fun _ => rfl⟩
    rintro other ⟨front', behind', rest', here', ends'⟩
    obtain ⟨-, rfl⟩ := here.unique here'
    exact absurd ends'.infix closes

/-- Without it the result ought to be empty. -/
theorem extracts_of_missing (missing : ¬ opening tag <:+: page) {result : List Byte} :
    Extracts page tag result ↔ result = [] := by
  have none : ∀ value, ¬ Between page tag value := by
    rintro value ⟨front, behind, rest, here, -⟩
    exact missing here.infix
  constructor
  · exact fun extracts => extracts.2 none
  · exact fun empty => ⟨fun value between => absurd between (none value), fun _ => empty⟩

theorem stringGetBefore_eq_nil_iff :
    stringGetBefore string needle = [] ↔ needle <:+: string → needle <+: string := by
  by_cases occurs : needle <:+: string
  · obtain ⟨front, behind, one⟩ := exists_first_iff.2 occurs
    rw [stringGetBefore_first one, imp_iff_right occurs]
    constructor
    · rintro rfl
      exact ⟨behind, one.split.symm⟩
    · rintro ⟨rest, starts⟩
      exact List.length_eq_zero_iff.1 (Nat.le_zero.1 (one.first [] rest starts.symm))
  · exact iff_of_true (stringGetBefore_missing occurs) fun found => absurd found occurs

end

/-- **The value is read as wanted exactly if** the opening delimiter occurs in the page, or
no closing one behind its length, or one right there. -/
theorem valueExtractor_iff (page tag : List Byte) : Extracts page tag (valueExtractor page tag) ↔
    opening tag <:+: page ∨ ¬ closing <:+: page.drop (opening tag).length ∨
      closing <+: page.drop (opening tag).length := by
  by_cases occurs : opening tag <:+: page
  · exact iff_of_true (extracts_of_opening occurs) (.inl occurs)
  · rw [extracts_of_missing occurs, or_iff_right occurs]
    unfold valueExtractor
    rw [stringGetAfter_missing occurs, stringGetBefore_eq_nil_iff]
    exact imp_iff_not_or

/-- A page without view state, but with another hidden field. -/
theorem valueExtractor_unrelated :
    ¬ Extracts (text "<html><body><form><input id=\"q\" value=\"gold\" /></form>") (text "__VIEWSTATE")
      (valueExtractor (text "<html><body><form><input id=\"q\" value=\"gold\" /></form>") (text "__VIEWSTATE")) := by
  rw [extracts_of_missing (by decide)]
  decide

end GtpLibrary.McxIndia

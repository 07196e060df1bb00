import Mathlib.Tactic.Common
import GtpLibrary.Lib.Numerals

/-!
# Words of a command line

The shell splits what an expansion outside of quotes leaves at blanks, and takes each field for
a pattern of path names. What is written or quoted stays together. The path names that a
pattern matches are a parameter; a pattern that matches none stays as it is.
-/

namespace GtpLibrary.Lib.Words

open Numerals

/-- The characters of the default `IFS`. -/
def blank (c : Char) : Bool := c = ' ' || c = '\t' || c = '\n'

/-- The characters that make a field a pattern. -/
def special (c : Char) : Bool := c = '*' || c = '?' || c = '[' || c = '\\'

/-- A part of a word: written or quoted, or the value of an expansion outside of quotes. -/
inductive Piece where
  | kept (t : Text)
  | value (t : Text)

inductive Word where
  | fixed (t : Text)
  | joined (pieces : List Piece)

/-- The characters, each with whether it separates. -/
def Piece.chars : Piece → List (Char × Bool)
  | .kept t => t.map fun c => (c, false)
  | .value t => t.map fun c => (c, blank c)

def Piece.text : Piece → Text
  | .kept t | .value t => t

/-- The stretches between separating characters. -/
def stretches (chars : List (Char × Bool)) : List (List (Char × Bool)) := (chars.splitOnP Prod.snd).filter (· ≠ [])

def fields (pieces : List Piece) : List Text :=
  (stretches (pieces.flatMap Piece.chars)).map fun stretch => stretch.map Prod.fst

section
variable (matching : Text → List Text)

def Word.expand : Word → List Text
  | .fixed t => [t]
  | .joined pieces => (fields pieces).flatMap matching

/-- The words of a command. -/
def expand (words : List Word) : List Text := words.flatMap (Word.expand matching)

/-- What `matching` does for every directory. -/
structure Pathnames : Prop where
  plain : ∀ t : Text, (∀ c ∈ t, special c = false) → matching t = [t]
  some : ∀ t : Text, matching t ≠ []

end

section
variable {matching : Text → List Text} {pieces : List Piece} {t : Text}

/-- By a check that computes. -/
theorem forall_eq_false {p : Char → Bool} (checked : t.any p = false) : ∀ c ∈ t, p c = false := by
  intro c member
  exact Bool.eq_false_iff.2 (List.any_eq_false.1 checked c member)

theorem map_fst_chars (piece : Piece) : piece.chars.map Prod.fst = piece.text := by
  cases piece <;> simp [Piece.chars, Piece.text, Function.comp_def]

theorem snd_of_mem_chars {piece : Piece} (clean : ∀ t, piece = .value t → ∀ c ∈ t, blank c = false) :
    ∀ x ∈ piece.chars, x.2 = false := by
  intro x member
  cases piece with
  | kept t =>
    obtain ⟨c, -, rfl⟩ := List.mem_map.1 member
    rfl
  | value t =>
    obtain ⟨c, inside, rfl⟩ := List.mem_map.1 member
    exact clean t rfl c inside

/-- A word without blanks in its values is one field. -/
theorem fields_clean (clean : ∀ piece ∈ pieces, ∀ t, piece = .value t → ∀ c ∈ t, blank c = false)
    (some : pieces.flatMap Piece.text ≠ []) : fields pieces = [pieces.flatMap Piece.text] := by
  have none : ∀ x ∈ pieces.flatMap Piece.chars, x.2 = false := by
    intro x member
    obtain ⟨piece, inside, here⟩ := List.mem_flatMap.1 member
    exact snd_of_mem_chars (clean piece inside) x here
  have text : (pieces.flatMap Piece.chars).map Prod.fst = pieces.flatMap Piece.text := by
    rw [List.map_flatMap]
    exact List.flatMap_congr fun piece _ => map_fst_chars piece
  have filled : pieces.flatMap Piece.chars ≠ [] := by
    intro empty
    rw [empty] at text
    exact some text.symm
  unfold fields stretches
  rw [List.splitOnP_eq_singleton none, List.filter_cons_of_pos (by simpa using filled), List.filter_nil, List.map_singleton,
    text]

theorem stretches_append {front back : List (Char × Bool)} {x : Char × Bool} (separates : x.2 = true) :
    stretches (front ++ x :: back) = stretches front ++ stretches back := by
  unfold stretches
  rw [List.splitOnP_append_cons _ _ separates, List.filter_append]

/-- A character that does not separate stands in a field. -/
theorem stretches_ne_nil {chars : List (Char × Bool)} {x : Char × Bool} (member : x ∈ chars) (keeps : x.2 = false) :
    stretches chars ≠ [] := by
  have filled : ∃ stretch ∈ chars.splitOnP Prod.snd, stretch ≠ [] := by
    induction chars with
    | nil => cases member
    | cons y chars ih =>
      rw [List.splitOnP_cons_eq_if_modifyHead]
      split
      · rename_i separates
        rcases List.mem_cons.1 member with rfl | later
        · rw [keeps] at separates
          cases separates
        · obtain ⟨stretch, inside, some⟩ := ih later
          exact ⟨stretch, List.mem_cons_of_mem _ inside, some⟩
      · obtain ⟨first, rest, split⟩ := List.exists_cons_of_ne_nil (List.splitOnP_ne_nil Prod.snd chars)
        rw [split]
        exact ⟨y :: first, List.mem_cons_self, List.cons_ne_nil y first⟩
  obtain ⟨stretch, inside, some⟩ := filled
  exact List.ne_nil_of_mem (List.mem_filter.2 ⟨inside, decide_eq_true some⟩)

theorem fields_value_ne_nil {c : Char} (member : c ∈ t) (solid : blank c = false) :
    stretches (Piece.value t).chars ≠ [] :=
  stretches_ne_nil (List.mem_map.2 ⟨c, member, rfl⟩) solid

/-- A blank inside a value separates two fields at least. -/
theorem two_le_length_fields {c : Char} (member : c ∈ t) (separates : blank c = true)
    (first : ∀ d ∈ t.head?, blank d = false) (last : ∀ e ∈ t.getLast?, blank e = false) :
    2 ≤ (fields [.value t]).length := by
  obtain ⟨front, back, rfl⟩ := List.append_of_mem member
  have chars : [Piece.value (front ++ c :: back)].flatMap Piece.chars =
      (Piece.value front).chars ++ (c, true) :: (Piece.value back).chars := by
    simp [Piece.chars, separates]
  have before : stretches (Piece.value front).chars ≠ [] := by
    cases front with
    | nil =>
      rw [first c rfl] at separates
      cases separates
    | cons d front => exact fields_value_ne_nil List.mem_cons_self (first d rfl)
  have behind : stretches (Piece.value back).chars ≠ [] := by
    cases end_ : back.getLast? with
    | none =>
      rw [List.getLast?_eq_none_iff.1 end_] at last
      rw [last c (by simp)] at separates
      cases separates
    | some e =>
      have solid := last e (by rw [Option.mem_def, List.getLast?_append, List.getLast?_cons, end_]; rfl)
      exact fields_value_ne_nil (List.mem_of_getLast? end_) solid
  have some := List.length_pos_iff.2 before
  have more := List.length_pos_iff.2 behind
  unfold fields
  rw [chars, stretches_append rfl, List.length_map, List.length_append]
  omega

/-- What does not separate stands at the front of the first field. -/
theorem fields_value_append {front : Text} (filled : front ≠ []) (solid : ∀ c ∈ front, blank c = false) (rest : Text) :
    ∃ behind more, fields [.value (front ++ rest)] = (front ++ behind) :: more := by
  have split : ∀ front : Text, (∀ c ∈ front, blank c = false) → ∃ first more,
      ((Piece.value (front ++ rest)).chars).splitOnP Prod.snd = ((Piece.value front).chars ++ first) :: more := by
    intro front solid
    induction front with
    | nil => exact List.exists_cons_of_ne_nil (List.splitOnP_ne_nil Prod.snd (Piece.value rest).chars)
    | cons c front ih =>
      obtain ⟨here, later⟩ := List.forall_mem_cons.1 solid
      obtain ⟨first, more, eq⟩ := ih later
      refine ⟨first, more, ?_⟩
      show List.splitOnP Prod.snd ((c, blank c) :: (Piece.value (front ++ rest)).chars) = _
      rw [List.splitOnP_cons_eq_if_modifyHead, here, if_neg Bool.false_ne_true, eq]
      simp [Piece.chars, here]
  obtain ⟨first, more, eq⟩ := split front solid
  have kept : (Piece.value front).chars ++ first ≠ [] := by
    intro empty
    exact filled (List.map_eq_nil_iff.1 (List.append_eq_nil_iff.1 empty).1)
  refine ⟨first.map Prod.fst, (more.filter (· ≠ [])).map fun stretch => stretch.map Prod.fst, ?_⟩
  unfold fields stretches
  rw [List.flatMap_singleton, eq, List.filter_cons_of_pos (by simpa only [decide_eq_true_eq] using kept),
    List.map_cons, List.map_append, map_fst_chars]
  rfl

/-- A value that goes on behind a blank: what stands in front of it is a field. -/
theorem fields_value_cons {front : Text} {c : Char} (filled : front ≠ []) (solid : ∀ c ∈ front, blank c = false)
    (separates : blank c = true) (rest : Text) :
    fields [.value (front ++ c :: rest)] = front :: fields [.value rest] := by
  have chars : [Piece.value (front ++ c :: rest)].flatMap Piece.chars =
      [Piece.value front].flatMap Piece.chars ++ (c, true) :: [Piece.value rest].flatMap Piece.chars := by
    simp [Piece.chars, separates]
  have first : fields [.value front] = [front] := by
    have clean : ∀ piece ∈ [Piece.value front], ∀ t, piece = .value t → ∀ c ∈ t, blank c = false := by
      intro piece member t same
      rw [List.mem_singleton.1 member, Piece.value.injEq] at same
      exact same ▸ solid
    have text : [Piece.value front].flatMap Piece.text = front := List.flatMap_singleton ..
    rw [fields_clean clean (by rwa [text]), text]
  unfold fields at first ⊢
  rw [chars, stretches_append rfl, List.map_append, first]
  rfl

/-! ## Expansion -/

theorem expand_cons (word : Word) (words : List Word) :
    expand matching (word :: words) = word.expand matching ++ expand matching words :=
  List.flatMap_cons ..

/-- Each field gives a word at least. -/
theorem Pathnames.length_le (pathnames : Pathnames matching) (fields : List Text) :
    fields.length ≤ (fields.flatMap matching).length := by
  induction fields with
  | nil => exact Nat.le_refl _
  | cons t fields ih =>
    have some := List.length_pos_iff.2 (pathnames.some t)
    rw [List.flatMap_cons, List.length_append, List.length_cons]
    omega

/-- A value that is plain is the word that it is. -/
theorem Pathnames.expand_plain (pathnames : Pathnames matching)
    (clean : ∀ piece ∈ pieces, ∀ t, piece = .value t → ∀ c ∈ t, blank c = false)
    (plain : ∀ c ∈ pieces.flatMap Piece.text, special c = false) (some : pieces.flatMap Piece.text ≠ []) :
    (Word.joined pieces).expand matching = [pieces.flatMap Piece.text] := by
  show (fields pieces).flatMap matching = _
  rw [fields_clean clean some, List.flatMap_singleton, pathnames.plain _ plain]

end

end GtpLibrary.Lib.Words

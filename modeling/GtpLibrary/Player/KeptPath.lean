import GtpLibrary.Player.Unquote

/-!
# The part of a path that `urlparse` leaves

Tabs and line breaks are taken out of a path, and it is cut off at a fragment, at a query and at
the parameters of its last segment. Each of these changes costs characters that
`unquote` would have shown (`keptPath_cases`).
-/

namespace GtpLibrary.Player

open Lib

/-- The part of the path that `urlparse` leaves. -/
def keptPath (rest : Str) : Str := splitParams (before '?' (before '#' (('/' :: rest).filter fun c => !isUnsafe c)))

/-- There is nothing in the path that `urlparse` takes out or cuts off. -/
def Untouched (rest : Str) : Prop :=
  (∀ c ∈ rest, isUnsafe c = false ∧ c ≠ '?' ∧ c ≠ '#') ∧ ';' ∉ splitLast '/' ('/' :: rest)

section
variable {sep : Char} {s : Str}

theorem ne_of_free (free : sep ∉ s) : ∀ c ∈ s, decide (c ≠ sep) = true := by
  intro c member
  have other : c ≠ sep := by
    rintro rfl
    exact free member
  exact decide_eq_true other

theorem partition_of_not_mem (free : sep ∉ s) : before sep s = s ∧ behind sep s = [] := by
  have front := @List.takeWhile_append_of_pos _ _ s [] (ne_of_free free)
  have back := @List.dropWhile_append_of_pos _ _ s [] (ne_of_free free)
  rw [List.append_nil] at front back
  rw [before, behind, front, back]
  exact ⟨List.append_nil s, rfl⟩

theorem before_append_cons (free : sep ∉ s) (t : Str) : before sep (s ++ sep :: t) = s := by
  rw [before, List.takeWhile_append_of_pos (ne_of_free free), List.takeWhile_cons_of_neg (by simp), List.append_nil]

theorem not_mem_before (sep : Char) (s : Str) : sep ∉ before sep s := by
  intro member
  have passed := List.all_eq_true.1 (List.all_takeWhile (p := fun c => decide (c ≠ sep)) (l := s)) sep member
  simp at passed

end

/-- The segments in front of the last one stay. -/
theorem splitParams_eq {path : Str} (slash : '/' ∈ path) :
    ∃ front, path = front ++ '/' :: splitLast '/' path ∧
      splitParams path = front ++ '/' :: before ';' (splitLast '/' path) := by
  obtain ⟨front, parts, -⟩ := exists_splitLast slash
  refine ⟨front, parts, ?_⟩
  have shape : path = (front ++ ['/']) ++ splitLast '/' path := by
    rw [List.append_assoc]
    exact parts
  have length := congrArg List.length shape
  rw [List.length_append] at length
  have count : path.length - (splitLast '/' path).length = (front ++ ['/']).length := by omega
  rw [splitParams, count]
  conv_lhs => rw [shape]
  rw [List.take_left, ← shape, List.append_assoc]
  rfl

/-! ## What a change costs -/

/-- The characters at which a path is changed. -/
def changedAt : List Char := ['\t', '\r', '\n', '?', '#', ';']

theorem separator_of_mem {c : Char} (member : c ∈ changedAt) : IsSeparator c ∧ c ≠ '/' := by
  unfold IsSeparator
  simp only [changedAt, List.mem_cons, List.not_mem_nil, or_false] at member
  rcases member with rfl | rfl | rfl | rfl | rfl | rfl <;> decide

/-- A separator and all that stands behind it, or the separator alone. -/
theorem weight_unquote_lt {c : Char} (separator : c ∈ changedAt) (s t : Str) :
    weight (unquote s) + weight (unquote t) < weight (unquote (s ++ c :: t)) := by
  obtain ⟨separates, other⟩ := separator_of_mem separator
  rw [unquote_separator separates, weight_append, weight_cons other]
  omega

/-- A change that leaves a text as it is or takes characters from it. -/
def Shrinks (change : Str → Str) (s : Str) : Prop := change s = s ∨ weight (unquote (change s)) < weight (unquote s)

theorem Shrinks.le {change : Str → Str} {s : Str} (shrinks : Shrinks change s) :
    weight (unquote (change s)) ≤ weight (unquote s) := by
  rcases shrinks with same | less
  · rw [same]
  · exact less.le

theorem shrinks_before {c : Char} (separator : c ∈ changedAt) (s : Str) : Shrinks (before c) s := by
  by_cases member : c ∈ s
  · obtain ⟨front, back, rfl, free⟩ := List.eq_append_cons_of_mem member
    right
    rw [before_append_cons free]
    have less := weight_unquote_lt separator front back
    omega
  · exact .inl (partition_of_not_mem member).1

theorem shrinks_splitParams {path : Str} (slash : '/' ∈ path) : Shrinks splitParams path := by
  obtain ⟨front, parts, kept⟩ := splitParams_eq slash
  unfold Shrinks
  rw [kept]
  generalize splitLast '/' path = segment at parts
  subst parts
  by_cases member : ';' ∈ segment
  · obtain ⟨name, params, rfl, free⟩ := List.eq_append_cons_of_mem member
    right
    rw [before_append_cons free]
    have less := weight_unquote_lt (by decide : ';' ∈ changedAt) (front ++ '/' :: name) params
    rw [List.append_assoc, List.cons_append] at less
    omega
  · rw [(partition_of_not_mem member).1]
    exact .inl rfl

theorem mem_of_isUnsafe {c : Char} (taken : isUnsafe c = true) : c ∈ changedAt := by
  simp only [isUnsafe, Bool.or_eq_true, decide_eq_true_eq] at taken
  rcases taken with (rfl | rfl) | rfl <;> decide

/-- Characters are taken out behind a text that stays. -/
theorem weight_filter (front s : Str) :
    (s.filter fun c => !isUnsafe c) = s ∨
      weight (unquote (front ++ s.filter fun c => !isUnsafe c)) < weight (unquote (front ++ s)) := by
  induction s generalizing front with
  | nil => exact .inl rfl
  | cons c s ih =>
    cases taken : isUnsafe c with
    | false =>
      have stays : ((c :: s).filter fun c => !isUnsafe c) = c :: s.filter fun c => !isUnsafe c :=
        List.filter_cons_of_pos (by rw [taken]; rfl)
      have later := ih (front ++ [c])
      rw [List.append_assoc, List.append_assoc] at later
      rw [stays]
      exact later.imp_left (congrArg (c :: ·))
    | true =>
      have goes : ((c :: s).filter fun c => !isUnsafe c) = s.filter fun c => !isUnsafe c :=
        List.filter_cons_of_neg (by rw [taken]; exact Bool.false_ne_true)
      have apart := weight_unquote_append front (s.filter fun c => !isUnsafe c)
      have later : Shrinks (List.filter fun c => !isUnsafe c) s := ih []
      have behind := later.le
      have less := weight_unquote_lt (mem_of_isUnsafe taken) front s
      right
      rw [goes]
      omega

theorem shrinks_filter (s : Str) : Shrinks (List.filter fun c => !isUnsafe c) s := weight_filter [] s

/-! ## The path -/

theorem keptPath_eq_self {rest : Str} (untouched : Untouched rest) : keptPath rest = '/' :: rest := by
  obtain ⟨plain, noParams⟩ := untouched
  have all : ∀ c ∈ '/' :: rest, isUnsafe c = false ∧ c ≠ '?' ∧ c ≠ '#' :=
    List.forall_mem_cons.2 ⟨by decide, plain⟩
  have safe : ('/' :: rest).filter (fun c => !isUnsafe c) = '/' :: rest := by
    apply List.filter_eq_self.2
    intro c member
    rw [(all c member).1]
    rfl
  have noFragment : '#' ∉ '/' :: rest := fun member => (all '#' member).2.2 rfl
  have noQuery : '?' ∉ '/' :: rest := fun member => (all '?' member).2.1 rfl
  obtain ⟨front, parts, kept⟩ := @splitParams_eq ('/' :: rest) List.mem_cons_self
  rw [keptPath, safe, (partition_of_not_mem noFragment).1, (partition_of_not_mem noQuery).1, kept,
    (partition_of_not_mem noParams).1]
  exact parts.symm

/-- The first slash stays. -/
theorem slash_mem (rest : Str) : '/' ∈ before '?' (before '#' (('/' :: rest).filter fun c => !isUnsafe c)) := by
  have first : ('/' :: rest).filter (fun c => !isUnsafe c) = '/' :: rest.filter fun c => !isUnsafe c := rfl
  have second : ∀ t, before '#' ('/' :: t) = '/' :: before '#' t := fun t => List.takeWhile_cons_of_pos (by decide)
  have third : ∀ t, before '?' ('/' :: t) = '/' :: before '?' t := fun t => List.takeWhile_cons_of_pos (by decide)
  rw [first, second, third]
  exact List.mem_cons_self

theorem keptPath_ne_nil (rest : Str) : keptPath rest ≠ [] := by
  obtain ⟨front, -, kept⟩ := splitParams_eq (slash_mem rest)
  rw [keptPath, kept]
  simp

/-- A path is kept whole, or characters of it are lost. -/
theorem keptPath_cases (rest : Str) :
    Untouched rest ∨ weight (unquote (keptPath rest)) < weight (unquote ('/' :: rest)) := by
  have unsafes := shrinks_filter ('/' :: rest)
  have fragment := shrinks_before (by decide : '#' ∈ changedAt) (('/' :: rest).filter fun c => !isUnsafe c)
  have query := shrinks_before (by decide : '?' ∈ changedAt)
    (before '#' (('/' :: rest).filter fun c => !isUnsafe c))
  have params := shrinks_splitParams (slash_mem rest)
  by_cases less : weight (unquote (keptPath rest)) < weight (unquote ('/' :: rest))
  · exact .inr less
  left
  -- no step lost anything
  have bounds := And.intro (And.intro unsafes.le fragment.le) (And.intro query.le params.le)
  unfold keptPath at less
  have safe := unsafes.resolve_right (by omega)
  have noFragment := fragment.resolve_right (by omega)
  have noQuery := query.resolve_right (by omega)
  have noParams := params.resolve_right (by omega)
  rw [noQuery, noFragment, safe] at noParams
  rw [noFragment, safe] at noQuery
  rw [safe] at noFragment
  have all := List.filter_eq_self.1 safe
  constructor
  · intro c member
    have inside : c ∈ '/' :: rest := List.mem_cons_of_mem _ member
    refine ⟨by simpa using all c inside, ?_, ?_⟩
    · rintro rfl
      rw [← noQuery] at inside
      exact not_mem_before _ _ inside
    · rintro rfl
      rw [← noFragment] at inside
      exact not_mem_before _ _ inside
  · intro member
    obtain ⟨front, parts, kept⟩ := @splitParams_eq ('/' :: rest) List.mem_cons_self
    have same := List.append_cancel_left (parts.symm.trans (noParams.symm.trans kept))
    rw [(List.cons.inj same).2] at member
    exact not_mem_before _ _ member

end GtpLibrary.Player

import GtpLibrary.Html.HTMLDocument
import Mathlib.Algebra.Order.BigOperators.Group.List
import Mathlib.Algebra.Order.Ring.Nat
import Mathlib.Data.List.Dedup
import Mathlib.Tactic.Common

/-!
# Sequences of renderings

Only the styles of the current document change, and they only grow: a rendering adds the styles
of its pages there, whichever document is rendered. A style that was added shows in the text, since
it leaves characters on the line; so a sequence of renderings gives what it should exactly when
no page style comes to a wrong place or twice (`render_iff`).
-/

namespace GtpLibrary.Html

section
variable {s : Documents} {document : HTMLDocument} {styles more : List Str} {code : Str}

/-! ## Styles -/

/-- The documents with styles added to the current one. -/
def Documents.styled (s : Documents) (styles : List Str) : Documents := styles.foldl Documents.addStyleCode s

/-- Styles are added one after another. -/
theorem Documents.styled_append : s.styled (styles ++ more) = (s.styled styles).styled more := List.foldl_append

/-- The same of one document. -/
theorem styled_append : document.styled (styles ++ more) = (document.styled styles).styled more := List.foldl_append

/-- The current document stays the current one. -/
theorem Documents.styled_current : (s.styled styles).current = s.current := by
  induction styles generalizing s with
  | nil => rfl
  | cons css styles ih => exact ih

/-- Only the current document gets the styles. -/
theorem Documents.styled_all : (s.styled styles).all = s.all.modify s.current fun document => document.styled styles := by
  induction styles generalizing s with
  | nil => exact (List.modify_id s.current s.all).symm
  | cons css styles ih =>
    refine (ih (s := s.addStyleCode css)).trans ?_
    exact List.modify_modify_eq _ _ _ _

/-- A style is put behind the others. -/
theorem addStyleCode_eq (css : Str) :
    document.addStyleCode css = { document with style := some (document.style.getD [] ++ css) } := by
  unfold HTMLDocument.addStyleCode
  split
  · rename_i style there
    rw [there]
    rfl
  · rename_i none
    rw [none]
    rfl

/-- Adding styles changes nothing else of a document. -/
theorem styled_eq (nonempty : styles ≠ []) :
    document.styled styles = { document with style := some (document.style.getD [] ++ styles.flatten) } := by
  induction styles generalizing document with
  | nil => exact absurd rfl nonempty
  | cons css styles ih =>
    change (document.addStyleCode css).styled styles = _
    rw [addStyleCode_eq, List.flatten_cons]
    by_cases none : styles = []
    · rw [none, List.flatten_nil, List.append_nil]
      rfl
    · rw [ih none, Option.getD_some, List.append_assoc]

/-- Styles are no elements. -/
theorem styled_elements : (document.styled styles).elements = document.elements := by
  by_cases none : styles = []
  · rw [none]
    rfl
  · rw [styled_eq none]

/-- Styles do not show in the body. -/
theorem styled_body : (document.styled styles).body = document.body := by
  by_cases none : styles = []
  · rw [none]
    rfl
  · rw [styled_eq none]
    rfl

/-- What the elements of a document do when they are converted. -/
theorem elementsToString_eq (elements : Elements) :
    elementsToString s elements = (elements.code, s.styled (elements.pages.map Prod.snd)) := by
  induction elements generalizing s with
  | nil => rfl
  | text code rest ih =>
    simp only [elementsToString, ih, Elements.code, Elements.pages]
  | page handle width border elements rest inner ih =>
    simp only [elementsToString, inner, ih, Elements.code, Elements.pages]
    rw [List.map_cons, List.map_append, ← Documents.styled_append]
    rfl

/-- The body of a document, and the styles of its pages for the current one. -/
theorem bodyToString_eq : bodyToString s document =
    (document.body, s.styled (document.elements.pages.map Prod.snd)) := by
  unfold bodyToString
  rw [elementsToString_eq]
  rfl

/-- The styles of the pages of a document. -/
def HTMLDocument.pageStyles (document : HTMLDocument) : List Str := document.elements.pages.map Prod.snd

/-- The document with number `i` when these styles were added to the current one. -/
def Documents.seen (s : Documents) (styles : List Str) (i : Fin s.all.length) : HTMLDocument :=
  if i.val = s.current then (s.all.get i).styled styles else s.all.get i

/-- The documents, with styles added to the current one. -/
theorem getElem?_styled (i : Fin s.all.length) : (s.styled styles).all[i.val]? = some (s.seen styles i) := by
  rw [Documents.styled_all, List.getElem?_modify, List.getElem?_eq_getElem i.isLt, Option.map_eq_map, Option.map_some,
    Documents.seen]
  by_cases here : s.current = i.val
  · rw [if_pos here, if_pos here.symm]
    rfl
  · rw [if_neg here, if_neg (Ne.symm here)]
    rfl

/-- The elements do not depend on the styles that were added. -/
theorem seen_elements (i : Fin s.all.length) : (s.seen styles i).elements = (s.all.get i).elements := by
  unfold Documents.seen
  split
  · exact styled_elements
  · rfl

/-- The body does not depend on the styles that were added. -/
theorem seen_body (i : Fin s.all.length) : (s.seen styles i).body = (s.all.get i).body := by
  unfold Documents.seen
  split
  · exact styled_body
  · rfl

/-- A rendering, with the styles that earlier renderings have added. -/
theorem toString_styled (i : Fin s.all.length) : (s.styled styles).toString i =
    some ((s.seen (styles ++ (s.all.get i).pageStyles) i).code (s.all.get i).body,
      s.styled (styles ++ (s.all.get i).pageStyles)) := by
  unfold Documents.toString
  rw [getElem?_styled, Option.bind_eq_bind, Option.bind_some, bodyToString_eq, seen_elements, seen_body,
    ← Documents.styled_append]
  dsimp only
  rw [← HTMLDocument.pageStyles, getElem?_styled]
  rfl

/-! ## Texts -/

/-- How many characters a text leaves on the line. -/
def kept (code : Str) : Nat := (oneLine code).length

/-- Tabs and line breaks are left out. -/
theorem oneLine_eq_filter (code : Str) : oneLine code = code.filter fun c => ¬ (c = '\t' ∨ c = '\n' ∨ c = '\r') := by
  induction code using oneLine.induct with
  | case1 rest ih =>
    rw [oneLine, ih]
    rfl
  | case2 rest ih =>
    rw [oneLine, ih]
    rfl
  | case3 c rest single single' blank ih =>
    rw [oneLine.eq_3 _ _ single single', if_pos blank, ih,
      List.filter_cons_of_neg (by simp only [blank, not_true, decide_false, Bool.false_eq_true, not_false_iff])]
  | case4 c rest single single' other ih =>
    rw [oneLine.eq_3 _ _ single single', if_neg other, ih, List.filter_cons_of_pos (by simpa using other)]
  | case5 => rfl

/-- What is left of two texts. -/
theorem kept_append (a b : Str) : kept (a ++ b) = kept a + kept b := by
  unfold kept
  rw [oneLine_eq_filter, oneLine_eq_filter, oneLine_eq_filter, List.filter_append, List.length_append]

/-- Styles that were added leave what each of them leaves. -/
theorem kept_flatten (styles : List Str) : kept styles.flatten = (styles.map kept).sum := by
  induction styles with
  | nil => rfl
  | cons css styles ih => rw [List.flatten_cons, kept_append, ih, List.map_cons, List.sum_cons]

/-- The style of a page leaves characters. -/
theorem kept_pageStyle_pos (width border : Str) : 0 < kept (pageStyle width border) := by
  have opening : 0 < kept "\n\t\t\t.pageContainer\x7b\n\t\t\t\twidth: ".toList := by decide
  unfold pageStyle
  rw [kept_append, kept_append, kept_append, kept_append]
  omega

/-- Texts taken from a list are all of it where no character is missing. -/
theorem eq_of_kept_eq (part : styles.Sublist more) (positive : ∀ css ∈ more, 0 < kept css)
    (same : kept styles.flatten = kept more.flatten) : styles = more := by
  induction part with
  | slnil => rfl
  | @cons a b css part ih =>
    have le : (a.map kept).sum ≤ (b.map kept).sum := (part.map kept).sum_le_sum (by simp)
    have first := positive css (List.mem_cons_self ..)
    rw [List.flatten_cons, kept_append, kept_flatten, kept_flatten] at same
    omega
  | @cons_cons a b css part ih =>
    rw [List.flatten_cons, List.flatten_cons, kept_append, kept_append, Nat.add_left_cancel_iff] at same
    rw [ih (fun other member => positive other (List.mem_cons_of_mem _ member)) same]

/-- What the style element leaves. -/
theorem kept_styleElement (document : HTMLDocument) :
    kept document.styleElement = if document.style.isSome then 15 + kept (document.style.getD []) else 0 := by
  unfold HTMLDocument.styleElement
  split
  · rename_i style there
    have opening : kept "<style>".toList = 7 := by decide
    have closing : kept "</style>".toList = 8 := by decide
    rw [there, kept_append, kept_append, opening, closing]
    exact Nat.add_right_comm 7 _ 8
  · rename_i none
    rw [none]
    rfl

/-- Every style that is added leaves its characters. -/
theorem kept_styled (nonempty : styles ≠ []) : kept (document.styled styles).styleElement =
    15 + (kept (document.style.getD []) + kept styles.flatten) := by
  rw [kept_styleElement, styled_eq nonempty, ← kept_append]
  rfl

/-- Only the style element differs between two styled documents. -/
theorem exists_length_code (document : HTMLDocument) (body : Str) : ∃ n, ∀ styles,
    ((document.styled styles).code body).length = n + kept (document.styled styles).styleElement := by
  refine ⟨kept "<!DOCTYPE html>\n\t\t\t<html>\n\t\t\t\t<head>".toList + kept document.titleElement +
    kept document.headContent + kept "\n\t\t\t\t</head>\n\t\t\t\t".toList + kept body +
    kept "\n\t\t\t</html>".toList, fun styles => ?_⟩
  have title : (document.styled styles).titleElement = document.titleElement := by
    by_cases none : styles = []
    · rw [none]
      rfl
    · rw [styled_eq none]
      rfl
  have head : (document.styled styles).headContent = document.headContent := by
    by_cases none : styles = []
    · rw [none]
      rfl
    · rw [styled_eq none]
  change kept _ = _
  rw [kept_append, kept_append, kept_append, kept_append, kept_append, kept_append, title, head]
  omega

/-- The text of a document tells the styles that were added apart. -/
theorem code_styled_injective (part : styles.Sublist more) (positive : ∀ css ∈ more, 0 < kept css)
    (same : (document.styled styles).code document.body = (document.styled more).code document.body) :
    styles = more := by
  obtain ⟨n, length⟩ := exists_length_code document document.body
  have elements : kept (document.styled styles).styleElement = kept (document.styled more).styleElement := by
    have lengths := congrArg List.length same
    rw [length, length] at lengths
    exact Nat.add_left_cancel lengths
  apply eq_of_kept_eq part positive
  by_cases empty : more = []
  · rw [empty] at part
    rw [empty, List.sublist_nil.1 part]
  · rw [kept_styled empty] at elements
    by_cases none : styles = []
    · rw [none] at elements ⊢
      change kept document.styleElement = _ at elements
      rw [kept_styleElement] at elements
      split_ifs at elements with there
      · change 0 = _
        omega
      · omega
    · rw [kept_styled none] at elements
      omega

/-! ## Renderings -/

/-- The pages in the elements leave characters, also those inside of others. -/
theorem kept_pages_pos (elements : Elements) : ∀ page ∈ elements.pages, 0 < kept page.2 := by
  induction elements with
  | nil =>
    intro page member
    cases member
  | text code rest ih => exact ih
  | page handle width border elements rest inner ih =>
    intro page member
    rcases List.mem_cons.1 member with rfl | member
    · exact kept_pageStyle_pos width border
    · rcases List.mem_append.1 member with inside | behind
      · exact inner page inside
      · exact ih page behind

/-- No style of a document is empty on the line. -/
theorem kept_pageStyles_pos (document : HTMLDocument) : ∀ css ∈ document.pageStyles, 0 < kept css := by
  intro css member
  obtain ⟨page, there, rfl⟩ := List.mem_map.1 member
  exact kept_pages_pos document.elements page there

/-- One style for each page is among those of all its conversions. -/
theorem dedup_sublist_pageStyles (document : HTMLDocument) :
    (document.elements.pages.dedup.map Prod.snd).Sublist document.pageStyles :=
  (List.dedup_sublist _).map Prod.snd

/-- One rendering of the current document. -/
theorem code_styled_iff (positive : ∀ css ∈ styles, 0 < kept css) :
    (document.styled (styles ++ document.pageStyles)).code document.body = document.intended ↔
      styles = [] ∧ document.elements.pages.Nodup := by
  constructor
  · intro same
    have part : (document.elements.pages.dedup.map Prod.snd).Sublist (styles ++ document.pageStyles) :=
      (dedup_sublist_pageStyles document).trans (List.sublist_append_right ..)
    have all : ∀ css ∈ styles ++ document.pageStyles, 0 < kept css := by
      intro css member
      rcases List.mem_append.1 member with early | own
      · exact positive css early
      · exact kept_pageStyles_pos document css own
    have lengths := congrArg List.length (code_styled_injective part all same.symm)
    rw [List.length_append, List.length_map, HTMLDocument.pageStyles, List.length_map] at lengths
    have le := (List.dedup_sublist document.elements.pages).length_le
    have once : document.elements.pages.dedup = document.elements.pages :=
      (List.dedup_sublist _).eq_of_length (by omega)
    exact ⟨List.eq_nil_of_length_eq_zero (by omega), List.dedup_eq_self.1 once⟩
  · rintro ⟨rfl, once⟩
    rw [HTMLDocument.intended, List.dedup_eq_self.2 once]
    rfl

/-- One rendering of another document. -/
theorem code_iff : document.code document.body = document.intended ↔ document.elements.pages = [] := by
  constructor
  · intro same
    have all : ∀ css ∈ document.elements.pages.dedup.map Prod.snd, 0 < kept css :=
      fun css member => kept_pageStyles_pos document css ((dedup_sublist_pageStyles document).subset member)
    have none := code_styled_injective (List.nil_sublist _) all same
    exact (List.dedup_eq_nil _).1 (List.map_eq_nil_iff.1 none.symm)
  · intro none
    rw [HTMLDocument.intended, none]
    rfl

/-- A rendering gives the intended text exactly when the styles are in the right place. -/
theorem code_seen_iff (i : Fin s.all.length) (positive : ∀ css ∈ styles, 0 < kept css) :
    (s.seen (styles ++ (s.all.get i).pageStyles) i).code (s.all.get i).body = (s.all.get i).intended ↔
      (i.val = s.current → styles = [] ∧ (s.all.get i).elements.pages.Nodup) ∧
        (i.val ≠ s.current → (s.all.get i).elements.pages = []) := by
  unfold Documents.seen
  split_ifs with here
  · rw [code_styled_iff positive]
    constructor
    · intro right
      exact ⟨fun _ => right, fun other => absurd here other⟩
    · intro right
      exact right.1 here
  · rw [code_iff]
    constructor
    · intro none
      exact ⟨fun same => absurd same here, fun _ => none⟩
    · intro right
      exact right.2 here

/-! ## Sequences -/

/-- What a rendering has to be, behind those of `front`, for its page styles to come once and to
its own document. -/
structure Undisturbed (s : Documents) (front : List (Fin s.all.length)) (i : Fin s.all.length) : Prop where
  elsewhere : i.val ≠ s.current → (s.all.get i).elements.pages = []
  once : i.val = s.current → (s.all.get i).elements.pages.Nodup
  first : i.val = s.current → ∀ j ∈ front, (s.all.get j).elements.pages = []

/-- The styles that a sequence of renderings adds. -/
def addedStyles (s : Documents) (front : List (Fin s.all.length)) : List Str :=
  front.flatMap fun i => (s.all.get i).pageStyles

/-- No style that renderings add is empty on the line. -/
theorem kept_addedStyles_pos (front : List (Fin s.all.length)) : ∀ css ∈ addedStyles s front, 0 < kept css := by
  intro css member
  obtain ⟨i, -, inside⟩ := List.mem_flatMap.1 member
  exact kept_pageStyles_pos _ css inside

/-- No styles are added exactly where no pages are. -/
theorem addedStyles_eq_nil {front : List (Fin s.all.length)} :
    addedStyles s front = [] ↔ ∀ j ∈ front, (s.all.get j).elements.pages = [] := by
  rw [addedStyles, List.flatMap_eq_nil_iff]
  refine forall₂_congr fun j _ => ?_
  exact List.map_eq_nil_iff

/-- A document is as it should be where its own pages are not twice in it, and no others came to it. -/
theorem undisturbed_iff {front : List (Fin s.all.length)} (i : Fin s.all.length) : Undisturbed s front i ↔
    (i.val = s.current → addedStyles s front = [] ∧ (s.all.get i).elements.pages.Nodup) ∧
      (i.val ≠ s.current → (s.all.get i).elements.pages = []) := by
  rw [addedStyles_eq_nil]
  constructor
  · intro undisturbed
    exact ⟨fun here => ⟨undisturbed.first here, undisturbed.once here⟩, undisturbed.elsewhere⟩
  · rintro ⟨here, other⟩
    exact ⟨other, fun same => (here same).2, fun same => (here same).1⟩

/-- What holds at each place of a list. -/
theorem forall_split_cons {α : Type} {a : α} {l : List α} {P : List α → α → Prop} :
    (∀ before x after, a :: l = before ++ x :: after → P before x) ↔
      P [] a ∧ ∀ before x after, l = before ++ x :: after → P (a :: before) x := by
  constructor
  · intro each
    refine ⟨each [] a l rfl, fun before x after split => ?_⟩
    exact each (a :: before) x after (congrArg (List.cons a) split)
  · rintro ⟨first, later⟩ before x after split
    cases before with
    | nil =>
      cases split
      exact first
    | cons b before =>
      cases split
      exact later before x after rfl

/-- A sequence of texts has a first one. -/
theorem bind_cons_eq_some {first code : Str} {later : Option (List Str)} {codes : List Str} :
    (later.bind fun codes => some (first :: codes)) = some (code :: codes) ↔ first = code ∧ later = some codes := by
  cases later with
  | none => exact iff_of_false nofun nofun
  | some list => rw [Option.bind_some, Option.some.injEq, List.cons.injEq, Option.some.injEq]

/-- Renderings behind those of `front`. -/
theorem render_styled_iff (front renders : List (Fin s.all.length)) :
    (s.styled (addedStyles s front)).render (renders.map Fin.val) =
        some (renders.map fun i => (s.all.get i).intended) ↔
      ∀ before i after, renders = before ++ i :: after → Undisturbed s (front ++ before) i := by
  induction renders generalizing front with
  | nil =>
    apply iff_of_true rfl
    intro before i after none
    cases before <;> cases none
  | cons i renders ih =>
    have added : addedStyles s front ++ (s.all.get i).pageStyles = addedStyles s (front ++ [i]) := by
      rw [addedStyles, addedStyles, List.flatMap_append, List.flatMap_singleton]
    have later := ih (front ++ [i])
    simp only [List.append_assoc front, List.singleton_append] at later
    have here := (code_seen_iff i (kept_addedStyles_pos front)).trans (undisturbed_iff i).symm
    rw [forall_split_cons, List.append_nil, ← here]
    rw [← later, List.map_cons, List.map_cons, Documents.render, toString_styled, added]
    exact bind_cons_eq_some

/-- **A sequence of renderings gives the intended texts exactly when no document but the current
one has pages, and when it has them each page is in it once and no page is rendered before.** -/
theorem render_iff (s : Documents) (renders : List (Fin s.all.length)) :
    s.render (renders.map Fin.val) = some (renders.map fun i => (s.all.get i).intended) ↔
      ∀ before i after, renders = before ++ i :: after → Undisturbed s before i :=
  render_styled_iff [] renders

/-- A document with a page. -/
def onePage : Documents :=
  (Documents.construct []).addElement 0 (.page 0 "800px".toList "1px solid gray".toList .nil .nil)

/-- The number of that document. -/
def theDocument : Fin onePage.all.length := ⟨0, Nat.one_pos⟩

/-- Rendered twice, it has the style of the page twice. -/
theorem render_twice : onePage.render [0, 0] ≠
    some [(onePage.all.get theDocument).intended, (onePage.all.get theDocument).intended] := by
  intro same
  have clean := (render_styled_iff [] [theDocument, theDocument]).1 same
  have second := clean [theDocument] theDocument [] rfl
  cases second.first rfl theDocument (List.mem_singleton_self _)

end

end GtpLibrary.Html

import GtpLibrary.Lib.Runs

/-!
# `HTMLDocument`

A document renders its body first, and the pages in the body add their style to the document
that `$_HTML_DOCUMENT` refers to, which is the one constructed last. A document holds its
elements as values: rendering changes no element. Two pages are the same object where they
have the same handle.
-/

namespace GtpLibrary.Html

abbrev Str := List Char

/-- The elements of a body or of a page, in order: texts, and pages with elements of their own. -/
inductive Elements
  | nil
  | text (code : Str) (rest : Elements)
  | page (handle : Nat) (width border : Str) (elements rest : Elements)

/-- `array_push` of elements. -/
def Elements.push : Elements → Elements → Elements
  | .nil, more => more
  | .text code rest, more => .text code (rest.push more)
  | .page handle width border elements rest, more => .page handle width border elements (rest.push more)

structure HTMLDocument where
  title : Option Str
  style : Option Str
  attributes : List (Str × Str)
  elements : Elements
  headContent : Str

/-- `__construct`, with an empty `Body`. -/
def HTMLDocument.fresh : HTMLDocument := ⟨none, none, [], .nil, []⟩

def HTMLDocument.addStyleCode (document : HTMLDocument) (css : Str) : HTMLDocument :=
  match document.style with
  | some style => { document with style := some (style ++ css) }
  | none => { document with style := some css }

/-- The documents in the order of their construction, and the one that `$_HTML_DOCUMENT` refers to. -/
structure Documents where
  all : List HTMLDocument
  current : Nat
  current_lt : current < all.length

namespace Documents

theorem lt_length_modify (s : Documents) (i : Nat) (f : HTMLDocument → HTMLDocument) :
    s.current < (s.all.modify i f).length := by
  rw [List.length_modify]
  exact s.current_lt

theorem lt_length_concat (all : List HTMLDocument) (document : HTMLDocument) :
    all.length < (all ++ [document]).length := by
  rw [List.length_append]
  exact Nat.lt_succ_self _

/-- `$_HTML_DOCUMENT->addStyleCode($css)`. -/
def addStyleCode (s : Documents) (css : Str) : Documents where
  all := s.all.modify s.current fun document => document.addStyleCode css
  current := s.current
  current_lt := s.lt_length_modify s.current _

/-- `$document->body->addElement($object)`. -/
def addElement (s : Documents) (i : Nat) (object : Elements) : Documents where
  all := s.all.modify i fun document => { document with elements := document.elements.push object }
  current := s.current
  current_lt := s.lt_length_modify i _

/-- `new HTMLDocument()`, behind the documents constructed before. -/
def construct (all : List HTMLDocument) : Documents where
  all := all ++ [HTMLDocument.fresh]
  current := all.length
  current_lt := lt_length_concat all HTMLDocument.fresh

end Documents

/-- The style of a page. -/
def pageStyle (width border : Str) : Str :=
  "\n\t\t\t.pageContainer\x7b\n\t\t\t\twidth: ".toList ++ width ++
    ";\n\t\t\t\tmargin-left:auto; margin-right:auto;\n\t\t\t\tborder: ".toList ++ border ++ ";\n\t\t\t\x7d\n\t\t".toList

/-- The text of a page around the text of its elements. -/
def pageCode (elements : Str) : Str := "<div class=\"pageContainer\">".toList ++ elements ++ "</div>".toList

/-- The conversions of the elements, one after the other. -/
def elementsToString (s : Documents) : Elements → Str × Documents
  | .nil => ([], s)
  | .text code rest =>
    let more := elementsToString s rest
    (code ++ more.1, more.2)
  | .page _ width border elements rest =>
    -- `ConstantWidthPage::__toString`
    let inner := elementsToString (s.addStyleCode (pageStyle width border)) elements
    let more := elementsToString inner.2 rest
    (pageCode inner.1 ++ more.1, more.2)

/-- `Body::__toString`. -/
def bodyToString (s : Documents) (document : HTMLDocument) : Str × Documents :=
  let attributes := document.attributes.flatMap fun (name, value) => ' ' :: name ++ "=\"".toList ++ value ++ ['"']
  let (elements, s) := elementsToString s document.elements
  ("<body".toList ++ attributes ++ '>' :: elements ++ "</body>".toList, s)

/-- `ereg_replace("\n\r|\r\n|\t|\n|\r", '', $code)`. -/
def oneLine : Str → Str
  | '\n' :: '\r' :: rest => oneLine rest
  | '\r' :: '\n' :: rest => oneLine rest
  | c :: rest => if c = '\t' ∨ c = '\n' ∨ c = '\r' then oneLine rest else c :: oneLine rest
  | [] => []

def HTMLDocument.titleElement (document : HTMLDocument) : Str :=
  match document.title with
  | some title => "<title>".toList ++ title ++ "</title>".toList
  | none => []

def HTMLDocument.styleElement (document : HTMLDocument) : Str :=
  match document.style with
  | some style => "<style>".toList ++ style ++ "</style>".toList
  | none => []

/-- The text of a document around the text of its body. -/
def HTMLDocument.code (document : HTMLDocument) (body : Str) : Str :=
  oneLine ("<!DOCTYPE html>\n\t\t\t<html>\n\t\t\t\t<head>".toList ++ document.titleElement ++ document.styleElement ++
    document.headContent ++ "\n\t\t\t\t</head>\n\t\t\t\t".toList ++ body ++ "\n\t\t\t</html>".toList)

/-- `HTMLDocument::__toString` of the document with number `i`. -/
def Documents.toString (s : Documents) (i : Nat) : Option (Str × Documents) := do
  let document ← s.all[i]?
  let (body, s) := bodyToString s document
  -- the style is read when the body has been generated
  let document ← s.all[i]?
  return (document.code body, s)

/-! ## What a rendering should give -/

/-- The pages among the elements, with their styles, in the order of the conversions. -/
def Elements.pages : Elements → List (Nat × Str)
  | .nil => []
  | .text _ rest => rest.pages
  | .page handle width border elements rest => (handle, pageStyle width border) :: (elements.pages ++ rest.pages)

def Elements.code : Elements → Str
  | .nil => []
  | .text code rest => code ++ rest.code
  | .page _ _ _ elements rest => pageCode elements.code ++ rest.code

/-- A document with styles added. -/
def HTMLDocument.styled (document : HTMLDocument) (styles : List Str) : HTMLDocument :=
  styles.foldl HTMLDocument.addStyleCode document

/-- The text of a body. -/
def HTMLDocument.body (document : HTMLDocument) : Str :=
  "<body".toList ++ (document.attributes.flatMap fun (name, value) => ' ' :: name ++ "=\"".toList ++ value ++ ['"']) ++
    '>' :: document.elements.code ++ "</body>".toList

/-- The document with the style code that was added to it and the style of each of its pages once. -/
def HTMLDocument.intended (document : HTMLDocument) : Str :=
  (document.styled (document.elements.pages.dedup.map Prod.snd)).code document.body

/-- The texts of a sequence of renderings. -/
def Documents.render : Documents → List Nat → Option (List Str)
  | _, [] => some []
  | s, i :: later => do
    let (code, s) ← s.toString i
    let codes ← s.render later
    return code :: codes

end GtpLibrary.Html

import GtpLibrary.Lib.Bytes
import GtpLibrary.Lib.Paths

/-!
# `serve_static`

The file name of the route is joined to the static folder and opened where it is a file.
Nothing looks at its `..` segments, so the opened path is in the folder exactly when the
joined path, read without the tree, is (`serveStatic_confined_iff`).
-/

namespace GtpLibrary.Flask

open Lib

abbrev Path := List (List Char)

/-- `STATIC_FOLDER`. -/
def staticFolder : List Char := "static".toList

/-- `os.path.join` of two parts. -/
def join (a b : List Char) : List Char :=
  if b.head? = some '/' then b
  else if a = [] ∨ a.getLast? = some '/' then a ++ b
  else a ++ '/' :: b

def segmentOf (name : List Char) : Segment (List Char) :=
  if name = [] ∨ name = ['.'] then .stay else if name = ['.', '.'] then .up else .down name

def segments (path : List Char) : List (Segment (List Char)) := (path.splitOn '/').map segmentOf

/-- What the request meets: the tree, the working directory, the files that can be opened,
and the `mimetypes` of the system. -/
structure Site where
  root : Node (List Char) (List Byte)
  cwd : Path
  readable : Path → Bool
  guessType : List Char → Option (List Char)

/-- Where a path starts. -/
def Site.origin (site : Site) (path : List Char) : Path := if path.head? = some '/' then [] else site.cwd

/-- The file a path stands for, with its content. -/
def Site.resolve (site : Site) (path : List Char) : Option (Path × List Byte) :=
  match site.root.walk (site.origin path) (segments path) with
  | some place =>
    match site.root.at place with
    | some (.file content) => some (place, content)
    | _ => none
  | none => none

inductive Response
  | text (message : List Char) (status : Nat)
  | file (opened : Path) (content : List Byte) (mimetype : List Char) (contentLength : Nat)
      (contentDisposition : List Char)

/-- `serve_static`. -/
def serveStatic (site : Site) (filename : List Char) : Response :=
  let filePath := join staticFolder filename
  match site.resolve filePath with
  -- `if not os.path.isfile(file_path)`
  | none => .text "File Not Found".toList 404
  | some (place, content) =>
    if site.readable place then
      .file place content ((site.guessType filename).getD "application/octet-stream".toList) content.length
        ("inline; filename=\"".toList ++ filename ++ "\"".toList)
    else .text "Internal Server Error".toList 500

/-- The path that a response was read from. -/
def Response.opened : Response → Option Path
  | .text _ _ => none
  | .file opened _ _ _ _ => some opened

/-- The path lies in the static folder of the working directory. -/
def Site.InFolder (site : Site) (place : Path) : Prop := site.cwd ++ [staticFolder] <+: place

/-- The joined path, read without the tree. -/
def Site.normal (site : Site) (filename : List Char) : Path :=
  lexical (site.origin (join staticFolder filename)) (segments (join staticFolder filename))

/-- `file_path` is a file, and can be opened. -/
def Site.Opens (site : Site) (filename : List Char) : Prop :=
  ∃ found, site.resolve (join staticFolder filename) = some found ∧ site.readable found.1

section
variable {site : Site} {filename : List Char} {path : List Char} {place : Path} {content : List Byte}

theorem resolve_eq_normal (found : site.resolve path = some (place, content)) :
    place = lexical (site.origin path) (segments path) := by
  unfold Site.resolve at found
  split at found
  · rename_i walked
    split at found
    · cases found
      exact lexical_of_walk walked
    · cases found
  · cases found

theorem opened_iff : (serveStatic site filename).opened = some place ↔
    ∃ content, site.resolve (join staticFolder filename) = some (place, content) ∧ site.readable place := by
  unfold serveStatic
  dsimp only
  split
  · rename_i none
    simp [Response.opened, none]
  · rename_i place' content found
    split
    · rename_i readable
      constructor
      · intro same
        cases same
        exact ⟨content, found, readable⟩
      · rintro ⟨content', found', -⟩
        cases found.symm.trans found'
        rfl
    · rename_i closed
      constructor
      · intro same
        cases same
      · rintro ⟨content', found', readable⟩
        cases found.symm.trans found'
        exact absurd readable closed

/-- **Confinement.** What is opened lies in the static folder exactly where the joined path
is no file that can be opened, or leads into the folder by its segments alone. -/
theorem serveStatic_confined_iff (site : Site) (filename : List Char) :
    (∀ place, (serveStatic site filename).opened = some place → site.InFolder place) ↔
      (site.Opens filename → site.InFolder (site.normal filename)) := by
  constructor
  · rintro confined ⟨⟨place, content⟩, found, readable⟩
    have inside := confined place (opened_iff.2 ⟨content, found, readable⟩)
    rwa [resolve_eq_normal found] at inside
  · intro inside place opened
    obtain ⟨content, found, readable⟩ := opened_iff.1 opened
    rw [resolve_eq_normal found]
    exact inside ⟨_, found, readable⟩

/-- A relative name is read from the static folder on. -/
theorem normal_relative (relative : filename.head? ≠ some '/') :
    site.normal filename = lexical (site.cwd ++ [staticFolder]) (segments filename) := by
  have joined : join staticFolder filename = staticFolder ++ '/' :: filename := by
    unfold join
    rw [if_neg relative, if_neg (by decide)]
  have split : segments (staticFolder ++ '/' :: filename) = .down staticFolder :: segments filename := by
    unfold segments
    rw [List.splitOn_append_cons_self, List.map_append]
    rfl
  unfold Site.normal Site.origin
  rw [joined, split]
  rfl

/-- `..` is the only way out. -/
theorem confined_of_straight (relative : filename.head? ≠ some '/') (straight : .up ∉ segments filename)
    (opened : (serveStatic site filename).opened = some place) : site.InFolder place := by
  apply (serveStatic_confined_iff site filename).2 _ place opened
  intro _
  rw [normal_relative relative]
  exact prefix_lexical straight

end

/-- The folder of the script, with the script in it. -/
def appSite : Site where
  root := .directory [("app".toList, .directory
    [("static".toList, .directory [("example.txt".toList, .file (text "This is an example"))]),
      ("one.py".toList, .file (text "import os"))])]
  cwd := ["app".toList]
  readable _ := true
  guessType _ := none

/-- The script itself is served. -/
theorem serveStatic_leaves_folder :
    (serveStatic appSite "../one.py".toList).opened = some ["app".toList, "one.py".toList] ∧
      ¬ appSite.InFolder ["app".toList, "one.py".toList] := by
  refine ⟨by decide, ?_⟩
  unfold Site.InFolder
  decide

end GtpLibrary.Flask

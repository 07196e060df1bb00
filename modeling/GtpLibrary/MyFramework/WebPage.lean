import GtpLibrary.Lib.Forms
import GtpLibrary.Lib.Search
import GtpLibrary.MyFramework.Email

/-!
# `Utils::loadWebPageWithPost`

The variables are joined to a form and sent under a head of five writes. `parse_url`, where a
missing component counts as the empty string, and what the server answers are parameters.
-/

namespace GtpLibrary.MyFramework

open Lib Lib.Forms

/-- The components that are read of `parse_url`. -/
structure Url where
  scheme : List Byte
  host : List Byte
  path : List Byte

/-- `$data` behind the `implode`. -/
def postData (data : List Pair) : List Byte := (text "&").intercalate (data.map fun (n, v) => n ++ text "=" ++ v)

/-- What is written in front of the data. -/
def requestHead (url : Url) (data : List Byte) : List (List Byte) := [
  text "POST " ++ url.path ++ text " HTTP/1.1\r\n",
  text "Host: " ++ url.host ++ text "\r\n",
  text "Content-type: application/x-www-form-urlencoded\r\n",
  text "Content-length: " ++ decimal data.length ++ text "\r\n",
  text "Connection: close\r\n\r\n"]

/-- `explode` with at most two elements, of which a missing one is the empty string. -/
def explodeTwo (delimiter string : List Byte) : List Byte × List Byte :=
  match Search.position delimiter string with
  | some i => (string.take i, string.drop (i + delimiter.length))
  | none => (string, [])

/-- The writes in front of the data, and the data. -/
structure Request where
  head : List (List Byte)
  body : List Byte

def Request.sent (request : Request) : List Byte := request.head.flatten ++ request.body

def request (url : Url) (data : List Pair) : Request :=
  let data := postData data
  ⟨requestHead url data, data⟩

/-- The head and the content of the answer; `none` is the `die`. -/
def loadWebPageWithPost (parseUrl : List Byte → Url) (answer : List Byte → List Byte → List Byte) (url : List Byte)
    (data : List Pair) : Option (List Byte × List Byte) :=
  let url := parseUrl url
  if url.scheme ≠ text "http" then none
  else some (explodeTwo (text "\r\n\r\n") (answer url.host (request url data).sent))

/-! ## What arrives -/

/-- The length that a line of the head announces. -/
def announced (line : List Byte) : Option (List Byte) :=
  if text "Content-length: " <+: line then some ((line.drop 16).takeWhile (· ≠ byte '\r')) else none

/-- The form of a request gives the variables back, and one line of its head announces the length of the form. -/
def Request.Survives (request : Request) (data : List Pair) : Prop :=
  decodeForm request.body = data ∧ request.head.filterMap announced = [decimal request.body.length]

theorem postData_eq (data : List Pair) : postData data = rawForm data := by
  unfold postData rawForm
  congr 1
  apply List.map_congr_left
  intro pair _
  exact List.append_assoc ..

theorem return_not_mem_decimal (n : Nat) : byte '\r' ∉ decimal n := fun member =>
  absurd (toNat_of_mem_decimal member).1 (by decide)

theorem announced_contentLength (n : Nat) :
    announced (text "Content-length: " ++ decimal n ++ text "\r\n") = some (decimal n) := by
  have digits : ∀ c ∈ decimal n, decide (c ≠ byte '\r') = true := by
    intro c member
    exact decide_eq_true fun same => return_not_mem_decimal n (same ▸ member)
  unfold announced
  rw [List.append_assoc, if_pos (List.prefix_append ..)]
  rw [show 16 = (text "Content-length: ").length from rfl, List.drop_left, List.takeWhile_append_of_pos digits]
  simp [text]

theorem announced_other {line : List Byte} (other : line.head? ≠ some (byte 'C')) : announced line = none := by
  apply if_neg
  rintro ⟨rest, same⟩
  rw [← same] at other
  exact other rfl

/-- Only the fourth line of the head announces a length. -/
theorem announced_requestHead (url : Url) (data : List Byte) :
    (requestHead url data).filterMap announced = [decimal data.length] := by
  have post : announced (text "POST " ++ url.path ++ text " HTTP/1.1\r\n") = none :=
    announced_other (show some (byte 'P') ≠ _ by decide)
  have host : announced (text "Host: " ++ url.host ++ text "\r\n") = none :=
    announced_other (show some (byte 'H') ≠ _ by decide)
  have kind : announced (text "Content-type: application/x-www-form-urlencoded\r\n") = none := by decide
  have connection : announced (text "Connection: close\r\n\r\n") = none := by decide
  unfold requestHead
  simp only [List.filterMap_cons, post, host, kind, connection, announced_contentLength, List.filterMap_nil]

/-- **The variables survive exactly if** their names and values are their own encodings. The request is the one that
`loadWebPageWithPost` sends. -/
theorem survives_iff (url : Url) (data : List Pair) : (request url data).Survives data ↔
    ∀ pair ∈ data, byte '=' ∉ pair.1 ∧ Verbatim pair.1 ∧ Verbatim pair.2 := by
  unfold Request.Survives request
  dsimp only
  rw [and_iff_left (announced_requestHead ..), postData_eq]
  exact decodeForm_rawForm_iff

/-- The ampersand of a value makes two variables of it, the plus sign a blank. -/
theorem values_split : ¬ (request ⟨text "http", text "localhost", text "/"⟩
    [(text "name", text "R&D"), (text "sum", text "1+1")]).Survives [(text "name", text "R&D"), (text "sum", text "1+1")] := by
  rintro ⟨same, -⟩
  exact absurd same (by decide)

end GtpLibrary.MyFramework

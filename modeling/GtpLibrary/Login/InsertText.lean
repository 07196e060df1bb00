import Mathlib.Data.List.Forall2
import GtpLibrary.Lib.Sql
import GtpLibrary.Login.LoginSystem

/-!
# The text of the `insert`

The loops of `createAnAccount` as they build the statement, character by character, and the
statement read back as MySQL reads it: one `insert` of literals into columns. Which words are
reserved and how long a number may be differs between versions of the server and is a parameter.
-/

namespace GtpLibrary.Login

open Lib

/-! ## The loops -/

def addslashes (s : List Byte) : List Byte :=
  s.flatMap fun c =>
    if c = 0 then [byte '\\', byte '0']
    else if c = byte '"' ∨ c = 0x27 ∨ c = byte '\\' then [byte '\\', c]
    else [c]

/-- The first loop. -/
def appendColumns : List Byte → List (Name × PhpValue) → Except Nat (List Byte)
  | query, [] => .ok query
  | query, property :: rest =>
    if ctypeAlpha property.1 then appendColumns (query ++ (property.1 ++ text ",")) rest else .error 6

/-- What the body of the second loop appends. -/
def valueText : PhpValue → Except Nat (List Byte)
  | .string s => .ok (text "\"" ++ addslashes s ++ text "\",")
  | .objectWith value =>
    if isNumeric value then .ok (toText value ++ text ",")
    else if looselyNow value then .ok (text "NOW(),")
    else .error 5
  | .object => .error 3
  | _ => .error 2

/-- The second loop. -/
def appendValues : List Byte → List (Name × PhpValue) → Except Nat (List Byte)
  | query, [] => .ok query
  | query, property :: rest =>
    match valueText property.2 with
    | .ok value => appendValues (query ++ value) rest
    | .error code => .error code

def insertHead : List Byte := text "insert into partner4_invatamatero.utilizatori("

/-- The statement; `substr` takes the last comma off. -/
def insertText (params : Params) : Except Nat (List Byte) := do
  let query ← appendColumns insertHead params.properties
  let query ← appendValues (query.dropLast ++ text ")value(") params.properties
  return query.dropLast ++ text ");"

/-- The statement that an attempt sends. -/
def sentInsert (collation : Collation) (db : Database) (params : Params) (outcome : Outcome) : Option (List Byte) :=
  if outcome.countFails then none
  else if db.countEmail collation (toText params.email) ≠ 0 then none
  else (insertText params).toOption

/-! ## The statement read back -/

/-- A literal of the value list. A numeral in hexadecimal is a string unless a number is needed. -/
inductive Literal where
  | string (value : List Byte)
  | number (value : ℚ)
  | hexadecimal (digits : List Byte)
  | now
  deriving DecidableEq

structure Dialect where
  /-- The words that are no names, in lower case. -/
  reserved : List Byte → Bool
  /-- The numerals that are held as they are written. Others are rejected, as `1e400`, or clipped. -/
  held : List Byte → Bool

section
variable (dialect : Dialect)

def numberLiteral (negative : Bool) (numeral : List Byte) : Option Literal :=
  if dialect.held numeral then some (.number (if negative then -decimalValue numeral else decimalValue numeral)) else none

def literal : List Sql.Token → Option Literal
  | [.string value] => some (.string value)
  | [.number numeral] => numberLiteral dialect false numeral
  | [.hexadecimal digits] => some (.hexadecimal digits)
  | [.symbol c, .number numeral] =>
    if c = byte '-' then numberLiteral dialect true numeral
    else if c = byte '+' then numberLiteral dialect false numeral
    else none
  | [.call w, .symbol c, .symbol d] =>
    if Sql.lower w = text "now" && c = byte '(' && d = byte ')' then some .now else none
  | _ => none

/-- The name of a column is a word that is not reserved. -/
def column : List Sql.Token → Option Name
  | [.word w] => if dialect.reserved (Sql.lower w) then none else some w
  | _ => none

end

def comma : Sql.Token := .symbol (byte ',')

def bracket : Sql.Token := .symbol (byte ')')

def headTokens : List Sql.Token :=
  [.word (text "insert"), .word (text "into"), .word (text "partner4_invatamatero"), .symbol (byte '.'),
    .call (text "utilizatori"), .symbol (byte '(')]

def betweenTokens : List Sql.Token := [bracket, .call (text "value"), .symbol (byte '(')]

def endTokens : List Sql.Token := [bracket, .symbol (byte ';')]

/-- The columns and the values of an `insert` of literals. -/
def readInsert (dialect : Dialect) (t : List Byte) : Option (List Name × List Literal) := do
  let tokens ← Sql.tokens t
  let behind ← tokens.dropPrefix? headTokens
  let columns := behind.takeWhile (· ≠ bracket)
  let behind ← (behind.dropWhile (· ≠ bracket)).dropPrefix? betweenTokens
  let values ← behind.dropSuffix? endTokens
  let columns ← (columns.splitOn comma).mapM (column dialect)
  let values ← (values.splitOn comma).mapM (literal dialect)
  return (columns, values)

/-! ## What was asked -/

/-- What stands behind the blanks. -/
def unpadded (value : PhpValue) : List Byte := (toText value).dropWhile isPhpSpace

/-- A string, or an object whose `value` is numeric or the string `NOW()`. -/
def accepted : PhpValue → Bool
  | .string _ => true
  | .objectWith value => isNumeric value || value = .string (text "NOW()")
  | _ => false

/-- The string, the number or the time that such a value asks for. -/
def asked : PhpValue → Option Literal
  | .string s => some (.string s)
  | .objectWith value =>
    if isNumeric value then (numberOf value).map .number
    else if value = .string (text "NOW()") then some .now
    else none
  | _ => none

/-- PHP prints a number in decimal, or as one of three words. -/
def PhpValue.Printed : PhpValue → Prop
  | .number _ printed =>
    isDecimal (dropSign printed) = true ∨ printed = text "INF" ∨ printed = text "-INF" ∨ printed = text "NAN"
  | .objectWith value => value.Printed
  | _ => True

def Params.Accepted (params : Params) : Prop :=
  ∀ property ∈ params.properties, ctypeAlpha property.1 = true ∧ accepted property.2 = true

/-- The attempt sends the statement that the properties ask for, or none and returns a code. -/
structure MeansWhatWasAsked (dialect : Dialect) (collation : Collation) (sessionId : List Byte) (db : Database)
    (params : Params) (outcome : Outcome) : Prop where
  sent : (sentInsert collation db params outcome).isSome ↔ params.Accepted
  read : ∀ statement, sentInsert collation db params outcome = some statement →
    ∃ values, readInsert dialect statement = some (params.properties.map Prod.fst, values) ∧
      List.Forall₂ (fun property value => asked property.2 = some value) params.properties values
  refused : ¬ params.Accepted →
    ∃ code ∈ [2, 3, 5, 6], createAnAccount collation sessionId db params outcome = (code, db)

/-- What PHP writes for a numeric value is a decimal numeral of that number, in the server's range. A float
with more digits than `precision` is written as another number. -/
def PhpValue.WrittenExactly (dialect : Dialect) (value : PhpValue) : Prop :=
  isDecimal (dropSign (unpadded value)) = true ∧ dialect.held (dropSign (unpadded value)) = true ∧
    numberOf value = some (signedValue (unpadded value))

/-- Other than an object that holds `true`, or a number that is not written as it is. -/
def PhpValue.Ordinary (dialect : Dialect) : PhpValue → Prop
  | .objectWith value => value ≠ .bool true ∧ (isNumeric value = true → value.WrittenExactly dialect)
  | _ => True

/-- The checks of the second loop take the value. -/
def taken : PhpValue → Bool
  | .string _ => true
  | .objectWith value => isNumeric value || looselyNow value
  | _ => false

/-- A check refuses a property, or all of them are ordinary and no name is reserved. -/
def Params.Sound (dialect : Dialect) (params : Params) : Prop :=
  (∃ property ∈ params.properties, ctypeAlpha property.1 = false ∨ taken property.2 = false) ∨
    ∀ property ∈ params.properties, dialect.reserved (Sql.lower property.1) = false ∧ property.2.Ordinary dialect

end GtpLibrary.Login

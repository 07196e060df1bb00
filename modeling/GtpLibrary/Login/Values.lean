import Mathlib.Algebra.Order.Field.Rat
import GtpLibrary.Lib.Bytes

/-!
# PHP values of a `params` object

What `json_decode` or an assignment may leave in a property, and the PHP functions that
`LoginSystem` asks about it. Strings are byte strings; `is_numeric` and the comparison of
`switch` are those of the PHP versions that have the `mysql_*` functions.
-/

namespace GtpLibrary.Login

open Lib

/-- A value. Integers and floats are what they are, which is no number for INF and NAN, next to
the text that PHP prints them as: of a float that is a rounded one, with as many digits as the
setting `precision` says. `object` has no property `value`, `objectWith` has. -/
inductive PhpValue
  | string (s : List Byte)
  | number (value : Option ℚ) (printed : List Byte)
  | bool (b : Bool)
  | null
  | array
  | object
  | objectWith (value : PhpValue)
  deriving DecidableEq

def inRange (lo hi : Char) (c : Byte) : Bool := byte lo ≤ c && c ≤ byte hi

def isDigit : Byte → Bool := inRange '0' '9'

/-- `ctype_alpha` in the C locale. -/
def ctypeAlpha (s : List Byte) : Bool := s ≠ [] && s.all fun c => inRange 'A' 'Z' c || inRange 'a' 'z' c

/-! ## `is_numeric` -/

def isPhpSpace (c : Byte) : Bool := c = 0x20 || (0x09 ≤ c && c ≤ 0x0d)

def dropSign : List Byte → List Byte
  | c :: s => if c = byte '+' || c = byte '-' then s else c :: s
  | [] => []

/-- Nothing, or an exponent with at least one digit. -/
def isExponent : List Byte → Bool
  | [] => true
  | c :: s => (c = byte 'e' || c = byte 'E') && dropSign s ≠ [] && (dropSign s).all isDigit

/-- Digits with an optional point among them, and an optional exponent. -/
def isDecimal (s : List Byte) : Bool :=
  match s.dropWhile isDigit with
  | c :: fraction =>
    if c = byte '.' then
      ((s.head?.any isDigit) || fraction.head?.any isDigit) && isExponent (fraction.dropWhile isDigit)
    else s.head?.any isDigit && isExponent (c :: fraction)
  | [] => s ≠ []

/-- `0x` and hexadecimal digits, without a sign. -/
def isHexadecimal : List Byte → Bool
  | zero :: x :: s => zero = byte '0' && (x = byte 'x' || x = byte 'X') && s ≠ [] &&
      s.all fun c => isDigit c || inRange 'a' 'f' c || inRange 'A' 'F' c
  | _ => false

/-- A numeric string. Blanks are allowed in front of it, not behind. -/
def isNumericString (s : List Byte) : Bool :=
  let s := s.dropWhile isPhpSpace
  isHexadecimal s || isDecimal (dropSign s)

/-- `is_numeric`. -/
def isNumeric : PhpValue → Bool
  | .string s => isNumericString s
  | .number _ _ => true
  | _ => false

/-! ## Conversions -/

/-- The value where a string is expected: an object or an array gives a warning and `NULL`. -/
def toText : PhpValue → List Byte
  | .string s => s
  | .number _ printed => printed
  | .bool true => text "1"
  | .bool false | .null | .array | .object | .objectWith _ => []

/-- `$value == 'NOW()'`: a boolean is compared as a boolean. -/
def looselyNow : PhpValue → Bool
  | .string s => s = text "NOW()"
  | .bool b => b
  | _ => false

/-! ## The numbers -/

/-- The number that digits stand for; a letter of a hexadecimal numeral counts from 10 on. -/
def digitsValue (base : Nat) (digits : List Byte) : Nat :=
  digits.foldl (fun n c => base * n + if isDigit c then c.toNat - 48 else c.toNat % 32 + 9) 0

/-- The digits behind the point of a decimal numeral. -/
def fractionOf (n : List Byte) : List Byte :=
  match n.dropWhile isDigit with
  | c :: rest => if c = byte '.' then rest.takeWhile isDigit else []
  | [] => []

/-- What stands behind the `e` of a decimal numeral. -/
def exponentOf (n : List Byte) : List Byte := (n.dropWhile fun c => c ≠ byte 'e' && c ≠ byte 'E').drop 1

/-- The number that a decimal numeral stands for. -/
def decimalValue (n : List Byte) : ℚ :=
  let mantissa := digitsValue 10 (n.takeWhile isDigit ++ fractionOf n)
  let power := digitsValue 10 (dropSign (exponentOf n))
  let small := (exponentOf n).head? = some (byte '-')
  mantissa * 10 ^ (if small then 0 else power) / 10 ^ ((fractionOf n).length + if small then power else 0)

/-- With its sign. -/
def signedValue (p : List Byte) : ℚ :=
  if p.head? = some (byte '-') then -decimalValue (dropSign p) else decimalValue (dropSign p)

/-- The number that a numeric value is; of a numeric string what PHP reads in it. -/
def numberOf : PhpValue → Option ℚ
  | .string s =>
    let p := s.dropWhile isPhpSpace
    some (if isHexadecimal p then digitsValue 16 (p.drop 2) else signedValue p)
  | .number value _ => value
  | _ => none

example : ["-a", "", "1e", "1e5x", ".", "0x", "- 1", "1 "].all fun s => !isNumericString (text s) := by decide

example : ["-1.5e+3", " 7", "1.", ".5", "0xfF", "+0123.45e6"].all fun s => isNumericString (text s) := by decide

end GtpLibrary.Login

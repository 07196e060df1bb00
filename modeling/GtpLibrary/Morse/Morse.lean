import Mathlib.Tactic.Common

/-!
# `morse.pas`

The program calls `sound`, `delay` and `nosound` of the unit `crt`. What is heard is a tone or a
silence for each delay; a listener adds up the silences that follow each other.
-/

namespace GtpLibrary.Morse

/-- A call of the unit `crt`. -/
inductive CrtCall
  | sound (hz : Nat)
  | delay (ms : Nat)
  | nosound
  deriving DecidableEq

/-- The two procedures of the program. -/
inductive Symbol
  | punct
  | linie
  deriving DecidableEq

def Symbol.calls : Symbol → List CrtCall
  | .punct => [.sound 321, .delay 300, .nosound, .delay 800]
  | .linie => [.sound 321, .delay 900, .nosound, .delay 500]

open GtpLibrary.Morse.Symbol in
/-- The symbols of a letter, as the branches of `case a[i] of` have them. -/
def code : Char → Option (List Symbol)
  | 'a' => some [punct, linie]
  | 'b' => some [linie, punct, punct, punct]
  | 'c' => some [linie, punct, linie, punct]
  | 'd' => some [linie, punct, punct]
  | 'e' => some [punct]
  | 'f' => some [punct, punct, linie, punct]
  | 'g' => some [linie, linie, punct]
  | 'h' => some [punct, punct, punct, punct]
  | 'i' => some [punct, punct]
  | 'j' => some [punct, linie, linie, linie]
  | 'k' => some [linie, punct, linie]
  | 'l' => some [punct, linie, punct, punct]
  | 'm' => some [linie, linie]
  | 'n' => some [linie, punct]
  | 'o' => some [linie, linie, linie]
  | 'p' => some [punct, linie, linie, punct]
  | 'q' => some [linie, linie, punct, linie]
  | 'r' => some [punct, linie, punct]
  | 's' => some [punct, punct, punct]
  | 't' => some [linie]
  | 'u' => some [punct, punct, linie]
  | 'v' => some [punct, punct, punct, linie]
  | 'w' => some [punct, linie, linie]
  | 'x' => some [linie, punct, linie, linie]
  | 'y' => some [linie, punct, linie, linie]
  | 'z' => some [linie, linie, punct, punct]
  | '1' => some [punct, linie, linie, linie, linie]
  | '2' => some [punct, punct, linie, linie, linie]
  | '3' => some [punct, punct, punct, linie, linie]
  | '4' => some [punct, punct, punct, punct, linie]
  | '5' => some [punct, punct, punct, punct, punct]
  | '6' => some [linie, punct, punct, punct, punct]
  | '7' => some [linie, linie, punct, punct, punct]
  | '8' => some [linie, linie, linie, punct, punct]
  | '9' => some [linie, linie, linie, linie, punct]
  | '0' => some [linie, linie, linie, linie, linie]
  | '.' => some [punct, linie, punct, linie, punct, linie]
  | _ => none

/-- One turn of the loop. -/
def letter (c : Char) : List CrtCall :=
  match code c with
  | some symbols => .delay 1000 :: symbols.flatMap Symbol.calls
  | none => []

/-- `readln(a)`: a `string` holds 255 characters, and the rest of the line is passed over. -/
def readln (line : List Char) : List Char := line.take 255

/-- The loop over the text. -/
def letters (a : List Char) : List CrtCall := a.flatMap letter

/-- What is done for the line that is typed. -/
def main (line : List Char) : List CrtCall := letters (readln line)

/-! ## What is heard -/

inductive Heard
  | tone (hz ms : Nat)
  | silence (ms : Nat)
  deriving DecidableEq

/-- What is heard during the calls; the speaker sounds at a frequency, or not. -/
def hear : Option Nat → List CrtCall → List Heard
  | _, [] => []
  | _, .sound hz :: rest => hear (some hz) rest
  | _, .nosound :: rest => hear none rest
  | some hz, .delay ms :: rest => .tone hz ms :: hear (some hz) rest
  | none, .delay ms :: rest => .silence ms :: hear none rest

/-- Consecutive silences are added up. -/
def addUp : List Heard → List Heard
  | [] => []
  | .tone hz ms :: rest => .tone hz ms :: addUp rest
  | .silence ms :: rest =>
    match addUp rest with
    | .silence more :: later => .silence (ms + more) :: later
    | later => .silence ms :: later

/-- The tones and silences for a line. -/
def signal (line : List Char) : List Heard := addUp (hear none (main line))

/-- The characters that have a code. -/
def supported : List Char := "abcdefghijklmnopqrstuvwxyz0123456789.".toList

example : signal "et".toList = [.silence 1000, .tone 321 300, .silence 1800, .tone 321 900, .silence 500] := by decide

end GtpLibrary.Morse

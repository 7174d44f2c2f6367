import Mathlib.Algebra.Order.Ring.Nat
import Mathlib.Data.List.Basic

/-! The parts of the C library a command-line parser leans on, over strings given as the
bytes before their terminator.
-/

namespace LfuScan.Foundations

/-- A character of the source text. -/
def ch (c : Char) : UInt8 := UInt8.ofNat c.toNat

/-- A string literal of the source text. -/
def cstr (s : String) : List UInt8 := s.toList.map ch

/-- The first character, NUL at the end. -/
def firstChar (s : List UInt8) : UInt8 := s.headD 0

def isSpace (c : UInt8) : Bool :=
  c == ch ' ' || (c ≥ 9 && c ≤ 13)

def tolower (c : UInt8) : UInt8 :=
  if c ≥ ch 'A' && c ≤ ch 'Z' then c + 32 else c

/-- `strcasecmp() == 0`. -/
def strcasecmp (left right : List UInt8) : Bool :=
  left.map tolower == right.map tolower

/-- The value of a digit in any base up to 36. -/
def digitValue? (c : UInt8) : Option Nat :=
  if c ≥ ch '0' && c ≤ ch '9' then
    some (c - ch '0').toNat
  else if tolower c ≥ ch 'a' && tolower c ≤ ch 'z' then
    some ((tolower c - ch 'a').toNat + 10)
  else
    none

def isDigit (base : Nat) (c : UInt8) : Bool := (digitValue? c).any (· < base)

/-- Horner's rule over the digits of a numeral. -/
def numeral (base : Nat) (digits : List UInt8) : Nat :=
  digits.foldl (fun total c => total * base + (digitValue? c).getD 0) 0

/-- What `strtoull` leaves behind: the value, the text after the numeral, whether there was
one at all (`end != str`), and whether it was out of range (`errno`).
-/
structure Strtoull where
  value : UInt64
  rest : List UInt8
  converted : Bool
  erange : Bool
deriving DecidableEq, Repr

/-- The sign, and the text after it. -/
def numeralSign (s : List UInt8) : Bool × List UInt8 :=
  match s with
  | c :: rest =>
      if c == ch '-' then (true, rest) else if c == ch '+' then (false, rest) else (false, s)
  | [] => (false, [])

/-- The base the text itself asks for, and the text after its mark. -/
def numeralBase (base : Nat) (s : List UInt8) : Nat × List UInt8 :=
  let hex := (base == 0 || base == 16) && firstChar s == ch '0'
    && tolower (firstChar s.tail) == ch 'x' && isDigit 16 (firstChar s.tail.tail)
  if hex then
    (16, s.tail.tail)
  else if base == 0 then
    (if firstChar s == ch '0' then 8 else 10, s)
  else
    (base, s)

/-- `strtoull(s, &end, base)`: white space, a sign, a base mark, digits. A minus sign
negates modulo `2^64`.
-/
def strtoull (s : List UInt8) (base : Nat) : Strtoull :=
  let (negative, text) := numeralSign (s.dropWhile isSpace)
  let (base, text) := numeralBase base text
  let digits := text.takeWhile (isDigit base)
  if digits.isEmpty then
    { value := 0, rest := s, converted := false, erange := false }
  else
    let total := numeral base digits
    let rest := text.drop digits.length
    if total ≥ 2 ^ 64 then
      { value := UInt64.ofNat (2 ^ 64 - 1), rest, converted := true, erange := true }
    else
      let value := UInt64.ofNat total
      {
        value := if negative then 0 - value else value
        rest
        converted := true
        erange := false
      }

/-- The tokens `strtok_r` finds: the non-empty pieces between delimiters. -/
def strtok (s : List UInt8) (delim : UInt8) : List (List UInt8) :=
  (s.splitOn delim).filter (fun token => !token.isEmpty)

end LfuScan.Foundations

import Mathlib.Data.Int.ModEq
import Mathlib.Algebra.Order.Ring.Int
import Mathlib.Data.List.DropRight

set_option autoImplicit false

/-! # Strings

The helpers of `common/stringop.c`, and of the C library, that the commands read their arguments
with.
-/

namespace Swirl

/-- `has_prefix` -/
def hasPrefix (str : String) (p : String) : Bool := p.toList.isPrefixOf str.toList

/-- `strcasecmp` finds no difference. -/
def sameIgnoringCase (a b : String) : Bool :=
  a.toList.map Char.toLower == b.toList.map Char.toLower

def isSpace (c : Char) : Bool := c.toNat == 32 || (9 ≤ c.toNat && c.toNat ≤ 13)

def backslash : Char := Char.ofNat 92

/-- `strip_whitespace` -/
def stripWhitespace (str : List Char) : List Char := (str.dropWhile isSpace).rdropWhile isSpace

/-- What `strtol` gives: the value, what follows the number, and whether it was out of range. -/
structure Strtol where
  value : Int
  rest : List Char
  range : Bool

/-- The number some digits stand for. -/
def digitsValue (ds : List Char) : Int := ds.foldl (fun n d => n * 10 + (d.toNat - 48)) 0

/-- `strtol` in base ten, with a `long` of 64 bits. -/
def strtol (s : List Char) : Strtol :=
  let t := s.dropWhile isSpace
  let negative := t.head? == some '-'
  let t := if t.head? == some '-' || t.head? == some '+' then t.tail else t
  let digits := t.takeWhile Char.isDigit
  let rest := t.dropWhile Char.isDigit
  let value := if negative then -digitsValue digits else digitsValue digits
  if digits = [] then ⟨0, s, false⟩
  else if 2 ^ 63 - 1 < value then ⟨2 ^ 63 - 1, rest, true⟩
  else if value < -2 ^ 63 then ⟨-2 ^ 63, rest, true⟩
  else ⟨value, rest, false⟩

/-- A `long` as an `int`. -/
def toInt (v : Int) : Int := v.bmod (2 ^ 32)

/-- A `long` as an `uint32_t`. -/
def toUint32 (v : Int) : Nat := (v % 2 ^ 32).toNat

/-- The pieces of a string between the delimiters, the empty ones included. -/
def splitChars (delim : Char) : List Char → List (List Char)
  | [] => [[]]
  | c :: cs =>
      match splitChars delim cs with
      | t :: ts => if c = delim then [] :: t :: ts else (c :: t) :: ts
      | [] => [[c]]

/-- `split_string`, for one delimiter: `strtok` gives no empty piece. -/
def splitString (str : String) (delim : Char) : List String :=
  ((splitChars delim str.toList).filter fun t => !t.isEmpty).map String.ofList

/-- `strip_quotes`, from within a string, a character, or after a backslash. -/
def stripQuotesFrom (inStr inChr escaped : Bool) : List Char → List Char
  | [] => []
  | c :: cs =>
      if c.toNat = 39 ∧ !inStr ∧ !escaped then stripQuotesFrom inStr (!inChr) escaped cs
      else if c.toNat = 34 ∧ !inChr ∧ !escaped then stripQuotesFrom (!inStr) inChr escaped cs
      else if c.toNat = 92 then c :: stripQuotesFrom inStr inChr (!escaped) cs
      else c :: stripQuotesFrom inStr inChr false cs

/-- `strip_quotes` -/
def stripQuotes (str : String) : String :=
  String.ofList (stripQuotesFrom false false false str.toList)

/-- `join_args` -/
def joinArgs (argv : List String) : String := " ".intercalate argv

end Swirl

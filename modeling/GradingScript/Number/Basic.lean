import GradingScript.Number.Decimal
import GradingScript.Text.CharClass

/-!
# Numbers

A number of a script is a whole number of any size or a binary floating-point number.  A whole
number of more than 4300 decimal digits can be computed with and compared but has no decimal text:
whatever writes it fails as a whole, with the only failure that writing knows.
-/

namespace GradingScript

/-- Why something cannot be written. -/
inductive Unwritable where
  /-- An integer has more than `maxDigits` decimal digits. -/
  | longInteger
  deriving DecidableEq, Repr

/-- The result of writing. -/
abbrev Written (α : Type) := Except Unwritable α

/-- The most decimal digits that an integer is read or written with. -/
def maxDigits : Nat := 4300

/-- A number of a script. -/
inductive Number where
  | int (value : Int)
  | real (value : Double)
  deriving DecidableEq, Repr

namespace Number

/-- Whether an integer has at most `maxDigits` decimal digits. -/
def isShort (i : Int) : Bool :=
  i.natAbs < tenTo maxDigits

/-- The decimal text of an integer. -/
def intText (i : Int) : Written String :=
  if isShort i then .ok (Digits.ofInt i) else .error .longInteger

/-- The text of a number. -/
def text : Number → Written String
  | .int i => intText i
  | .real x => .ok x.text

/-- The number with the other sign. -/
def neg : Number → Number
  | .int i => .int (-i)
  | .real x => .real x.neg

/-- Whether an integer is less than a binary number. -/
def intLt (i : Int) : Double → Bool
  | .nan => false
  | .infinity negative => !negative
  | .finite s m p => i * (twoTo (-Double.minExponent).toNat : Nat) < Double.units s m p

/-- Whether a binary number is less than an integer. -/
def realLt (i : Int) : Double → Bool
  | .nan => false
  | .infinity negative => negative
  | .finite s m p => Double.units s m p < i * (twoTo (-Double.minExponent).toNat : Nat)

/-- Whether the first number is less than the second, whatever their kinds.  Nothing is less than
`nan`, and `nan` is less than nothing. -/
def lt : Number → Number → Bool
  | .int i, .int j => i < j
  | .int i, .real y => intLt i y
  | .real x, .int j => realLt j x
  | .real x, .real y => x.lt y

end Number

end GradingScript

/-!
## Numbers from outside

A number that does not stand in a script, such as one on the command line, is written more freely
than a numeral.  Blanks may stand around it, single underscores between its digits, and the digits
may be those of any script.
-/

namespace GradingScript.Number

/-- A blank that may stand around a number: any but the information separators. -/
def isPadding (c : Char) : Bool :=
  Text.isBlank c && !(0x1C ≤ c.toNat && c.toNat ≤ 0x1F)

/-- A text without the blanks around it. -/
def withoutPadding (cs : List Char) : List Char :=
  ((cs.dropWhile isPadding).reverse.dropWhile isPadding).reverse

/-- A text without its underscores.  There is none if one of them does not stand between two
digits. -/
def joinDigits? : List Char → Option (List Char)
  | [] => some []
  | '_' :: _ => none
  | c :: '_' :: d :: cs =>
    if c.isDigit && d.isDigit then (joinDigits? (d :: cs)).map (c :: ·) else none
  | c :: cs => (joinDigits? cs).map (c :: ·)

/-- The characters of a number without what may be added to them. -/
def bare? (text : String) : Option (List Char) :=
  joinDigits? ((withoutPadding text.toList).map Text.asciiDigit)

/-- Reads digits; there are some, but no more than `maxDigits`. -/
def readNat? (cs : List Char) : Option Nat :=
  if cs.isEmpty || !cs.all Char.isDigit || maxDigits < cs.length then none
  else some (Digits.toNat 10 cs)

/-- Reads an integer with or without a sign. -/
def readInt? (text : String) : Option Int := do
  match ← bare? text with
  | '-' :: cs => (readNat? cs).map fun n => -(n : Int)
  | '+' :: cs => (readNat? cs).map fun n => (n : Int)
  | cs => (readNat? cs).map fun n => (n : Int)

/-- Reads the magnitude of a binary number: a decimal fraction, infinity or not a number. -/
def readMagnitude? (negative : Bool) (cs : List Char) : Option Double :=
  match String.ofList (cs.map Char.toLower) with
  | "nan" => some .nan
  | "inf" | "infinity" => some (.infinity negative)
  | _ => (Decimal.read? cs).map (·.toDouble negative)

/-- Reads a binary number with or without a sign. -/
def readDouble? (text : String) : Option Double := do
  match ← bare? text with
  | '-' :: cs => readMagnitude? true cs
  | '+' :: cs => readMagnitude? false cs
  | cs => readMagnitude? false cs

end GradingScript.Number

import GradingScript.Number.Double

/-!
# Decimal numbers

The digits of natural numbers, decimal fractions, and the decimal fraction that a binary number is
written as.
-/

/-!
## Digits

The natural numbers that digits of a base from 2 to 16 spell, and the decimal digits that spell a
number.
-/

namespace GradingScript.Digits

/-- The value of a hexadecimal digit, in either case. -/
def value (c : Char) : Nat :=
  if c.isDigit then c.toNat - '0'.toNat
  else if 'a' ≤ c && c ≤ 'f' then c.toNat - 'a'.toNat + 10
  else c.toNat - 'A'.toNat + 10

/-- Whether a character is a digit of the base. -/
def isDigitOf (base : Nat) (c : Char) : Bool :=
  (c.isDigit || ('a' ≤ c && c ≤ 'f') || ('A' ≤ c && c ≤ 'F')) && value c < base

/-- The number that digits spell, most significant first. -/
def toNat (base : Nat) (digits : List Char) : Nat :=
  digits.foldl (fun n c => base * n + value c) 0

@[simp] theorem toNat_nil (base : Nat) : toNat base [] = 0 := rfl

theorem toNat_concat (base : Nat) (digits : List Char) (c : Char) :
    toNat base (digits ++ [c]) = base * toNat base digits + value c := by
  simp [toNat]

/-- The decimal digits of a natural number, most significant first. -/
def ofNat (n : Nat) : List Char :=
  Nat.toDigits 10 n

/-- An integer in decimal digits, with a minus sign if it is negative. -/
def ofInt (i : Int) : String :=
  if i < 0 then String.ofList ('-' :: ofNat i.natAbs) else String.ofList (ofNat i.natAbs)

end GradingScript.Digits

/-!
## Decimal fractions

A decimal fraction is `digits * 10 ^ exponent`.  It is read from digits, a point with further
digits, and an exponent, and has a nearest binary number.
-/

namespace GradingScript

/-- The fraction `digits * 10 ^ exponent`. -/
structure Decimal where
  digits : Nat
  exponent : Int
  deriving DecidableEq, Repr

namespace Decimal

/-- Reads the digits of an exponent, with or without a sign. -/
def readExponent : List Char → Option Int
  | '-' :: cs => if cs ≠ [] ∧ cs.all Char.isDigit then some (-(Digits.toNat 10 cs : Int)) else none
  | '+' :: cs => if cs ≠ [] ∧ cs.all Char.isDigit then some (Digits.toNat 10 cs) else none
  | cs => if cs ≠ [] ∧ cs.all Char.isDigit then some (Digits.toNat 10 cs) else none

/-- Reads a decimal fraction without a sign.  There is a digit before or after the point, and the
point and the exponent may be missing. -/
def read? (cs : List Char) : Option Decimal := do
  let whole := cs.takeWhile Char.isDigit
  let rest := cs.dropWhile Char.isDigit
  let (places, rest) : List Char × List Char :=
    match rest with
    | '.' :: rest => (rest.takeWhile Char.isDigit, rest.dropWhile Char.isDigit)
    | rest => ([], rest)
  if whole = [] ∧ places = [] then none
  let exponent ←
    match rest with
    | [] => some 0
    | c :: rest => if c = 'e' ∨ c = 'E' then readExponent rest else none
  some ⟨Digits.toNat 10 (whole ++ places), exponent - places.length⟩

/-- The nearest binary number.  From `10 ^ 400` on every fraction is too large, and below
`10 ^ -400` every one is nearest to zero; in between the powers of ten are small enough to be
computed. -/
def toDouble (negative : Bool) (d : Decimal) : Double :=
  if d.digits = 0 then .ofRatio negative 0 1
  else if 400 ≤ d.exponent then .infinity negative
  else if d.exponent ≤ -(d.digits.log2 + 400 : Int) then .ofRatio negative 0 1
  else
    match d.exponent with
    | .ofNat k => .ofRatio negative (d.digits * tenTo k) 1
    | .negSucc k => .ofRatio negative d.digits (tenTo (k + 1))

end Decimal

end GradingScript

/-!
## The shortest decimal that reads back

A binary number is written with the fewest digits whose decimal fraction is nearer to it than to
any other binary number.  Of two such fractions the nearer is taken, and of two equally near ones
the even one.  The search runs over the grids of multiples of a power of ten, from the coarse to
the fine: if a grid has a point in the interval of the reals that round to the number, then one of
the number's two neighbours on the grid is such a point, and the first grid with a point has the
one with the fewest digits.
-/

namespace GradingScript.Double

/-- A positive binary number with the interval of the reals that round to it: the number is
`value / den`, and the interval runs from `low / den` to `high / den`, including its ends if
`closed`. -/
structure Interval where
  low : Nat
  value : Nat
  high : Nat
  den : Nat
  closed : Bool

namespace Interval

/-- The interval of `mantissa * 2 ^ exponent`.  It reaches half-way to the neighbours; the lower
neighbour of a power of two is only half as far away, unless it is among the smallest numbers. -/
def ofMultiple (mantissa : Nat) (exponent : Int) : Interval :=
  let below := if mantissa = twoTo 52 ∧ minExponent < exponent then 1 else 2
  let (unit, den) :=
    match exponent - 2 with
    | .ofNat k => (twoTo k, 1)
    | .negSucc k => (1, twoTo (k + 1))
  { low := (4 * mantissa - below) * unit
    value := 4 * mantissa * unit
    high := (4 * mantissa + 2) * unit
    den := den
    closed := mantissa % 2 = 0 }

/-- The interval measured in multiples of `10 ^ exponent`. -/
def scale (i : Interval) : Int → Interval
  | .ofNat k => { i with den := i.den * tenTo k }
  | .negSucc k =>
      { i with
        low := i.low * tenTo (k + 1)
        value := i.value * tenTo (k + 1)
        high := i.high * tenTo (k + 1) }

/-- Whether a whole number lies in the interval. -/
def contains (i : Interval) (n : Nat) : Bool :=
  if i.closed then i.low ≤ n * i.den && n * i.den ≤ i.high
  else i.low < n * i.den && n * i.den < i.high

/-- The whole number in the interval that is nearest to the value. -/
def nearest? (i : Interval) : Option Nat :=
  let down := i.value / i.den
  match i.contains down, i.contains (down + 1) with
  | true, true => some (roundDiv i.value i.den)
  | true, false => some down
  | false, true => some (down + 1)
  | false, false => none

/-- Tries the grids of `10 ^ exponent`, `10 ^ (exponent - 1)` and so on. -/
def search (i : Interval) : Nat → Int → Decimal
  | 0, exponent =>
      let scaled := i.scale exponent
      ⟨roundDiv scaled.value scaled.den, exponent⟩
  | tries + 1, exponent =>
      match (i.scale exponent).nearest? with
      | some digits => ⟨digits, exponent⟩
      | none => search i tries (exponent - 1)

end Interval

/-- The shortest decimal fraction of a positive number.  The number is below
`2 ^ (log2 mantissa + 1 + exponent)`, so its first digit stands at or after the power of ten
that the search starts from, at most two places later; seventeen digits always suffice. -/
def shortest (mantissa : Nat) (exponent : Int) : Decimal :=
  let start := ((mantissa.log2 + 1 + exponent) * 30103).fdiv 100000 + 1
  (Interval.ofMultiple mantissa exponent).search 20 start

/-- Writes a decimal fraction whose last digit is not zero: positional from `10 ^ -4` to below
`10 ^ 16`, with at least one digit after the point, and else with one digit before the point and
a signed exponent of at least two digits. -/
def decimalText (d : Decimal) : List Char :=
  let digits := Digits.ofNat d.digits
  let first : Int := d.exponent + digits.length - 1
  if -4 ≤ first ∧ first < 16 then
    -- The point stands behind, before or among the digits.
    match d.exponent with
    | .ofNat k => digits ++ List.replicate k '0' ++ ['.', '0']
    | .negSucc k =>
        if first < 0 then
          '0' :: '.' :: List.replicate (-first - 1).toNat '0' ++ digits
        else
          digits.take (digits.length - (k + 1)) ++ '.' :: digits.drop (digits.length - (k + 1))
  else
    let mark := if first < 0 then '-' else '+'
    let power := Digits.ofNat first.natAbs
    let power := if power.length < 2 then '0' :: power else power
    match digits with
    | [] => []
    | [d] => d :: 'e' :: mark :: power
    | d :: ds => d :: '.' :: ds ++ 'e' :: mark :: power

/-- The text of a number. -/
def text : Double → String
  | .nan => "nan"
  | .infinity negative => if negative then "-inf" else "inf"
  | .finite negative mantissa exponent =>
      let magnitude :=
        if mantissa = 0 then ['0', '.', '0'] else decimalText (shortest mantissa exponent)
      String.ofList (if negative then '-' :: magnitude else magnitude)

end GradingScript.Double

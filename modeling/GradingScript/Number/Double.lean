/-!
# Binary floating-point numbers

The numbers of the format binary64: not a number, the two infinities, and the signed multiples
`mantissa * 2 ^ exponent` whose mantissa has at most 53 bits and whose exponent is at least -1074.
Rounding goes to the nearest such number and from the middle to the even mantissa, in exact integer
arithmetic; so does the order, in which not a number stands outside.
-/

namespace GradingScript

/-- A power of two. -/
def twoTo (n : Nat) : Nat :=
  Nat.pow 2 n

/-- A power of ten. -/
def tenTo (n : Nat) : Nat :=
  Nat.pow 10 n

/-- A binary floating-point number. -/
inductive Double where
  | nan
  | infinity (negative : Bool)
  | finite (negative : Bool) (mantissa : Nat) (exponent : Int)
  deriving DecidableEq, Repr

namespace Double

/-- The exponent of the smallest multiples. -/
def minExponent : Int := -1074

/-- The exponent of the largest multiples. -/
def maxExponent : Int := 971

/-- The quotient rounded to the nearest integer, and from the middle to the even one. -/
def roundDiv (num den : Nat) : Nat :=
  let quotient := num / den
  let rest := num % den
  if 2 * rest < den then quotient
  else if den < 2 * rest then quotient + 1
  else quotient + quotient % 2

/-- The fraction `num / den` divided by `2 ^ exponent`, again as a fraction. -/
def scaled (num den : Nat) : Int → Nat × Nat
  | .ofNat k => (num, den * twoTo k)
  | .negSucc k => (num * twoTo (k + 1), den)

/-- The exponent at which the mantissa of a positive fraction has 53 bits, but no less than
`minExponent`.  With `num` in `[2 ^ a, 2 ^ (a + 1))` and `den` in `[2 ^ b, 2 ^ (b + 1))` the
fraction divided by `2 ^ (a - b - 53)` lies between `2 ^ 52` and `2 ^ 54`. -/
def exponentOf (num den : Nat) : Int :=
  let estimate : Int := num.log2 - den.log2 - 53
  let (n, d) := scaled num den estimate
  max minExponent (if twoTo 53 * d ≤ n then estimate + 1 else estimate)

/-- The number nearest to a fraction. -/
def ofRatio (negative : Bool) (num den : Nat) : Double :=
  if num = 0 then .finite negative 0 minExponent
  else
    let exponent := exponentOf num den
    let (n, d) := scaled num den exponent
    let mantissa := roundDiv n d
    -- Rounding up may carry into a 54th bit, which is then a power of two.
    let (mantissa, exponent) :=
      if mantissa = twoTo 53 then (twoTo 52, exponent + 1) else (mantissa, exponent)
    if maxExponent < exponent then .infinity negative else .finite negative mantissa exponent

/-- The number with the other sign. -/
def neg : Double → Double
  | .nan => .nan
  | .infinity negative => .infinity !negative
  | .finite negative mantissa exponent => .finite (!negative) mantissa exponent

/-- How many times the smallest positive number, `2 ^ minExponent`, a signed multiple is. -/
def units (negative : Bool) (mantissa : Nat) (exponent : Int) : Int :=
  let magnitude : Int := (mantissa * twoTo (exponent - minExponent).toNat : Nat)
  if negative then -magnitude else magnitude

/-- Whether the first number is less than the second. -/
def lt : Double → Double → Bool
  | .nan, _ => false
  | _, .nan => false
  | .infinity s, .infinity t => s && !t
  | .infinity s, .finite .. => s
  | .finite .., .infinity t => !t
  | .finite s m p, .finite t n q => units s m p < units t n q

/-- Whether the first number is less than or equal to the second. -/
def le : Double → Double → Bool
  | .nan, _ => false
  | _, .nan => false
  | .infinity s, .infinity t => s || !t
  | .infinity s, .finite .. => s
  | .finite .., .infinity t => !t
  | .finite s m p, .finite t n q => units s m p ≤ units t n q

/-- Two numbers other than `nan` are always comparable. -/
theorem le_iff_not_lt {x y : Double} (hx : x ≠ .nan) (hy : y ≠ .nan) :
    x.le y = !y.lt x := by
  cases x <;> cases y <;> simp_all [le, lt]
  all_goals grind

end Double

end GradingScript

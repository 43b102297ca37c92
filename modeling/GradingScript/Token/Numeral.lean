import GradingScript.Number.Decimal
import GradingScript.ScriptError
import GradingScript.Text.CharClass

/-!
# Numerals

A numeral is a whole number in base sixteen, eight or two behind `0x`, `0o` or `0b`, or a decimal
fraction, or a whole number in base ten.  Underscores may stand between its digits.  Of the forms
that fit, the first in this order is read, as far as it reaches; no word may follow at once.
-/

namespace GradingScript.Numeral

/-- Whether a character continues digits of a base. -/
def isPlace (base : Nat) (c : Char) : Bool :=
  Digits.isDigitOf base c || c = '_'

/-- Digits without the underscores between them. -/
def withoutUnderscores (cs : List Char) : List Char :=
  cs.filter (· ≠ '_')

/-- The base that a letter behind a zero announces. -/
def baseOf? : Char → Option Nat
  | 'x' => some 16
  | 'o' => some 8
  | 'b' => some 2
  | _ => none

/-- How many characters of an exponent, letter included, begin the text. -/
def exponentLength : List Char → Nat
  | c :: cs =>
    if c = 'e' ∨ c = 'E' then
      let sign := match cs with
        | s :: _ => if s = '+' ∨ s = '-' then 1 else 0
        | [] => 0
      let digits := ((cs.drop sign).takeWhile Char.isDigit).length
      if digits = 0 then 0 else 1 + sign + digits
    else 0
  | [] => 0

/-- How many characters of a point with further digits and an exponent begin the text. -/
def fractionLength : List Char → Nat
  | '.' :: d :: cs =>
    if d.isDigit then
      let places := (cs.takeWhile (isPlace 10)).length
      2 + places + exponentLength (cs.drop places)
    else 0
  | _ => 0

/-- What digits are read as. -/
inductive Form where
  /-- A whole number in a base other than ten; the digits follow two characters. -/
  | based (base : Nat)
  | fraction
  | whole
  deriving DecidableEq, Repr

/-- The form of the numeral that begins the text, whose first character is a digit, and how many
characters it takes after the first. -/
def shape (first : Char) (cs : List Char) : Form × Nat :=
  let based : Option (Form × Nat) :=
    match first, cs with
    | '0', letter :: rest =>
      match baseOf? letter with
      | some base =>
        let digits := (rest.takeWhile (isPlace base)).length
        -- A prefix with nothing behind it is a zero and the beginning of a word.
        if digits = 0 then none else some (.based base, 1 + digits)
      | none => none
    | _, _ => none
  match based with
  | some shape => shape
  | none =>
    let whole := (cs.takeWhile (isPlace 10)).length
    let fraction := fractionLength (cs.drop whole)
    if fraction = 0 then (.whole, whole) else (.fraction, whole + fraction)

/-- The number that a numeral spells.  A prefix needs a digit behind it, and a whole number in base
ten has at most `maxDigits` digits, leading zeros included. -/
def value? (form : Form) (numeral : List Char) : Option Number :=
  let digits := withoutUnderscores numeral
  match form with
  | .based base =>
    match digits.drop 2 with
    | [] => none
    | digits => some (.int (Digits.toNat base digits))
  | .fraction => (Decimal.read? digits).map fun d => .real (d.toDouble false)
  | .whole => if digits.length ≤ maxDigits then some (.int (Digits.toNat 10 digits)) else none

/-- Reads the numeral that begins the text: its value and how many characters it takes after the
first. -/
def read (first : Char) (cs : List Char) : Except Fault (Number × Nat) :=
  let (form, more) := shape first cs
  let numeral := first :: cs.take more
  match cs.drop more with
  | next :: _ =>
    if Text.isWord next then .error (.number (String.ofList (numeral ++ [next])))
    else finish form numeral more
  | [] => finish form numeral more
where
  finish (form : Form) (numeral : List Char) (more : Nat) : Except Fault (Number × Nat) :=
    match value? form numeral with
    | some value => .ok (value, more)
    | none => .error (.number (String.ofList numeral))

end GradingScript.Numeral

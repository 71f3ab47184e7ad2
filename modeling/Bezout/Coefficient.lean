/-!
Exact numbers and the coefficients of polynomials. A number is held as an integer or as a fraction, and
the two holdings of one value are told apart in what is printed (`text`, `literal`) but not when numbers
are compared. Coefficients have an addition, a negation and a multiplication, the images of the integers,
the inverses of units, and the number that stands for a coefficient in texts and comparisons
(`Coefficient`). Powers are found by repeated squaring, for any multiplication with a unit (`power`).
-/
namespace Bezout

/-! ### Numbers -/

/-- An exact number, held as an integer or as a fraction. -/
inductive Number
  | integer (n : Int)
  | fraction (q : Rat)

namespace Number

/-- The value of a number, however it is held. -/
def value : Number → Rat
  | integer n => n
  | fraction q => q

/-- The integer that a number is held as. -/
def integer? : Number → Option Int
  | integer n => some n
  | fraction _ => none

/-- Two numbers are the same if their values are, however they are held. -/
def same (a b : Number) : Bool := a.value == b.value

/-- Numbers are ordered by value. -/
def less (a b : Number) : Bool := a.value < b.value

def isZero (a : Number) : Bool := a.value == 0

/-- A sum is held as an integer only if both summands are. -/
def add : Number → Number → Number
  | integer a, integer b => integer (a + b)
  | a, b => fraction (a.value + b.value)

/-- A product is held as an integer only if both factors are. -/
def mul : Number → Number → Number
  | integer a, integer b => integer (a * b)
  | a, b => fraction (a.value * b.value)

def neg : Number → Number
  | integer a => integer (-a)
  | fraction q => fraction (-q)

/-- The remainder, from zero up to below the modulus. -/
def mod (a : Number) (m : Nat) : Number :=
  match a with
  | integer n => integer (n % m)
  | fraction q => fraction (q - m * (q / m).floor)

/-- A fraction shows its denominator unless it is one. -/
def text : Number → String
  | integer n => toString n
  | fraction q => if q.den = 1 then toString q.num else s!"{q.num}/{q.den}"

/-- The written form that also shows how the number is held. -/
def literal : Number → String
  | integer n => toString n
  | fraction q => s!"Fraction({q.num}, {q.den})"

end Number

/-! ### Powers -/

/-- `done` times the power of `base`, reading the exponent from its lowest bit. -/
def powerFrom {α : Type} (mul : α → α → α) (done base : α) (n : Nat) : α :=
  if n = 0 then done
  else powerFrom mul (if n % 2 = 1 then mul done base else done) (mul base base) (n / 2)
termination_by n
decreasing_by omega

/-- The `n`-th power of `a` by repeated squaring, starting from `one`. -/
def power {α : Type} (mul : α → α → α) (one a : α) (n : Nat) : α := powerFrom mul one a n

/-! ### Coefficients -/

/-- Coefficients of polynomials. -/
class Coefficient (R : Type) extends Zero R, One R, Add R, Neg R, Mul R where
  decEq : DecidableEq R
  /-- The image of an integer. -/
  ofInt : Int → R
  /-- The inverse of a unit, and nothing for any other coefficient. -/
  inverse? : R → Option R
  /-- The number that stands for a coefficient. -/
  number : R → Number

instance (priority := low) (R : Type) [Coefficient R] : DecidableEq R := Coefficient.decEq

/-- The units among the integers are one and minus one, their own inverses. -/
instance : Coefficient Int where
  zero := 0
  one := 1
  decEq := inferInstance
  ofInt n := n
  inverse? a := if a = 1 ∨ a = -1 then some a else none
  number := .integer

/-- Every rational number but zero is a unit. -/
instance : Coefficient Rat where
  zero := 0
  one := 1
  decEq := inferInstance
  ofInt n := n
  inverse? a := if a = 0 then none else some a⁻¹
  number := .fraction

end Bezout

import Bezout.Fault
import Bezout.Text.Numeral

/-!
What the rings do with values and numbers. Truth values and numbers are taken in where they stand for
an element: a fraction stands for an integer if its denominator is one, and for a residue if its
denominator is not divisible by the modulus. A bare ring takes in nothing. A ring has a name: `ZZ`, `QQ`,
or `GF` with a prime, in parentheses or not, in upper or lower case and between blanks. Its arithmetic is
on numbers, which need not be the ones that stand for its elements: residues are added, negated and
multiplied by reducing the result, while the tests for zero and for units look at the number as it is.
-/
namespace Bezout

/-! ### Values as elements -/

namespace BaseRing

/-- The element that a number stands for. -/
def ofNumber : (r : BaseRing) → Number → Except Fault r.Elem
  | integers, .integer n => .ok n
  | integers, .fraction q =>
    if q.den = 1 then .ok q.num else .error (.notInRing (.fraction q) integers)
  | rationals, n => .ok n.value
  | residues m, .integer n => .ok (Residue.ofInt m n)
  | residues m, .fraction q =>
    match (Residue.ofInt m q.den).inverse? with
    | some inverse => .ok (Residue.ofInt m q.num * inverse)
    | none => .error (.noImage q (residues m))
  | bare _ _, _ => .error .takesNoValue

/-- The element that a value stands for. -/
def ofValue (r : BaseRing) (v : Value) : Except Fault r.Elem :=
  match r, v.exactNumber? with
  | bare _ _, _ => .error .takesNoValue
  | r, some n => r.ofNumber n
  | r, none => .error (.notInRing v r)

/-- The residues by a prime. Other numbers are no moduli, and neither are truth values. -/
def ofModulus (v : Value) : Except Fault BaseRing :=
  match v.number? with
  | some n =>
    match if n.value.den = 1 then Modulus.ofInt? n.value.num else none with
    | some m => .ok (residues m)
    | none => .error (.notPrime v)
  | none => .error .unsuitable

end BaseRing

/-! ### Names of rings -/

/-- The row of digits that a text is, if it is one and not empty. -/
def digits? (s : List Char) : Option Nat :=
  if !s.isEmpty && s.all Text.isDigit then some (Text.numberOf s) else none

/-- The number of a prime field's name; each parenthesis may be left out. -/
def fieldNumber? : List Char → Option Nat
  | g :: f :: rest =>
    if (g == 'G' || g == 'g') && (f == 'F' || f == 'f') then
      let opened := if rest.head? = some '(' then rest.tail else rest
      digits? (if opened.getLast? = some ')' then opened.dropLast else opened)
    else none
  | _ => none

/-- The ring with a name. -/
def BaseRing.ofName (text : String) : Except Fault BaseRing :=
  let name := String.ofList (Text.trimmed Text.isBlank text.toList)
  if Text.upper name = "ZZ" then .ok integers
  else if Text.upper name = "QQ" then .ok rationals
  else
    match fieldNumber? name.toList with
    | some n => ofModulus (.integer n)
    | none => .error (.unknownRing name)

/-! ### Arithmetic -/

namespace BaseRing

/-- A result of the arithmetic of numbers as a number of the ring. -/
def reduced (r : BaseRing) (a : Number) : Number :=
  match r with
  | residues m => a.mod m.value
  | _ => a

def zeroNumber (r : BaseRing) : Number := Coefficient.number (0 : r.Elem)

def oneNumber (r : BaseRing) : Number := Coefficient.number (1 : r.Elem)

def add (r : BaseRing) (a b : Number) : Number := r.reduced (a.add b)

def neg (r : BaseRing) (a : Number) : Number := r.reduced a.neg

def sub (r : BaseRing) (a b : Number) : Number := r.add a (r.neg b)

def mul (r : BaseRing) (a b : Number) : Number := r.reduced (a.mul b)

/-- The power with a count as exponent, which must not be negative. -/
def pow (r : BaseRing) (a : Number) (n : Int) : Except Fault Number :=
  if n < 0 then .error .negativeCount else .ok (power r.mul r.oneNumber a n.toNat)

/-- The units of the integers are one and minus one; in a field, every number but zero passes. -/
def isUnit (r : BaseRing) (a : Number) : Except Fault Bool :=
  match r with
  | integers => .ok (a.same (.integer 1) || a.same (.integer (-1)))
  | rationals | residues _ => .ok !a.isZero
  | bare _ _ => .error .takesNoValue

/-- The inverse of a unit. A fraction has none by a modulus, unless it is divisible by it. -/
def inverse (r : BaseRing) (a : Number) : Except Fault Number :=
  match r with
  | integers =>
    if a.same (.integer 1) || a.same (.integer (-1)) then .ok a else .error (.notUnit a integers)
  | rationals =>
    if a.isZero then .error (.notUnit (.integer 0) rationals) else .ok (.fraction a.value⁻¹)
  | residues m =>
    if (a.mod m.value).isZero then .error (.notUnit (.integer 0) (residues m))
    else
      match a with
      | .integer n =>
        match (Residue.ofInt m n).inverse? with
        | some inverse => .ok (.integer inverse.value)
        | none => .error (.notUnit (.integer 0) (residues m))
      | .fraction _ => .error .unsuitable
  | bare _ _ => .error .takesNoValue

/-- The quotient of two numbers that leaves no remainder. Over the integers it has to be a whole
    number. -/
def exactDiv (r : BaseRing) (a b : Number) : Except Fault Number :=
  match r with
  | integers =>
    if b.isZero then .error (.divisionByZero a)
    else
      let quotient := a.value / b.value
      if quotient.den = 1 then .ok (.integer quotient.num) else .error (.notDivisible a b)
  | rationals => do .ok (rationals.mul a (← rationals.inverse b))
  | residues m => do .ok ((residues m).mul a (← (residues m).inverse b))
  | bare _ _ => .error .takesNoValue

/-- The number to divide coefficients by, lowest first, for the canonical associate: the leading
    coefficient in a field, the greatest common divisor with the sign of the leading coefficient
    over the integers, where fractions have no common divisor. -/
def normalFactor (r : BaseRing) (coefficients : List Number) : Except Fault Number :=
  match r, coefficients.getLast? with
  | _, none => .ok r.oneNumber
  | integers, some lead =>
    match coefficients.mapM Number.integer? with
    | none => .error .unsuitable
    | some ns =>
      let content := ns.foldl (fun g n => Nat.gcd g n.natAbs) 0
      .ok (.integer (if lead.less (.integer 0) then -content else content))
  | rationals, some lead => .ok lead
  | residues _, some lead => .ok lead
  | bare _ _, some _ => .ok r.oneNumber

end BaseRing

end Bezout

/-!
Decimal fractions, which no ring takes in; they are only read and shown. Floating-point numbers with 53
binary digits as the rational numbers that they are: a number is rounded to the nearest of them
(`nearest`), and is written with the fewest decimal digits that are rounded back to it (`shortest`).
-/
namespace Bezout

/-- The decimal fraction `digits * 10^(-places)`. -/
structure Decimal where
  digits : Int
  places : Nat

namespace Decimal

def value (d : Decimal) : Rat := d.digits / (Nat.pow 10 d.places : Nat)

/-- The digits from the first that is not zero to the last, and the power of ten of the first. -/
def significant (d : Decimal) : List Char × Int :=
  let all := Nat.toDigits 10 d.digits.natAbs
  ((all.reverse.dropWhile (· == '0')).reverse, (all.length : Int) - 1 - d.places)

/-- Digits with a point where the power of the first digit is not negative. -/
def positional (digits : List Char) (power : Int) : List Char :=
  if power < 0 then '0' :: '.' :: (List.replicate (-power - 1).toNat '0' ++ digits)
  else
    let whole := digits.take (power + 1).toNat
    let rest := digits.drop (power + 1).toNat
    whole ++ List.replicate ((power + 1).toNat - whole.length) '0' ++
      '.' :: (if rest.isEmpty then ['0'] else rest)

/-- One digit before the point, and the power of ten with its sign and at least two digits. -/
def scientific (digits : List Char) (power : Int) : List Char :=
  let exponent := Nat.toDigits 10 power.natAbs
  digits.take 1 ++ (if digits.length ≤ 1 then [] else '.' :: digits.drop 1) ++
    'e' :: (if power < 0 then '-' else '+') ::
      (List.replicate (2 - exponent.length) '0' ++ exponent)

/-- A decimal fraction is written with a point and at least one digit after it where its first
    digit stands for a power of ten from -4 to 15, and with an exponent elsewhere. -/
def text (d : Decimal) : String :=
  let (digits, power) := d.significant
  let sign := if d.digits < 0 then ['-'] else []
  if digits.isEmpty then "0.0"
  else if -4 ≤ power && power < 16 then String.ofList (sign ++ positional digits power)
  else String.ofList (sign ++ scientific digits power)

end Decimal

namespace Floating

/-- The nearest integer; of two that are equally near the even one. -/
def roundHalfEven (q : Rat) : Int :=
  let below := q.floor
  let rest := q - below
  if rest < 1 / 2 then below
  else if 1 / 2 < rest then below + 1
  else if below % 2 = 0 then below else below + 1

/-- The power of a base with an integer as exponent. -/
def scale (base : Nat) (e : Int) : Rat :=
  if e < 0 then 1 / (base.pow e.natAbs : Nat) else (base.pow e.natAbs : Nat)

/-- The exponent of the last binary digit of a positive number, from -1074 on. -/
def lastExponent (q : Rat) : Int :=
  let e := (q.num.natAbs.log2 : Int) - q.den.log2 - 52
  max (if q < scale 2 (e + 52) then e - 1 else e) (-1074)

/-- The nearest floating-point number, without an upper limit. -/
def nearest (q : Rat) : Rat :=
  if q = 0 then 0
  else
    let unit := scale 2 (lastExponent (if q < 0 then -q else q))
    roundHalfEven (q / unit) * unit

/-- A multiple of a power of ten. -/
def decimal (digits e : Int) : Decimal :=
  if e < 0 then ⟨digits, e.natAbs⟩ else ⟨digits * Int.pow 10 e.natAbs, 0⟩

/-- The multiple of a power of ten that is nearest to a number, or else the other one beside the
    number, provided that it is rounded to it. -/
def onGrid? (v : Rat) (e : Int) : Option Decimal :=
  let quotient := v / scale 10 e
  let near := roundHalfEven quotient
  let far := if near ≤ quotient then near + 1 else near - 1
  let isHit := fun (n : Int) => nearest (n * scale 10 e) = v
  ([near, far].find? isHit).map fun n => decimal n e

/-- The decimal fraction with the fewest digits that is rounded to a floating-point number. -/
def shortest (v : Rat) : Decimal :=
  let size := (Nat.toDigits 10 v.num.natAbs).length - (Nat.toDigits 10 v.den).length + (1 : Int)
  ((List.range 19).findSome? fun (places : Nat) => onGrid? v (size - places)).getD ⟨0, 0⟩

/-- A number times the reciprocal of an integer, each rounded. -/
def quotient (a : Rat) (n : Int) : Decimal := shortest (nearest (nearest a * nearest (1 / n)))

end Floating
end Bezout

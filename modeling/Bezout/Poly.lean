import Bezout.BaseRing
import Bezout.Dense

/-!
Polynomials that carry the ring they are written over, and the results of dividing them. Two
polynomials can be reckoned with together once the second is seen over the ring of the first
(`Poly.over?`), which fails exactly when their rings differ. A polynomial is written from the highest
power down, without zero terms, without coefficients that are one except the constant, with the sign
of a negative coefficient between the terms. The literal form lists the coefficients with the ring.
-/
namespace Bezout

/-- A polynomial over one of the base rings. -/
structure Poly where
  ring : BaseRing
  dense : Dense ring.Elem

/-- A division: `lead(q)^scale * p = quotient * q + remainder`. -/
structure Division (P : Type) where
  scale : Int
  quotient : P
  remainder : P
  deriving DecidableEq

namespace Poly

/-- The coefficients of a polynomial, provided that it is written over the given ring. -/
def over? (p : Poly) (r : BaseRing) : Option (Dense r.Elem) :=
  if same : p.ring = r then some (same ▸ p.dense) else none

@[simp] theorem over?_self (r : BaseRing) (p : Dense r.Elem) : over? ⟨r, p⟩ r = some p := by
  simp [over?]

@[simp] theorem over?_ring (p : Poly) : p.over? p.ring = some p.dense := over?_self p.ring p.dense

theorem over?_eq_none_iff (p : Poly) (r : BaseRing) : p.over? r = none ↔ p.ring ≠ r := by
  simp [over?]

theorem over?_eq_some_iff {p : Poly} {r : BaseRing} {d : Dense r.Elem} :
    p.over? r = some d ↔ p = ⟨r, d⟩ := by
  obtain ⟨s, e⟩ := p
  constructor
  · intro seen
    simp only [over?] at seen
    split at seen
    · rename_i same
      cases same
      cases seen
      rfl
    · cases seen
  · intro same
    cases same
    simp

instance : DecidableEq Poly := fun p q =>
  match seen : p.over? q.ring with
  | none => isFalse fun same => (over?_eq_none_iff p q.ring).mp seen (congrArg ring same)
  | some d =>
    if same : d = q.dense then isTrue ((over?_eq_some_iff.mp seen).trans (by rw [same]))
    else isFalse fun equal => same (by subst equal; exact Option.some.inj (seen.symm.trans p.over?_ring))

/-- The zero polynomial over a ring. -/
def zero (r : BaseRing) : Poly := ⟨r, 0⟩

def size (p : Poly) : Nat := p.dense.size

/-- Minus one for the zero polynomial. -/
def degree (p : Poly) : Int := (p.size : Int) - 1

def isZero (p : Poly) : Bool := p.size == 0

def isConstant (p : Poly) : Bool := p.size ≤ 1

/-- The numbers that stand for the coefficients, lowest first. -/
def numbers (p : Poly) : List Number := p.dense.numbers

/-- The number that stands for the leading coefficient. -/
def lead (p : Poly) : Number := Coefficient.number p.dense.lead

end Poly

/-! ### Texts -/

/-- A term whose coefficient is not negative. -/
def termText (name : String) (power : Nat) (coefficient : Number) : String :=
  if power = 0 then coefficient.text
  else
    (if coefficient.same (.integer 1) then "" else coefficient.text) ++
      (if power = 1 then name else s!"{name}^{power}")

/-- A term after `written`: its sign stands before it, and apart from what is written already. -/
def appendTerm (name written : String) (term : Number × Nat) : String :=
  let (coefficient, power) := term
  let negative := coefficient.less (.integer 0)
  let sign := if written = "" then (if negative then "-" else "") else if negative then " - " else " + "
  written ++ sign ++ termText name power (if negative then coefficient.neg else coefficient)

/-- The text of a polynomial with the given coefficients, lowest first. -/
def termsText (name : String) (coefficients : List Number) : String :=
  match coefficients.zipIdx.reverse.filter fun (c, _) => !c.isZero with
  | [] => "0"
  | terms => terms.foldl (appendTerm name) ""

/-- A row of items as a tuple: a single item is followed by a comma. -/
def tupleText : List String → String
  | [item] => s!"({item},)"
  | items => "(" ++ ", ".intercalate items ++ ")"

namespace Poly

/-- The polynomial in a variable of the given name. -/
def text (p : Poly) (name : String) : String := termsText name p.numbers

/-- The coefficients, lowest first, with the ring. -/
def literal (p : Poly) : String :=
  s!"Polynomial({tupleText (p.numbers.map Number.literal)}, {p.ring.name})"

end Poly

/-- The scale with the literal forms of quotient and remainder. -/
def Division.literal (d : Division Poly) : String :=
  s!"DivisionResult({d.scale}, {d.quotient.literal}, {d.remainder.literal})"

end Bezout

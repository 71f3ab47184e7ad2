import Bezout.Floating
import Bezout.PolyArithmetic
import Bezout.Work

/-!
Division of polynomials. If the leading coefficient of the divisor is a unit, each step takes a
multiple of the divisor from the remainder; otherwise quotient and remainder are multiplied by
that coefficient in each step, so that no quotient of coefficients is needed. Division by zero
leaves the dividend as the remainder.

Polynomials over different rings can be divided as long as no step is taken: the first step
multiplies the divisor by a polynomial over the ring of the dividend.
-/
namespace Bezout
namespace Dense
variable {R : Type} [Coefficient R]

/-- Divides on by a polynomial whose leading coefficient has an inverse. Each step makes the
    remainder smaller; the test for it keeps the recursion finite over any coefficients. -/
def exactFrom (q : Dense R) (inverse : R) (quotient remainder : Dense R) :
    Work (Division (Dense R)) :=
  if q.size ≤ remainder.size then
    let m := monomial (remainder.lead * inverse) (remainder.size - q.size)
    let next := remainder - m * q
    if next.size < remainder.size then do
      Work.note s!"remainder size {next.size}"
      exactFrom q inverse (quotient + m) next
    else .done ⟨0, quotient + m, next⟩
  else .done ⟨0, quotient, remainder⟩
termination_by remainder.size

/-- Divides on by any polynomial but zero after `steps` steps, multiplying by its leading
    coefficient in each step. -/
def pseudoFrom (q : Dense R) (steps : Nat) (quotient remainder : Dense R) :
    Work (Division (Dense R)) :=
  if q.size ≤ remainder.size then
    let m := monomial remainder.lead (remainder.size - q.size)
    let next := remainder.scale q.lead - m * q
    if next.size < remainder.size then do
      Work.note s!"step {steps + 1}: remainder size {next.size}"
      pseudoFrom q (steps + 1) (quotient.scale q.lead + m) next
    else .done ⟨steps + 1, quotient.scale q.lead + m, next⟩
  else .done ⟨steps, quotient, remainder⟩
termination_by remainder.size

end Dense

/-- A division over a ring as a division of polynomials that carry the ring. -/
def Division.over (r : BaseRing) (d : Division (Dense r.Elem)) : Division Poly :=
  ⟨d.scale, ⟨r, d.quotient⟩, ⟨r, d.remainder⟩⟩

/-- The division of a polynomial that no step is taken in. -/
def Division.untouched (p : Poly) : Division Poly := ⟨0, .zero p.ring, p⟩

namespace Poly

/-- The sizes of two polynomials as the details of a task. -/
def sizes (p q : Poly) : List (String × String) :=
  [("p_size", toString p.size), ("q_size", toString q.size)]

/-- Division that multiplies by the leading coefficient of the divisor in each step. -/
def pseudoDivide (p q : Poly) : Work (Division Poly) :=
  if q.isZero then .done (.untouched p)
  else
    .task "pseudo_divide" (sizes p q) <|
      match q.over? p.ring with
      | some d => (Dense.pseudoFrom d 0 0 p.dense).map (Division.over p.ring)
      | none =>
        if p.size < q.size then .done (.untouched p)
        else do
          let _ ← Work.ofExcept (p.ring.ofNumber q.lead)
          .fail (.mixedRings p.ring q.ring)

/-- What ends the first step of a division across rings. The reciprocal of an integer is no
    fraction but a floating-point number, which makes the first coefficient of the quotient one. -/
def faultAcross (p q : Poly) : Fault :=
  match p.ring, q.lead with
  | .rationals, .integer n => .notInRing (.decimal (Floating.quotient p.lead.value n)) .rationals
  | r, _ => .mixedRings r q.ring

/-- Division by a polynomial over another ring whose leading number passes for a unit. -/
def divideAcross (p q : Poly) : Work (Division Poly) := do
  let _ ← Work.ofExcept (p.ring.inverse q.lead)
  .task "divide" (sizes p q) <|
    if p.size < q.size then .done (.untouched p) else .fail (faultAcross p q)

/-- Exact division where the leading coefficient of the divisor is a unit, and `pseudoDivide`
    elsewhere. -/
def divide (p q : Poly) : Work (Division Poly) :=
  if q.isZero then .done (.untouched p)
  else
    match q.over? p.ring with
    | some d =>
      match Coefficient.inverse? d.lead with
      | some inverse =>
        .task "divide" (sizes p q) <|
          (Dense.exactFrom d inverse 0 p.dense).map (Division.over p.ring)
      | none => pseudoDivide p q
    | none => do
      if ← Work.ofExcept (p.ring.isUnit q.lead) then divideAcross p q else pseudoDivide p q

/-- The quotient of a division. -/
def div (p q : Poly) : Work Poly := (divide p q).map Division.quotient

/-- The remainder of a division. -/
def mod (p q : Poly) : Work Poly := (divide p q).map Division.remainder

/-- How often a division has multiplied by the leading coefficient of the divisor. -/
def scaleExponent (p q : Poly) : Work Int := (divide p q).map Division.scale

/-- Whether `d` leaves no remainder; zero divides zero only. -/
def divides (d p : Poly) : Work Bool := (mod p d).map isZero

/-- Whether two polynomials divide each other. -/
def associated (p q : Poly) : Work Bool := do
  if ← divides p q then divides q p else .done false

/-- `result` times a power of `base`, by a modulus, reading the exponent from its lowest bit. -/
def powerModFrom (modulus result base : Poly) (e : Nat) : Work Poly :=
  if e = 0 then .done result
  else do
    let result ← if e % 2 = 1 then do mod (← .ofExcept (result.mul base)) modulus else .done result
    let base ← do mod (← .ofExcept (base.mul base)) modulus
    powerModFrom modulus result base (e / 2)
termination_by e
decreasing_by omega

/-- The remainder of a power by repeated squaring. -/
def powerMod (base : Poly) (e : Int) (modulus : Poly) : Work Poly :=
  if e < 0 then .fail .negativeCount
  else do
    let result ← mod (← .ofExcept (one base.ring)) modulus
    let base ← mod base modulus
    powerModFrom modulus result base e.toNat

end Poly

/-- Whether a division is one of `p` by `q`: the identity that holds between its parts. -/
def Division.reconstructs (d : Division Poly) (p q : Poly) : Except Fault Bool := do
  let factor ← if q.isZero then .ok p.ring.oneNumber else p.ring.pow q.lead d.scale
  let scaled ← p.scale (.number factor)
  let product ← d.quotient.mul q
  let total ← product.add d.remainder
  .ok (decide (scaled = total))

end Bezout

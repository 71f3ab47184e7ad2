import Bezout.Divide

/-!
Greatest common divisors by Euclid's algorithm, the cofactors that combine two polynomials to
their greatest common divisor, and what is built on them. Results are determined up to
association only; `normalize` picks one associate.
-/
namespace Bezout
namespace Poly

/-- Euclid's algorithm for a number of rounds: the last divisor that was not zero. -/
def gcdRounds : Nat → Poly → Poly → Work Poly
  | 0, _, q => .done q
  | rounds + 1, p, q => do
    let r ← mod p q
    if r.isZero then .done q
    else do
      Work.note s!"remainder size {r.size}"
      gcdRounds rounds q r

/-- The greatest common divisor of a polynomial and one that is not larger. Every round makes the
    divisor smaller, so there are no more rounds than the size of the first. -/
def gcdOrdered (p q : Poly) : Work Poly :=
  if p.isZero then .done q
  else .task "gcd" (sizes p q) (gcdRounds p.size p q)

/-- A greatest common divisor. -/
def gcd (p q : Poly) : Work Poly := if p.size < q.size then gcdOrdered q p else gcdOrdered p q

/-- The greatest common divisor of `start` and some polynomials, from left to right. -/
def gcdFrom (start : Poly) : List Poly → Work Poly
  | [] => .done start
  | p :: rest => do gcdFrom (← gcd start p) rest

/-- A greatest common divisor of polynomials over a ring, by default the ring of the first. -/
def gcdAll (ps : List Poly) (ring? : Option BaseRing) : Work Poly :=
  match ring?, ps with
  | some r, _ => gcdFrom (.zero r) ps
  | none, p :: _ => gcdFrom (.zero p.ring) ps
  | none, [] => .fail .nothingGiven

/-- Cofactors over the ring `r`, in at most `rounds` divisions. The cofactors of the divisor and
    the remainder become those of the dividend and the divisor. -/
def cofactorRounds (r : BaseRing) : Nat → Poly → Poly → Work (Poly × Poly)
  | 0, _, _ => do .done (← .ofExcept (one r), .zero r)
  | rounds + 1, p, q =>
    if q.isZero then do .done (← .ofExcept (one r), .zero r)
    else do
      let d ← divide p q
      let factor ← .ofExcept (r.pow q.lead d.scale)
      let (u, v) ← cofactorRounds r rounds q d.remainder
      let scaled ← .ofExcept (v.scale (.number factor))
      let product ← .ofExcept (v.mul d.quotient)
      let rest ← .ofExcept (u.sub product)
      .done (scaled, rest)

/-- Cofactors `(u, v)` such that `u * p + v * q` is a greatest common divisor. -/
def egcd (p q : Poly) : Work (Poly × Poly) :=
  .task "egcd" (sizes p q) <|
    if q.size ≤ p.size then cofactorRounds p.ring q.size p q
    else (cofactorRounds q.ring p.size q p).map Prod.swap

/-- Whether the greatest common divisor is a constant other than zero. -/
def coprime (p q : Poly) : Work Bool := (gcd p q).map fun g => g.size == 1

/-- Divides `p` by its common divisors with `q`, for a number of rounds. Only zero is left without
    an answer then: one if `q` is zero too, and zero otherwise. -/
def gdcopRounds (r : BaseRing) (q : Poly) : Nat → Poly → Work Poly
  | 0, _ => .ofExcept (constant (.integer (if q.isZero then 1 else 0)) r)
  | rounds + 1, p => do
    if ← coprime p q then .done p
    else do
      let g ← gcd p q
      gdcopRounds r q rounds (← div p g)

/-- The greatest divisor of `p` that is coprime to `q`. -/
def gdcop (q p : Poly) : Work Poly := gdcopRounds p.ring q p.size p

/-- Whether the value at an element is zero. -/
def isRoot (p : Poly) (v : Value) : Except Fault Bool := (p.eval v).map fun y => decide (y = 0)

/-- How often `factor` divides `p`, counted up from `count`. A division by a factor that is not
    constant makes `p` smaller, so there are no more rounds than its size. -/
def multiplicityRounds (factor : Poly) : Nat → Nat → Poly → Work Nat
  | 0, count, _ => .done count
  | rounds + 1, count, p =>
    if p.isConstant then .done count
    else do
      if ← divides factor p then
        multiplicityRounds factor rounds (count + 1) (← div p factor)
      else .done count

/-- How often the variable less a value divides a polynomial; never, if that is constant. -/
def multiplicity (v : Value) (p : Poly) : Work Nat := do
  let factor ← Work.ofExcept (linearFactor v p.ring)
  multiplicityRounds factor p.size 0 p

/-- A least common multiple; zero if one of the polynomials is. -/
def lcm (p q : Poly) : Work Poly :=
  if p.isZero || q.isZero then .done (.zero p.ring)
  else do
    let product ← Work.ofExcept (p.mul q)
    let g ← gcd p q
    div product g

/-- The canonical associate: monic over a field, primitive with a positive leading coefficient
    over the integers. -/
def normalize (p : Poly) : Except Fault Poly :=
  if p.isZero then .ok p
  else do
    let factor ← p.ring.normalFactor p.numbers
    let quotients ← p.numbers.mapM fun c => p.ring.exactDiv c factor
    ofValues (quotients.map Value.number) p.ring

/-- Whether a polynomial is coprime to its derivative. -/
def isSquareFree (p : Poly) : Work Bool := coprime p p.derivative

/-- The product of the distinct irreducible factors, over a ring of characteristic zero. -/
def squareFreePart (p : Poly) : Work Poly :=
  if p.ring.characteristic ≠ 0 then .fail (.needsCharacteristicZero p.ring)
  else if p.isZero then .done p
  else do
    let g ← gcd p p.derivative
    let q ← div p g
    .ofExcept (normalize q)

end Poly
end Bezout

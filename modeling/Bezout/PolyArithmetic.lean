import Bezout.Arithmetic

/-!
Building and reckoning with polynomials. Sums, differences and products need polynomials over one
ring; values that are not polynomials are taken into the ring first.
-/
namespace Bezout
namespace Poly

/-- The polynomial with the given coefficients, lowest first. -/
def ofValues (coefficients : List Value) (r : BaseRing) : Except Fault Poly :=
  (coefficients.mapM r.ofValue).map fun cs => ⟨r, Dense.ofList cs⟩

/-- The constant polynomial with a value. -/
def constant (v : Value) (r : BaseRing) : Except Fault Poly := ofValues [v] r

/-- The constant polynomial one. A bare ring has none. -/
def one (r : BaseRing) : Except Fault Poly := constant (.integer 1) r

/-- A value times a power of the variable. -/
def monomial (v : Value) (n : Int) (r : BaseRing) : Except Fault Poly :=
  if n < 0 then .error .negativeCount
  else ofValues (List.replicate n.toNat (.integer 0) ++ [v]) r

/-- The variable as a polynomial. -/
def indeterminate (r : BaseRing) : Except Fault Poly := monomial (.integer 1) 1 r

/-- The variable less a value. -/
def linearFactor (v : Value) (r : BaseRing) : Except Fault Poly :=
  (r.ofValue v).map fun x => ⟨r, Dense.linearFactor x⟩

/-- The product of the linear factors of some values. -/
def fromRoots (roots : List Value) (r : BaseRing) : Except Fault Poly := do
  let _ ← one r
  let xs ← roots.mapM r.ofValue
  .ok ⟨r, xs.foldl (fun p x => p * Dense.linearFactor x) 1⟩

/-- A second operand over the ring of the first. -/
def operand (r : BaseRing) (q : Poly) : Except Fault (Dense r.Elem) :=
  match q.over? r with
  | some d => .ok d
  | none => .error (.mixedRings r q.ring)

def neg (p : Poly) : Poly := ⟨p.ring, -p.dense⟩

def add (p q : Poly) : Except Fault Poly :=
  (operand p.ring q).map fun d => ⟨p.ring, p.dense + d⟩

def sub (p q : Poly) : Except Fault Poly :=
  (operand p.ring q).map fun d => ⟨p.ring, p.dense - d⟩

def mul (p q : Poly) : Except Fault Poly :=
  (operand p.ring q).map fun d => ⟨p.ring, p.dense * d⟩

/-- Every coefficient times a value. -/
def scale (p : Poly) (v : Value) : Except Fault Poly :=
  (p.ring.ofValue v).map fun c => ⟨p.ring, p.dense.scale c⟩

/-- The power with an integer as exponent, which must not be negative. -/
def pow (p : Poly) (exponent : Value) : Except Fault Poly :=
  match exponent.exactNumber? with
  | some (.integer n) =>
    if n < 0 then .error .badExponent
    else (one p.ring).map fun _ => ⟨p.ring, p.dense.pow n.toNat⟩
  | _ => .error .badExponent

/-- The product with a power of the variable. -/
def shift (p : Poly) (n : Int) : Except Fault Poly :=
  if n < 0 then .error .negativeCount else .ok ⟨p.ring, p.dense.shift n.toNat⟩

/-- The value at an element. -/
def eval (p : Poly) (v : Value) : Except Fault p.ring.Elem :=
  (p.ring.ofValue v).map fun x => p.dense.eval x

def derivative (p : Poly) : Poly := ⟨p.ring, p.dense.derivative⟩

/-- The multiple with leading coefficient one; zero stays. -/
def monic (p : Poly) : Except Fault Poly :=
  if p.ring.isField then
    match Coefficient.inverse? p.dense.lead with
    | some inverse => .ok ⟨p.ring, p.dense.scale inverse⟩
    | none => .ok p
  else .error (.needsField p.ring)

/-- Whether the leading coefficient is one. -/
def isMonic (p : Poly) : Bool := !p.isZero && p.lead.same (.integer 1)

/-- The polynomial with the same coefficients taken into another ring. -/
def changeRing (p : Poly) (r : BaseRing) : Except Fault Poly :=
  ofValues (p.numbers.map Value.number) r

/-- The coefficient at a power, zero from the size on. A negative power counts from the end. -/
def coefficient (p : Poly) (i : Int) : Except Fault Number :=
  if p.size ≤ i then .ok p.ring.zeroNumber
  else
    let place := if i < 0 then i + p.size else i
    match p.numbers[place.toNat]? with
    | some c => if place < 0 then .error .outOfRange else .ok c
    | none => .error .outOfRange

/-- Coefficients from the highest power down come first where the first difference is smaller. -/
def lessFrom : List Number → List Number → Bool
  | a :: as, b :: bs => if a.less b then true else if b.less a then false else lessFrom as bs
  | _, _ => false

/-- Smaller polynomials come first, and those of one size in the order of their coefficients from
    the highest power down. The rings are not looked at. -/
def less (p q : Poly) : Bool :=
  if p.size = q.size then lessFrom p.numbers.reverse q.numbers.reverse else p.size < q.size

/-- Whether a polynomial comes before another or is the same. -/
def atMost (p q : Poly) : Bool := p.less q || decide (p = q)

/-- Whether a polynomial neither comes before another nor is the same. -/
def greater (p q : Poly) : Bool := !p.less q && decide (p ≠ q)

/-- Whether a polynomial does not come before another. -/
def atLeast (p q : Poly) : Bool := !p.less q

/-- The polynomials in ascending order; those that are not ordered keep their order. -/
def sorted (ps : List Poly) : List Poly := ps.mergeSort fun p q => !q.less p

end Poly

namespace Value

/-- The sum of two values, one of them a polynomial. -/
def plus : Value → Value → Except Fault Value
  | polynomial p, polynomial q => (p.add q).map polynomial
  | polynomial p, v => do polynomial <$> p.add (← Poly.constant v p.ring)
  | v, polynomial q => do polynomial <$> q.add (← Poly.constant v q.ring)
  | _, _ => .error .unsuitable

/-- The difference of two values, one of them a polynomial. -/
def minus : Value → Value → Except Fault Value
  | polynomial p, polynomial q => (p.sub q).map polynomial
  | polynomial p, v => do polynomial <$> p.sub (← Poly.constant v p.ring)
  | v, polynomial q => do polynomial <$> (← Poly.constant v q.ring).sub q
  | _, _ => .error .unsuitable

/-- The product of two values, numbers or polynomials. -/
def times : Value → Value → Except Fault Value
  | polynomial p, polynomial q => (p.mul q).map polynomial
  | polynomial p, v => (p.scale v).map polynomial
  | v, polynomial q => (q.scale v).map polynomial
  | v, w =>
    match v.exactNumber?, w.exactNumber? with
    | some a, some b => .ok (number (a.mul b))
    | _, _ => .error .unsuitable

/-- The product of values from left to right, beginning with `start`. -/
def product (start : Value) (factors : List Value) : Except Fault Value :=
  factors.foldlM times start

end Value
end Bezout

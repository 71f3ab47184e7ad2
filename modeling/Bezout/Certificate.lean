import Bezout.Gcd

/-!
Checking results independently of the algorithms that found them. A query asks a solver whether a
condition can be met: that two terms take different values at some real number, or that some of the given
pairs of integers are not congruent. Terms are handed over as they are written, so that the solver does all
the arithmetic.

An identity of polynomials is put to a solver as the question whether it can fail. Over a ring of
characteristic zero its sides are compared as functions of a real number. Over a prime field different
polynomials can be one function, and the coefficients of the sides are compared as residues; sums and
products of coefficients are left to the solver there as well.
-/
namespace Bezout

/-! ### Queries -/

/-- A term over numerals of a type and unknowns of another one. -/
inductive Term (ν α : Type)
  | numeral (a : α)
  | unknown (x : ν)
  | sum (s t : Term ν α)
  | product (s t : Term ν α)

namespace Term
variable {ν α β : Type}

/-- The value of a term, once its numerals and unknowns have values. -/
def eval [Add β] [Mul β] (numerals : α → β) (unknowns : ν → β) : Term ν α → β
  | numeral a => numerals a
  | unknown x => unknowns x
  | sum s t => s.eval numerals unknowns + t.eval numerals unknowns
  | product s t => s.eval numerals unknowns * t.eval numerals unknowns

/-- The value of a term without unknowns. -/
def value [Add α] [Mul α] (t : Term Empty α) : α := t.eval id Empty.elim

end Term

/-- What a solver is asked. -/
inductive Query
  /-- Whether two terms with one unknown differ at some real number. -/
  | differ (left right : Term Unit Rat)
  /-- Whether the difference of some pair is no multiple of the modulus. -/
  | incongruent (modulus : Nat) (pairs : List (Term Empty Int × Term Empty Int))

/-- A solver tells whether the condition of a query can be met. -/
def Solver : Type := Query → Bool

namespace Query

/-- A term with one unknown as the polynomial in this unknown. -/
def polynomial (t : Term Unit Rat) : Dense Rat := t.eval Dense.constant fun _ => .monomial 1 1

/-- Solves a query exactly: two polynomials are different functions if their coefficients differ. -/
def solvable : Solver
  | differ left right => polynomial left ≠ polynomial right
  | incongruent modulus pairs => pairs.any fun (a, b) => (a.value - b.value) % modulus ≠ 0

end Query

/-! ### Certificates -/

namespace Certificate

/-- A side of an identity. -/
inductive Side
  | constant (c : Number)
  | poly (p : Poly)
  | sum (s t : Side)
  | product (s t : Side)

/-! ### Sides as real functions -/

/-- The value of a polynomial at the unknown, from the leading coefficient down. -/
def horner (coefficients : List Number) : Term Unit Rat :=
  coefficients.foldr (fun c t => .sum (.product t (.unknown ())) (.numeral c.value)) (.numeral 0)

def Side.real : Side → Term Unit Rat
  | constant c => .numeral c.value
  | poly p => horner p.numbers
  | sum s t => .sum s.real t.real
  | product s t => .product s.real t.real

/-! ### Sides as coefficients -/

/-- The coefficients of a polynomial as integer terms, lowest first. -/
abbrev Terms : Type := List (Term Empty Int)

/-- A number as a numeral. Only integers have one. -/
def numeral (c : Number) : Except Fault (Term Empty Int) :=
  if c.value.den = 1 then .ok (.numeral c.value.num) else .error .unsuitable

/-- The coefficients of two polynomials at the same power; the shorter list goes on with zeros. -/
def aligned (as bs : Terms) : List (Term Empty Int × Term Empty Int) :=
  List.zipWithAll (fun a b => (a.getD (.numeral 0), b.getD (.numeral 0))) as bs

def addTerms (as bs : Terms) : Terms := (aligned as bs).map fun (a, b) => .sum a b

/-- Adds the multiples of a list to the first terms of the totals. -/
def addMultiples (a : Term Empty Int) : Terms → Terms → Terms
  | b :: bs, total :: totals => .sum total (.product a b) :: addMultiples a bs totals
  | _, totals => totals

/-- Adds the products of coefficients to the totals at the power that each belongs to. After the
    products with the first coefficient nothing more is added to the first total. -/
def convolve : Terms → Terms → Terms → Terms
  | [], _, totals => totals
  | a :: as, bs, totals =>
    match addMultiples a bs totals with
    | [] => []
    | total :: rest => total :: convolve as bs rest

def mulTerms (as bs : Terms) : Terms :=
  if as.isEmpty || bs.isEmpty then []
  else convolve as bs (List.replicate (as.length + bs.length - 1) (.numeral 0))

def Side.modular : Side → Except Fault Terms
  | constant c => do .ok [← numeral c]
  | poly p => p.numbers.mapM numeral
  | sum s t => do .ok (addTerms (← s.modular) (← t.modular))
  | product s t => do .ok (mulTerms (← s.modular) (← t.modular))

/-! ### Identities -/

/-- The query that an identity over a ring fails. -/
def failure (r : BaseRing) (left right : Side) : Except Fault Query :=
  if r.characteristic = 0 then .ok (.differ left.real right.real)
  else
    match r with
    | .residues m => do .ok (.incongruent m.value (aligned (← left.modular) (← right.modular)))
    | _ => .error (.notCertifiable r)

/-- Asks a solver in a task of its own. -/
def ask (solver : Solver) (query : Query) : Work Bool := .task "invoke Z3" [] (.done (solver query))

/-- An identity holds if the solver finds no way for it to fail. -/
def proveIdentity (solver : Solver) (r : BaseRing) (left right : Side) : Work Bool := do
  let query ← Work.ofExcept (failure r left right)
  (ask solver query).map (! ·)

/-- Whether two polynomials over one ring are equal. -/
def equivalent (p q : Poly) (solver : Solver := Query.solvable) : Work Bool :=
  if p.ring = q.ring then proveIdentity solver p.ring (.poly p) (.poly q) else .fail .differentRings

/-- Whether two polynomials over one ring of characteristic zero take different values at some
    point. -/
def haveCounterexample (p q : Poly) (solver : Solver := Query.solvable) : Work Bool :=
  if p.ring ≠ q.ring then .fail .differentRings
  else if p.ring.characteristic ≠ 0 then .fail .noCounterexamples
  else ask solver (.differ (horner p.numbers) (horner q.numbers))

/-- Whether a division of `p` by `q` has a small enough remainder and satisfies
    `lead(q)^scale * p = quotient * q + remainder`. -/
def checkDivision (p q : Poly) (d : Division Poly) (solver : Solver := Query.solvable) : Work Bool :=
  if !q.isZero && q.size ≤ d.remainder.size then .done false
  else do
    let factor ← Work.ofExcept
      (if q.isZero then .ok p.ring.oneNumber else p.ring.pow q.lead d.scale)
    proveIdentity solver p.ring (.product (.constant factor) (.poly p))
      (.sum (.product (.poly d.quotient) (.poly q)) (.poly d.remainder))

/-- Whether `u * p + v * q` is associated to the greatest common divisor of `p` and `q`: the two
    agree after each is multiplied by the leading coefficient of the other. -/
def checkBezout (p q u v : Poly) (solver : Solver := Query.solvable) : Work Bool := do
  let g ← Poly.gcd p q
  let up ← Work.ofExcept (u.mul p)
  let vq ← Work.ofExcept (v.mul q)
  let h ← Work.ofExcept (up.add vq)
  if g.isZero || h.isZero then .done (g.isZero && h.isZero)
  else
    proveIdentity solver p.ring (.product (.constant h.lead) (.poly g))
      (.product (.constant g.lead) (.sum (.product (.poly u) (.poly p)) (.product (.poly v) (.poly q))))

/-- Checks cofactors that need not be polynomials. Numbers can be multiplied by a polynomial, but
    they have no coefficients to compare, so that only zeros are decided for them. -/
def checkCofactors (p q : Poly) (u v : Value) (solver : Solver := Query.solvable) : Work Bool :=
  match u, v with
  | .polynomial u, .polynomial v => checkBezout p q u v solver
  | _, _ => do
    let g ← Poly.gcd p q
    let up ← Work.ofExcept (u.times (.polynomial p))
    let vq ← Work.ofExcept (v.times (.polynomial q))
    match ← Work.ofExcept (up.plus vq) with
    | .polynomial h =>
      if g.isZero || h.isZero then .done (g.isZero && h.isZero) else .fail .missingPart
    | _ => .fail .unsuitable

end Certificate

/-- The parts of a value that can stand for several values. -/
def Value.parts? : Value → Option (List Value)
  | tuple items => some items
  | list items => some items
  | division d => some [integer d.scale, polynomial d.quotient, polynomial d.remainder]
  | text s => some (s.toList.map fun c => text (String.singleton c))
  | _ => none

/-- A division from a value with its three parts. -/
def Value.toDivision (v : Value) : Except Fault (Division Poly) :=
  match v.parts? with
  | none => .error .unsuitable
  | some [k, .polynomial quotient, .polynomial remainder] =>
    match k.exactNumber? with
    | some (.integer scale) => .ok ⟨scale, quotient, remainder⟩
    | _ => .error .unsuitable
  | some [_, _, _] => .error .missingPart
  | some parts =>
    if parts.length < 3 then .error (.tooFewParts parts.length) else .error .tooManyParts

end Bezout

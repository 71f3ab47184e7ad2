import Bezout.Gcd

/-!
Roots and irreducibility over prime fields. Roots are found by trying every element. A polynomial
is irreducible if no power map of the field up to half its degree has a fixed point in common
with it: for each `i` its greatest common divisor with `x^(p^i) - x` is constant.
-/
namespace Bezout
namespace Poly

/-- The multiplicities of some roots in order. -/
def multiplicities (p : Poly) : List Int → Work (List (Int × Nat))
  | [] => .done []
  | x :: rest => do
    let count ← multiplicity (.integer x) p
    let others ← multiplicities p rest
    .done ((x, count) :: others)

/-- The roots of a polynomial over a finite ring, in increasing order, with their
    multiplicities. -/
def roots (p : Poly) : Work (List (Int × Nat)) :=
  match p.ring.elements? with
  | none => .fail (.needsElements p.ring)
  | some elements =>
    if p.isZero then .fail .everyElementIsRoot
    else multiplicities p (elements.filter fun x => (p.isRoot (.integer x)).toOption.getD false)

/-- Tests the power maps from `i` on, `rounds` of them: `h` is the power before the `i`-th of the
    variable `x` by the modulus `f`. -/
def irreducibleRounds (prime : Int) (f x : Poly) : Nat → Nat → Poly → Work Bool
  | 0, _, _ => .done true
  | rounds + 1, i, h => do
    let h ← powerMod h prime f
    let g ← gcd f (← .ofExcept (h.sub x))
    Work.note s!"i={i}: gcd size {g.size}"
    if g.isConstant then irreducibleRounds prime f x rounds (i + 1) h else .done false

/-- Whether a polynomial over a prime field is not constant and no product of two polynomials
    that are not. -/
def isIrreducible (p : Poly) : Work Bool :=
  match p.ring with
  | .residues m =>
    if p.degree < 1 then .done false
    else if p.degree = 1 then .done true
    else do
      let f ← Work.ofExcept p.monic
      let x ← Work.ofExcept (indeterminate p.ring)
      .task "is_irreducible" [("degree", toString p.degree)] <|
        irreducibleRounds m.value f x (p.degree / 2).toNat 1 x
  | r => .fail (.needsPrimeField r)

end Poly
end Bezout

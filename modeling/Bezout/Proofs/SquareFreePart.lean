import Bezout.Proofs.Normalization
import Bezout.Proofs.SquareFree

/-!
The square-free part. In characteristic zero the greatest common divisor of a polynomial with its
derivative has every irreducible factor once less than the polynomial itself. What is left after it was
taken out is therefore square-free (`squarefree_of_gcd_derivative`) and keeps every irreducible factor
(`irreducible_dvd_of_gcd_derivative`), so that the polynomial divides a power of it.
-/
namespace Bezout
open Polynomial
open scoped Classical

theorem BaseRing.charZero_of_characteristic {r : BaseRing} (takes : r.TakesNumbers)
    (characteristic : r.characteristic = 0) : CharZero r.Elem := by
  cases r with
  | integers => exact inferInstanceAs (CharZero ℤ)
  | rationals => exact inferInstanceAs (CharZero ℚ)
  | residues m => exact absurd characteristic m.pos.ne'
  | bare c mark => exact takes.elim

/-! ### Taking out the common factor with the derivative -/

section Derivative
variable {F : Type} [Field F] {P S G : F[X]}

/-- In characteristic zero a power of an irreducible factor that divides the derivative too is not the
    highest one. -/
theorem pow_succ_dvd_of_dvd_derivative [CharZero F] {f : F[X]} (irreducible : Irreducible f) {n : ℕ}
    (divides : f ^ (n + 1) ∣ P) (also : f ^ (n + 1) ∣ derivative P) : f ^ (n + 2) ∣ P := by
  obtain ⟨m,rfl⟩ := divides
  have expanded : derivative (f ^ (n + 1) * m) =
      f ^ n * (C (n + 1 : F) * (derivative f * m)) + f ^ (n + 1) * derivative m := by
    rw [derivative_mul,derivative_pow,Nat.add_sub_cancel,Nat.cast_add_one]
    ring
  rw [expanded,dvd_add_left (dvd_mul_right _ _),pow_succ,
    mul_dvd_mul_iff_left (pow_ne_zero n irreducible.ne_zero)] at also
  have scalar : IsUnit (C (n + 1 : F)) := isUnit_C.mpr (IsUnit.mk0 _ n.cast_add_one_ne_zero)
  have coprime : IsCoprime f (derivative f) := irreducible.separable
  have factor : f ∣ m := coprime.dvd_of_dvd_mul_left (scalar.dvd_mul_left.mp also)
  rw [pow_succ f (n + 1)]
  exact mul_dvd_mul_left _ factor

theorem isUnit_of_forall_pow_dvd {D : F[X]} (nonzero : G ≠ 0) (all : ∀ n, D ^ n ∣ G) : IsUnit D := by
  by_contra nonunit
  obtain ⟨n,highest⟩ := FiniteMultiplicity.of_not_isUnit nonunit nonzero
  exact highest (all (n + 1))

variable (greatest : ∀ D, D ∣ G ↔ D ∣ P ∧ D ∣ derivative P) (factors : Associated (S * G) P)
  (nonzero : P ≠ 0)
include greatest factors nonzero

/-- Taking out the common factor with the derivative leaves no square. -/
theorem squarefree_of_gcd_derivative : Squarefree S := by
  intro D square
  have common : G ≠ 0 := right_ne_zero_of_mul (factors.symm.ne_zero_iff.mp nonzero)
  apply isUnit_of_forall_pow_dvd common
  intro n
  induction n with
  | zero => exact one_dvd G
  | succ n ih =>
    have power : D ^ (n + 2) ∣ P := by
      have product : D * D * D ^ n ∣ S * G := mul_dvd_mul square ih
      rw [show D ^ (n + 2) = D * D * D ^ n by ring]
      exact product.trans factors.dvd
    have first : D ^ (n + 1) ∣ P := (pow_dvd_pow D (by omega)).trans power
    have second : D ^ (n + 1) ∣ derivative P := by
      have lowered := pow_sub_one_dvd_derivative_of_pow_dvd power
      rwa [Nat.add_sub_assoc (by omega)] at lowered
    exact (greatest _).mpr ⟨first,second⟩

/-- Taking out the common factor with the derivative leaves every irreducible factor. -/
theorem irreducible_dvd_of_gcd_derivative [CharZero F] {f : F[X]} (irreducible : Irreducible f)
    (divides : f ∣ P) : f ∣ S := by
  by_contra lost
  have all : ∀ n, f ^ (n + 1) ∣ P := by
    intro n
    induction n with
    | zero => rwa [zero_add,pow_one]
    | succ n ih =>
      have power : f ^ (n + 1) ∣ G :=
        irreducible.prime.pow_dvd_of_dvd_mul_left (n + 1) lost (ih.trans factors.dvd')
      exact pow_succ_dvd_of_dvd_derivative irreducible ih ((greatest _).mp power).2
  apply irreducible.not_isUnit
  exact isUnit_of_forall_pow_dvd nonzero fun n => (pow_dvd_pow f n.le_succ).trans (all n)

end Derivative

/-- A polynomial divides the power by its degree of a polynomial with all its irreducible factors. -/
theorem dvd_pow_natDegree {F : Type} [Field F] {P S : F[X]} (nonzero : P ≠ 0)
    (factors : ∀ f, Irreducible f → f ∣ P → f ∣ S) : P ∣ S ^ P.natDegree := by
  induction P using UniqueFactorizationMonoid.induction_on_prime with
  | h₁ => exact absurd rfl nonzero
  | h₂ P unit => exact unit.dvd
  | h₃ P f kept prime ih =>
    have rest := ih kept fun g irreducible divides => factors g irreducible (divides.mul_left f)
    have first : f ∣ S := factors f prime.irreducible (dvd_mul_right f P)
    have positive : f.natDegree ≠ 0 := prime.irreducible.natDegree_pos.ne'
    rw [natDegree_mul prime.ne_zero kept,pow_add]
    exact mul_dvd_mul (first.trans (dvd_pow_self S positive)) rest

namespace Dense
variable {r : BaseRing} (K : Type) [Field K] [Algebra r.Elem K] [IsFractionRing r.Elem K]

/-- An irreducible polynomial that is not constant stays irreducible over the field of fractions. -/
theorem irreducible_extend {f : Dense r.Elem} (irreducible : Irreducible f) (nonconstant : 2 ≤ f.size) :
    Irreducible (extend K f) := by
  have image : Irreducible f.toPolynomial :=
    (MulEquiv.irreducible_iff (polynomialEquiv r.Elem)).mpr irreducible
  have degree : f.toPolynomial.natDegree ≠ 0 := by
    rw [natDegree_toPolynomial]
    omega
  have primitive : f.toPolynomial.IsPrimitive := image.isPrimitive degree
  exact primitive.irreducible_iff_irreducible_map_fraction_map.mp image

end Dense

namespace Poly
variable {r : BaseRing}

/-- The square-free part is normal and leaves the common factor with the derivative. -/
theorem squareFreePart_outcome (K : Type) [Field K] [Algebra r.Elem K] [IsFractionRing r.Elem K]
    (takes : r.TakesNumbers) (characteristic : r.characteristic = 0) {p : Dense r.Elem} (nonzero : p ≠ 0) :
    ∃ s g : Dense r.Elem, (squareFreePart ⟨r,p⟩).outcome = .ok ⟨r,s⟩ ∧ s.IsNormal ∧
      Dense.IsGcd K p p.derivative g ∧
      Associated (Dense.extend K s * Dense.extend K g) (Dense.extend K p) := by
  obtain ⟨g,found,greatest⟩ := gcd_isGcd K p p.derivative
  obtain ⟨d,ended,division,-⟩ := divide_isDivision p g
  obtain ⟨divides,-⟩ := (greatest _).mp dvd_rfl
  obtain ⟨s,-,normalized,-⟩ := normalize_isNormal takes d.quotient
  obtain ⟨normal,associate⟩ := (normalize_eq_iff K takes d.quotient s).mp normalized
  refine ⟨s,g,?_,normal,greatest,(associate.mul_right _).trans (division.associated_mul K divides)⟩
  rw [squareFreePart,if_neg (not_not.mpr characteristic),if_neg (mt isZero_iff.mp nonzero),
    derivative_eq,Work.outcome_bind found,Work.outcome_bind (div_of_divide ended)]
  exact normalized

/-- Over a ring of characteristic zero the square-free part of a polynomial other than zero is
    square-free and its own normal form, it divides the polynomial, and the polynomial divides a power
    of it, so that both have the same irreducible factors, each of them once in the square-free part. -/
theorem squareFreePart_total_correct (r : BaseRing) (takes : r.TakesNumbers)
    (characteristic : r.characteristic = 0) (p : Dense r.Elem) (nonzero : p ≠ 0) :
    ∃ s w : Dense r.Elem, (squareFreePart ⟨r,p⟩).outcome = .ok ⟨r,s⟩ ∧
      (isSquareFree ⟨r,s⟩).outcome = .ok true ∧ (divides ⟨r,s⟩ ⟨r,p⟩).outcome = .ok true ∧
      pow ⟨r,s⟩ (.integer p.size) = .ok ⟨r,w⟩ ∧ (divides ⟨r,p⟩ ⟨r,w⟩).outcome = .ok true ∧
      normalize ⟨r,s⟩ = .ok ⟨r,s⟩ ∧
      ∀ f : Dense r.Elem, Irreducible f → 2 ≤ f.size →
        ((divides ⟨r,f⟩ ⟨r,p⟩).outcome = .ok true ↔ (divides ⟨r,f⟩ ⟨r,s⟩).outcome = .ok true) ∧
        (divides ⟨r,f * f⟩ ⟨r,s⟩).outcome = .ok false := by
  let K := FractionRing r.Elem
  have : CharZero r.Elem := BaseRing.charZero_of_characteristic takes characteristic
  have : CharZero K := inferInstance
  obtain ⟨s,g,ended,normal,greatest,factors⟩ := squareFreePart_outcome K takes characteristic nonzero
  have image : Dense.extend K p ≠ 0 := mt (Dense.extend_eq_zero_iff K).mp nonzero
  rw [Dense.IsGcd,Dense.extend_derivative] at greatest
  have squarefree := squarefree_of_gcd_derivative greatest factors image
  have part : Dense.extend K s ∣ Dense.extend K p := (dvd_mul_right _ _).trans factors.dvd
  have kept : ∀ f, Irreducible f → f ∣ Dense.extend K p → f ∣ Dense.extend K s := fun f irreducible =>
    irreducible_dvd_of_gcd_derivative greatest factors image irreducible
  have power : Dense.extend K p ∣ Dense.extend K s ^ p.size := by
    refine (dvd_pow_natDegree image kept).trans (pow_dvd_pow _ ?_)
    rw [Dense.natDegree_extend]
    omega
  refine ⟨s,_,ended,?_,?_,pow_eq takes s p.size,?_,?_,?_⟩
  · rw [isSquareFree_outcome K,decide_eq_true squarefree]
  · rw [divides_outcome K,decide_eq_true part]
  · rw [divides_outcome K,map_pow,decide_eq_true power]
  · exact (normalize_eq_iff K takes s s).mpr ⟨normal,.refl _⟩
  · intro f irreducible nonconstant
    have factor := Dense.irreducible_extend K irreducible nonconstant
    constructor
    · simp only [divides_outcome K,Except.ok.injEq,decide_eq_true_eq]
      exact ⟨kept _ factor,fun divides => divides.trans part⟩
    · rw [divides_outcome K,map_mul,decide_eq_false]
      exact fun square => factor.not_isUnit (squarefree _ square)

/-- Over the integers, where the content, the sign and a repeated factor go. -/
theorem squareFreePart_repeated_factor : BaseRing.integers.TakesNumbers ∧
    BaseRing.integers.characteristic = 0 ∧ (.ofList [2,6,0,-8] : Dense BaseRing.integers.Elem) ≠ 0 ∧
    ∃ s w : Dense BaseRing.integers.Elem,
      (squareFreePart ⟨.integers,.ofList [2,6,0,-8]⟩).outcome = .ok ⟨.integers,s⟩ ∧
      (isSquareFree ⟨.integers,s⟩).outcome = .ok true ∧
      (divides ⟨.integers,s⟩ ⟨.integers,.ofList [2,6,0,-8]⟩).outcome = .ok true ∧
      pow ⟨.integers,s⟩ (.integer (.ofList [2,6,0,-8] : Dense BaseRing.integers.Elem).size) =
        .ok ⟨.integers,w⟩ ∧
      (divides ⟨.integers,.ofList [2,6,0,-8]⟩ ⟨.integers,w⟩).outcome = .ok true ∧
      normalize ⟨.integers,s⟩ = .ok ⟨.integers,s⟩ ∧
      ∀ f : Dense BaseRing.integers.Elem, Irreducible f → 2 ≤ f.size →
        ((divides ⟨.integers,f⟩ ⟨.integers,.ofList [2,6,0,-8]⟩).outcome = .ok true ↔
          (divides ⟨.integers,f⟩ ⟨.integers,s⟩).outcome = .ok true) ∧
        (divides ⟨.integers,f * f⟩ ⟨.integers,s⟩).outcome = .ok false :=
  ⟨trivial,rfl,by decide,squareFreePart_total_correct .integers trivial rfl _ (by decide)⟩

end Poly
end Bezout

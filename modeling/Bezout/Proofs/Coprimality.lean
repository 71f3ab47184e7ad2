import Bezout.Proofs.Euclid

/-!
Coprime polynomials. That the last divisor of Euclid's algorithm is a constant means that all common divisors
are constants, and it means that the polynomials combine to a constant other than zero: over the field of
fractions they combine to one, and clearing the denominators leaves a constant. From such a combination
follows Euclid's lemma.
-/
namespace Bezout
open Polynomial
open scoped Classical

namespace Dense
variable {R : Type} [CoefficientDomain R] (K : Type) [Field K] [Algebra R K] [IsFractionRing R K]
  {p q : Dense R}

/-- Polynomials are coprime over the field of fractions if all their common divisors are constants. Zeros are
    not, since the variable divides them. -/
theorem isCoprime_extend_iff_constant : IsCoprime (extend K p) (extend K q) ↔
    ∀ d : Dense R, extend K d ∣ extend K p → extend K d ∣ extend K q → d.size ≤ 1 := by
  rw [← isRelPrime_iff_isCoprime]
  constructor
  · intro apart d first second
    exact ((isUnit_extend_iff K).mp (apart first second)).le
  · intro constants D first second
    obtain ⟨d,associate⟩ := exists_extend (R := R) K D
    have nonzero : d ≠ 0 := by
      rintro rfl
      rw [map_zero,Associated.comm,associated_zero_iff_eq_zero] at associate
      rw [associate,zero_dvd_iff] at first second
      have linear := constants (Dense.monomial 1 1) (first ▸ dvd_zero _) (second ▸ dvd_zero _)
      rw [size_monomial one_ne_zero] at linear
      omega
    have positive := mt size_eq_zero_iff.mp nonzero
    have small := constants d (associate.dvd.trans first) (associate.dvd.trans second)
    rw [← associate.isUnit_iff,isUnit_extend_iff]
    omega

/-- Polynomials are coprime over the field of fractions if they combine to a constant other than zero. -/
theorem isCoprime_extend_iff_combination : IsCoprime (extend K p) (extend K q) ↔
    ∃ (u v : Dense R) (c : R), c ≠ 0 ∧ u * p + v * q = constant c := by
  constructor
  · rintro ⟨A,B,one⟩
    obtain ⟨a,u,left,first⟩ := exists_extend_eq_scale (R := R) K A
    obtain ⟨b,v,right,second⟩ := exists_extend_eq_scale (R := R) K B
    refine ⟨u.scale b,v.scale a,a * b,mul_ne_zero left right,extend_injective K ?_⟩
    calc extend K (u.scale b * p + v.scale a * q)
        = C (algebraMap R K a) * C (algebraMap R K b) * (A * extend K p + B * extend K q) := by
          rw [map_add,map_mul,map_mul,extend_scale,extend_scale,first,second]
          ring
      _ = extend K (constant (a * b)) := by
          rw [one,mul_one,extend_constant,map_mul,C_mul]
  · rintro ⟨u,v,c,nonzero,combination⟩
    rw [← isRelPrime_iff_isCoprime]
    intro D first second
    have divides : D ∣ extend K (u * p + v * q) := by
      rw [map_add,map_mul,map_mul]
      exact dvd_add (first.mul_left _) (second.mul_left _)
    rw [combination,extend_constant] at divides
    exact isUnit_of_dvd_unit divides (isUnit_scale K nonzero)

end Dense

namespace Poly

/-- Two polynomials are coprime exactly if all that divides both of them is constant, and exactly if they
    combine to a constant other than zero. What is coprime to one factor and divides a product divides the
    other factor. -/
theorem coprime_total_correct (r : BaseRing) (p q : Dense r.Elem) :
    (coprime ⟨r,p⟩ ⟨r,q⟩).outcome = .ok (decide (∀ d, Divides r d p → Divides r d q →
      isConstant ⟨r,d⟩ = true)) ∧
    (coprime ⟨r,p⟩ ⟨r,q⟩).outcome = .ok (decide (∃ (u v : Dense r.Elem) (c : r.Elem), c ≠ 0 ∧
      u * p + v * q = .constant c)) ∧
    ∀ d, (coprime ⟨r,d⟩ ⟨r,p⟩).outcome = .ok true → Divides r d (p * q) → Divides r d q := by
  rw [coprime_outcome (FractionRing r.Elem)]
  refine ⟨?_,?_,?_⟩
  · simp only [Dense.isCoprime_extend_iff_constant,divides_iff (FractionRing r.Elem),isConstant_iff]
  · simp only [Dense.isCoprime_extend_iff_combination]
  · intro d apart divides
    rw [coprime_outcome (FractionRing r.Elem),Except.ok.injEq,decide_eq_true_iff] at apart
    rw [divides_iff (FractionRing r.Elem)] at divides ⊢
    rw [map_mul] at divides
    exact apart.dvd_of_dvd_mul_left divides

end Poly
end Bezout

import Bezout.Proofs.Euclid

/-!
Square-free polynomials. Over a perfect field a polynomial has no repeated factor exactly if it is
coprime to its derivative; the field of fractions of the coefficients is perfect, being finite or of
characteristic zero. Repeated factors over that field are repeated factors over the coefficients.
-/
namespace Bezout
open Polynomial
open scoped Classical

namespace BaseRing

/-- The fields of fractions of the coefficients are perfect. -/
instance (r : BaseRing) : PerfectField (FractionRing r.Elem) := by
  cases r with
  | integers =>
    have : CharZero BaseRing.integers.Elem := inferInstanceAs (CharZero ℤ)
    infer_instance
  | rationals =>
    have : CharZero BaseRing.rationals.Elem := inferInstanceAs (CharZero ℚ)
    infer_instance
  | residues m =>
    have equivalence := FractionRing.algEquiv (BaseRing.residues m).Elem (BaseRing.residues m).Elem
    have : Finite (FractionRing (BaseRing.residues m).Elem) :=
      Finite.of_injective equivalence equivalence.injective
    infer_instance
  | bare c mark =>
    have : CharZero (BaseRing.bare c mark).Elem := inferInstanceAs (CharZero ℤ)
    infer_instance

end BaseRing

namespace Dense
variable {R : Type} [CoefficientDomain R] (K : Type) [Field K] [Algebra R K] [IsFractionRing R K]

/-- A polynomial is square-free over the field of fractions exactly if every square that divides it
    there is the square of a constant. -/
theorem squarefree_extend_iff (p : Dense R) :
    Squarefree (extend K p) ↔ ∀ d : Dense R, extend K (d * d) ∣ extend K p → d.size ≤ 1 := by
  constructor
  · intro squarefree d divides
    rw [map_mul] at divides
    exact ((isUnit_extend_iff K).mp (squarefree _ divides)).le
  · intro constant D divides
    have nonzero : p ≠ 0 := by
      -- Every square divides zero, that of the variable too.
      rintro rfl
      have linear := constant (Dense.monomial 1 1) (by rw [map_zero]; exact dvd_zero _)
      rw [size_monomial one_ne_zero] at linear
      omega
    obtain ⟨d,associate⟩ := exists_extend (R := R) K D
    have square : extend K (d * d) ∣ extend K p := by
      rw [map_mul]
      exact (associate.mul_mul associate).dvd.trans divides
    have factor : d ≠ 0 := by
      rintro rfl
      rw [mul_zero,map_zero,zero_dvd_iff] at square
      exact nonzero ((extend_eq_zero_iff K).mp square)
    have positive : d.size ≠ 0 := mt size_eq_zero_iff.mp factor
    have small := constant d square
    exact associate.isUnit ((isUnit_extend_iff K).mpr (by omega))

end Dense

namespace Poly
variable {r : BaseRing}

theorem isSquareFree_outcome (K : Type) [Field K] [Algebra r.Elem K] [IsFractionRing r.Elem K]
    [PerfectField K] (p : Dense r.Elem) :
    (isSquareFree ⟨r,p⟩).outcome = .ok (decide (Squarefree (Dense.extend K p))) := by
  rw [isSquareFree,derivative_eq,coprime_outcome K,
    Dense.extend_derivative,← PerfectField.separable_iff_squarefree]
  rfl

/-- The test for squares always answers, and it says yes exactly to the polynomials that only the
    squares of constants divide. -/
theorem isSquareFree_iff_no_squares (r : BaseRing) (p : Dense r.Elem) :
    ∃ answer, (isSquareFree ⟨r,p⟩).outcome = .ok answer ∧
      (answer = true ↔ ∀ d : Dense r.Elem, (divides ⟨r,d * d⟩ ⟨r,p⟩).outcome = .ok true →
        isConstant ⟨r,d⟩ = true) := by
  refine ⟨_,isSquareFree_outcome (FractionRing r.Elem) p,?_⟩
  rw [decide_eq_true_iff,Dense.squarefree_extend_iff]
  simp only [divides_outcome (FractionRing r.Elem),Except.ok.injEq,decide_eq_true_eq,isConstant]
  rfl

end Poly
end Bezout

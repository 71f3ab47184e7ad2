import Bezout.Proofs.Division

/-!
Divisibility of polynomials. Division multiplies by leading coefficients, so that `Poly.divides`
tests for divisibility over the field of fractions of the coefficients; `extend` moves a polynomial
there. Over a field this is divisibility itself.
-/
namespace Bezout
open Polynomial
open scoped Classical

namespace Dense
variable {R : Type} [CoefficientDomain R] (K : Type) [Field K] [Algebra R K]

/-- A polynomial as one over the field of fractions. -/
noncomputable def extend : Dense R →+* K[X] :=
  (mapRingHom (algebraMap R K)).comp (polynomialEquiv R).toRingHom

theorem extend_apply (p : Dense R) : extend K p = p.toPolynomial.map (algebraMap R K) := rfl

theorem extend_constant (c : R) : extend K (constant c) = C (algebraMap R K c) := by
  simp [extend_apply]

theorem extend_scale (c : R) (p : Dense R) : extend K (p.scale c) = C (algebraMap R K c) * extend K p := by
  simp [extend_apply]

theorem extend_derivative (p : Dense R) : extend K p.derivative = Polynomial.derivative (extend K p) := by
  rw [extend_apply,extend_apply,toPolynomial_derivative,derivative_map]

variable [IsFractionRing R K]

theorem extend_injective : Function.Injective (extend (R := R) K) :=
  (map_injective _ (IsFractionRing.injective R K)).comp toPolynomial_injective

theorem extend_eq_zero_iff {p : Dense R} : extend K p = 0 ↔ p = 0 :=
  (extend_injective K).eq_iff' (map_zero _)

theorem natDegree_extend (p : Dense R) : (extend K p).natDegree = p.size - 1 := by
  rw [extend_apply,natDegree_map_eq_of_injective (IsFractionRing.injective R K),natDegree_toPolynomial]

/-- The units over the field of fractions are the constants other than zero. -/
theorem isUnit_extend_iff {p : Dense R} : IsUnit (extend K p) ↔ p.size = 1 := by
  rw [isUnit_iff_degree_eq_zero]
  constructor
  · intro constant
    have nonzero : p ≠ 0 := by
      rintro rfl
      rw [map_zero,degree_zero] at constant
      cases constant
    have sizes := natDegree_extend K p
    rw [natDegree_eq_zero_iff_degree_le_zero.mpr constant.le] at sizes
    have positive : p.size ≠ 0 := mt size_eq_zero_iff.mp nonzero
    omega
  · intro single
    have nonzero : p ≠ 0 := mt size_eq_zero_iff.mpr (by omega)
    rw [degree_eq_natDegree (mt (extend_eq_zero_iff K).mp nonzero),natDegree_extend,single]
    rfl

theorem degree_extend_lt {p q : Dense R} (smaller : p.size < q.size) :
    (extend K p).degree < (extend K q).degree := by
  have nonzero : q ≠ 0 := mt size_eq_zero_iff.mpr (by omega)
  have degrees := fun s : Dense R =>
    degree_map_eq_of_injective (IsFractionRing.injective R K) s.toPolynomial
  rw [extend_apply,extend_apply,degrees,degrees,
    degree_eq_natDegree (mt toPolynomial_eq_zero_iff.mp nonzero),natDegree_toPolynomial]
  exact size_le_iff.mp (by omega)

/-- Over the field of fractions the factor of a division is a unit. -/
theorem isUnit_scale {c : R} (nonzero : c ≠ 0) : IsUnit (C (algebraMap R K c)) :=
  isUnit_C.mpr (IsUnit.mk0 _ ((map_ne_zero_iff _ (IsFractionRing.injective R K)).mpr nonzero))

/-- Multiplying by an element other than zero gives an associate. -/
theorem associated_extend_scale {c : R} (factor : c ≠ 0) (p : Dense R) :
    Associated (extend K (p.scale c)) (extend K p) := by
  rw [extend_scale]
  exact associated_unit_mul_left _ _ (isUnit_scale K factor)

/-- Denominators can be cleared: some multiple of a polynomial over the field of fractions is one over the
    coefficients. -/
theorem exists_extend_eq_scale (P : K[X]) :
    ∃ (c : R) (p : Dense R), c ≠ 0 ∧ extend K p = C (algebraMap R K c) * P := by
  obtain ⟨c,regular,cleared⟩ := IsLocalization.integerNormalization_spec (nonZeroDivisors R) P
  obtain ⟨p,whole⟩ := toPolynomial_surjective (IsLocalization.integerNormalization (nonZeroDivisors R) P)
  refine ⟨c,p,nonZeroDivisors.ne_zero regular,?_⟩
  rw [extend_apply,whole,cleared,← algebraMap_smul K c P,smul_eq_C_mul]

/-- Every polynomial over the field of fractions is one over the coefficients, up to a constant. -/
theorem exists_extend (P : K[X]) : ∃ p : Dense R, Associated (extend K p) P := by
  obtain ⟨c,p,nonzero,scaled⟩ := exists_extend_eq_scale (R := R) K P
  refine ⟨p,?_⟩
  rw [scaled]
  exact associated_unit_mul_left _ _ (isUnit_scale K nonzero)

/-- A polynomial divides over the field of fractions what it divides over the coefficients after a
    multiplication by an element other than zero. -/
theorem extend_dvd_iff {d p : Dense R} :
    extend K d ∣ extend K p ↔ ∃ (c : R) (s : Dense R), c ≠ 0 ∧ p.scale c = s * d := by
  constructor
  · rintro ⟨D,factors⟩
    obtain ⟨c,s,nonzero,scaled⟩ := exists_extend_eq_scale (R := R) K D
    refine ⟨c,s,nonzero,extend_injective K ?_⟩
    rw [extend_scale,map_mul,scaled,factors]
    ring
  · rintro ⟨c,s,nonzero,multiple⟩
    have image := congrArg (extend K) multiple
    rw [extend_scale,map_mul] at image
    rw [← (isUnit_scale K nonzero).dvd_mul_left,image]
    exact dvd_mul_left _ _

/-- What divides the divisor divides the dividend exactly if it divides the remainder. -/
theorem IsDivision.dvd_iff_dvd_remainder {p q : Dense R} {d : Division (Dense R)}
    (division : IsDivision p q d) {D : K[X]} (divisor : D ∣ extend K q) :
    D ∣ extend K p ↔ D ∣ extend K d.remainder := by
  have scaled := isUnit_scale K division.power_ne_zero
  have identity := congrArg (extend K) division.identity
  rw [extend_scale,map_add,map_mul] at identity
  rw [← scaled.dvd_mul_left,identity,dvd_add_right (divisor.mul_left _)]

/-- A divisor divides exactly if it leaves no remainder. -/
theorem IsDivision.dvd_iff {p q : Dense R} {d : Division (Dense R)} (division : IsDivision p q d) :
    extend K q ∣ extend K p ↔ d.remainder = 0 := by
  rw [division.dvd_iff_dvd_remainder K dvd_rfl]
  constructor
  · intro divides
    by_cases zero : q = 0
    · rw [zero,map_zero,zero_dvd_iff] at divides
      exact (extend_eq_zero_iff K).mp divides
    · exact (extend_eq_zero_iff K).mp
        (eq_zero_of_dvd_of_degree_lt divides (degree_extend_lt K (division.remainder_lt zero)))
  · intro none
    rw [none,map_zero]
    exact dvd_zero _

/-- Quotient and divisor multiply to the dividend, up to a constant, if nothing is left. -/
theorem IsDivision.associated_mul {p q : Dense R} {d : Division (Dense R)} (division : IsDivision p q d)
    (divides : extend K q ∣ extend K p) :
    Associated (extend K d.quotient * extend K q) (extend K p) := by
  have identity := division.identity
  rw [(division.dvd_iff K).mp divides,add_zero] at identity
  rw [← map_mul,← identity]
  exact associated_extend_scale K division.power_ne_zero p

/-- The quotient of a polynomial other than zero by a divisor is not zero. -/
theorem IsDivision.quotient_ne_zero {p q : Dense R} {d : Division (Dense R)} (division : IsDivision p q d)
    (divides : extend K q ∣ extend K p) (nonzero : p ≠ 0) : d.quotient ≠ 0 := by
  intro none
  have factors := division.associated_mul K divides
  rw [none,map_zero,zero_mul] at factors
  exact nonzero ((extend_eq_zero_iff K).mp ((associated_zero_iff_eq_zero _).mp factors.symm))

end Dense

namespace Poly

/-- One polynomial over a ring divides another, by the test for it. -/
def Divides (r : BaseRing) (d p : Dense r.Elem) : Prop := (divides ⟨r,d⟩ ⟨r,p⟩).outcome = .ok true

/-- Two polynomials over a ring are associates, by the test for it. -/
def AreAssociates (r : BaseRing) (p q : Dense r.Elem) : Prop := (associated ⟨r,p⟩ ⟨r,q⟩).outcome = .ok true

variable {r : BaseRing} (K : Type) [Field K] [Algebra r.Elem K] [IsFractionRing r.Elem K]

/-- The remainder of a division, and the common divisors it keeps. -/
theorem mod_outcome (p q : Dense r.Elem) :
    ∃ d, (mod ⟨r,p⟩ ⟨r,q⟩).outcome = .ok ⟨r,d.remainder⟩ ∧ Dense.IsDivision p q d := by
  obtain ⟨d,ended,division,-⟩ := divide_isDivision p q
  exact ⟨d,by simp [mod,ended,Except.map],division⟩

/-- The test for divisibility decides divisibility over the field of fractions. -/
theorem divides_outcome (d p : Dense r.Elem) :
    (divides ⟨r,d⟩ ⟨r,p⟩).outcome = .ok (decide (Dense.extend K d ∣ Dense.extend K p)) := by
  obtain ⟨e,ended,division⟩ := mod_outcome p d
  rw [divides,Work.outcome_map,ended,Except.map]
  congr 1
  rw [Bool.eq_iff_iff,isZero_iff,decide_eq_true_iff,division.dvd_iff K]

theorem divides_iff {d p : Dense r.Elem} : Divides r d p ↔ Dense.extend K d ∣ Dense.extend K p := by
  rw [Divides,divides_outcome K,Except.ok.injEq,decide_eq_true_iff]

/-- The test for association decides association over the field of fractions. -/
theorem associated_outcome (p q : Dense r.Elem) : (associated ⟨r,p⟩ ⟨r,q⟩).outcome =
    .ok (decide (Associated (Dense.extend K p) (Dense.extend K q))) := by
  rw [associated,Work.outcome_bind (divides_outcome K p q)]
  by_cases forth : Dense.extend K p ∣ Dense.extend K q
  · rw [if_pos (decide_eq_true forth),divides_outcome K]
    congr 1
    rw [decide_eq_decide,← dvd_dvd_iff_associated]
    exact (and_iff_right forth).symm
  · rw [if_neg (mt of_decide_eq_true forth),decide_eq_false fun associate => forth associate.dvd]
    rfl

theorem areAssociates_iff {p q : Dense r.Elem} :
    AreAssociates r p q ↔ Associated (Dense.extend K p) (Dense.extend K q) := by
  rw [AreAssociates,associated_outcome K,Except.ok.injEq,decide_eq_true_iff]

end Poly
end Bezout

import Bezout.Proofs.Euclid

/-!
Multiplicities of roots. A linear factor is monic, so that dividing by it multiplies by nothing: a round
takes one factor out, and the rounds count how often the root occurs. This is the one exponent that leaves
a cofactor without the root (`Dense.rootMultiplicity_eq_iff`), and exponents add up in products.
-/
namespace Bezout
open Polynomial
open scoped Classical

namespace Dense
variable {R : Type} [CoefficientDomain R]

theorem toPolynomial_linearFactor (a : R) : (linearFactor a).toPolynomial = X - C a := by
  simp only [linearFactor,toPolynomial_ofList,ofCoeffs,C_neg,C_1]
  ring

theorem lead_linearFactor (a : R) : (linearFactor a).lead = 1 := by
  rw [← leadingCoeff_toPolynomial,toPolynomial_linearFactor,leadingCoeff_X_sub_C]

theorem isUnit_lead_linearFactor (a : R) : IsUnit (linearFactor a).lead := by
  rw [lead_linearFactor]
  exact isUnit_one

theorem linearFactor_ne_zero (a : R) : linearFactor a ≠ 0 :=
  ne_zero_of_lead_eq_one (lead_linearFactor a)

theorem size_linearFactor (a : R) : (linearFactor a).size = 2 := by
  rw [size_eq_natDegree_add_one (linearFactor_ne_zero a),toPolynomial_linearFactor,natDegree_X_sub_C]

section Cofactors
variable {p : Dense R} (nonzero : p ≠ 0) {a : R}
include nonzero

/-- A root occurs as often as its linear factor can be taken out until a cofactor without the root is
    left. -/
theorem rootMultiplicity_eq_iff {n : ℕ} : n = p.toPolynomial.rootMultiplicity a ↔
    ∃ c, p = linearFactor a ^ n * c ∧ c.eval a ≠ 0 := by
  constructor
  · rintro rfl
    obtain ⟨C',product,rootless⟩ := exists_eq_pow_rootMultiplicity_mul_and_not_dvd p.toPolynomial
      (mt toPolynomial_eq_zero_iff.mp nonzero) a
    obtain ⟨c,rfl⟩ := toPolynomial_surjective C'
    refine ⟨c,toPolynomial_injective ?_,?_⟩
    · rw [toPolynomial_mul,toPolynomial_npow,toPolynomial_linearFactor]
      exact product
    · rwa [dvd_iff_isRoot,IsRoot,eval_toPolynomial] at rootless
  · rintro ⟨c,factors,rootless⟩
    have kept : c.toPolynomial ≠ 0 := by
      rw [Ne,toPolynomial_eq_zero_iff]
      rintro rfl
      exact nonzero (factors.trans (mul_zero _))
    have none : ¬ c.toPolynomial.IsRoot a := by rwa [IsRoot,eval_toPolynomial]
    rw [factors,mul_comm,toPolynomial_mul,toPolynomial_npow,toPolynomial_linearFactor,
      rootMultiplicity_mul_X_sub_C_pow kept,rootMultiplicity_eq_zero none,zero_add]

theorem one_le_rootMultiplicity_iff : 1 ≤ p.toPolynomial.rootMultiplicity a ↔ p.eval a = 0 := by
  rw [← eval_toPolynomial]
  exact rootMultiplicity_pos (mt toPolynomial_eq_zero_iff.mp nonzero)

/-- A root occurs less often than there are coefficients. -/
theorem rootMultiplicity_lt_size : p.toPolynomial.rootMultiplicity a < p.size := by
  rw [size_eq_natDegree_add_one nonzero,← count_roots,Nat.lt_succ_iff]
  exact (Multiset.count_le_card _ _).trans (card_roots' _)

theorem rootMultiplicity_mul {q : Dense R} (other : q ≠ 0) : (p * q).toPolynomial.rootMultiplicity a =
    p.toPolynomial.rootMultiplicity a + q.toPolynomial.rootMultiplicity a := by
  rw [toPolynomial_mul,Polynomial.rootMultiplicity_mul]
  exact mul_ne_zero (mt toPolynomial_eq_zero_iff.mp nonzero) (mt toPolynomial_eq_zero_iff.mp other)

end Cofactors

variable (K : Type) [Field K] [Algebra R K]

theorem extend_linearFactor (a : R) : extend K (linearFactor a) = X - C (algebraMap R K a) := by
  rw [extend_apply,toPolynomial_linearFactor,Polynomial.map_sub,map_X,map_C]

variable [IsFractionRing R K]

theorem rootMultiplicity_of_size_le {p : Dense R} (constant : p.size ≤ 1) (x : K) :
    (extend K p).rootMultiplicity x = 0 := by
  have degree : (extend K p).natDegree = 0 := by
    rw [natDegree_extend]
    omega
  rw [eq_C_of_natDegree_eq_zero degree,rootMultiplicity_C]

end Dense

namespace Poly
variable {r : BaseRing} (K : Type) [Field K] [Algebra r.Elem K] [IsFractionRing r.Elem K]

/-- Dividing by a linear factor takes one root out. -/
theorem div_linearFactor {p : Dense r.Elem} {a : r.Elem} (nonzero : p ≠ 0)
    (root : Dense.extend K (Dense.linearFactor a) ∣ Dense.extend K p) :
    ∃ s : Dense r.Elem, (div ⟨r,p⟩ ⟨r,Dense.linearFactor a⟩).outcome = .ok ⟨r,s⟩ ∧ s.size < p.size ∧
      (Dense.extend K p).rootMultiplicity (algebraMap r.Elem K a) =
        (Dense.extend K s).rootMultiplicity (algebraMap r.Elem K a) + 1 := by
  obtain ⟨d,ended,division,unscaled⟩ := divide_isDivision p (Dense.linearFactor a)
  have identity := division.identity
  rw [unscaled (Dense.isUnit_lead_linearFactor a),Int.toNat_zero,pow_zero,Dense.scale_one,(division.dvd_iff K).mp root,add_zero]
    at identity
  refine ⟨d.quotient,div_of_divide ended,?_,?_⟩
  · exact division.quotient_smaller nonzero (Dense.size_linearFactor a).ge
  · have quotient := mt (Dense.extend_eq_zero_iff K).mp (division.quotient_ne_zero K root nonzero)
    rw [identity,map_mul,Dense.extend_linearFactor,← pow_one (X - C _),
      rootMultiplicity_mul_X_sub_C_pow quotient]

theorem multiplicityRounds_outcome (a : r.Elem) {p : Dense r.Elem} {rounds : ℕ} (count : ℕ)
    (enough : p.size ≤ rounds) :
    (multiplicityRounds ⟨r,Dense.linearFactor a⟩ rounds count ⟨r,p⟩).outcome =
      .ok (count + (Dense.extend K p).rootMultiplicity (algebraMap r.Elem K a)) := by
  induction rounds generalizing p count with
  | zero =>
    rw [Dense.rootMultiplicity_of_size_le K (by omega)]
    rfl
  | succ rounds ih =>
    rw [multiplicityRounds]
    by_cases constant : p.size ≤ 1
    · rw [if_pos (isConstant_iff.mpr constant),Dense.rootMultiplicity_of_size_le K constant]
      rfl
    · have nonzero : p ≠ 0 := mt Dense.size_eq_zero_iff.mpr (by omega)
      rw [if_neg (mt isConstant_iff.mp constant),Work.outcome_bind (divides_outcome K _ p)]
      by_cases root : Dense.extend K (Dense.linearFactor a) ∣ Dense.extend K p
      · obtain ⟨s,taken,smaller,counted⟩ := div_linearFactor K nonzero root
        rw [if_pos (decide_eq_true root),Work.outcome_bind taken,ih (count + 1) (by omega),counted,
          add_assoc,add_comm 1]
      · rw [if_neg (mt of_decide_eq_true root)]
        rw [Dense.extend_linearFactor,dvd_iff_isRoot] at root
        rw [rootMultiplicity_eq_zero root]
        rfl

theorem linearFactor_eq {v : Value} {a : r.Elem} (image : r.ofValue v = .ok a) :
    linearFactor v r = .ok ⟨r,Dense.linearFactor a⟩ := by
  rw [linearFactor,image]
  rfl

/-- The multiplicity of a value is that of the root over the field of fractions. -/
theorem multiplicity_outcome {v : Value} {a : r.Elem} (image : r.ofValue v = .ok a) (p : Dense r.Elem) :
    (multiplicity v ⟨r,p⟩).outcome =
      .ok ((Dense.extend K p).rootMultiplicity (algebraMap r.Elem K a)) := by
  rw [multiplicity,Work.outcome_ofExcept_bind (linearFactor_eq image)]
  exact (multiplicityRounds_outcome K a 0 le_rfl).trans (by rw [zero_add])

theorem eval_eq {v : Value} {a : r.Elem} (image : r.ofValue v = .ok a) (p : Dense r.Elem) :
    eval ⟨r,p⟩ v = .ok (p.eval a) := by
  rw [eval,image]
  rfl

theorem isRoot_eq {v : Value} {a : r.Elem} (image : r.ofValue v = .ok a) (p : Dense r.Elem) :
    isRoot ⟨r,p⟩ v = .ok (decide (p.eval a = 0)) := by
  rw [isRoot,eval_eq image]
  rfl

/-- Only elements of the ring are roots. -/
theorem exists_root {p : Dense r.Elem} {v : Value} (root : isRoot ⟨r,p⟩ v = .ok true) :
    ∃ a, r.ofValue v = .ok a ∧ p.eval a = 0 := by
  cases image : r.ofValue v with
  | error fault =>
    rw [isRoot,eval,image] at root
    cases root
  | ok a =>
    rw [isRoot_eq image,Except.ok.injEq,decide_eq_true_iff] at root
    exact ⟨a,rfl,root⟩

/-- Over the field of fractions a root is as often one as over the coefficients. -/
theorem multiplicity_rootMultiplicity {v : Value} {a : r.Elem} (image : r.ofValue v = .ok a)
    (p : Dense r.Elem) : (multiplicity v ⟨r,p⟩).outcome = .ok (p.toPolynomial.rootMultiplicity a) := by
  rw [multiplicity_outcome (FractionRing r.Elem) image,Dense.extend_apply,
    ← eq_rootMultiplicity_map (IsFractionRing.injective r.Elem (FractionRing r.Elem))]

/-- The multiplicity of an element in a polynomial other than zero is the one number of its linear factors
    that leave a cofactor without the root. It is at most the degree, at least one for roots only, and
    multiplicities add up in products. -/
theorem multiplicity_total_correct (r : BaseRing) {v : Value} {a : r.Elem} (image : r.ofValue v = .ok a)
    {p q : Dense r.Elem} (hp : p ≠ 0) (hq : q ≠ 0) :
    ∃ m n : ℕ, (multiplicity v ⟨r,p⟩).outcome = .ok m ∧
      (∀ k, (∃ c : Dense r.Elem, p = Dense.linearFactor a ^ k * c ∧ c.eval a ≠ 0) ↔ k = m) ∧
      (m : ℤ) ≤ degree ⟨r,p⟩ ∧ isRoot ⟨r,p⟩ v = .ok (decide (1 ≤ m)) ∧
      (multiplicity v ⟨r,q⟩).outcome = .ok n ∧ (multiplicity v ⟨r,p * q⟩).outcome = .ok (m + n) := by
  refine ⟨_,_,multiplicity_rootMultiplicity image p,?_,?_,?_,multiplicity_rootMultiplicity image q,?_⟩
  · intro k
    rw [Dense.rootMultiplicity_eq_iff hp]
  · have bound := Dense.rootMultiplicity_lt_size hp (a := a)
    rw [degree_eq]
    omega
  · rw [isRoot_eq image,decide_eq_decide.mpr (Dense.one_le_rootMultiplicity_iff hp)]
  · rw [multiplicity_rootMultiplicity image,Dense.rootMultiplicity_mul hp hq]

/-- The fraction `4/2` stands for two, which is twice a root of `(x - 2)^2 * (2 * x + 1)` and once one of
    `x^2 - 4` over the integers. -/
theorem multiplicity_of_fraction :
    BaseRing.integers.ofValue (.fraction (4 / 2)) = .ok (2 : ℤ) ∧
    (.ofList [4,4,-7,2] : Dense BaseRing.integers.Elem) ≠ 0 ∧
    (.ofList [-4,0,1] : Dense BaseRing.integers.Elem) ≠ 0 ∧
    ∃ m n : ℕ, (multiplicity (.fraction (4 / 2)) ⟨.integers,.ofList [4,4,-7,2]⟩).outcome = .ok m ∧
      (∀ k, (∃ c : Dense BaseRing.integers.Elem,
        .ofList [4,4,-7,2] = Dense.linearFactor 2 ^ k * c ∧ c.eval 2 ≠ 0) ↔ k = m) ∧
      (m : ℤ) ≤ degree ⟨.integers,.ofList [4,4,-7,2]⟩ ∧
      isRoot ⟨.integers,.ofList [4,4,-7,2]⟩ (.fraction (4 / 2)) = .ok (decide (1 ≤ m)) ∧
      (multiplicity (.fraction (4 / 2)) ⟨.integers,.ofList [-4,0,1]⟩).outcome = .ok n ∧
      (multiplicity (.fraction (4 / 2)) ⟨.integers,.ofList [4,4,-7,2] * .ofList [-4,0,1]⟩).outcome =
        .ok (m + n) := by
  have image : BaseRing.integers.ofValue (.fraction (4 / 2)) = .ok (2 : ℤ) := by cbv
  exact ⟨image,by decide,by decide,multiplicity_total_correct _ image (by decide) (by decide)⟩

end Poly
end Bezout

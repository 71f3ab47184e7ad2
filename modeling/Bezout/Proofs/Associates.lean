import Bezout.Proofs.Remainders

/-!
Divisibility and association without fractions. A polynomial divides another by the test if it divides some
multiple of it by an element of the ring, and two polynomials are associates if they have such a multiple in
common: these are the identities that clear the denominators of a quotient. Where the leading coefficient of
the divisor is a unit no multiple is needed. The laws of both relations are those over the field of
fractions.
-/
namespace Bezout
open Polynomial
open scoped Classical

namespace Dense
variable {R : Type} [CoefficientDomain R] (K : Type) [Field K] [Algebra R K] [IsFractionRing R K]

theorem leadingCoeff_extend (p : Dense R) : (extend K p).leadingCoeff = algebraMap R K p.lead := by
  rw [extend_apply,leadingCoeff_map_of_injective (IsFractionRing.injective R K),leadingCoeff_toPolynomial]

/-- Polynomials other than zero are associates exactly if each one times the leading coefficient of the
    other is the same polynomial. -/
theorem scale_lead_eq_iff {g h : Dense R} (hg : g ≠ 0) (hh : h ≠ 0) :
    g.scale h.lead = h.scale g.lead ↔ Associated (extend K h) (extend K g) := by
  constructor
  · intro same
    have first := associated_extend_scale K (mt lead_eq_zero_iff.mp hg) h
    have second := associated_extend_scale K (mt lead_eq_zero_iff.mp hh) g
    rw [same] at second
    exact first.symm.trans second
  · rintro ⟨unit,same⟩
    obtain ⟨c,-,constant⟩ := isUnit_iff.mp unit.isUnit
    rw [← constant] at same
    -- The constant between the two is the one between their leading coefficients.
    have leads : algebraMap R K h.lead * c = algebraMap R K g.lead := by
      rw [← leadingCoeff_extend,← leadingCoeff_extend,← same,leadingCoeff_mul,leadingCoeff_C]
    apply extend_injective K
    rw [extend_scale,extend_scale,← same,← leads,C_mul]
    ring

/-- Associates have a multiple by elements other than zero in common. -/
theorem associated_extend_iff {p q : Dense R} :
    Associated (extend K p) (extend K q) ↔ ∃ a b : R, a ≠ 0 ∧ b ≠ 0 ∧ p.scale a = q.scale b := by
  constructor
  · intro associate
    have zeros : p = 0 ↔ q = 0 := by
      rw [← extend_eq_zero_iff K,associate.eq_zero_iff,extend_eq_zero_iff]
    by_cases zero : p = 0
    · rw [zero,zeros.mp zero]
      exact ⟨1,1,one_ne_zero,one_ne_zero,rfl⟩
    · have nonzero := mt zeros.mpr zero
      exact ⟨q.lead,p.lead,mt lead_eq_zero_iff.mp nonzero,mt lead_eq_zero_iff.mp zero,
        (scale_lead_eq_iff K zero nonzero).mpr associate.symm⟩
  · rintro ⟨a,b,left,right,same⟩
    have first := associated_extend_scale K left p
    rw [same] at first
    exact first.symm.trans (associated_extend_scale K right q)

end Dense

namespace Poly
variable {r : BaseRing}

/-- A divisor whose leading coefficient is a unit divides exactly what it is a factor of. -/
theorem divides_outcome_of_isUnit {d : Dense r.Elem} (unit : IsUnit d.lead) (p : Dense r.Elem) :
    (divides ⟨r,d⟩ ⟨r,p⟩).outcome = .ok (decide (∃ s, p = s * d)) := by
  rw [divides_outcome_of_exact (.inr unit),decide_eq_decide.mpr dvd_iff_exists_eq_mul_left]

theorem divides_refl (p : Dense r.Elem) : Divides r p p := (divides_iff (FractionRing r.Elem)).mpr dvd_rfl

theorem Divides.trans {d e p : Dense r.Elem} (first : Divides r d e) (second : Divides r e p) :
    Divides r d p := by
  rw [divides_iff (FractionRing r.Elem)] at first second ⊢
  exact first.trans second

theorem areAssociates_equivalence (r : BaseRing) : Equivalence (AreAssociates r) where
  refl _ := (areAssociates_iff (FractionRing r.Elem)).mpr (.refl _)
  symm same := by
    rw [areAssociates_iff (FractionRing r.Elem)] at same ⊢
    exact same.symm
  trans first second := by
    rw [areAssociates_iff (FractionRing r.Elem)] at first second ⊢
    exact first.trans second

theorem AreAssociates.mul {p q s t : Dense r.Elem} (first : AreAssociates r p q)
    (second : AreAssociates r s t) : AreAssociates r (p * s) (q * t) := by
  rw [areAssociates_iff (FractionRing r.Elem)] at first second ⊢
  rw [map_mul,map_mul]
  exact first.mul_mul second

/-- A polynomial divides exactly what has a multiple, by an element other than zero, that it is a factor of;
    if its leading coefficient is a unit, it is a factor of the polynomial itself. Associates are those with
    such a multiple in common. Divisibility is a preorder, and association an equivalence that products
    respect. -/
theorem divisibility_total_correct (r : BaseRing) :
    (∀ d p : Dense r.Elem, (divides ⟨r,d⟩ ⟨r,p⟩).outcome =
      .ok (decide (∃ (c : r.Elem) (s : Dense r.Elem), c ≠ 0 ∧ p.scale c = s * d))) ∧
    (∀ d p : Dense r.Elem, IsUnit d.lead →
      (divides ⟨r,d⟩ ⟨r,p⟩).outcome = .ok (decide (∃ s, p = s * d))) ∧
    (∀ p, Divides r p p) ∧ (∀ d e p, Divides r d e → Divides r e p → Divides r d p) ∧
    (∀ p q : Dense r.Elem, (associated ⟨r,p⟩ ⟨r,q⟩).outcome =
      .ok (decide (∃ a b : r.Elem, a ≠ 0 ∧ b ≠ 0 ∧ p.scale a = q.scale b))) ∧
    Equivalence (AreAssociates r) ∧
    ∀ p q s t, AreAssociates r p q → AreAssociates r s t → AreAssociates r (p * s) (q * t) := by
  refine ⟨?_,fun d p unit => divides_outcome_of_isUnit unit p,divides_refl,fun d e p => Divides.trans,?_,
    areAssociates_equivalence r,fun p q s t => AreAssociates.mul⟩
  · intro d p
    rw [divides_outcome (FractionRing r.Elem)]
    simp only [Dense.extend_dvd_iff]
  · intro p q
    rw [associated_outcome (FractionRing r.Elem)]
    simp only [Dense.associated_extend_iff]

-- No factor of `x + 1` over the integers, but of twice that.
example : Divides .integers (.ofList [2,2]) (.ofList [1,1]) := by
  cbv

end Poly
end Bezout

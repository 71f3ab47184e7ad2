import Bezout.Proofs.Euclid

/-!
Least common multiples. The product of two polynomials loses their greatest common divisor; over the
field of fractions what is left divides exactly the common multiples.
-/
namespace Bezout
open Polynomial
open scoped Classical

namespace Dense
variable {R : Type} [CoefficientDomain R] (K : Type) [Field K] [Algebra R K]

/-- A least common multiple of `p` and `q` over the field of fractions. -/
def IsLcm (p q l : Dense R) : Prop :=
  ∀ D : K[X], extend K l ∣ D ↔ extend K p ∣ D ∧ extend K q ∣ D

theorem isLcm_zero_left (q : Dense R) : IsLcm K 0 q 0 := by
  intro D
  rw [map_zero,zero_dvd_iff]
  constructor
  · rintro rfl
    exact ⟨rfl,dvd_zero _⟩
  · exact And.left

theorem IsLcm.symm {p q l : Dense R} (least : IsLcm K p q l) : IsLcm K q p l :=
  fun D => (least D).trans and_comm

theorem IsGcd.dvd_mul {p q g : Dense R} (greatest : IsGcd K p q g) : extend K g ∣ extend K (p * q) := by
  obtain ⟨first,-⟩ := (greatest _).mp dvd_rfl
  rw [map_mul]
  exact first.mul_right _

/-- What is left of the product when the greatest common divisor was taken out is a least common
    multiple. -/
theorem IsGcd.isLcm [IsFractionRing R K] {p q g l : Dense R} (greatest : IsGcd K p q g) (nonzero : g ≠ 0)
    (product : Associated (extend K l * extend K g) (extend K p * extend K q)) : IsLcm K p q l := by
  intro D
  set G := EuclideanDomain.gcd (extend K p) (extend K q)
  set L := EuclideanDomain.lcm (extend K p) (extend K q)
  have common : Associated (extend K g) G := by
    obtain ⟨first,second⟩ := (greatest _).mp dvd_rfl
    apply associated_of_dvd_dvd (EuclideanDomain.dvd_gcd first second)
    exact (greatest _).mpr ⟨EuclideanDomain.gcd_dvd_left _ _,EuclideanDomain.gcd_dvd_right _ _⟩
  have parts : L * G = extend K p * extend K q := by rw [mul_comm,EuclideanDomain.gcd_mul_lcm]
  rw [← parts] at product
  have multiple := product.of_mul_right common (mt (extend_eq_zero_iff K).mp nonzero)
  rw [multiple.dvd_iff_dvd_left,EuclideanDomain.lcm_dvd_iff]

end Dense

namespace Poly
variable {r : BaseRing} {p q : Dense r.Elem}

theorem lcm_zero (zeros : p = 0 ∨ q = 0) : (lcm ⟨r,p⟩ ⟨r,q⟩).outcome = .ok ⟨r,0⟩ := by
  rw [lcm,if_pos (by simpa [isZero_iff] using zeros)]
  rfl

/-- What is found for two polynomials other than zero is the quotient of their product by their greatest
    common divisor. -/
theorem lcm_of_divide {g : Dense r.Elem} {d : Division (Dense r.Elem)} (nonzero : ¬ (p = 0 ∨ q = 0))
    (found : (gcd ⟨r,p⟩ ⟨r,q⟩).outcome = .ok ⟨r,g⟩)
    (ended : (divide ⟨r,p * q⟩ ⟨r,g⟩).outcome = .ok (.over r d)) :
    (lcm ⟨r,p⟩ ⟨r,q⟩).outcome = .ok ⟨r,d.quotient⟩ := by
  rw [lcm,if_neg (by simpa [isZero_iff] using nonzero),Work.outcome_ofExcept_bind (mul_eq p q),
    Work.outcome_bind found,div_of_divide ended]

theorem lcm_isLcm (K : Type) [Field K] [Algebra r.Elem K] [IsFractionRing r.Elem K] (p q : Dense r.Elem) :
    ∃ l, (lcm ⟨r,p⟩ ⟨r,q⟩).outcome = .ok ⟨r,l⟩ ∧ Dense.IsLcm K p q l := by
  by_cases zeros : p = 0 ∨ q = 0
  · refine ⟨0,lcm_zero zeros,?_⟩
    rcases zeros with rfl | rfl
    · exact Dense.isLcm_zero_left K q
    · exact (Dense.isLcm_zero_left K p).symm
  · obtain ⟨g,found,greatest⟩ := gcd_isGcd K p q
    obtain ⟨d,ended,division,-⟩ := divide_isDivision (p * q) g
    have nonzero : g ≠ 0 := fun none => zeros (.inl (greatest.eq_zero_iff.mp none).1)
    have product := division.associated_mul K (greatest.dvd_mul K)
    rw [map_mul] at product
    exact ⟨d.quotient,lcm_of_divide zeros found ended,greatest.isLcm K nonzero product⟩

/-- Least common multiple and greatest common divisor multiply to the product of the two polynomials, times
    what the division of that product has multiplied by. -/
theorem lcm_mul_gcd {l : Dense r.Elem} (nonzero : ¬ (p = 0 ∨ q = 0))
    (found : (lcm ⟨r,p⟩ ⟨r,q⟩).outcome = .ok ⟨r,l⟩) :
    ∃ (g : Dense r.Elem) (k : ℕ), (gcd ⟨r,p⟩ ⟨r,q⟩).outcome = .ok ⟨r,g⟩ ∧ g ≠ 0 ∧
      (scaleExponent ⟨r,p * q⟩ ⟨r,g⟩).outcome = .ok k ∧ l * g = (p * q).scale (g.lead ^ k) ∧
      (IsUnit g.lead → k = 0) := by
  obtain ⟨g,common,greatest⟩ := gcd_isGcd (FractionRing r.Elem) p q
  obtain ⟨d,ended,division,unscaled⟩ := divide_isDivision (p * q) g
  have whole : d.remainder = 0 := (division.dvd_iff _).mp (greatest.dvd_mul _)
  have same := found.symm.trans (lcm_of_divide nonzero common ended)
  cases same
  refine ⟨g,d.scale.toNat,common,?_,?_,?_,?_⟩
  · exact fun none => nonzero (.inl (greatest.eq_zero_iff.mp none).1)
  · rw [scaleExponent_of_divide ended,division.toNat_scale]
  · rw [division.identity,whole,add_zero]
  · intro unit
    rw [unscaled unit,Int.toNat_zero]

/-- The least common multiple is a multiple of both polynomials that divides all others. With the greatest
    common divisor it multiplies to the product of the two, up to the power of a leading coefficient that
    the division multiplies by; over a field this is the product itself. -/
theorem lcm_total_correct (r : BaseRing) (p q : Dense r.Elem) :
    ∃ l : Dense r.Elem, (lcm ⟨r,p⟩ ⟨r,q⟩).outcome = .ok ⟨r,l⟩ ∧ Divides r p l ∧ Divides r q l ∧
      (∀ m, Divides r p m → Divides r q m → Divides r l m) ∧
      (p ≠ 0 → q ≠ 0 → ∃ (g : Dense r.Elem) (k : ℕ), (gcd ⟨r,p⟩ ⟨r,q⟩).outcome = .ok ⟨r,g⟩ ∧
        (scaleExponent ⟨r,p * q⟩ ⟨r,g⟩).outcome = .ok k ∧ l * g = (p * q).scale (g.lead ^ k) ∧
        (r.isField = true → l * g = p * q)) := by
  obtain ⟨l,found,least⟩ := lcm_isLcm (FractionRing r.Elem) p q
  obtain ⟨first,second⟩ := (least _).mp dvd_rfl
  refine ⟨l,found,(divides_iff _).mpr first,(divides_iff _).mpr second,?_,?_⟩
  · intro m left right
    rw [divides_iff (FractionRing r.Elem)] at left right ⊢
    exact (least _).mpr ⟨left,right⟩
  · intro left right
    obtain ⟨g,k,common,nonzero,counted,product,unscaled⟩ := lcm_mul_gcd (not_or.mpr ⟨left,right⟩) found
    refine ⟨g,k,common,counted,product,?_⟩
    intro field
    have unit := BaseRing.isUnit_of_ne_zero field (mt Dense.lead_eq_zero_iff.mp nonzero)
    rw [product,unscaled unit,pow_zero,Dense.scale_one]

-- The greatest common divisor is `2 * x + 2`, and each of the two steps multiplies by two.
example : (lcm ⟨.integers,.ofList [2,2]⟩ ⟨.integers,.ofList [-1,0,1]⟩).outcome =
    .ok ⟨.integers,.ofList [-4,0,4]⟩ := by
  cbv

end Poly
end Bezout

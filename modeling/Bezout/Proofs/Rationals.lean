import Bezout.Proofs.CommonMultiples
import Bezout.Proofs.CoprimePart
import Bezout.Proofs.Multiplicity
import Bezout.Proofs.SquareFreePart

/-!
Reckoning over the integers against reckoning over the rational numbers. The rational numbers are the
field of fractions of both rings, and a polynomial over the integers is over that field what it is after
it was taken into the rational numbers. Whatever two rings have one field of fractions, every answer is
told there and every result up to association (`SameAssociate`), which normal forms do not see.
-/
namespace Bezout
open Polynomial
open scoped Classical

namespace BaseRing

/-- The rational numbers as an algebra over the elements of a ring of characteristic zero. -/
@[reducible] def valueAlgebra (r : BaseRing) (takes : r.TakesNumbers)
    (characteristic : r.characteristic = 0) : Algebra r.Elem ℚ :=
  (r.valueHom takes characteristic).toAlgebra

/-- The rational numbers are the fractions of the elements. -/
theorem isFractionRing_values {r : BaseRing} (takes : r.TakesNumbers)
    (characteristic : r.characteristic = 0) :
    let := r.valueAlgebra takes characteristic
    IsFractionRing r.Elem ℚ := by
  let := r.valueAlgebra takes characteristic
  have : FaithfulSMul r.Elem ℚ :=
    (faithfulSMul_iff_algebraMap_injective _ _).mpr (valueHom_injective takes characteristic)
  apply IsFractionRing.of_field
  intro x
  refine ⟨x.num,x.den,?_⟩
  rw [map_intCast,map_natCast,Rat.num_div_den]

end BaseRing

namespace Dense
open Coefficient (number)

/-- A polynomial over the integers as one over the rational numbers. -/
def toRationals (p : Dense BaseRing.integers.Elem) : Dense BaseRing.rationals.Elem where
  coeffs := p.coeffs.map fun n : ℤ => (n : ℚ)
  stripped := by
    rw [List.getLast?_map]
    intro zero
    obtain ⟨n,last,vanishes⟩ := Option.map_eq_some_iff.mp zero
    obtain rfl : n = 0 := Rat.intCast_eq_zero_iff.mp vanishes
    exact p.stripped last

/-- Over the rational numbers a polynomial has the values of its coefficients. -/
theorem extend_values {r : BaseRing} (takes : r.TakesNumbers) (characteristic : r.characteristic = 0)
    (p : Dense r.Elem) :
    let := r.valueAlgebra takes characteristic
    extend ℚ p = ofCoeffs (p.coeffs.map fun a => (number a).value) := by
  intro _
  exact (ofCoeffs_map (r.valueHom takes characteristic) p.coeffs).symm

/-- Greatest common divisors of what is the same over a field of fractions are associates there. -/
theorem IsGcd.associated_of_extend_eq {R S : Type} [CoefficientDomain R] [CoefficientDomain S] (K : Type)
    [Field K] [Algebra R K] [Algebra S K] {p q g : Dense R} {p' q' g' : Dense S}
    (greatest : IsGcd K p q g) (greatest' : IsGcd K p' q' g') (first : extend K p = extend K p')
    (second : extend K q = extend K q') : Associated (extend K g) (extend K g') := by
  rw [IsGcd,first,second] at greatest
  exact associated_of_dvd_dvd ((greatest' _).mpr ((greatest _).mp dvd_rfl))
    ((greatest _).mpr ((greatest' _).mp dvd_rfl))

end Dense

/-! ### Answers and results over one field of fractions -/

namespace Poly

/-- Two computations end with one answer. -/
def SameAnswer {α : Type} (w w' : Work α) : Prop :=
  ∃ answer, w.outcome = .ok answer ∧ w'.outcome = .ok answer

section Agreement
variable {r s : BaseRing} (K : Type) [Field K] [Algebra r.Elem K] [Algebra s.Elem K]

/-- Two computations, over `r` and over `s`, end with associates over a field of fractions of both. -/
def SameAssociate (w w' : Work Poly) : Prop :=
  ∃ (t : Dense r.Elem) (t' : Dense s.Elem), w.outcome = .ok ⟨r,t⟩ ∧ w'.outcome = .ok ⟨s,t'⟩ ∧
    Associated (Dense.extend K t) (Dense.extend K t')

variable [IsFractionRing r.Elem K] [IsFractionRing s.Elem K] {p q : Dense r.Elem} {p' q' : Dense s.Elem}
  (first : Dense.extend K p = Dense.extend K p') (second : Dense.extend K q = Dense.extend K q')
include first

theorem isSquareFree_agree [PerfectField K] : SameAnswer (isSquareFree ⟨r,p⟩) (isSquareFree ⟨s,p'⟩) := by
  refine ⟨_,isSquareFree_outcome K p,?_⟩
  rw [first]
  exact isSquareFree_outcome K p'

include second

theorem divides_agree : SameAnswer (divides ⟨r,p⟩ ⟨r,q⟩) (divides ⟨s,p'⟩ ⟨s,q'⟩) := by
  refine ⟨_,divides_outcome K p q,?_⟩
  rw [first,second]
  exact divides_outcome K p' q'

theorem associated_agree : SameAnswer (associated ⟨r,p⟩ ⟨r,q⟩) (associated ⟨s,p'⟩ ⟨s,q'⟩) := by
  refine ⟨_,associated_outcome K p q,?_⟩
  rw [first,second]
  exact associated_outcome K p' q'

theorem coprime_agree : SameAnswer (coprime ⟨r,p⟩ ⟨r,q⟩) (coprime ⟨s,p'⟩ ⟨s,q'⟩) := by
  refine ⟨_,coprime_outcome K p q,?_⟩
  rw [first,second]
  exact coprime_outcome K p' q'

theorem gcd_agree : SameAssociate (r := r) (s := s) K (gcd ⟨r,p⟩ ⟨r,q⟩) (gcd ⟨s,p'⟩ ⟨s,q'⟩) := by
  obtain ⟨g,found,greatest⟩ := gcd_isGcd K p q
  obtain ⟨g',found',greatest'⟩ := gcd_isGcd K p' q'
  exact ⟨g,g',found,found',greatest.associated_of_extend_eq K greatest' first second⟩

theorem lcm_agree : SameAssociate (r := r) (s := s) K (lcm ⟨r,p⟩ ⟨r,q⟩) (lcm ⟨s,p'⟩ ⟨s,q'⟩) := by
  obtain ⟨l,found,least⟩ := lcm_isLcm K p q
  obtain ⟨l',found',least'⟩ := lcm_isLcm K p' q'
  refine ⟨l,l',found,found',?_⟩
  rw [Dense.IsLcm,first,second] at least
  exact associated_of_dvd_dvd ((least _).mpr ((least' _).mp dvd_rfl))
    ((least' _).mpr ((least _).mp dvd_rfl))

omit second in
theorem eq_zero_iff_of_extend_eq : p = 0 ↔ p' = 0 := by
  rw [← Dense.extend_eq_zero_iff K,first,Dense.extend_eq_zero_iff]

theorem gdcop_agree (takes : r.TakesNumbers) (takes' : s.TakesNumbers) :
    SameAssociate (r := r) (s := s) K (gdcop ⟨r,q⟩ ⟨r,p⟩) (gdcop ⟨s,q'⟩ ⟨s,p'⟩) := by
  by_cases zero : p = 0
  · have zero' := (eq_zero_iff_of_extend_eq K first).mp zero
    subst zero zero'
    refine ⟨_,_,gdcop_zero takes q,gdcop_zero takes' q',?_⟩
    simp only [eq_zero_iff_of_extend_eq K second]
    split <;> simp
  · have nonzero := mt (eq_zero_iff_of_extend_eq K first).mpr zero
    obtain ⟨d,found,part⟩ := gdcopRounds_isCoprimePart K q zero le_rfl
    obtain ⟨d',found',part'⟩ := gdcopRounds_isCoprimePart K q' nonzero le_rfl
    refine ⟨d,d',found,found',associated_of_dvd_dvd ?_ ?_⟩
    · exact part'.greatest _ (first ▸ part.dvd) (second ▸ part.coprime)
    · exact part.greatest _ (first ▸ part'.dvd) (second ▸ part'.coprime)

omit second

theorem squareFreePart_agree (takes : r.TakesNumbers) (takes' : s.TakesNumbers)
    (characteristic : r.characteristic = 0) (characteristic' : s.characteristic = 0) :
    SameAssociate (r := r) (s := s) K (squareFreePart ⟨r,p⟩) (squareFreePart ⟨s,p'⟩) := by
  by_cases zero : p = 0
  · have zero' := (eq_zero_iff_of_extend_eq K first).mp zero
    subst zero zero'
    refine ⟨0,0,?_,?_,by rw [map_zero,map_zero]⟩
    · rw [squareFreePart,if_neg (not_not.mpr characteristic),if_pos (isZero_iff.mpr rfl)]
      rfl
    · rw [squareFreePart,if_neg (not_not.mpr characteristic'),if_pos (isZero_iff.mpr rfl)]
      rfl
  · have nonzero := mt (eq_zero_iff_of_extend_eq K first).mpr zero
    obtain ⟨t,g,found,-,greatest,factors⟩ := squareFreePart_outcome K takes characteristic zero
    obtain ⟨t',g',found',-,greatest',factors'⟩ := squareFreePart_outcome K takes' characteristic' nonzero
    refine ⟨t,t',found,found',?_⟩
    have derivatives : Dense.extend K p.derivative = Dense.extend K p'.derivative := by
      rw [Dense.extend_derivative,first,Dense.extend_derivative]
    have common := greatest.associated_of_extend_eq K greatest' first derivatives
    have kept : g ≠ 0 := fun none => zero (greatest.eq_zero_iff.mp none).1
    rw [first] at factors
    exact (factors.trans factors'.symm).of_mul_right common (mt (Dense.extend_eq_zero_iff K).mp kept)

theorem multiplicity_agree {v : Value} {a : r.Elem} {a' : s.Elem} (image : r.ofValue v = .ok a)
    (image' : s.ofValue v = .ok a') (same : algebraMap r.Elem K a = algebraMap s.Elem K a') :
    SameAnswer (multiplicity v ⟨r,p⟩) (multiplicity v ⟨s,p'⟩) := by
  refine ⟨_,multiplicity_outcome K image p,?_⟩
  rw [first,same]
  exact multiplicity_outcome K image' p'

end Agreement

/-! ### From the integers to the rational numbers -/

/-- The result of one computation, moved to the rational numbers, and the result of another one have the
    same normal form. -/
def SameNormalForm (w w' : Work Poly) : Prop :=
  ∃ t t' moved normal, w.outcome = .ok t ∧ w'.outcome = .ok t' ∧ changeRing t .rationals = .ok moved ∧
    normalize moved = .ok normal ∧ normalize t' = .ok normal

theorem changeRing_rationals (p : Dense BaseRing.integers.Elem) :
    changeRing ⟨.integers,p⟩ .rationals = .ok ⟨.rationals,p.toRationals⟩ := by
  apply changeRing_of_values (r := .rationals) trivial
  rw [Dense.toRationals,List.map_map]
  rfl

/-- Associates over a common field of fractions have one normal form over the rational numbers. -/
theorem SameAssociate.sameNormalForm (K : Type) [Field K] [Algebra BaseRing.integers.Elem K]
    [Algebra BaseRing.rationals.Elem K] [IsFractionRing BaseRing.rationals.Elem K]
    (kept : ∀ t : Dense BaseRing.integers.Elem, Dense.extend K t = Dense.extend K t.toRationals)
    {w w' : Work Poly} (agree : SameAssociate (r := .integers) (s := .rationals) K w w') :
    SameNormalForm w w' := by
  obtain ⟨t,t',ended,ended',associate⟩ := agree
  obtain ⟨n,-,found,-⟩ := normalize_isNormal (r := .rationals) trivial t'
  obtain ⟨normal,companion⟩ := (normalize_eq_iff (r := .rationals) K trivial t' n).mp found
  rw [kept] at associate
  have moved := (normalize_eq_iff (r := .rationals) K trivial t.toRationals n).mpr
    ⟨normal,companion.trans associate.symm⟩
  exact ⟨_,_,_,_,ended,ended',changeRing_rationals t,moved,found⟩

/-- Computing over the integers agrees with computing over the rational numbers: the same answers, and
    results with the same normal form. -/
theorem integers_agree_with_rationals (p q : Dense BaseRing.integers.Elem) (x : ℤ) :
    ∃ p' q' : Poly, changeRing ⟨.integers,p⟩ .rationals = .ok p' ∧
      changeRing ⟨.integers,q⟩ .rationals = .ok q' ∧
      SameAnswer (divides ⟨.integers,p⟩ ⟨.integers,q⟩) (divides p' q') ∧
      SameAnswer (associated ⟨.integers,p⟩ ⟨.integers,q⟩) (associated p' q') ∧
      SameAnswer (coprime ⟨.integers,p⟩ ⟨.integers,q⟩) (coprime p' q') ∧
      SameAnswer (isSquareFree ⟨.integers,p⟩) (isSquareFree p') ∧
      SameAnswer (multiplicity (.integer x) ⟨.integers,p⟩) (multiplicity (.integer x) p') ∧
      SameNormalForm (gcd ⟨.integers,p⟩ ⟨.integers,q⟩) (gcd p' q') ∧
      SameNormalForm (lcm ⟨.integers,p⟩ ⟨.integers,q⟩) (lcm p' q') ∧
      SameNormalForm (gdcop ⟨.integers,q⟩ ⟨.integers,p⟩) (gdcop q' p') ∧
      SameNormalForm (squareFreePart ⟨.integers,p⟩) (squareFreePart p') := by
  let := BaseRing.integers.valueAlgebra trivial rfl
  let := BaseRing.rationals.valueAlgebra trivial rfl
  have := BaseRing.isFractionRing_values (r := .integers) trivial rfl
  have := BaseRing.isFractionRing_values (r := .rationals) trivial rfl
  have kept : ∀ t : Dense BaseRing.integers.Elem, Dense.extend ℚ t = Dense.extend ℚ t.toRationals := by
    intro t
    rw [Dense.extend_values (r := .integers) trivial rfl,Dense.extend_values (r := .rationals) trivial rfl,
      Dense.toRationals,List.map_map]
    rfl
  have image := BaseRing.ofValue_integer (r := .integers) trivial x
  have image' := BaseRing.ofValue_integer (r := .rationals) trivial x
  have point : algebraMap BaseRing.integers.Elem ℚ (Int.cast x) =
      algebraMap BaseRing.rationals.Elem ℚ (Int.cast x) := by
    rw [map_intCast,map_intCast]
  refine ⟨_,_,changeRing_rationals p,changeRing_rationals q,divides_agree ℚ (kept p) (kept q),
    associated_agree ℚ (kept p) (kept q),coprime_agree ℚ (kept p) (kept q),isSquareFree_agree ℚ (kept p),
    multiplicity_agree ℚ (kept p) image image' point,?_,?_,?_,?_⟩
  · exact (gcd_agree ℚ (kept p) (kept q)).sameNormalForm ℚ kept
  · exact (lcm_agree ℚ (kept p) (kept q)).sameNormalForm ℚ kept
  · exact (gdcop_agree ℚ (kept p) (kept q) trivial trivial).sameNormalForm ℚ kept
  · exact (squareFreePart_agree ℚ (kept p) trivial trivial rfl rfl).sameNormalForm ℚ kept

end Poly
end Bezout

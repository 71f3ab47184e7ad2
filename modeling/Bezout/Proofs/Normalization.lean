import Bezout.Proofs.Divisibility
import Bezout.Gcd

/-!
Normal associates. `normalize` divides by a content, a greatest common divisor of the coefficients
that is chosen by the leading one. This never fails, since a content divides every coefficient
(`normalize_isNormal`). What is left is primitive and has a normal leading coefficient; among the
associates over the field of fractions only one polynomial does (`IsNormal.eq_of_associated`), so that
associates are told by their normal forms.
-/
namespace Bezout
open Polynomial
open scoped Classical

namespace BaseRing
variable {r : BaseRing}

/-- The leading coefficients of normal polynomials: one over a field, and any positive integer. -/
def IsNormalLead : (r : BaseRing) → r.Elem → Prop
  | integers, a => 0 < (a : ℤ)
  | rationals, a => a = 1
  | residues _, a => a = 1
  | bare _ _, _ => False

theorem isNormalLead_iff (field : r.isField = true) {a : r.Elem} : r.IsNormalLead a ↔ a = 1 := by
  cases r with
  | integers => cases field
  | rationals => rfl
  | residues m => rfl
  | bare c mark => cases field

/-- A unit that keeps a leading coefficient normal is one. -/
theorem IsNormalLead.unit_eq_one {a u : r.Elem} (unit : IsUnit u) (left : r.IsNormalLead a)
    (right : r.IsNormalLead (a * u)) : u = 1 := by
  cases r with
  | integers =>
    have product : 0 < (a : ℤ) * (u : ℤ) := right
    have positive : 0 < (u : ℤ) := (pos_iff_pos_of_mul_pos product).mp left
    rcases Int.isUnit_iff.mp unit with one | minus
    · exact one
    · rw [minus] at positive
      exact absurd positive (by decide)
  | rationals =>
    obtain rfl : a = 1 := left
    exact (one_mul u).symm.trans right
  | residues m =>
    obtain rfl : a = 1 := left
    exact (one_mul u).symm.trans right
  | bare c mark => exact left.elim

/-- The coefficients have greatest common divisors, so that Gauss's lemma holds for polynomials. -/
instance (r : BaseRing) : IsGCDMonoid r.Elem := by
  cases r with
  | integers => exact inferInstanceAs (IsGCDMonoid ℤ)
  | rationals => exact inferInstanceAs (IsGCDMonoid ℚ)
  | residues m => exact inferInstanceAs (IsGCDMonoid (Residue m))
  | bare c mark => exact inferInstanceAs (IsGCDMonoid ℤ)

end BaseRing

/-! ### Contents -/

namespace Dense

section Divisors
variable {R : Type} [CoefficientDomain R]

/-- A constant divides a polynomial if it divides every coefficient. -/
theorem C_dvd_iff {c : R} {p : Dense R} : C c ∣ p.toPolynomial ↔ ∀ a ∈ p.coeffs, c ∣ a := by
  rw [C_dvd_iff_dvd_coeff]
  constructor
  · intro all a member
    obtain ⟨i,inside,rfl⟩ := List.getElem_of_mem member
    have found := all i
    rwa [coeff_toPolynomial,coeff,List.getD_eq_getElem _ _ inside] at found
  · intro all i
    rw [coeff_toPolynomial,coeff]
    by_cases inside : i < p.coeffs.length
    · rw [List.getD_eq_getElem _ _ inside]
      exact all _ (List.getElem_mem inside)
    · rw [List.getD_eq_default _ _ (not_lt.mp inside)]
      exact dvd_zero c

theorem exists_eq_scale {c : R} {p : Dense R} (divides : ∀ a ∈ p.coeffs, c ∣ a) :
    ∃ s : Dense R, p = s.scale c := by
  obtain ⟨S,factors⟩ := C_dvd_iff.mpr divides
  obtain ⟨s,rfl⟩ := toPolynomial_surjective S
  exact ⟨s,toPolynomial_injective (by rw [factors,toPolynomial_scale])⟩

end Divisors

variable {r : BaseRing}

/-- A content of `p`: a greatest common divisor of the coefficients, chosen so that the quotient of the
    leading coefficient is normal. -/
structure IsContent (p : Dense r.Elem) (c : r.Elem) : Prop where
  nonzero : c ≠ 0
  dvd : ∀ a ∈ p.coeffs, c ∣ a
  greatest : ∀ d, (∀ a ∈ p.coeffs, d ∣ a) → d ∣ c
  normal : ∀ a, p.lead = c * a → r.IsNormalLead a

theorem isContent_lead (field : r.isField = true) {p : Dense r.Elem} (nonzero : p ≠ 0) :
    IsContent p p.lead := by
  have lead : p.lead ≠ 0 := mt lead_eq_zero_iff.mp nonzero
  refine ⟨lead,?_,?_,?_⟩
  · intro a _
    exact (BaseRing.isUnit_of_ne_zero field lead).dvd
  · intro d divides
    exact divides _ (List.mem_of_getLast? (getLast?_coeffs nonzero))
  · intro a factors
    exact (BaseRing.isNormalLead_iff field).mpr
      (mul_left_cancel₀ lead (factors.symm.trans (mul_one _).symm))

theorem dvd_foldl_gcd_iff (ns : List ℤ) (g d : ℕ) :
    d ∣ ns.foldl (fun g n => Nat.gcd g n.natAbs) g ↔ d ∣ g ∧ ∀ n ∈ ns, d ∣ n.natAbs := by
  induction ns generalizing g with
  | nil => simp
  | cons n rest ih => rw [List.foldl_cons,ih,Nat.dvd_gcd_iff,List.forall_mem_cons,and_assoc]

/-- The greatest common divisor of integer coefficients is a content, with the sign of the leading one. -/
theorem isContent_of_natAbs {p : Dense BaseRing.integers.Elem} {c : ℤ} (nonzero : p ≠ 0)
    (content : c.natAbs = List.foldl (fun g n => Nat.gcd g (Int.natAbs n)) 0 p.coeffs)
    (sign : 0 ≤ c * (p.lead : ℤ)) : IsContent p c := by
  have common : ∀ d : ℕ, d ∣ c.natAbs ↔ ∀ n ∈ p.coeffs, d ∣ Int.natAbs n := by
    intro d
    rw [content,dvd_foldl_gcd_iff]
    simp
  have divides : ∀ a ∈ p.coeffs, c ∣ a := fun a member =>
    Int.natAbs_dvd_natAbs.mp ((common _).mp dvd_rfl a member)
  have lead : (p.lead : ℤ) ≠ 0 := mt lead_eq_zero_iff.mp nonzero
  have factor : c ≠ 0 := by
    rintro rfl
    exact lead (zero_dvd_iff.mp (divides _ (List.mem_of_getLast? (getLast?_coeffs nonzero))))
  refine ⟨factor,divides,?_,?_⟩
  · intro d all
    exact Int.natAbs_dvd_natAbs.mp ((common _).mpr fun a member =>
      Int.natAbs_dvd_natAbs.mpr (all a member))
  · intro a factors
    have square : 0 ≤ c * c * (a : ℤ) := by
      rw [mul_assoc]
      exact sign.trans_eq (congrArg (c * ·) factors)
    have nonneg := (mul_nonneg_iff_of_pos_left (mul_self_pos.mpr factor)).mp square
    exact nonneg.lt_of_ne' fun zero =>
      lead (factors.trans ((congrArg (c * ·) zero).trans (mul_zero c)))

/-! ### Normal polynomials -/

/-- The polynomial that stands for all its associates: unless it is zero, its coefficients have only
    units in common, and its leading coefficient is normal. -/
structure IsNormal (s : Dense r.Elem) : Prop where
  primitive : s ≠ 0 → s.toPolynomial.IsPrimitive
  lead : s ≠ 0 → r.IsNormalLead s.lead

theorem isNormal_zero : IsNormal (0 : Dense r.Elem) where
  primitive nonzero := absurd rfl nonzero
  lead nonzero := absurd rfl nonzero

/-- Over a field the normal polynomials other than zero are the monic ones. -/
theorem isNormal_of_lead (field : r.isField = true) {s : Dense r.Elem} (one : s.lead = 1) : IsNormal s := by
  have monic : s.toPolynomial.Monic := by rw [Monic,leadingCoeff_toPolynomial,one]
  exact ⟨fun _ => monic.isPrimitive,fun _ => (BaseRing.isNormalLead_iff field).mpr one⟩

/-- Taking out a content leaves a normal polynomial. -/
theorem IsContent.isNormal {s : Dense r.Elem} {c : r.Elem} (content : IsContent (s.scale c) c) :
    IsNormal s where
  primitive _ d divides := by
    rw [C_dvd_iff] at divides
    have common : c * d ∣ c := by
      apply content.greatest
      rw [coeffs_scale content.nonzero]
      intro a member
      obtain ⟨b,inside,rfl⟩ := List.mem_map.mp member
      exact mul_dvd_mul_left c (divides b inside)
    exact isUnit_of_dvd_one ((mul_dvd_mul_iff_left content.nonzero).mp (by rwa [mul_one]))
  lead _ := content.normal _ (lead_scale c s)

/-- Normal polynomials that are associates over the field of fractions are the same. -/
theorem IsNormal.eq_of_associated (K : Type) [Field K] [Algebra r.Elem K] [IsFractionRing r.Elem K]
    {s w : Dense r.Elem} (left : IsNormal s) (right : IsNormal w)
    (associate : Associated (extend K s) (extend K w)) : s = w := by
  by_cases zero : s = 0
  · rw [zero,map_zero] at associate
    rw [zero,(extend_eq_zero_iff K).mp ((associated_zero_iff_eq_zero _).mp associate.symm)]
  · have nonzero : w ≠ 0 := by
      rintro rfl
      rw [map_zero,associated_zero_iff_eq_zero] at associate
      exact zero ((extend_eq_zero_iff K).mp associate)
    -- By Gauss's lemma primitive polynomials divide each other over the coefficients already.
    have forth : s.toPolynomial ∣ w.toPolynomial :=
      (left.primitive zero).dvd_of_fraction_map_dvd_fraction_map associate.dvd
    have back : w.toPolynomial ∣ s.toPolynomial :=
      (right.primitive nonzero).dvd_of_fraction_map_dvd_fraction_map associate.dvd'
    obtain ⟨U,same⟩ := associated_of_dvd_dvd forth back
    obtain ⟨u,unit,constant⟩ := isUnit_iff.mp U.isUnit
    rw [← constant] at same
    have scaled : s.scale u = w := toPolynomial_injective (by rw [toPolynomial_scale,mul_comm,same])
    have lead := right.lead nonzero
    rw [← scaled,lead_scale,mul_comm] at lead
    rw [← scaled,(left.lead zero).unit_eq_one unit lead,scale_one]

/-- The coefficients of a normal polynomial over the integers have greatest common divisor one. -/
theorem IsNormal.gcd_coeffs {z : Dense BaseRing.integers.Elem} (normal : IsNormal z) (nonzero : z ≠ 0) :
    (z.coeffs : Multiset ℤ).gcd = 1 := by
  have unit : IsUnit (z.coeffs : Multiset ℤ).gcd :=
    normal.primitive nonzero _ (C_dvd_iff.mpr fun a member => Multiset.gcd_dvd member)
  rw [← Multiset.normalize_gcd,normalize_eq_one.mpr unit]

end Dense

/-! ### Normal forms -/

namespace Poly
variable {r : BaseRing}

open Coefficient (number)

theorem getLast?_numbers {p : Dense r.Elem} (nonzero : p ≠ 0) :
    p.numbers.getLast? = some (number p.lead) := by
  rw [Dense.numbers,List.getLast?_map,Dense.getLast?_coeffs nonzero,Option.map_some]

theorem normalFactor_integers {p : Dense BaseRing.integers.Elem} (nonzero : p ≠ 0) :
    ∃ c, BaseRing.integers.normalFactor p.numbers = .ok (number c) ∧ Dense.IsContent p c := by
  have last := getLast?_numbers nonzero
  have whole : p.numbers.mapM Number.integer? = some p.coeffs := by
    rw [Dense.numbers,List.mapM_map]
    exact (List.mapM_pure (m := Option) (f := id)).trans (congrArg some (List.map_id _))
  simp only [BaseRing.normalFactor,last,whole]
  by_cases negative : (p.lead : ℤ) < 0
  · have sign : (number p.lead).less (.integer 0) = true := decide_eq_true (Int.cast_lt.mpr negative)
    rw [if_pos sign]
    refine ⟨_,rfl,Dense.isContent_of_natAbs nonzero (by rw [Int.natAbs_neg,Int.natAbs_natCast]) ?_⟩
    exact mul_nonneg_of_nonpos_of_nonpos (by simp) negative.le
  · have sign : ¬ (number p.lead).less (.integer 0) = true := by
      rw [Number.less,decide_eq_true_iff]
      exact mt Int.cast_lt.mp negative
    rw [if_neg sign]
    refine ⟨_,rfl,Dense.isContent_of_natAbs nonzero (Int.natAbs_natCast _) ?_⟩
    exact mul_nonneg (Int.natCast_nonneg _) (not_lt.mp negative)

theorem normalFactor_isContent (takes : r.TakesNumbers) {p : Dense r.Elem} (nonzero : p ≠ 0) :
    ∃ c, r.normalFactor p.numbers = .ok (number c) ∧ Dense.IsContent p c := by
  have last := getLast?_numbers nonzero
  cases r with
  | integers => exact normalFactor_integers nonzero
  | rationals => exact ⟨p.lead,by simp only [BaseRing.normalFactor,last],Dense.isContent_lead rfl nonzero⟩
  | residues m => exact ⟨p.lead,by simp only [BaseRing.normalFactor,last],Dense.isContent_lead rfl nonzero⟩
  | bare c mark => exact takes.elim

/-- Dividing by the content never fails, and it leaves a normal polynomial. -/
theorem normalize_isNormal (takes : r.TakesNumbers) (p : Dense r.Elem) :
    ∃ (s : Dense r.Elem) (c : r.Elem), normalize ⟨r,p⟩ = .ok ⟨r,s⟩ ∧ c ≠ 0 ∧ p = s.scale c ∧
      s.IsNormal := by
  by_cases zero : p = 0
  · subst zero
    exact ⟨0,1,by rw [normalize,if_pos (isZero_iff.mpr rfl)],one_ne_zero,(Dense.scale_one 0).symm,
      Dense.isNormal_zero⟩
  · obtain ⟨c,found,content⟩ := normalFactor_isContent takes zero
    obtain ⟨s,rfl⟩ := Dense.exists_eq_scale content.dvd
    refine ⟨s,c,?_,content.nonzero,rfl,content.isNormal⟩
    have quotients : (s.scale c).numbers.mapM (fun a => r.exactDiv a (number c)) = .ok s.numbers := by
      apply mapM_eq_ok
      rw [Dense.numbers,Dense.numbers,Dense.coeffs_scale content.nonzero,List.map_map,
        List.forall₂_map_left_iff,List.forall₂_map_right_iff,List.forall₂_same]
      exact fun a _ => BaseRing.exactDiv_number takes content.nonzero
    rw [normalize,if_neg (mt isZero_iff.mp zero)]
    show (r.normalFactor (s.scale c).numbers >>= _) = _
    rw [found]
    show ((s.scale c).numbers.mapM (fun a => r.exactDiv a (number c)) >>= _) = _
    rw [quotients]
    exact ofValues_numbers takes s

/-- The normal form is the normal polynomial among the associates. -/
theorem normalize_eq_iff (K : Type) [Field K] [Algebra r.Elem K] [IsFractionRing r.Elem K]
    (takes : r.TakesNumbers) (p s : Dense r.Elem) :
    normalize ⟨r,p⟩ = .ok ⟨r,s⟩ ↔ s.IsNormal ∧ Associated (Dense.extend K s) (Dense.extend K p) := by
  obtain ⟨w,c,found,factor,rfl,normal⟩ := normalize_isNormal takes p
  have scaled := Dense.associated_extend_scale K factor w
  rw [found]
  constructor
  · intro same
    cases same
    exact ⟨normal,scaled.symm⟩
  · rintro ⟨other,associate⟩
    rw [normal.eq_of_associated K other (associate.trans scaled).symm]

/-- Over a field the normal form is the monic multiple. -/
theorem monic_eq_normalize (takes : r.TakesNumbers) (field : r.isField = true) (p : Dense r.Elem) :
    monic ⟨r,p⟩ = normalize ⟨r,p⟩ := by
  by_cases zero : p = 0
  · subst zero
    have none : Coefficient.inverse? (0 : Dense r.Elem).lead = none :=
      Coefficient.inverse?_eq_none_iff.mpr not_isUnit_zero
    rw [normalize,if_pos (isZero_iff.mpr rfl)]
    simp only [monic]
    rw [if_pos field,none]
  · have lead : p.lead ≠ 0 := mt Dense.lead_eq_zero_iff.mp zero
    obtain ⟨inverse,unit⟩ := isUnit_iff_exists_inv.mp (BaseRing.isUnit_of_ne_zero field lead)
    have one : (p.scale inverse).lead = 1 := by rw [Dense.lead_scale,mul_comm,unit]
    have factor : inverse ≠ 0 := right_ne_zero_of_mul_eq_one unit
    have normal := (normalize_eq_iff (FractionRing r.Elem) takes p (p.scale inverse)).mpr
      ⟨Dense.isNormal_of_lead field one,Dense.associated_extend_scale _ factor p⟩
    rw [normal,monic_eq field (CoefficientDomain.inverse?_eq_some_iff.mpr unit)]

/-- Every polynomial has a normal form, an associate of it that is its own normal form, and associates
    are told by having the same one. It is the monic multiple over a field; over the integers its
    coefficients have greatest common divisor one, and its leading coefficient is positive. -/
theorem normalize_total_correct (r : BaseRing) (takes : r.TakesNumbers) (p q : Dense r.Elem) :
    ∃ s w : Dense r.Elem, normalize ⟨r,p⟩ = .ok ⟨r,s⟩ ∧ normalize ⟨r,q⟩ = .ok ⟨r,w⟩ ∧
      (associated ⟨r,s⟩ ⟨r,p⟩).outcome = .ok true ∧ normalize ⟨r,s⟩ = .ok ⟨r,s⟩ ∧
      (∃ answer, (associated ⟨r,p⟩ ⟨r,q⟩).outcome = .ok answer ∧ (answer = true ↔ s = w)) ∧
      (r.isField = true → monic ⟨r,p⟩ = .ok ⟨r,s⟩) ∧
      (p ≠ 0 → ∀ z : Dense BaseRing.integers.Elem, (⟨r,s⟩ : Poly) = ⟨.integers,z⟩ →
        (z.coeffs : Multiset ℤ).gcd = 1 ∧ 0 < (z.lead : ℤ)) := by
  obtain ⟨s,c,found,-,scaled,-⟩ := normalize_isNormal takes p
  obtain ⟨w,-,also,-⟩ := normalize_isNormal takes q
  obtain ⟨normal,associate⟩ := (normalize_eq_iff (FractionRing r.Elem) takes p s).mp found
  obtain ⟨other,companion⟩ := (normalize_eq_iff (FractionRing r.Elem) takes q w).mp also
  refine ⟨s,w,found,also,?_,?_,⟨_,associated_outcome (FractionRing r.Elem) p q,?_⟩,?_,?_⟩
  · rw [associated_outcome (FractionRing r.Elem),decide_eq_true associate]
  · exact (normalize_eq_iff (FractionRing r.Elem) takes s s).mpr ⟨normal,.refl _⟩
  · rw [decide_eq_true_iff]
    constructor
    · intro same
      exact normal.eq_of_associated _ other ((associate.trans same).trans companion.symm)
    · rintro rfl
      exact associate.symm.trans companion
  · intro field
    rw [monic_eq_normalize takes field,found]
  · rintro nonzero z same
    have kept : s ≠ 0 := by
      rintro rfl
      exact nonzero (scaled.trans (by rw [Dense.scale_eq_mul,mul_zero]))
    cases same
    exact ⟨normal.gcd_coeffs kept,normal.lead kept⟩

/-- Over the integers, where content and sign are taken out of associates that are no multiples of each
    other. -/
theorem normalize_integer_associates : BaseRing.integers.TakesNumbers ∧
    ∃ s w : Dense BaseRing.integers.Elem,
      normalize ⟨.integers,.ofList [4,-6]⟩ = .ok ⟨.integers,s⟩ ∧
      normalize ⟨.integers,.ofList [-6,9]⟩ = .ok ⟨.integers,w⟩ ∧
      (associated ⟨.integers,s⟩ ⟨.integers,.ofList [4,-6]⟩).outcome = .ok true ∧
      normalize ⟨.integers,s⟩ = .ok ⟨.integers,s⟩ ∧
      (∃ answer, (associated ⟨.integers,.ofList [4,-6]⟩ ⟨.integers,.ofList [-6,9]⟩).outcome = .ok answer ∧
        (answer = true ↔ s = w)) ∧
      (BaseRing.integers.isField = true → monic ⟨.integers,.ofList [4,-6]⟩ = .ok ⟨.integers,s⟩) ∧
      ((.ofList [4,-6] : Dense BaseRing.integers.Elem) ≠ 0 → ∀ z : Dense BaseRing.integers.Elem,
        (⟨.integers,s⟩ : Poly) = ⟨.integers,z⟩ → (z.coeffs : Multiset ℤ).gcd = 1 ∧ 0 < (z.lead : ℤ)) :=
  ⟨trivial,normalize_total_correct .integers trivial _ _⟩

example : normalize ⟨.integers,.ofList [4,-6]⟩ = .ok ⟨.integers,.ofList [-2,3]⟩ := by
  cbv

end Poly
end Bezout

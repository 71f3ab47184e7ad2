import Bezout.Proofs.Remainders
import Bezout.Proofs.RingChanges

/-!
Values of polynomials. Taking the value at an element is a homomorphism of rings (`Dense.evalHom`), although
values are reckoned from the leading coefficient down and products from the lowest coefficients up. The linear
factor of the element has the value zero there, so that a polynomial and its value differ by a multiple of it:
the value is what division by the linear factor leaves (`Dense.isRemainder_linearFactor`).
-/
namespace Bezout
open Polynomial
open Coefficient (number)

namespace Dense
variable {R : Type} [CoefficientDomain R]

/-- The value at an element, for all polynomials. -/
noncomputable def evalHom (a : R) : Dense R →+* R :=
  (evalRingHom a).comp (polynomialEquiv R).toRingHom

theorem evalHom_apply (a : R) (p : Dense R) : evalHom a p = p.eval a := eval_toPolynomial a p

theorem size_constant_le (c : R) : (constant c).size ≤ 1 := by
  rw [size_le_iff,toPolynomial_constant]
  exact degree_C_lt

/-- The value at an element is what the linear factor leaves. -/
theorem isRemainder_linearFactor (a : R) (p : Dense R) :
    IsRemainder (linearFactor a) p (constant (p.eval a)) where
  congruent := by
    rw [← map_dvd_iff (polynomialEquiv R)]
    show (linearFactor a).toPolynomial ∣ (p - constant (p.eval a)).toPolynomial
    rw [toPolynomial_linearFactor,toPolynomial_sub,toPolynomial_constant,← eval_toPolynomial]
    exact X_sub_C_dvd_sub_C_eval
  small _ := by
    rw [size_linearFactor]
    exact Nat.lt_succ_of_le (size_constant_le _)

end Dense

namespace Poly
variable {r : BaseRing} {v : Value} {a : r.Elem}

theorem mod_linearFactor (a : r.Elem) (p : Dense r.Elem) :
    (mod ⟨r,p⟩ ⟨r,Dense.linearFactor a⟩).outcome = .ok ⟨r,Dense.constant (p.eval a)⟩ :=
  (mod_eq_iff (.inr (Dense.isUnit_lead_linearFactor a))).mpr (Dense.isRemainder_linearFactor a p)

/-- The linear factor of an element divides exactly the polynomials that vanish there. -/
theorem divides_linearFactor (a : r.Elem) (p : Dense r.Elem) :
    (divides ⟨r,Dense.linearFactor a⟩ ⟨r,p⟩).outcome = .ok (decide (p.eval a = 0)) := by
  have zero : Dense.constant (p.eval a) = 0 ↔ p.eval a = 0 := by
    rw [← Dense.toPolynomial_eq_zero_iff,Dense.toPolynomial_constant,C_eq_zero]
  rw [divides,Work.outcome_map,mod_linearFactor,Except.map]
  congr 1
  rw [Bool.eq_iff_iff,isZero_iff,decide_eq_true_iff,zero]

theorem valueAt_of_ok (taken : r.ofValue v = .ok a) {result : Except Fault Poly} {s : Dense r.Elem}
    (ended : result = .ok ⟨r,s⟩) : (do (← result).valueAt v) = .ok (number (s.eval a)) := by
  rw [ended]
  exact valueAt_eq taken s

/-- At a value that is taken into the ring, sums, differences, products and powers of polynomials have the
    values that the ring makes of theirs. The constant with the value is the remainder by the linear factor,
    and the linear factor divides a polynomial exactly if this has the root. -/
theorem evaluation_total_correct (r : BaseRing) {v : Value} {a : r.Elem} (taken : r.ofValue v = .ok a)
    (p q : Dense r.Elem) (e : ℕ) :
    ∃ y z w : Number, valueAt ⟨r,p⟩ v = .ok y ∧ valueAt ⟨r,q⟩ v = .ok z ∧ r.pow y e = .ok w ∧
      (do (← add ⟨r,p⟩ ⟨r,q⟩).valueAt v) = .ok (r.add y z) ∧
      (do (← sub ⟨r,p⟩ ⟨r,q⟩).valueAt v) = .ok (r.sub y z) ∧
      (do (← mul ⟨r,p⟩ ⟨r,q⟩).valueAt v) = .ok (r.mul y z) ∧
      (do (← pow ⟨r,p⟩ (.integer e)).valueAt v) = .ok w ∧
      ∃ (factor value : Poly) (answer : Bool), linearFactor v r = .ok factor ∧
        constant (.number y) r = .ok value ∧ (mod ⟨r,p⟩ factor).outcome = .ok value ∧
        isRoot ⟨r,p⟩ v = .ok answer ∧ (divides factor ⟨r,p⟩).outcome = .ok answer := by
  have takes := BaseRing.takesNumbers_of_ofValue taken
  refine ⟨_,_,_,valueAt_eq taken p,valueAt_eq taken q,BaseRing.pow_number r _ e,?_,?_,?_,?_,
    _,_,_,linearFactor_eq taken,constant_eq (BaseRing.ofValue_number takes _),mod_linearFactor a p,
    isRoot_eq taken p,divides_linearFactor a p⟩
  · rw [valueAt_of_ok taken (add_eq p q),BaseRing.add_number]
    simp only [← Dense.evalHom_apply,map_add]
  · rw [valueAt_of_ok taken (sub_eq p q),BaseRing.sub_number]
    simp only [← Dense.evalHom_apply,map_sub]
  · rw [valueAt_of_ok taken (mul_eq p q),BaseRing.mul_number]
    simp only [← Dense.evalHom_apply,map_mul]
  · rw [valueAt_of_ok taken (pow_eq takes p e)]
    simp only [← Dense.evalHom_apply,map_pow]

/-- Modulo five at a half, which stands for three: a root of `x^2 + 1` and none of `2 * x + 1`. -/
theorem evaluation_at_fraction : let r : BaseRing := .residues ⟨5,(isPrime_iff 5).mpr Nat.prime_five⟩
    let v : Value := .fraction (1 / 2)
    let a : r.Elem := Residue.ofInt _ 3
    let p : Dense r.Elem := .ofList ([1,0,1].map (Residue.ofInt _))
    let q : Dense r.Elem := .ofList ([1,2].map (Residue.ofInt _))
    r.ofValue v = .ok a ∧
    ∃ y z w : Number, valueAt ⟨r,p⟩ v = .ok y ∧ valueAt ⟨r,q⟩ v = .ok z ∧ r.pow y 3 = .ok w ∧
      (do (← add ⟨r,p⟩ ⟨r,q⟩).valueAt v) = .ok (r.add y z) ∧
      (do (← sub ⟨r,p⟩ ⟨r,q⟩).valueAt v) = .ok (r.sub y z) ∧
      (do (← mul ⟨r,p⟩ ⟨r,q⟩).valueAt v) = .ok (r.mul y z) ∧
      (do (← pow ⟨r,p⟩ (.integer 3)).valueAt v) = .ok w ∧
      ∃ (factor value : Poly) (answer : Bool), linearFactor v r = .ok factor ∧
        constant (.number y) r = .ok value ∧ (mod ⟨r,p⟩ factor).outcome = .ok value ∧
        isRoot ⟨r,p⟩ v = .ok answer ∧ (divides factor ⟨r,p⟩).outcome = .ok answer := by
  intro r v a p q
  have taken : r.ofValue v = .ok a := by cbv
  exact ⟨taken,evaluation_total_correct r taken p q 3⟩

end Poly
end Bezout

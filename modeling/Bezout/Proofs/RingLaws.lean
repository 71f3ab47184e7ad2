import Bezout.Proofs.Reckoning

/-!
The ring of polynomials. Sums, differences and products of polynomials over one ring never fail, and they
obey the laws of a commutative ring without zero divisors, with one polynomial for each result: whatever
cancels at the end of a coefficient list is stripped. The coefficients of a product are reckoned with in the
arithmetic of numbers, which reduces as it goes.
-/
namespace Bezout
open Polynomial
open Coefficient (number)

namespace BaseRing
variable {r : BaseRing}

theorem add_number (r : BaseRing) (a b : r.Elem) : r.add (number a) (number b) = number (a + b) := by
  cases r <;> rfl

theorem neg_number (r : BaseRing) (a : r.Elem) : r.neg (number a) = number (-a) := by
  cases r <;> rfl

theorem sub_number (r : BaseRing) (a b : r.Elem) : r.sub (number a) (number b) = number (a - b) := by
  rw [sub,neg_number,add_number,sub_eq_add_neg]

/-- The sum of numbers in a ring, from the first one on. -/
def sum (r : BaseRing) (terms : List Number) : Number := terms.foldl r.add r.zeroNumber

theorem foldl_add_number (start : r.Elem) (as : List r.Elem) :
    (as.map number).foldl r.add (number start) = number (start + as.sum) := by
  induction as generalizing start with
  | nil => simp
  | cons a rest ih => rw [List.map_cons,List.foldl_cons,add_number,ih,List.sum_cons,add_assoc]

theorem sum_number (as : List r.Elem) : r.sum (as.map number) = number as.sum := by
  rw [sum,zeroNumber,foldl_add_number,zero_add]

end BaseRing

namespace Dense
variable {R : Type} [CoefficientDomain R]

theorem coeff_mul (p q : Dense R) (k : ℕ) :
    (p * q).coeff k = ((List.range (k + 1)).map fun i => p.coeff i * q.coeff (k - i)).sum := by
  rw [← coeff_toPolynomial,toPolynomial_mul,Polynomial.coeff_mul,
    Finset.Nat.sum_antidiagonal_eq_sum_range_succ_mk]
  simp only [coeff_toPolynomial]
  rfl

end Dense

namespace Poly
variable {r : BaseRing}

theorem coefficient_eq (p : Dense r.Elem) (i : ℕ) : coefficient ⟨r,p⟩ i = .ok (number (p.coeff i)) := by
  rw [coefficient]
  by_cases outside : p.size ≤ i
  · rw [if_pos (show (size ⟨r,p⟩ : ℤ) ≤ i from Int.ofNat_le.mpr outside),Dense.coeff_eq_zero outside]
    rfl
  · have inside : i < p.coeffs.length := not_le.mp outside
    have found : (numbers ⟨r,p⟩)[i]? = some (number (p.coeff i)) := by
      rw [numbers,Dense.numbers,List.getElem?_map,Dense.coeff,List.getD_eq_getElem?_getD,
        List.getElem?_eq_getElem inside]
      rfl
    have nonneg : ¬ (i : ℤ) < 0 := by omega
    rw [if_neg (show ¬ (size ⟨r,p⟩ : ℤ) ≤ i from mt Int.ofNat_le.mp outside)]
    simp only [if_neg nonneg,Int.toNat_natCast,found]

/-- Two computations end with one polynomial. -/
def SameResult (x y : Except Fault Poly) : Prop := ∃ s, x = .ok s ∧ y = .ok s

/-- The laws of a commutative ring without zero divisors, for three polynomials. -/
structure DomainLaws (zero one p q s : Poly) : Prop where
  add_assoc : SameResult (do (← p.add q).add s) (do p.add (← q.add s))
  add_comm : SameResult (p.add q) (q.add p)
  zero_add : zero.add p = .ok p
  add_neg : p.add p.neg = .ok zero
  sub_eq_add_neg : SameResult (p.sub q) (p.add q.neg)
  mul_assoc : SameResult (do (← p.mul q).mul s) (do p.mul (← q.mul s))
  mul_comm : SameResult (p.mul q) (q.mul p)
  one_mul : one.mul p = .ok p
  mul_add : SameResult (do p.mul (← q.add s)) (do (← p.mul q).add (← p.mul s))
  mul_eq_zero : p.mul q = .ok zero ↔ p = zero ∨ q = zero

theorem domainLaws (p q s : Dense r.Elem) : DomainLaws ⟨r,0⟩ ⟨r,1⟩ ⟨r,p⟩ ⟨r,q⟩ ⟨r,s⟩ where
  add_assoc := ⟨⟨r,p + q + s⟩,by simp [bind,Except.bind],by simp [bind,Except.bind,add_assoc]⟩
  add_comm := ⟨⟨r,p + q⟩,add_eq p q,by rw [add_eq,add_comm]⟩
  zero_add := by simp
  add_neg := by simp [neg]
  sub_eq_add_neg := ⟨⟨r,p - q⟩,sub_eq p q,by simp [neg,sub_eq_add_neg]⟩
  mul_assoc := ⟨⟨r,p * q * s⟩,by simp [bind,Except.bind],by simp [bind,Except.bind,mul_assoc]⟩
  mul_comm := ⟨⟨r,p * q⟩,mul_eq p q,by rw [mul_eq,mul_comm]⟩
  one_mul := by simp
  mul_add := ⟨⟨r,p * (q + s)⟩,by simp [bind,Except.bind],by simp [bind,Except.bind,mul_add]⟩
  mul_eq_zero := by simp

/-- Polynomials over a ring are a commutative ring without zero divisors, whose products are convolutions
    and as large as their factors are together. -/
theorem polynomials_form_domain (r : BaseRing) (takes : r.TakesNumbers) :
    ∃ zero one, constant (.integer 0) r = .ok zero ∧ constant (.integer 1) r = .ok one ∧ one ≠ zero ∧
      ∀ p q s : Dense r.Elem, DomainLaws zero one ⟨r,p⟩ ⟨r,q⟩ ⟨r,s⟩ ∧
        ∃ product, mul ⟨r,p⟩ ⟨r,q⟩ = .ok product ∧
          (∀ k : ℕ, coefficient product k = .ok (r.sum ((List.range (k + 1)).map fun i =>
            r.mul (number (p.coeff i)) (number (q.coeff (k - i)))))) ∧
          (p ≠ 0 → q ≠ 0 → product.size = size ⟨r,p⟩ + size ⟨r,q⟩ - 1) := by
  refine ⟨⟨r,0⟩,⟨r,1⟩,zero_eq takes,one_eq takes,by simp,?_⟩
  intro p q s
  refine ⟨domainLaws p q s,⟨r,p * q⟩,mul_eq p q,?_,Dense.size_mul⟩
  intro k
  rw [coefficient_eq,Dense.coeff_mul,← BaseRing.sum_number,List.map_map]
  simp only [BaseRing.mul_number]
  rfl

/-- Modulo five, where sums and products are reduced and leading terms can cancel. -/
theorem polynomials_domain_mod_five : let r : BaseRing := .residues ⟨5,(isPrime_iff 5).mpr Nat.prime_five⟩
    r.TakesNumbers ∧
    ∃ zero one, constant (.integer 0) r = .ok zero ∧ constant (.integer 1) r = .ok one ∧ one ≠ zero ∧
      ∀ p q s : Dense r.Elem, DomainLaws zero one ⟨r,p⟩ ⟨r,q⟩ ⟨r,s⟩ ∧
        ∃ product, mul ⟨r,p⟩ ⟨r,q⟩ = .ok product ∧
          (∀ k : ℕ, coefficient product k = .ok (r.sum ((List.range (k + 1)).map fun i =>
            r.mul (number (p.coeff i)) (number (q.coeff (k - i)))))) ∧
          (p ≠ 0 → q ≠ 0 → product.size = size ⟨r,p⟩ + size ⟨r,q⟩ - 1) :=
  ⟨trivial,polynomials_form_domain _ trivial⟩

end Poly
end Bezout

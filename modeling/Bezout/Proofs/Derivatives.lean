import Bezout.Proofs.PrimeFields
import Bezout.Proofs.Reduction
import Bezout.Proofs.RingLaws
import Bezout.Proofs.SquareFreePart
import Bezout.Proofs.Multiplicity

/-!
Derivatives. Products and powers are differentiated by the rules of calculus over any ring, where the factor
that comes down from an exponent may vanish and take leading terms with it. In characteristic zero it never
does, so that the derivative has a root once less than the polynomial itself. Over a prime field it does at the
multiples of the prime `n`, so that the derivative vanishes exactly for the powers with exponent `n`: these have
the coefficients of their bases, `n` times as far apart (`Dense.toPolynomial_pow_modulus`).
-/
namespace Bezout
open Polynomial

instance (m : Modulus) : CharP (Residue m) m.value where
  cast_eq_zero_iff := m.natCast_eq_zero_iff

namespace Dense
variable {R : Type} [CoefficientDomain R]

theorem product_rule (p q : Dense R) : (p * q).derivative = p.derivative * q + p * q.derivative := by
  apply toPolynomial_injective
  simp only [toPolynomial_derivative,toPolynomial_add,toPolynomial_mul,derivative_mul]

theorem power_rule (p : Dense R) (n : ℕ) :
    (p ^ (n + 1)).derivative = (p ^ n * p.derivative).scale ((n + 1 : ℕ) : R) := by
  apply toPolynomial_injective
  simp only [toPolynomial_derivative,toPolynomial_scale,toPolynomial_mul,toPolynomial_npow]
  rw [derivative_pow_succ,Nat.cast_succ,mul_assoc]

/-- A root of a polynomial is one of the derivative once less often. -/
theorem rootMultiplicity_derivative [CharZero R] {p : Dense R} {a : R} (root : p.eval a = 0) :
    p.derivative.toPolynomial.rootMultiplicity a = p.toPolynomial.rootMultiplicity a - 1 := by
  rw [toPolynomial_derivative]
  apply derivative_rootMultiplicity_of_root
  rw [IsRoot,eval_toPolynomial,root]

section PrimeField
variable {m : Modulus}

theorem add_pow_modulus (a b : Dense (Residue m)) : (a + b) ^ m.value = a ^ m.value + b ^ m.value := by
  apply toPolynomial_injective
  simp only [toPolynomial_add,toPolynomial_npow]
  exact add_pow_char _ _ _

/-- The power with the modulus as exponent spreads the coefficients out. They stay as they are, since each is
    its own power. -/
theorem toPolynomial_pow_modulus (s : Dense (Residue m)) :
    (s ^ m.value).toPolynomial = expand (Residue m) m.value s.toPolynomial := by
  have := Fintype.ofFinite (Residue m)
  have card : Fintype.card (Residue m) = m.value := by rw [← Nat.card_eq_fintype_card,Residue.card_eq]
  have spread := FiniteField.expand_card s.toPolynomial
  rw [card] at spread
  rw [toPolynomial_npow,spread]

theorem derivative_pow_modulus (s : Dense (Residue m)) : (s ^ m.value).derivative = 0 := by
  apply toPolynomial_injective
  rw [toPolynomial_derivative,toPolynomial_npow,derivative_pow,CharP.cast_eq_zero,C_0,zero_mul,zero_mul,
    toPolynomial_zero]

/-- Where the derivative vanishes there are coefficients at multiples of the modulus only, and moved together
    they are those of a polynomial of which this is the power. -/
theorem derivative_eq_zero_iff {p : Dense (Residue m)} : p.derivative = 0 ↔ ∃ s, s ^ m.value = p := by
  constructor
  · intro vanishes
    have image : Polynomial.derivative p.toPolynomial = 0 := by
      rw [← toPolynomial_derivative,vanishes,toPolynomial_zero]
    have positive : m.value ≠ 0 := (Fact.out : m.value.Prime).ne_zero
    obtain ⟨s,gathered⟩ := toPolynomial_surjective (contract m.value p.toPolynomial)
    refine ⟨s,toPolynomial_injective ?_⟩
    rw [toPolynomial_pow_modulus,gathered,expand_contract m.value image positive]
  · rintro ⟨s,rfl⟩
    exact derivative_pow_modulus s

end PrimeField
end Dense

namespace Poly
variable {r : BaseRing}

theorem derivative_product (p q : Dense r.Elem) :
    SameResult (do return (← mul ⟨r,p⟩ ⟨r,q⟩).derivative)
      (do (← mul (derivative ⟨r,p⟩) ⟨r,q⟩).add (← mul ⟨r,p⟩ (derivative ⟨r,q⟩))) := by
  refine ⟨⟨r,(p * q).derivative⟩,?_,?_⟩
  · rw [mul_eq]
    rfl
  · rw [derivative_eq,derivative_eq,mul_eq,mul_eq,Dense.product_rule]
    exact add_eq _ _

theorem derivative_power (takes : r.TakesNumbers) (p : Dense r.Elem) (e : ℕ) :
    SameResult (do return (← pow ⟨r,p⟩ (.integer (e + 1 : ℕ))).derivative)
      (do (← (← pow ⟨r,p⟩ (.integer e)).mul (derivative ⟨r,p⟩)).scale (.integer (e + 1 : ℕ))) := by
  refine ⟨⟨r,(p ^ (e + 1)).derivative⟩,?_,?_⟩
  · rw [pow_eq takes]
    rfl
  · have scaled := scale_eq (BaseRing.ofValue_integer takes (e + 1 : ℕ)) (p ^ e * p.derivative)
    rw [Int.cast_natCast] at scaled
    rw [derivative_eq,pow_eq takes,Dense.power_rule,← scaled]
    show (mul ⟨r,p ^ e⟩ ⟨r,p.derivative⟩ >>= fun s => s.scale _) = _
    rw [mul_eq]
    rfl

theorem multiplicity_derivative (takes : r.TakesNumbers) (characteristic : r.characteristic = 0)
    {p : Dense r.Elem} (nonzero : p ≠ 0) {v : Value} (root : isRoot ⟨r,p⟩ v = .ok true) :
    ∃ m : ℕ, (multiplicity v ⟨r,p⟩).outcome = .ok (m + 1) ∧
      (multiplicity v (derivative ⟨r,p⟩)).outcome = .ok m := by
  have := BaseRing.charZero_of_characteristic takes characteristic
  obtain ⟨a,taken,vanishes⟩ := exists_root root
  have positive := (Dense.one_le_rootMultiplicity_iff nonzero).mpr vanishes
  refine ⟨p.toPolynomial.rootMultiplicity a - 1,?_,?_⟩
  · rw [multiplicity_rootMultiplicity taken,Nat.sub_add_cancel positive]
  · rw [derivative_eq,multiplicity_rootMultiplicity taken,Dense.rootMultiplicity_derivative vanishes]

/-- The derivative of a product is the sum of the products with one factor differentiated, and that of a power
    is the power with one factor less times the derivative, scaled by the exponent. In characteristic zero a
    root of a polynomial other than zero is one of the derivative once less often. -/
theorem derivative_total_correct (r : BaseRing) (takes : r.TakesNumbers) (p q : Dense r.Elem) (e : ℕ) :
    SameResult (do return (← mul ⟨r,p⟩ ⟨r,q⟩).derivative)
      (do (← mul (derivative ⟨r,p⟩) ⟨r,q⟩).add (← mul ⟨r,p⟩ (derivative ⟨r,q⟩))) ∧
    SameResult (do return (← pow ⟨r,p⟩ (.integer (e + 1 : ℕ))).derivative)
      (do (← (← pow ⟨r,p⟩ (.integer e)).mul (derivative ⟨r,p⟩)).scale (.integer (e + 1 : ℕ))) ∧
    (r.characteristic = 0 → p ≠ 0 → ∀ v, isRoot ⟨r,p⟩ v = .ok true →
      ∃ m : ℕ, (multiplicity v ⟨r,p⟩).outcome = .ok (m + 1) ∧
        (multiplicity v (derivative ⟨r,p⟩)).outcome = .ok m) :=
  ⟨derivative_product p q,derivative_power takes p e,
    fun characteristic nonzero _ => multiplicity_derivative takes characteristic nonzero⟩

/-- Over the integers, where one is a double root of `2 * x^3 - 3 * x^2 + 1` and a root of the derivative
    once. -/
theorem derivative_of_double_root : let r : BaseRing := .integers
    let p : Dense r.Elem := .ofList [1,0,-3,2]
    let q : Dense r.Elem := .ofList [2,0,5]
    r.TakesNumbers ∧ r.characteristic = 0 ∧ p ≠ 0 ∧ isRoot ⟨r,p⟩ (.integer 1) = .ok true ∧
    SameResult (do return (← mul ⟨r,p⟩ ⟨r,q⟩).derivative)
      (do (← mul (derivative ⟨r,p⟩) ⟨r,q⟩).add (← mul ⟨r,p⟩ (derivative ⟨r,q⟩))) ∧
    SameResult (do return (← pow ⟨r,p⟩ (.integer (2 + 1 : ℕ))).derivative)
      (do (← (← pow ⟨r,p⟩ (.integer (2 : ℕ))).mul (derivative ⟨r,p⟩)).scale (.integer (2 + 1 : ℕ))) ∧
    ∃ m : ℕ, (multiplicity (.integer 1) ⟨r,p⟩).outcome = .ok (m + 1) ∧
      (multiplicity (.integer 1) (derivative ⟨r,p⟩)).outcome = .ok m := by
  intro r p q
  have nonzero : p ≠ 0 := by decide
  have root : isRoot ⟨r,p⟩ (.integer 1) = .ok true := by cbv
  obtain ⟨product,power,counted⟩ := derivative_total_correct r trivial p q 2
  exact ⟨trivial,rfl,nonzero,root,product,power,counted rfl nonzero (.integer 1) root⟩

-- Modulo three nothing is left of a cube.
example : let r : BaseRing := .residues ⟨3,(isPrime_iff 3).mpr Nat.prime_three⟩
    (multiplicity (.integer 0) ⟨r,.monomial 1 3⟩).outcome = .ok 3 ∧
      derivative ⟨r,.monomial 1 3⟩ = .zero r := by
  constructor <;> cbv

/-! ### Derivatives over prime fields -/

section PrimeField
variable {m : Modulus}

theorem derivative_eq_zero_iff_pow (p : Dense (BaseRing.residues m).Elem) :
    derivative ⟨.residues m,p⟩ = .zero (.residues m) ↔
      ∃ s : Dense (BaseRing.residues m).Elem, pow ⟨.residues m,s⟩ (.integer m.value) = .ok ⟨.residues m,p⟩ := by
  have power (s : Dense (BaseRing.residues m).Elem) := pow_eq (r := .residues m) trivial s m.value
  have zero : derivative ⟨.residues m,p⟩ = .zero (.residues m) ↔ p.derivative = 0 := by
    rw [derivative_eq,Poly.zero]
    simp
  simp only [zero,power,Except.ok.injEq,Poly.mk.injEq,heq_eq_eq,true_and]
  exact Dense.derivative_eq_zero_iff

theorem pow_add_modulus (a b : Dense (BaseRing.residues m).Elem) :
    SameResult (do (← add ⟨.residues m,a⟩ ⟨.residues m,b⟩).pow (.integer m.value))
      (do (← pow ⟨.residues m,a⟩ (.integer m.value)).add (← pow ⟨.residues m,b⟩ (.integer m.value))) := by
  have power (s : Dense (BaseRing.residues m).Elem) := pow_eq (r := .residues m) trivial s m.value
  refine ⟨⟨.residues m,(a + b) ^ m.value⟩,?_,?_⟩
  · rw [add_eq]
    exact power (a + b)
  · rw [power,power,Dense.add_pow_modulus]
    exact add_eq _ _

end PrimeField

/-- Over the field of `n` elements, `n` prime, the derivative vanishes exactly for the powers with exponent `n`,
    and the power of a sum with this exponent is the sum of the powers. -/
theorem vanishing_derivatives_total_correct {n : ℕ} (prime : n.Prime) :
    ∃ r, BaseRing.ofModulus (.integer n) = .ok r ∧
      (∀ p : Dense r.Elem, derivative ⟨r,p⟩ = .zero r ↔
        ∃ s : Dense r.Elem, pow ⟨r,s⟩ (.integer n) = .ok ⟨r,p⟩) ∧
      ∀ a b : Dense r.Elem, SameResult (do (← add ⟨r,a⟩ ⟨r,b⟩).pow (.integer n))
        (do (← pow ⟨r,a⟩ (.integer n)).add (← pow ⟨r,b⟩ (.integer n))) := by
  let m : Modulus := ⟨n,(isPrime_iff n).mpr prime⟩
  exact ⟨.residues m,BaseRing.ofModulus_of_prime m,derivative_eq_zero_iff_pow,pow_add_modulus⟩

/-- Over the field of three elements. -/
theorem vanishing_derivatives_mod_three : Nat.Prime 3 ∧
    ∃ r, BaseRing.ofModulus (.integer (3 : ℕ)) = .ok r ∧
      (∀ p : Dense r.Elem, derivative ⟨r,p⟩ = .zero r ↔
        ∃ s : Dense r.Elem, pow ⟨r,s⟩ (.integer (3 : ℕ)) = .ok ⟨r,p⟩) ∧
      ∀ a b : Dense r.Elem, SameResult (do (← add ⟨r,a⟩ ⟨r,b⟩).pow (.integer (3 : ℕ)))
        (do (← pow ⟨r,a⟩ (.integer (3 : ℕ))).add (← pow ⟨r,b⟩ (.integer (3 : ℕ)))) :=
  ⟨Nat.prime_three,vanishing_derivatives_total_correct Nat.prime_three⟩

end Poly
end Bezout

import Bezout.Proofs.Coefficients

/-!
Prime fields by their numbers. A field is made of an integer exactly if that is prime, and its arithmetic
takes any integers, reduced or not: every result is the least integer that is not negative and congruent to
what the integers give (`BaseRing.Represents`), and an inverse is one modulo the prime.
-/
namespace Bezout

/-- An integer is taken as a modulus exactly if it is prime. -/
theorem Modulus.ofInt?_cases (n : ℤ) :
    (∃ m, ofInt? n = some m ∧ (m.value : ℤ) = n) ∨ ofInt? n = none ∧ ∀ p : ℕ, p.Prime → n ≠ p := by
  by_cases prime : isPrime n.toNat = true
  · have two : 2 ≤ n.toNat := (Modulus.mk n.toNat prime).two_le
    exact .inl ⟨⟨n.toNat,prime⟩,dif_pos prime,Int.toNat_of_nonneg (by omega)⟩
  · refine .inr ⟨dif_neg prime,?_⟩
    rintro p isPrime rfl
    rw [Int.toNat_natCast,isPrime_iff] at prime
    exact prime isPrime

namespace BaseRing

/-- The integer from zero up to below `n` that is congruent to `k`. -/
structure Represents (n k c : ℤ) : Prop where
  nonneg : 0 ≤ c
  lt : c < n
  congruent : c ≡ k [ZMOD n]

theorem represents_emod {n : ℤ} (positive : 0 < n) (k : ℤ) : Represents n k (k % n) where
  nonneg := Int.emod_nonneg k positive.ne'
  lt := Int.emod_lt_of_pos k positive
  congruent := Int.mod_modEq k n

/-- The arithmetic of a ring is that of the integers modulo `n`: any integers are added, negated and
    multiplied, only the multiples of `n` have no inverse, and a product of numbers below `n` is divided
    by its second factor, unless that is zero. -/
structure ModularArithmetic (n : ℤ) (r : BaseRing) : Prop where
  add (a b : ℤ) : ∃ c, r.add (.integer a) (.integer b) = .integer c ∧ Represents n (a + b) c
  neg (a : ℤ) : ∃ c, r.neg (.integer a) = .integer c ∧ Represents n (-a) c
  mul (a b : ℤ) : ∃ c, r.mul (.integer a) (.integer b) = .integer c ∧ Represents n (a * b) c
  no_inverse (a : ℤ) : n ∣ a → r.inverse (.integer a) = .error (.notUnit (.integer 0) r)
  inverse (a : ℤ) : ¬ n ∣ a →
    ∃ c, r.inverse (.integer a) = .ok (.integer c) ∧ 0 ≤ c ∧ c < n ∧ a * c % n = 1
  exactDiv (a b : ℤ) : 0 ≤ a → a < n → 1 ≤ b → b < n →
    r.exactDiv (r.mul (.integer a) (.integer b)) (.integer b) = .ok (.integer a)

variable {m : Modulus}

theorem isZero_mod_iff (a : ℤ) :
    ((Number.integer a).mod m.value).isZero = true ↔ (m.value : ℤ) ∣ a := by
  rw [Int.dvd_iff_emod_eq_zero]
  exact beq_iff_eq.trans Int.cast_eq_zero

/-- What is not divisible by the prime has the inverse of its residue. -/
theorem inverse_residue {a : ℤ} (indivisible : ¬ (m.value : ℤ) ∣ a) :
    ∃ c : Residue m, (residues m).inverse (.integer a) = .ok (.integer c.value) ∧
      a * c.value % m.value = 1 := by
  have nonzero : Residue.ofInt m a ≠ 0 := by
    intro zero
    have value : a % m.value = 0 % m.value := congrArg Residue.value zero
    rw [Int.zero_emod] at value
    exact indivisible (Int.dvd_of_emod_eq_zero value)
  have found : (Residue.ofInt m a).inverse? = some (Residue.ofInt m a)⁻¹ :=
    Residue.inverse?_eq_some_iff.mpr (mul_inv_cancel₀ nonzero)
  refine ⟨(Residue.ofInt m a)⁻¹,?_,?_⟩
  · simp only [BaseRing.inverse]
    rw [if_neg (mt (isZero_mod_iff a).mp indivisible),found]
  · have product : a % m.value * (Residue.ofInt m a)⁻¹.value % m.value = 1 % m.value :=
      congrArg Residue.value (mul_inv_cancel₀ nonzero)
    have two := m.two_le
    calc a * (Residue.ofInt m a)⁻¹.value % m.value
        = a % m.value * (Residue.ofInt m a)⁻¹.value % m.value := ((Int.mod_modEq a _).mul_right _).symm
      _ = 1 % m.value := product
      _ = 1 := Int.emod_eq_of_lt zero_le_one (by omega)

/-- The residues by a prime reckon as the integers do modulo the prime. -/
theorem residues_modularArithmetic (m : Modulus) : ModularArithmetic m.value (residues m) where
  add a b := ⟨_,rfl,represents_emod m.pos (a + b)⟩
  neg a := ⟨_,rfl,represents_emod m.pos (-a)⟩
  mul a b := ⟨_,rfl,represents_emod m.pos (a * b)⟩
  no_inverse a divisible := by
    simp only [BaseRing.inverse]
    rw [if_pos ((isZero_mod_iff a).mpr divisible)]
  inverse a indivisible := by
    obtain ⟨c,found,unit⟩ := inverse_residue indivisible
    exact ⟨c.value,found,c.nonneg,c.lt,unit⟩
  exactDiv a b nonneg below positive small := by
    let dividend : Residue m := ⟨a,nonneg,below⟩
    let divisor : Residue m := ⟨b,by omega,small⟩
    have nonzero : divisor ≠ 0 := by
      intro zero
      have value : b = 0 % m.value := congrArg Residue.value zero
      rw [Int.zero_emod] at value
      omega
    have quotient := exactDiv_number (r := residues m) trivial (c := dividend) nonzero
    rwa [mul_comm divisor dividend] at quotient

theorem ofModulus_of_some {n : ℤ} (found : Modulus.ofInt? n = some m) :
    ofModulus (.integer n) = .ok (residues m) := by
  simp [ofModulus,Value.number?,Value.exactNumber?,Number.value,found]

theorem ofModulus_of_none {n : ℤ} (none : Modulus.ofInt? n = none) :
    ofModulus (.integer n) = .error (.notPrime (.integer n)) := by
  simp [ofModulus,Value.number?,Value.exactNumber?,Number.value,none]

theorem ofModulus_of_prime (m : Modulus) : ofModulus (.integer m.value) = .ok (residues m) := by
  rcases Modulus.ofInt?_cases m.value with ⟨n,found,same⟩ | ⟨-,composite⟩
  · have equal : n = m := by
      obtain ⟨value,prime⟩ := n
      obtain ⟨other,also⟩ := m
      cases Int.ofNat_inj.mp same
      rfl
    rw [ofModulus_of_some found,equal]
  · exact absurd rfl (composite m.value Fact.out)

/-- Of an integer a field is made exactly if it is prime, whatever its size and sign, and the arithmetic of
    the field is that of the integers modulo the prime. -/
theorem ofModulus_total_correct (n : ℤ) :
    ((∃ r, ofModulus (.integer n) = .ok r) ↔ ∃ p : ℕ, p.Prime ∧ n = p) ∧
      (∀ fault, ofModulus (.integer n) = .error fault → fault = .notPrime (.integer n)) ∧
      ∀ r, ofModulus (.integer n) = .ok r → ModularArithmetic n r := by
  rcases Modulus.ofInt?_cases n with ⟨m,found,rfl⟩ | ⟨none,composite⟩
  · rw [ofModulus_of_some found]
    refine ⟨⟨fun _ => ⟨m.value,Fact.out,rfl⟩,fun _ => ⟨_,rfl⟩⟩,?_,?_⟩
    · intro fault failed
      cases failed
    · intro r same
      cases same
      exact residues_modularArithmetic m
  · rw [ofModulus_of_none none]
    refine ⟨⟨?_,?_⟩,?_,?_⟩
    · rintro ⟨r,same⟩
      cases same
    · rintro ⟨p,prime,same⟩
      exact absurd same (composite p prime)
    · intro fault failed
      exact (Except.error.inj failed).symm
    · intro r same
      cases same

/-- Modulo two every odd integer is its own inverse, and the exponent of the inverse is zero. -/
theorem ofModulus_two : ∃ r, ofModulus (.integer 2) = .ok r ∧ ModularArithmetic 2 r := by
  obtain ⟨made,-,arithmetic⟩ := ofModulus_total_correct 2
  obtain ⟨r,found⟩ := made.mpr ⟨2,Nat.prime_two,rfl⟩
  exact ⟨r,found,arithmetic r found⟩

end BaseRing
end Bezout

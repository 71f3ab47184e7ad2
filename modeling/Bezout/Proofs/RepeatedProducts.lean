import Bezout.Proofs.RingLaws

/-!
Powers as repeated products. Repeated squaring asks nothing of a multiplication but that factors can be
regrouped, so that a power is the product of its factors whatever the bits of the exponent are. Powers add and
multiply in the exponent where factors can be swapped as well, even if products start from a number that is no
unit: so it is with integers by a modulus, which need not be reduced, and with integers among the rational
numbers, which products take for fractions.
-/
namespace Bezout

/-! ### Laws of powers -/

section Laws
variable {α : Type} {mul : α → α → α} [associative : Std.Associative mul] {one : α}

theorem power_eq_foldl (a : α) (n : ℕ) : power mul one a n = (List.replicate n a).foldl mul one :=
  powerFrom_eq_foldl one a n

theorem power_zero (a : α) : power mul one a 0 = one := power_eq_foldl a 0

theorem power_succ (a : α) (n : ℕ) : power mul one a (n + 1) = mul (power mul one a n) a := by
  rw [power_eq_foldl,power_eq_foldl,List.replicate_succ',List.foldl_append]
  rfl

variable [commutative : Std.Commutative mul] (idempotent : mul one one = one)
include idempotent

/-- A power has the one that it starts from as a factor, and once more makes no difference. -/
theorem power_mul_one (a : α) (n : ℕ) : mul (power mul one a n) one = power mul one a n := by
  have moved : (List.replicate n a).foldl mul (mul one one) = mul one (power mul one a n) := by
    rw [List.foldl_assoc,power_eq_foldl]
  rw [commutative.comm,← moved,idempotent,power_eq_foldl]

theorem power_add (a : α) (k n : ℕ) :
    power mul one a (k + n) = mul (power mul one a k) (power mul one a n) := by
  induction n with
  | zero => rw [add_zero,power_zero,power_mul_one idempotent]
  | succ n ih => rw [← add_assoc,power_succ,power_succ,ih,associative.assoc]

theorem power_mul (a : α) (k n : ℕ) :
    power mul one a (k * n) = power mul one (power mul one a k) n := by
  induction n with
  | zero => rw [mul_zero,power_zero,power_zero]
  | succ n ih => rw [Nat.mul_succ,power_add idempotent,ih,power_succ]

end Laws

/-! ### Powers of numbers -/

namespace Number

instance : Std.Associative mul where
  assoc a b c := by
    cases a <;> cases b <;> cases c <;> simp [mul,value,mul_assoc]

instance : Std.Commutative mul where
  comm a b := by
    cases a <;> cases b <;> simp [mul,value,mul_comm]

end Number

namespace BaseRing

/-- The product of numbers in a ring, from the first one on. -/
def product (r : BaseRing) (factors : List Number) : Number := factors.foldl r.mul r.oneNumber

/-- The numbers that a ring multiplies: any, but by a modulus only integers. -/
def Multiplies : BaseRing → Number → Prop
  | residues _, .fraction _ => False
  | _, _ => True

/-- A power of a number is the product of its factors, and powers add and multiply in the exponent. -/
structure PowerLaws (r : BaseRing) (a : Number) (e k : ℕ) : Prop where
  product : r.pow a e = .ok (r.product (List.replicate e a))
  add : ∃ x y, r.pow a e = .ok x ∧ r.pow a k = .ok y ∧ r.pow a (e + k) = .ok (r.mul x y)
  mul : ∃ x y, r.pow a e = .ok x ∧ r.pow x k = .ok y ∧ r.pow a (e * k) = .ok y

/-- Numbers obey the laws of powers if what they stand for can be regrouped and swapped in products. -/
theorem powerLaws_image {r : BaseRing} {α : Type} {mul : α → α → α} [Std.Associative mul]
    [Std.Commutative mul] {one : α} (idempotent : mul one one = one) (image : α → Number)
    (start : r.oneNumber = image one) (respects : ∀ a b, r.mul (image a) (image b) = image (mul a b))
    (a : α) (e k : ℕ) : r.PowerLaws (image a) e k := by
  have power (a : α) (n : ℕ) := pow_image image start respects a n
  exact {
    product := by
      rw [power,power_eq_foldl,BaseRing.product,start,← List.map_replicate,List.foldl_map,
        List.foldl_hom image fun a b => respects a b]
    add := by
      refine ⟨_,_,power a e,power a k,?_⟩
      rw [← Nat.cast_add,power,respects,power_add idempotent]
    mul := by
      refine ⟨_,_,power a e,power _ k,?_⟩
      rw [← Nat.cast_mul,power,power_mul idempotent] }

theorem mul_oneNumber (r : BaseRing) : r.mul r.oneNumber r.oneNumber = r.oneNumber := by
  rw [oneNumber,mul_number,mul_one]

theorem powerLaws_of_unreduced {r : BaseRing} (unreduced : r.mul = Number.mul) (a : Number) (e k : ℕ) :
    r.PowerLaws a e k := by
  have idempotent := r.mul_oneNumber
  rw [unreduced] at idempotent
  exact powerLaws_image idempotent id rfl (fun a b => congrFun₂ unreduced a b) a e k

/-! ### Powers by a modulus -/

/-- The product of integers by a modulus. -/
def mulModulo (n a b : ℤ) : ℤ := a * b % n

instance (n : ℤ) : Std.Associative (mulModulo n) where
  assoc a b c := by
    calc a * b % n * c % n = a * b * c % n := (Int.mod_modEq (a * b) n).mul_right c
      _ = a * (b * c) % n := by rw [mul_assoc]
      _ = a * (b * c % n) % n := ((Int.mod_modEq (b * c) n).mul_left a).symm

instance (n : ℤ) : Std.Commutative (mulModulo n) where
  comm a b := by rw [mulModulo,mulModulo,mul_comm]

section Residues
variable (m : Modulus)

theorem mulModulo_one : mulModulo m.value 1 1 = 1 := by
  have two := m.two_le
  exact Int.emod_eq_of_lt zero_le_one (by omega)

theorem oneNumber_residues : (residues m).oneNumber = .integer 1 :=
  congrArg Number.integer (mulModulo_one m)

theorem mul_integer (a b : ℤ) :
    (residues m).mul (.integer a) (.integer b) = .integer (mulModulo m.value a b) := rfl

theorem power_mulModulo (a : ℤ) (e : ℕ) : power (mulModulo m.value) 1 a e = a ^ e % m.value := by
  induction e with
  | zero => rw [power_zero,pow_zero,← mulModulo_one m,mulModulo,mul_one,Int.emod_emod]
  | succ e ih =>
    rw [power_succ,ih,pow_succ]
    exact (Int.mod_modEq (a ^ e) m.value).mul_right a

/-- However large an integer is, its power by a modulus is the remainder of its power. -/
theorem pow_integer (a : ℤ) (e : ℕ) :
    (residues m).pow (.integer a) e = .ok (.integer (a ^ e % m.value)) := by
  rw [pow_image .integer (oneNumber_residues m) (mul_integer m),power_mulModulo]

end Residues

theorem powerLaws (r : BaseRing) {a : Number} (multiplies : r.Multiplies a) (e k : ℕ) :
    r.PowerLaws a e k := by
  cases r with
  | residues m =>
    cases a with
    | integer n =>
      exact powerLaws_image (mulModulo_one m) .integer (oneNumber_residues m) (mul_integer m) n e k
    | fraction q => exact multiplies.elim
  | _ => exact powerLaws_of_unreduced rfl a e k

-- Modulo two the order of the products shows in the powers of a fraction.
example : let r : BaseRing := .residues ⟨2,(isPrime_iff 2).mpr Nat.prime_two⟩
    r.pow (.fraction (5 / 2)) 3 = .ok (.fraction (1 / 8)) ∧
      r.product (List.replicate 3 (.fraction (5 / 2))) = .fraction (9 / 8) := by
  constructor <;> cbv

end BaseRing

/-! ### Powers of polynomials -/

namespace Poly
variable {r : BaseRing}

/-- Polynomials over one ring are multiplied one after the other. -/
theorem product_polynomials (q : Dense r.Elem) (ps : List (Dense r.Elem)) :
    Value.product (.polynomial ⟨r,q⟩) (ps.map fun p => .polynomial ⟨r,p⟩) =
      .ok (.polynomial ⟨r,q * ps.prod⟩) := by
  induction ps generalizing q with
  | nil =>
    rw [List.prod_nil,mul_one]
    rfl
  | cons p rest ih =>
    have first : Value.times (.polynomial ⟨r,q⟩) (.polynomial ⟨r,p⟩) = .ok (.polynomial ⟨r,q * p⟩) := by
      rw [Value.times,mul_eq]
      rfl
    rw [List.prod_cons,← mul_assoc,← ih (q * p),List.map_cons,Value.product,List.foldlM_cons,first]
    rfl

/-- A power of a polynomial is the product of its factors, beginning with `one`, and powers add and multiply
    in the exponent. -/
structure PowerLaws (one p : Poly) (e k : ℕ) : Prop where
  zero : p.pow (.integer 0) = .ok one
  product : ∃ w, p.pow (.integer e) = .ok w ∧
    Value.product (.polynomial one) (List.replicate e (.polynomial p)) = .ok (.polynomial w)
  add : SameResult (p.pow (.integer (e + k : ℕ))) (do (← p.pow (.integer e)).mul (← p.pow (.integer k)))
  mul : SameResult (p.pow (.integer (e * k : ℕ))) (do (← p.pow (.integer e)).pow (.integer k))

theorem powerLaws (takes : r.TakesNumbers) (p : Dense r.Elem) (e k : ℕ) : PowerLaws ⟨r,1⟩ ⟨r,p⟩ e k where
  zero := by
    rw [← Int.natCast_zero,pow_eq takes,pow_zero]
  product := by
    have factors : List.replicate e (.polynomial ⟨r,p⟩) =
        (List.replicate e p).map fun p => Value.polynomial ⟨r,p⟩ := by rw [List.map_replicate]
    refine ⟨_,pow_eq takes p e,?_⟩
    rw [factors,product_polynomials,one_mul,List.prod_replicate]
  add := by
    refine ⟨_,pow_eq takes p (e + k),?_⟩
    rw [pow_eq takes,pow_eq takes,pow_add]
    exact mul_eq _ _
  mul := by
    refine ⟨_,pow_eq takes p (e * k),?_⟩
    rw [pow_eq takes,pow_mul]
    exact pow_eq takes _ k

/-- Repeated squaring finds the product of as many equal factors as the exponent says, of polynomials beginning
    with the constant one and of numbers beginning with the one of the ring, so that powers add and multiply in
    the exponent. By a modulus the power of any integer is the remainder of its power. -/
theorem powers_total_correct (e k : ℕ) :
    (∀ r : BaseRing, r.TakesNumbers → ∃ one, constant (.integer 1) r = .ok one ∧
      ∀ p : Dense r.Elem, PowerLaws one ⟨r,p⟩ e k) ∧
    (∀ (r : BaseRing) (a : Number), r.Multiplies a → r.PowerLaws a e k) ∧
    ∀ (m : Modulus) (a : ℤ), (BaseRing.residues m).pow (.integer a) e = .ok (.integer (a ^ e % m.value)) := by
  refine ⟨?_,?_,fun m a => BaseRing.pow_integer m a e⟩
  · intro r takes
    exact ⟨⟨r,1⟩,one_eq takes,fun p => powerLaws takes p e k⟩
  · intro r a multiplies
    exact BaseRing.powerLaws r multiplies e k

/-- Modulo five with the zero polynomial and an integer that is not reduced, and with an integer among the
    rational numbers. -/
theorem powers_mod_five : let r : BaseRing := .residues ⟨5,(isPrime_iff 5).mpr Nat.prime_five⟩
    r.TakesNumbers ∧ r.Multiplies (.integer 12) ∧ BaseRing.rationals.Multiplies (.integer 12) ∧
    (∃ one, constant (.integer 1) r = .ok one ∧ PowerLaws one ⟨r,0⟩ 3 0) ∧
    r.PowerLaws (.integer 12) 3 0 ∧ BaseRing.rationals.PowerLaws (.integer 12) 3 0 ∧
    r.pow (.integer 12) (3 : ℕ) = .ok (.integer (12 ^ 3 % (5 : ℕ))) := by
  intro r
  obtain ⟨polynomials,numbers,remainders⟩ := powers_total_correct 3 0
  obtain ⟨one,made,laws⟩ := polynomials r trivial
  exact ⟨trivial,trivial,trivial,⟨one,made,laws 0⟩,numbers r _ trivial,numbers .rationals _ trivial,
    remainders _ 12⟩

end Poly
end Bezout

import Bezout.Proofs.Residues
import Bezout.Arithmetic

/-!
The laws of the coefficients. Over every base ring the coefficients are an integral domain whose
units are told by `Coefficient.inverse?` (`CoefficientDomain`), and the arithmetic on numbers
follows the arithmetic on the elements that the numbers stand for.
-/
namespace Bezout

/-- Coefficients that are an integral domain, with the inverses that belong to it. -/
class CoefficientDomain (R : Type) extends Coefficient R, CommRing R, IsDomain R where
  ofInt_eq (n : ℤ) : Coefficient.ofInt n = (n : R)
  inverse?_eq_some_iff {a b : R} : Coefficient.inverse? a = some b ↔ a * b = 1

namespace Coefficient
variable {R : Type} [CoefficientDomain R]

/-- An element has no inverse exactly if it is no unit. -/
theorem inverse?_eq_none_iff {a : R} : inverse? a = none ↔ ¬ IsUnit a := by
  rw [isUnit_iff_exists_inv,Option.eq_none_iff_forall_ne_some,not_exists]
  exact forall_congr' fun b => not_congr CoefficientDomain.inverse?_eq_some_iff

theorem mul_inverse {a b : R} (found : inverse? a = some b) : a * b = 1 :=
  CoefficientDomain.inverse?_eq_some_iff.mp found

end Coefficient

instance : CoefficientDomain Int where
  toCoefficient := inferInstance
  __ := Int.instCommRing
  __ := (inferInstance : IsDomain Int)
  ofInt_eq _ := rfl
  inverse?_eq_some_iff {a b} := by
    show (if a = 1 ∨ a = -1 then some a else none) = some b ↔ a * b = 1
    rw [Int.mul_eq_one_iff_eq_one_or_neg_one]
    grind

instance : CoefficientDomain Rat where
  toCoefficient := inferInstance
  __ := Rat.instField
  __ := (inferInstance : IsDomain Rat)
  ofInt_eq _ := rfl
  inverse?_eq_some_iff {a b} := by
    show (if a = 0 then none else some a⁻¹) = some b ↔ a * b = 1
    by_cases zero : a = 0
    · simp [zero]
    · rw [if_neg zero,Option.some.injEq]
      exact ⟨fun same => same ▸ mul_inv_cancel₀ zero,inv_eq_of_mul_eq_one_right⟩

instance (m : Modulus) : CoefficientDomain (Residue m) where
  toCoefficient := inferInstance
  __ := (inferInstance : CommRing (Residue m))
  __ := (inferInstance : IsDomain (Residue m))
  ofInt_eq _ := rfl
  inverse?_eq_some_iff := Residue.inverse?_eq_some_iff

namespace BaseRing

/-- The laws over each base ring. -/
@[reducible] private def laws : (r : BaseRing) → CoefficientDomain r.Elem
  | integers => inferInstanceAs (CoefficientDomain Int)
  | rationals => inferInstanceAs (CoefficientDomain Rat)
  | residues m => inferInstanceAs (CoefficientDomain (Residue m))
  | bare _ _ => inferInstanceAs (CoefficientDomain Int)

-- The operations are those of `Coefficient`, whatever the ring; only what they do not give
-- (multiples, differences, casts) is taken from the ring.
instance (r : BaseRing) : CoefficientDomain r.Elem where
  toCoefficient := inferInstance
  sub := r.laws.sub
  sub_eq_add_neg := by cases r <;> exact (laws _).sub_eq_add_neg
  nsmul := r.laws.nsmul
  nsmul_zero := by cases r <;> exact (laws _).nsmul_zero
  nsmul_succ := by cases r <;> exact (laws _).nsmul_succ
  zsmul := r.laws.zsmul
  zsmul_zero' := by cases r <;> exact (laws _).zsmul_zero'
  zsmul_succ' := by cases r <;> exact (laws _).zsmul_succ'
  zsmul_neg' := by cases r <;> exact (laws _).zsmul_neg'
  npow := r.laws.npow
  npow_zero := by cases r <;> exact (laws _).npow_zero
  npow_succ := by cases r <;> exact (laws _).npow_succ
  natCast := r.laws.natCast
  natCast_zero := by cases r <;> exact (laws _).natCast_zero
  natCast_succ := by cases r <;> exact (laws _).natCast_succ
  intCast := r.laws.intCast
  intCast_ofNat := by cases r <;> exact (laws _).intCast_ofNat
  intCast_negSucc := by cases r <;> exact (laws _).intCast_negSucc
  add_assoc := by cases r <;> exact (laws _).add_assoc
  zero_add := by cases r <;> exact (laws _).zero_add
  add_zero := by cases r <;> exact (laws _).add_zero
  add_comm := by cases r <;> exact (laws _).add_comm
  neg_add_cancel := by cases r <;> exact (laws _).neg_add_cancel
  mul_assoc := by cases r <;> exact (laws _).mul_assoc
  one_mul := by cases r <;> exact (laws _).one_mul
  mul_one := by cases r <;> exact (laws _).mul_one
  zero_mul := by cases r <;> exact (laws _).zero_mul
  mul_zero := by cases r <;> exact (laws _).mul_zero
  mul_comm := by cases r <;> exact (laws _).mul_comm
  left_distrib := by cases r <;> exact (laws _).left_distrib
  right_distrib := by cases r <;> exact (laws _).right_distrib
  mul_left_cancel_of_ne_zero := by cases r <;> exact (laws _).mul_left_cancel_of_ne_zero
  mul_right_cancel_of_ne_zero := by cases r <;> exact (laws _).mul_right_cancel_of_ne_zero
  exists_pair_ne := by cases r <;> exact (laws _).exists_pair_ne
  ofInt_eq := by cases r <;> exact (laws _).ofInt_eq
  inverse?_eq_some_iff := by cases r <;> exact (laws _).inverse?_eq_some_iff

/-- The rings that take in numbers: all but the bare ones. -/
def TakesNumbers : BaseRing → Prop
  | bare _ _ => False
  | _ => True

theorem isUnit_of_ne_zero {r : BaseRing} (field : r.isField = true) {a : r.Elem} (nonzero : a ≠ 0) :
    IsUnit a := by
  cases r with
  | integers => cases field
  | rationals => exact @IsUnit.mk0 ℚ _ a nonzero
  | residues m => exact @IsUnit.mk0 (Residue m) _ a nonzero
  | bare c mark => cases field

/-! ### Elements as numbers -/

open Coefficient (number)

/-- The number that stands for an element is taken in as that element. -/
theorem ofNumber_number {r : BaseRing} (takes : r.TakesNumbers) (a : r.Elem) :
    r.ofNumber (number a) = .ok a := by
  cases r with
  | integers => rfl
  | rationals => rfl
  | residues m => exact congrArg Except.ok (Residue.ofInt_value a)
  | bare c mark => exact takes.elim

theorem ofValue_of_exactNumber {v : Value} {n : Number} (exact : v.exactNumber? = some n) (r : BaseRing) :
    r.ofValue v = r.ofNumber n := by
  cases r <;> rw [ofValue,exact]
  rfl

theorem ofValue_number {r : BaseRing} (takes : r.TakesNumbers) (a : r.Elem) :
    r.ofValue (.number (number a)) = .ok a := by
  rw [ofValue_of_exactNumber rfl,ofNumber_number takes]

/-- A number is taken in by its value, however it is held. -/
theorem ofNumber_value (r : BaseRing) (n : Number) : r.ofNumber (.fraction n.value) = r.ofNumber n := by
  cases n with
  | fraction q => rfl
  | integer k =>
    cases r with
    | integers =>
      have taken : integers.ofNumber (.fraction k) = .ok (k : ℚ).num := by
        rw [ofNumber,if_pos (Rat.den_intCast k)]
      exact taken
    | rationals => rfl
    | residues m =>
      have unit : (Residue.ofInt m ((k : ℚ).den : ℤ)).inverse? = some 1 := by
        rw [Rat.den_intCast,Residue.inverse?_eq_some_iff,mul_one]
        rfl
      have taken : (residues m).ofNumber (.fraction k) = .ok (Residue.ofInt m (k : ℚ).num * 1) := by
        rw [ofNumber,unit]
      exact taken.trans (congrArg Except.ok (mul_one (Residue.ofInt m k)))
    | bare characteristic mark => rfl

/-- A number is taken in as the element whose number has the same value. -/
theorem ofNumber_of_value {r : BaseRing} (takes : r.TakesNumbers) {n : Number} {a : r.Elem}
    (same : n.value = (number a).value) : r.ofNumber n = .ok a := by
  rw [← ofNumber_value,same,ofNumber_value,ofNumber_number takes]

theorem ofValue_of_value {r : BaseRing} (takes : r.TakesNumbers) {n : Number} {a : r.Elem}
    (same : n.value = (number a).value) : r.ofValue (.number n) = .ok a := by
  rw [ofValue_of_exactNumber rfl,ofNumber_of_value takes same]

theorem ofValue_integer {r : BaseRing} (takes : r.TakesNumbers) (n : ℤ) :
    r.ofValue (.integer n) = .ok (n : r.Elem) := by
  cases r with
  | bare c mark => exact takes.elim
  | _ => rfl

/-- A ring that takes in some value is no bare one. -/
theorem takesNumbers_of_ofValue {r : BaseRing} {v : Value} {a : r.Elem} (taken : r.ofValue v = .ok a) :
    r.TakesNumbers := by
  cases r with
  | bare c mark => cases taken
  | _ => trivial

/-- Products of numbers follow the products of the elements that they stand for. -/
theorem mul_number (r : BaseRing) (a b : r.Elem) : r.mul (number a) (number b) = number (a * b) := by
  cases r <;> rfl

/-- Powers of numbers follow those of what the numbers stand for, if products do. -/
theorem pow_image {r : BaseRing} {α : Type} {mul : α → α → α} {one : α} (image : α → Number)
    (start : r.oneNumber = image one) (respects : ∀ a b, r.mul (image a) (image b) = image (mul a b))
    (a : α) (n : ℕ) : r.pow (image a) n = .ok (image (power mul one a n)) := by
  have counted : ¬ (n : ℤ) < 0 := by omega
  rw [pow,if_neg counted,Int.toNat_natCast,start,power,powerFrom_map image respects,← power]

theorem pow_number (r : BaseRing) (a : r.Elem) (n : ℕ) :
    r.pow (number a) n = .ok (number (a ^ n)) := by
  rw [← power_eq]
  exact pow_image number rfl r.mul_number a n

/-- Over a field the inverses of numbers are the numbers of the inverses. -/
theorem inverse_number {r : BaseRing} (field : r.isField = true) {a b : r.Elem}
    (unit : a * b = 1) : r.inverse (number a) = .ok (number b) := by
  have nonzero : a ≠ 0 := left_ne_zero_of_mul_eq_one unit
  cases r with
  | integers => cases field
  | rationals =>
    have passes : ¬ (number a).isZero = true := mt beq_iff_eq.mp nonzero
    have inverse : a⁻¹ = b := inv_eq_of_mul_eq_one_right unit
    simp only [BaseRing.inverse]
    rw [if_neg passes,← inverse]
    rfl
  | residues m =>
    have found : a.inverse? = some b := Residue.inverse?_eq_some_iff.mpr unit
    have reduced : (number a).mod m.value = number a :=
      congrArg Number.integer (Int.emod_eq_of_lt a.nonneg a.lt)
    have passes : ¬ ((number a).mod m.value).isZero = true := by
      rw [reduced]
      intro zero
      have vanishes : a.value = 0 := Int.cast_eq_zero.mp (beq_iff_eq.mp zero)
      exact nonzero (Residue.ext vanishes)
    simp only [BaseRing.inverse]
    rw [if_neg passes]
    simp only [number,Residue.ofInt_value,found]
  | bare c mark => cases field

theorem mul_number_inverse {r : BaseRing} {a b c : r.Elem} (unit : a * b = 1) :
    r.mul (number (a * c)) (number b) = number c := by
  rw [mul_number,mul_right_comm,unit,one_mul]

/-- The quotient of the numbers of two elements is the number of the quotient. -/
theorem exactDiv_number {r : BaseRing} (takes : r.TakesNumbers) {b c : r.Elem} (nonzero : b ≠ 0) :
    r.exactDiv (number (b * c)) (number b) = .ok (number c) := by
  cases r with
  | integers =>
    have image : ((b : ℤ) : ℚ) ≠ 0 := Int.cast_ne_zero.mpr nonzero
    have quotient : (((b : ℤ) * (c : ℤ) : ℤ) : ℚ) / ((b : ℤ) : ℚ) = ((c : ℤ) : ℚ) := by
      rw [Int.cast_mul,mul_div_cancel_left₀ _ image]
    have known : (number (b * c)).value / (number b).value = ((c : ℤ) : ℚ) := quotient
    have passes : ¬ (number b).isZero = true := mt beq_iff_eq.mp image
    simp only [exactDiv]
    rw [if_neg passes,known,if_pos (Rat.den_intCast c),Rat.num_intCast]
    rfl
  | rationals =>
    have unit : b * b⁻¹ = 1 := @mul_inv_cancel₀ ℚ _ b nonzero
    simp only [exactDiv]
    rw [inverse_number rfl unit]
    exact congrArg Except.ok (mul_number_inverse unit)
  | residues m =>
    have unit : b * (b⁻¹ : Residue m) = 1 := @mul_inv_cancel₀ (Residue m) _ b nonzero
    simp only [exactDiv]
    rw [inverse_number rfl unit]
    exact congrArg Except.ok (mul_number_inverse unit)
  | bare c mark => exact takes.elim

/-- The values of the elements, over a ring of characteristic zero. -/
def valueHom (r : BaseRing) (takes : r.TakesNumbers) (characteristic : r.characteristic = 0) :
    r.Elem →+* ℚ where
  toFun a := (number a).value
  map_zero' := by
    cases r with
    | residues m => exact absurd characteristic m.pos.ne'
    | _ => rfl
  map_one' := by
    cases r with
    | residues m => exact absurd characteristic m.pos.ne'
    | _ => rfl
  map_add' a b := by
    cases r with
    | integers => exact Int.cast_add a b
    | rationals => rfl
    | residues m => exact absurd characteristic m.pos.ne'
    | bare c mark => exact takes.elim
  map_mul' a b := by
    cases r with
    | integers => exact Int.cast_mul a b
    | rationals => rfl
    | residues m => exact absurd characteristic m.pos.ne'
    | bare c mark => exact takes.elim

theorem valueHom_injective {r : BaseRing} (takes : r.TakesNumbers)
    (characteristic : r.characteristic = 0) : Function.Injective (r.valueHom takes characteristic) := by
  cases r with
  | integers => exact Int.cast_injective
  | rationals => exact fun _ _ same => same
  | residues m => exact absurd characteristic m.pos.ne'
  | bare c mark => exact takes.elim

end BaseRing
end Bezout

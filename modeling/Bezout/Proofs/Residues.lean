import Mathlib
import Bezout.BaseRing

/-!
The residues by a prime modulus are a finite field. Trial division finds exactly the primes, so
that the residues are the integers modulo a prime (`toZMod`), whose laws they inherit; the inverse
taken as a power is right by Fermat's little theorem.
-/
namespace Bezout

/-! ### Powers by repeated squaring -/

section Loop
variable {α : Type} {mul : α → α → α} [associative : Std.Associative mul]

/-- A product with squares is the product with twice as many factors. -/
theorem foldl_squares (done base : α) (n : ℕ) :
    (List.replicate n (mul base base)).foldl mul done = (List.replicate (2 * n) base).foldl mul done := by
  induction n generalizing done with
  | zero => rfl
  | succ n ih =>
    rw [List.replicate_succ,List.foldl_cons,ih,← associative.assoc]
    rfl

/-- The base is squared while the exponent is halved, so that the product with as many factors as the
    exponent says stays as it is. -/
theorem powerFrom_eq_foldl (done base : α) (n : ℕ) :
    powerFrom mul done base n = (List.replicate n base).foldl mul done := by
  induction n using Nat.strong_induction_on generalizing done base with
  | _ n ih =>
    rw [powerFrom]
    by_cases zero : n = 0
    · rw [if_pos zero,zero]
      rfl
    · rw [if_neg zero,ih (n / 2) (by omega),foldl_squares]
      by_cases odd : n % 2 = 1
      · have count : n = 2 * (n / 2) + 1 := by omega
        rw [if_pos odd,count,List.replicate_succ,List.foldl_cons,← count]
      · have count : 2 * (n / 2) = n := by omega
        rw [if_neg odd,count]

end Loop

theorem powerFrom_eq {M : Type} [Monoid M] (done base : M) (n : ℕ) :
    powerFrom (· * ·) done base n = done * base ^ n := by
  have moved : (List.replicate n base).foldl (· * ·) (done * 1) =
      done * (List.replicate n base).foldl (· * ·) 1 := List.foldl_assoc
  rw [powerFrom_eq_foldl,← mul_one done,moved,← List.prod_eq_foldl,List.prod_replicate,mul_one]

theorem power_eq {M : Type} [Monoid M] (a : M) (n : ℕ) : power (· * ·) 1 a n = a ^ n := by
  rw [power,powerFrom_eq,one_mul]

/-- A map that respects the multiplications respects the powers. -/
theorem powerFrom_map {α β : Type} {mul : α → α → α} {mul' : β → β → β} (f : α → β)
    (respects : ∀ a b, mul' (f a) (f b) = f (mul a b)) (done base : α) (n : ℕ) :
    powerFrom mul' (f done) (f base) n = f (powerFrom mul done base n) := by
  induction n using Nat.strong_induction_on generalizing done base with
  | _ n ih =>
    rw [powerFrom.eq_def mul',powerFrom.eq_def mul]
    by_cases zero : n = 0
    · rw [if_pos zero,if_pos zero]
    · rw [if_neg zero,if_neg zero,respects,respects,← apply_ite f]
      exact ih (n / 2) (by omega) _ _

/-! ### Trial division -/

theorem hasDivisorFrom_iff (n i : ℕ) :
    hasDivisorFrom n i = true ↔ ∃ j, i ≤ j ∧ j * j ≤ n ∧ j ∣ n := by
  fun_induction hasDivisorFrom n i with
  | case1 i inside ih =>
    simp only [Bool.or_eq_true,beq_iff_eq,ih]
    constructor
    · rintro (divides | ⟨j,above,below,divides⟩)
      · exact ⟨i,le_rfl,inside,Nat.dvd_of_mod_eq_zero divides⟩
      · exact ⟨j,by omega,below,divides⟩
    · rintro ⟨j,above,below,divides⟩
      rcases above.eq_or_lt with rfl | later
      · exact .inl (Nat.mod_eq_zero_of_dvd divides)
      · exact .inr ⟨j,later,below,divides⟩
  | case2 i outside =>
    simp only [Bool.false_eq_true,false_iff]
    rintro ⟨j,above,below,-⟩
    exact outside ((Nat.mul_le_mul above above).trans below)

/-- Trial division up to the square root finds exactly the primes. -/
theorem isPrime_iff (n : ℕ) : isPrime n = true ↔ n.Prime := by
  rw [Nat.prime_def_le_sqrt,isPrime,Bool.and_eq_true,decide_eq_true_eq]
  refine and_congr_right fun _ => ?_
  rw [Bool.not_eq_true',← Bool.not_eq_true,hasDivisorFrom_iff]
  constructor
  · intro none j two root divides
    exact none ⟨j,two,Nat.le_sqrt.mp root,divides⟩
  · rintro none ⟨j,two,root,divides⟩
    exact none j two (Nat.le_sqrt.mpr root) divides

instance (m : Modulus) : Fact m.value.Prime := ⟨(isPrime_iff m.value).mp m.prime⟩

/-! ### Residues as integers modulo the prime -/

namespace Residue
variable {m : Modulus}

/-- The class of a residue. -/
def toZMod (a : Residue m) : ZMod m.value := (a.value : ZMod m.value)

@[simp] theorem toZMod_ofInt (n : ℤ) : (ofInt m n).toZMod = n := by
  simp [toZMod]

theorem toZMod_injective : Function.Injective (toZMod (m := m)) := by
  intro a b same
  have congruent := (ZMod.intCast_eq_intCast_iff' a.value b.value m.value).mp same
  rw [Int.emod_eq_of_lt a.nonneg a.lt,Int.emod_eq_of_lt b.nonneg b.lt] at congruent
  exact Residue.ext congruent

theorem toZMod_surjective : Function.Surjective (toZMod (m := m)) :=
  fun x => ⟨ofInt m x.val,by simp⟩

@[simp] theorem toZMod_zero : (0 : Residue m).toZMod = 0 := by
  rw [show (0 : Residue m) = ofInt m 0 from rfl,toZMod_ofInt,Int.cast_zero]
@[simp] theorem toZMod_one : (1 : Residue m).toZMod = 1 := by
  rw [show (1 : Residue m) = ofInt m 1 from rfl,toZMod_ofInt,Int.cast_one]
@[simp] theorem toZMod_add (a b : Residue m) : (a + b).toZMod = a.toZMod + b.toZMod := by
  simp [toZMod]
@[simp] theorem toZMod_mul (a b : Residue m) : (a * b).toZMod = a.toZMod * b.toZMod := by
  simp [toZMod]
@[simp] theorem toZMod_neg (a : Residue m) : (-a).toZMod = -a.toZMod := by
  simp [toZMod]

instance : CommRing (Residue m) where
  add_assoc a b c := toZMod_injective (by simp [add_assoc])
  zero_add a := toZMod_injective (by simp)
  add_zero a := toZMod_injective (by simp)
  add_comm a b := toZMod_injective (by simp [add_comm])
  neg_add_cancel a := toZMod_injective (by simp)
  mul_assoc a b c := toZMod_injective (by simp [mul_assoc])
  one_mul a := toZMod_injective (by simp)
  mul_one a := toZMod_injective (by simp)
  mul_comm a b := toZMod_injective (by simp [mul_comm])
  zero_mul a := toZMod_injective (by simp)
  mul_zero a := toZMod_injective (by simp)
  left_distrib a b c := toZMod_injective (by simp [mul_add])
  right_distrib a b c := toZMod_injective (by simp [add_mul])
  nsmul := nsmulRec
  zsmul := zsmulRec
  natCast n := ofInt m n
  natCast_zero := rfl
  natCast_succ n := toZMod_injective (by simp)
  intCast := ofInt m
  intCast_ofNat n := rfl
  intCast_negSucc n := toZMod_injective (by
    rw [toZMod_neg,toZMod_ofInt,Int.cast_negSucc]
    exact congrArg (- ·) ((toZMod_ofInt _).trans (Int.cast_natCast (n + 1))).symm)

/-- The class of a residue, as a map that respects the ring operations. -/
def toZModHom (m : Modulus) : Residue m →+* ZMod m.value where
  toFun := toZMod
  map_zero' := toZMod_zero
  map_one' := toZMod_one
  map_add' := toZMod_add
  map_mul' := toZMod_mul

theorem toZMod_pow (a : Residue m) (n : ℕ) : (a ^ n).toZMod = a.toZMod ^ n :=
  map_pow (toZModHom m) a n

/-- Fermat's little theorem: the power with exponent two less than the modulus is an inverse. -/
theorem mul_power_eq_one {a : Residue m} (nonzero : a ≠ 0) :
    a * power (· * ·) 1 a (m.value - 2) = 1 := by
  have two := m.two_le
  have image : a.toZMod ≠ 0 := fun same => nonzero (toZMod_injective (same.trans toZMod_zero.symm))
  have fermat : a.toZMod ^ (m.value - 1) = 1 := ZMod.pow_card_sub_one_eq_one image
  apply toZMod_injective
  rw [power_eq,← pow_succ',toZMod_pow,toZMod_one,show m.value - 2 + 1 = m.value - 1 by omega,fermat]

instance : Field (Residue m) where
  inv a := a.inverse?.getD 0
  exists_pair_ne := ⟨0,1,fun same => by simpa using congrArg toZMod same⟩
  mul_inv_cancel a nonzero := by
    show a * a.inverse?.getD 0 = 1
    rw [inverse?,if_neg nonzero]
    exact mul_power_eq_one nonzero
  inv_zero := by
    show (0 : Residue m).inverse?.getD 0 = 0
    rw [inverse?,if_pos rfl]
    rfl
  nnqsmul := _
  nnqsmul_def := fun _ _ => rfl
  qsmul := _
  qsmul_def := fun _ _ => rfl

theorem inverse?_eq_some_iff {a b : Residue m} : a.inverse? = some b ↔ a * b = 1 := by
  rw [inverse?]
  by_cases zero : a = 0
  · simp [zero]
  · rw [if_neg zero,Option.some.injEq]
    constructor
    · rintro rfl
      exact mul_power_eq_one zero
    · intro unit
      exact mul_left_cancel₀ zero ((mul_power_eq_one zero).trans unit.symm)

instance : Finite (Residue m) := Finite.of_injective toZMod toZMod_injective

/-- There are as many residues as the modulus says. -/
theorem card_eq (m : Modulus) : Nat.card (Residue m) = m.value := by
  rw [Nat.card_congr (Equiv.ofBijective toZMod ⟨toZMod_injective,toZMod_surjective⟩),Nat.card_zmod]

end Residue
end Bezout

import Bezout.Proofs.Remainders

/-!
Powers by a modulus. Every product on the way is reduced by the modulus, and each reduction may
multiply by the leading coefficient of the modulus. `Reduces` says what is left of a polynomial after
any number of reductions; it respects products, so that what is left in the end is left of the power.
Where reductions never multiply, this is the remainder of the power.
-/
namespace Bezout
namespace Dense
variable {R : Type} [CoefficientDomain R]

/-- Reductions by `f` leave `s` of `p`. By zero nothing is reduced; otherwise `p` is multiplied by a
    power of the leading coefficient of `f`, unless that is a unit, and loses a multiple of `f`. -/
structure Reduces (f p s : Dense R) : Prop where
  by_zero : f = 0 → s = p
  scaled : ∃ (steps : ℕ) (t : Dense R), p.scale (f.lead ^ steps) = t * f + s
  congruent : IsUnit f.lead → f ∣ p - s

theorem IsDivision.reduces {p f : Dense R} {d : Division (Dense R)} (division : IsDivision p f d)
    (unscaled : IsUnit f.lead → d.scale = 0) : Reduces f p d.remainder where
  by_zero zero := by rw [division.by_zero zero]
  scaled := ⟨_,_,division.identity⟩
  congruent unit := (division.isRemainder (unscaled unit)).congruent

theorem Reduces.refl (f p : Dense R) : Reduces f p p where
  by_zero _ := rfl
  scaled := ⟨0,0,by rw [pow_zero,scale_one,zero_mul,zero_add]⟩
  congruent _ := by
    rw [sub_self]
    exact dvd_zero f

theorem Reduces.trans {f p s w : Dense R} (first : Reduces f p s) (second : Reduces f s w) :
    Reduces f p w where
  by_zero zero := (second.by_zero zero).trans (first.by_zero zero)
  scaled := by
    obtain ⟨steps,t,left⟩ := first.scaled
    obtain ⟨more,u,right⟩ := second.scaled
    refine ⟨more + steps,t.scale (f.lead ^ more) + u,?_⟩
    have twice : p.scale (f.lead ^ (more + steps)) = (p.scale (f.lead ^ steps)).scale (f.lead ^ more) :=
      toPolynomial_injective (by simp [pow_add,mul_assoc])
    rw [twice,left,add_mul,add_assoc,← right]
    simp only [scale_eq_mul]
    ring
  congruent unit := by
    rw [← sub_add_sub_cancel p s w]
    exact dvd_add (first.congruent unit) (second.congruent unit)

theorem Reduces.mul {f p q s w : Dense R} (left : Reduces f p s) (right : Reduces f q w) :
    Reduces f (p * q) (s * w) where
  by_zero zero := by rw [left.by_zero zero,right.by_zero zero]
  scaled := by
    obtain ⟨steps,t,left⟩ := left.scaled
    obtain ⟨more,u,right⟩ := right.scaled
    refine ⟨steps + more,t * u * f + t * w + s * u,?_⟩
    have both : (p * q).scale (f.lead ^ (steps + more)) =
        p.scale (f.lead ^ steps) * q.scale (f.lead ^ more) :=
      toPolynomial_injective (by simp [pow_add]; ring)
    rw [both,left,right]
    ring
  congruent unit := dvd_mul_sub_mul (left.congruent unit) (right.congruent unit)

theorem Reduces.pow {f p s : Dense R} (left : Reduces f p s) (n : ℕ) : Reduces f (p ^ n) (s ^ n) := by
  induction n with
  | zero =>
    rw [pow_zero,pow_zero]
    exact Reduces.refl f 1
  | succ n ih =>
    rw [pow_succ,pow_succ]
    exact ih.mul left

/-- Nothing is multiplied by a monic modulus: what is left differs by a multiple. -/
theorem Reduces.dvd_sub {f p s : Dense R} (left : Reduces f p s) (monic : f.lead = 1) : f ∣ p - s :=
  left.congruent (monic ▸ isUnit_one)

/-- What reductions that never multiply leave is the remainder, once it is smaller than the modulus. -/
theorem Reduces.isRemainder {f p s : Dense R} (left : Reduces f p s) (exact : f = 0 ∨ IsUnit f.lead)
    (small : f ≠ 0 → s.size < f.size) : IsRemainder f p s where
  congruent := by
    rcases exact with zero | unit
    · rw [left.by_zero zero,sub_self]
      exact dvd_zero f
    · exact left.congruent unit
  small := small

end Dense

namespace Poly
variable {r : BaseRing}

theorem mod_reduces (p f : Dense r.Elem) : ∃ s, (mod ⟨r,p⟩ ⟨r,f⟩).outcome = .ok ⟨r,s⟩ ∧
    Dense.Reduces f p s ∧ (f ≠ 0 → s.size < f.size) := by
  obtain ⟨d,ended,division,unscaled⟩ := divide_isDivision p f
  exact ⟨d.remainder,mod_of_divide ended,division.reduces unscaled,division.remainder_lt⟩

/-- A product of what was left of two polynomials, reduced again. -/
theorem mod_mul_reduces {f p q a b : Dense r.Elem} (left : Dense.Reduces f p a)
    (right : Dense.Reduces f q b) : ∃ s, (mod ⟨r,a * b⟩ ⟨r,f⟩).outcome = .ok ⟨r,s⟩ ∧
      Dense.Reduces f (p * q) s ∧ (f ≠ 0 → s.size < f.size) := by
  obtain ⟨s,ended,reduced,small⟩ := mod_reduces (a * b) f
  exact ⟨s,ended,(left.mul right).trans reduced,small⟩

/-- The base is squared while the exponent is halved, so that what the loop reduces stays the same
    power. -/
theorem powerModFrom_reduces {f p q result base : Dense r.Elem} (n : ℕ)
    (done : Dense.Reduces f p result) (small : f ≠ 0 → result.size < f.size)
    (begun : Dense.Reduces f q base) :
    ∃ s, (powerModFrom ⟨r,f⟩ ⟨r,result⟩ ⟨r,base⟩ n).outcome = .ok ⟨r,s⟩ ∧
      Dense.Reduces f (p * q ^ n) s ∧ (f ≠ 0 → s.size < f.size) := by
  induction n using Nat.strong_induction_on generalizing p q result base with
  | _ n ih =>
    rw [powerModFrom]
    by_cases zero : n = 0
    · rw [if_pos zero,zero,pow_zero,mul_one]
      exact ⟨result,rfl,done,small⟩
    · obtain ⟨square,squared,halved,-⟩ := mod_mul_reduces begun begun
      rw [if_neg zero]
      -- An odd exponent gives one factor of the base to what is done.
      by_cases odd : n % 2 = 1
      · obtain ⟨product,multiplied,taken,smaller⟩ := mod_mul_reduces done begun
        have power : p * q ^ n = p * q * (q * q) ^ (n / 2) := by
          rw [← pow_two,← pow_mul,mul_assoc,← pow_succ']
          congr 2; omega
        rw [if_pos odd,Work.outcome_ofExcept_bind (mul_eq result base),Work.outcome_bind multiplied,
          Work.outcome_ofExcept_bind (mul_eq base base),Work.outcome_bind squared,power]
        exact ih (n / 2) (by omega) taken smaller halved
      · have power : p * q ^ n = p * (q * q) ^ (n / 2) := by
          rw [← pow_two,← pow_mul]
          congr 2; omega
        rw [if_neg odd,Work.outcome_bind (Work.outcome_done _),
          Work.outcome_ofExcept_bind (mul_eq base base),Work.outcome_bind squared,power]
        exact ih (n / 2) (by omega) done small halved

/-- The power by a modulus is what reductions leave of the power, and it is smaller than the
    modulus. -/
theorem powerMod_reduces (takes : r.TakesNumbers) (base f : Dense r.Elem) (n : ℕ) :
    ∃ s, (powerMod ⟨r,base⟩ n ⟨r,f⟩).outcome = .ok ⟨r,s⟩ ∧
      Dense.Reduces f (base ^ n) s ∧ (f ≠ 0 → s.size < f.size) := by
  obtain ⟨unit,started,one,small⟩ := mod_reduces 1 f
  obtain ⟨rest,reduced,begun,-⟩ := mod_reduces base f
  obtain ⟨s,ended,power,smaller⟩ := powerModFrom_reduces n one small begun
  refine ⟨s,?_,by rwa [one_mul] at power,smaller⟩
  have counted : ¬ (n : ℤ) < 0 := by omega
  rw [powerMod,if_neg counted,Work.outcome_ofExcept_bind (one_eq takes),Work.outcome_bind started,
    Work.outcome_bind reduced]
  exact ended

/-- The power by a modulus is the remainder of the power where reductions never multiply. By any other
    modulus it is smaller than the modulus and a remainder of the power times a power of the leading
    coefficient. -/
theorem powerMod_total_correct (r : BaseRing) (takes : r.TakesNumbers) (base f : Dense r.Elem) (n : ℕ) :
    ∃ power s : Dense r.Elem, pow ⟨r,base⟩ (.integer n) = .ok ⟨r,power⟩ ∧
      (powerMod ⟨r,base⟩ n ⟨r,f⟩).outcome = .ok ⟨r,s⟩ ∧
      (f = 0 ∨ IsUnit f.lead → (mod ⟨r,power⟩ ⟨r,f⟩).outcome = .ok ⟨r,s⟩) ∧
      (f ≠ 0 → s.size < f.size ∧
        ∃ (k : ℕ) (t : Dense r.Elem), power.scale (f.lead ^ k) = t * f + s) := by
  obtain ⟨s,ended,left,small⟩ := powerMod_reduces takes base f n
  refine ⟨base ^ n,s,pow_eq takes base n,ended,?_,?_⟩
  · intro exact
    exact (mod_eq_iff exact).mpr (left.isRemainder exact small)
  · intro nonzero
    exact ⟨small nonzero,left.scaled⟩

/-- Over the integers by `2 * x + 1`, where each of the reductions multiplies. -/
theorem powerMod_by_linear : BaseRing.integers.TakesNumbers ∧
    ∃ power s : Dense BaseRing.integers.Elem,
      pow ⟨.integers,.ofList [1,1]⟩ (.integer (5 : ℕ)) = .ok ⟨.integers,power⟩ ∧
      (powerMod ⟨.integers,.ofList [1,1]⟩ (5 : ℕ) ⟨.integers,.ofList [1,2]⟩).outcome =
        .ok ⟨.integers,s⟩ ∧
      ((.ofList [1,2] : Dense BaseRing.integers.Elem) = 0 ∨
          IsUnit (.ofList [1,2] : Dense BaseRing.integers.Elem).lead →
        (mod ⟨.integers,power⟩ ⟨.integers,.ofList [1,2]⟩).outcome = .ok ⟨.integers,s⟩) ∧
      ((.ofList [1,2] : Dense BaseRing.integers.Elem) ≠ 0 →
        s.size < (.ofList [1,2] : Dense BaseRing.integers.Elem).size ∧
        ∃ (k : ℕ) (t : Dense BaseRing.integers.Elem),
          power.scale ((.ofList [1,2] : Dense BaseRing.integers.Elem).lead ^ k) = t * .ofList [1,2] + s) :=
  ⟨trivial,powerMod_total_correct .integers trivial _ _ 5⟩

end Poly
end Bezout

import Bezout.Proofs.Euclid

/-!
Remainders as representatives of residue classes. Whatever steps a division takes, where it never multiplies
its remainder differs from the dividend by a multiple of the divisor and is smaller than the divisor, and no
other polynomial does both (`IsRemainder.eq_iff`). So taking remainders respects sums and products, and what
is a remainder already stays as it is.
-/
namespace Bezout
open scoped Classical

namespace Dense
variable {R : Type} [CoefficientDomain R] {p q s t w : Dense R}

/-- The representative of `p` by a modulus `q`: it differs from `p` by a multiple of `q`, and it is smaller
    than `q` unless that is zero. -/
structure IsRemainder (q p s : Dense R) : Prop where
  congruent : q ∣ p - s
  small : q ≠ 0 → s.size < q.size

/-- Representatives are the same exactly if the polynomials differ by a multiple of the modulus. -/
theorem IsRemainder.eq_iff (left : IsRemainder q p s) (right : IsRemainder q w t) : s = t ↔ q ∣ p - w := by
  have classes : q ∣ p - w ↔ q ∣ s - t := by
    have apart : p - w = (p - s) - (w - t) + (s - t) := by ring
    rw [apart,dvd_add_right (dvd_sub left.congruent right.congruent)]
  rw [classes]
  constructor
  · rintro rfl
    rw [sub_self]
    exact dvd_zero q
  · intro multiple
    refine sub_eq_zero.mp (eq_zero_of_dvd_of_small multiple ?_)
    intro nonzero
    exact size_sub_lt_of_lt (left.small nonzero) (right.small nonzero)

theorem IsRemainder.unique (left : IsRemainder q p s) (right : IsRemainder q p t) : s = t := by
  rw [left.eq_iff right,sub_self]
  exact dvd_zero q

theorem isRemainder_zero (q : Dense R) : IsRemainder q 0 0 where
  congruent := by
    rw [sub_self]
    exact dvd_zero q
  small nonzero := Nat.pos_of_ne_zero (mt size_eq_zero_iff.mp nonzero)

theorem IsRemainder.add (left : IsRemainder q p s) (right : IsRemainder q w t) :
    IsRemainder q (p + w) (s + t) where
  congruent := by
    rw [add_sub_add_comm]
    exact dvd_add left.congruent right.congruent
  small nonzero := size_add_lt_of_lt (left.small nonzero) (right.small nonzero)

/-- A product has the representative of the product of the representatives. -/
theorem IsRemainder.of_mul (left : IsRemainder q p s) (right : IsRemainder q w t) {u : Dense R}
    (product : IsRemainder q (s * t) u) : IsRemainder q (p * w) u where
  congruent := by
    rw [← sub_add_sub_cancel (p * w) (s * t) u]
    exact dvd_add (dvd_mul_sub_mul left.congruent right.congruent) product.congruent
  small := product.small

/-- A division that did not multiply leaves the representative. -/
theorem IsDivision.isRemainder {d : Division (Dense R)} (division : IsDivision p q d)
    (unscaled : d.scale = 0) : IsRemainder q p d.remainder where
  congruent := by
    have identity := division.identity
    rw [unscaled,Int.toNat_zero,pow_zero,scale_one] at identity
    exact ⟨d.quotient,by rw [identity]; ring⟩
  small := division.remainder_lt

/-- A loop that starts with a small remainder takes no step. -/
theorem exactFrom_of_small (inverse : R) (quotient : Dense R) (small : p.size < q.size) :
    exactFrom q inverse quotient p = .done ⟨0,quotient,p⟩ := by
  rw [exactFrom,if_neg (by omega)]

theorem pseudoFrom_of_small (steps : ℕ) (quotient : Dense R) (small : p.size < q.size) :
    pseudoFrom q steps quotient p = .done ⟨steps,quotient,p⟩ := by
  rw [pseudoFrom,if_neg (by omega)]

end Dense

namespace Poly
variable {r : BaseRing} {p q s : Dense r.Elem}

/-- What is smaller than the divisor is left as it is, whatever the divisor is. -/
theorem mod_of_small (small : q ≠ 0 → p.size < q.size) : (mod ⟨r,p⟩ ⟨r,q⟩).outcome = .ok ⟨r,p⟩ := by
  by_cases zero : q = 0
  · subst zero
    exact mod_zero_right p
  · have divided : (divide ⟨r,p⟩ ⟨r,q⟩).outcome = .ok (.over r ⟨0,0,p⟩) := by
      cases found : Coefficient.inverse? q.lead with
      | some inverse =>
        rw [divide_eq_exact p found,Dense.exactFrom_of_small inverse 0 (small zero)]
        rfl
      | none =>
        rw [divide_eq_pseudo p found,pseudoDivide_eq p zero,Dense.pseudoFrom_of_small 0 0 (small zero)]
        rfl
    exact mod_of_divide divided

section Exact
variable (exact : q = 0 ∨ IsUnit q.lead)
include exact

theorem mod_isRemainder (p : Dense r.Elem) :
    ∃ s, (mod ⟨r,p⟩ ⟨r,q⟩).outcome = .ok ⟨r,s⟩ ∧ Dense.IsRemainder q p s := by
  obtain ⟨d,ended,division,unit⟩ := divide_isDivision p q
  have unscaled : d.scale = 0 := by
    rcases exact with zero | invertible
    · rw [division.by_zero zero]
    · exact unit invertible
  exact ⟨d.remainder,mod_of_divide ended,division.isRemainder unscaled⟩

/-- The remainder is the one representative of the dividend. -/
theorem mod_eq_iff : (mod ⟨r,p⟩ ⟨r,q⟩).outcome = .ok ⟨r,s⟩ ↔ Dense.IsRemainder q p s := by
  obtain ⟨t,ended,representative⟩ := mod_isRemainder exact p
  rw [ended]
  constructor
  · intro same
    cases same
    exact representative
  · intro other
    rw [representative.unique other]

/-- The test for divisibility decides divisibility itself. -/
theorem divides_outcome_of_exact (p : Dense r.Elem) :
    (divides ⟨r,q⟩ ⟨r,p⟩).outcome = .ok (decide (q ∣ p)) := by
  obtain ⟨s,ended,representative⟩ := mod_isRemainder exact p
  have vanishes := representative.eq_iff (Dense.isRemainder_zero q)
  rw [sub_zero] at vanishes
  rw [divides,Work.outcome_map,ended,Except.map]
  congr 1
  rw [Bool.eq_iff_iff,isZero_iff,decide_eq_true_iff,vanishes]

end Exact

/-- A remainder is its own remainder, by any divisor. Where division does not multiply, remainders are the
    same exactly if the divisor divides the difference, the remainder of a sum is the sum of the remainders,
    and a product leaves what the product of the remainders leaves. -/
theorem mod_total_correct (r : BaseRing) (a b q : Dense r.Elem) :
    ∃ s, (mod ⟨r,a⟩ ⟨r,q⟩).outcome = .ok ⟨r,s⟩ ∧ (mod ⟨r,s⟩ ⟨r,q⟩).outcome = .ok ⟨r,s⟩ ∧
      (q = 0 ∨ IsUnit q.lead → ∃ t u, (mod ⟨r,b⟩ ⟨r,q⟩).outcome = .ok ⟨r,t⟩ ∧
        (divides ⟨r,q⟩ ⟨r,a - b⟩).outcome = .ok (decide (s = t)) ∧
        (mod ⟨r,a + b⟩ ⟨r,q⟩).outcome = .ok ⟨r,s + t⟩ ∧
        (mod ⟨r,a * b⟩ ⟨r,q⟩).outcome = .ok ⟨r,u⟩ ∧ (mod ⟨r,s * t⟩ ⟨r,q⟩).outcome = .ok ⟨r,u⟩) := by
  obtain ⟨d,ended,division⟩ := mod_outcome a q
  refine ⟨d.remainder,ended,mod_of_small division.remainder_lt,?_⟩
  intro exact
  have left := (mod_eq_iff exact).mp ended
  obtain ⟨t,other,right⟩ := mod_isRemainder exact b
  obtain ⟨u,product,representative⟩ := mod_isRemainder exact (d.remainder * t)
  refine ⟨t,u,other,?_,?_,?_,product⟩
  · rw [divides_outcome_of_exact exact,decide_eq_decide.mpr (left.eq_iff right)]
  · exact (mod_eq_iff exact).mpr (left.add right)
  · exact (mod_eq_iff exact).mpr (left.of_mul right representative)

-- By `2 * x` division multiplies `x + 1`, but not one: over the integers sums are not respected.
example : (mod ⟨.integers,.ofList [0,1]⟩ ⟨.integers,.ofList [0,2]⟩).outcome = .ok (.zero .integers) ∧
    (mod ⟨.integers,.ofList [1]⟩ ⟨.integers,.ofList [0,2]⟩).outcome = .ok ⟨.integers,.ofList [1]⟩ ∧
    (mod ⟨.integers,.ofList [1,1]⟩ ⟨.integers,.ofList [0,2]⟩).outcome = .ok ⟨.integers,.ofList [2]⟩ := by
  refine ⟨?_,?_,?_⟩ <;> cbv

end Poly
end Bezout

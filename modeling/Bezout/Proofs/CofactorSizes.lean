import Bezout.Proofs.Cofactors

/-!
How large cofactors are. Read back along a run of divisions, a cofactor grows in each step by what the
quotient has beyond one coefficient. The sizes of the quotients add up to what the run takes off, so that
each cofactor is as small as the other polynomial is without the greatest common divisor
(`Dense.SmallCofactors`).
-/
namespace Bezout
namespace Dense
variable {R : Type} [CoefficientDomain R]

theorem size_mul_le (p q : Dense R) : (p * q).size ≤ p.size + q.size - 1 := by
  by_cases left : p = 0
  · rw [left,zero_mul,size_zero]
    omega
  · by_cases right : q = 0
    · rw [right,mul_zero,size_zero]
      omega
    · exact (size_mul left right).le

theorem size_one : (1 : Dense R).size = 1 := by
  rw [size_eq_natDegree_add_one one_ne_zero,toPolynomial_one,Polynomial.natDegree_one]

/-- How large the cofactors of `p` and a `q` that is not larger may be, with `g` for the greatest common
    divisor. Where `q` divides a `p` of its size, no coefficient is left for the second one, which is a
    constant. -/
structure SmallCofactors (p q g u v : Dense R) : Prop where
  first : u.size + g.size ≤ q.size
  second : v.size ≤ max 1 (p.size - g.size)

/-- The cofactors of a division without a remainder. -/
theorem SmallCofactors.last (p q : Dense R) (c : R) (quotient : Dense R) :
    SmallCofactors p q q ((0 : Dense R).scale c) (1 - 0 * quotient) where
  first := by simp [scale_eq_mul]
  second := by
    rw [zero_mul,sub_zero,size_one]
    exact le_max_left 1 _

/-- Cofactors of a divisor and a remainder that are small give small cofactors of the dividend and the
    divisor. -/
theorem SmallCofactors.step {p q g u v : Dense R} {d : Division (Dense R)} (division : IsDivision p q d)
    (nonzero : q ≠ 0) (ordered : q.size ≤ p.size) (common : g.size ≤ d.remainder.size)
    (small : SmallCofactors q d.remainder g u v) :
    SmallCofactors p q g (v.scale (q.lead ^ d.scale.toNat)) (u - v * d.quotient) := by
  have smaller := division.remainder_lt nonzero
  have settled := division.quotient_size nonzero
  have first := small.first
  -- The remainder is not zero, so that the divisor is larger than the greatest common divisor.
  have second : v.size ≤ q.size - g.size := by
    have bound := small.second
    omega
  constructor
  · rw [size_scale division.power_ne_zero]
    omega
  · have product := size_mul_le v d.quotient
    have difference : (u - v * d.quotient).size ≤ p.size - g.size := size_sub_le (by omega) (by omega)
    exact difference.trans (le_max_right 1 _)

end Dense

namespace EuclidRun
variable {r : BaseRing}

/-- What a run ends with is not larger than the divisor it starts with. -/
theorem size_le {p q g : Dense r.Elem} (run : EuclidRun p q g) (nonzero : q ≠ 0) : g.size ≤ q.size := by
  induction run with
  | stop p => exact absurd rfl nonzero
  | @step p q g d _ _ division rest ih =>
    by_cases last : d.remainder = 0
    · rw [last] at rest
      rw [rest.eq_of_zero]
    · exact (ih last).trans (division.remainder_lt nonzero).le

end EuclidRun

namespace Poly
variable {r : BaseRing}

/-- The cofactors along a run of divisions are small. -/
theorem cofactorRounds_small (takes : r.TakesNumbers) {p q g : Dense r.Elem} (run : EuclidRun p q g)
    (nonzero : q ≠ 0) (ordered : q.size ≤ p.size) {rounds : ℕ} (enough : q.size ≤ rounds) :
    ∃ u v : Dense r.Elem, (cofactorRounds r rounds ⟨r,p⟩ ⟨r,q⟩).outcome = .ok (⟨r,u⟩,⟨r,v⟩) ∧
      Dense.SmallCofactors p q g u v := by
  induction run generalizing rounds with
  | stop p => exact absurd rfl nonzero
  | @step p q g d _ ended division rest ih =>
    have smaller := division.remainder_lt nonzero
    obtain ⟨rounds,rfl⟩ := Nat.exists_eq_succ_of_ne_zero (show rounds ≠ 0 by omega)
    by_cases last : d.remainder = 0
    · have stopped : (cofactorRounds r rounds ⟨r,q⟩ ⟨r,d.remainder⟩).outcome = .ok (⟨r,1⟩,⟨r,0⟩) := by
        rw [last]
        exact cofactorRounds_stop takes rounds q
      rw [last] at rest
      rw [rest.eq_of_zero]
      exact ⟨_,_,cofactorRounds_succ takes nonzero ended division stopped,.last p q _ d.quotient⟩
    · obtain ⟨u,v,found,small⟩ := ih last smaller.le (show _ ≤ rounds by omega)
      exact ⟨_,_,cofactorRounds_succ takes nonzero ended division found,
        small.step division nonzero ordered (rest.size_le last)⟩

/-- Each cofactor of two polynomials other than zero has at most as many coefficients as the other
    polynomial has beyond their greatest common divisor; only where the second polynomial is not larger and
    divides the first is its cofactor a constant in spite of that. -/
theorem egcd_cofactors_small (r : BaseRing) (takes : r.TakesNumbers) (p q : Dense r.Elem) (left : p ≠ 0)
    (right : q ≠ 0) :
    ∃ u v g : Dense r.Elem, (egcd ⟨r,p⟩ ⟨r,q⟩).outcome = .ok (⟨r,u⟩,⟨r,v⟩) ∧
      (gcd ⟨r,p⟩ ⟨r,q⟩).outcome = .ok ⟨r,g⟩ ∧
      (q.size ≤ p.size →
        (u.size : ℤ) ≤ q.size - g.size ∧ (v.size : ℤ) ≤ max 1 ((p.size : ℤ) - g.size)) ∧
      (p.size < q.size → (v.size : ℤ) ≤ p.size - g.size ∧ (u.size : ℤ) ≤ q.size - g.size) ∧
      u.size ≤ q.size ∧ v.size ≤ p.size := by
  have first : p.size ≠ 0 := mt Dense.size_eq_zero_iff.mp left
  have second : q.size ≠ 0 := mt Dense.size_eq_zero_iff.mp right
  obtain ⟨g,found,run⟩ := gcd_run p q
  by_cases swapped : p.size < q.size
  · rw [if_pos swapped] at run
    have common := run.size_le left
    obtain ⟨v,u,ended,small⟩ := cofactorRounds_small takes run left swapped.le le_rfl
    have sizes := small.first
    have others := small.second
    exact ⟨u,v,g,egcd_of_swapped swapped ended,found,by omega,by omega,by omega,by omega⟩
  · rw [if_neg swapped] at run
    have common := run.size_le right
    obtain ⟨u,v,ended,small⟩ := cofactorRounds_small takes run right (not_lt.mp swapped) le_rfl
    have sizes := small.first
    have others := small.second
    exact ⟨u,v,g,egcd_of_ordered swapped ended,found,by omega,by omega,by omega,by omega⟩

/-- Over the integers, where the second polynomial is larger and the two have `2 * x + 1` in common. -/
theorem egcd_cofactors_small_integers : BaseRing.integers.TakesNumbers ∧
    (.ofList [1,5,6] : Dense BaseRing.integers.Elem) ≠ 0 ∧
    (.ofList [1,2,1,2] : Dense BaseRing.integers.Elem) ≠ 0 ∧
    ∃ u v g : Dense BaseRing.integers.Elem,
      (egcd ⟨.integers,.ofList [1,5,6]⟩ ⟨.integers,.ofList [1,2,1,2]⟩).outcome =
        .ok (⟨.integers,u⟩,⟨.integers,v⟩) ∧
      (gcd ⟨.integers,.ofList [1,5,6]⟩ ⟨.integers,.ofList [1,2,1,2]⟩).outcome = .ok ⟨.integers,g⟩ ∧
      (v.size : ℤ) ≤ 3 - g.size ∧ (u.size : ℤ) ≤ 4 - g.size := by
  have left : (.ofList [1,5,6] : Dense BaseRing.integers.Elem) ≠ 0 := by decide
  have right : (.ofList [1,2,1,2] : Dense BaseRing.integers.Elem) ≠ 0 := by decide
  obtain ⟨u,v,g,ended,found,-,small,-⟩ := egcd_cofactors_small .integers trivial _ _ left right
  exact ⟨trivial,left,right,u,v,g,ended,found,small (by decide)⟩

end Poly
end Bezout

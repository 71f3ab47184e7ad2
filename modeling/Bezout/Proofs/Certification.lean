import Bezout.Proofs.Division
import Bezout.Proofs.Identities

/-!
The certificate of a division. The checked identity is the one of the division itself, and any two
divisions of one polynomial by one divisor are proportional by powers of its leading coefficient, so that
besides the computed division exactly its proportional companions are accepted.
-/
namespace Bezout
namespace Certificate
open Coefficient (number)
variable {r : BaseRing}

/-- What the dividend is multiplied by: a power of the leading coefficient of the divisor, and nothing if
    the divisor is zero. -/
def factor (q : Dense r.Elem) (k : ℕ) : r.Elem := if q = 0 then 1 else q.lead ^ k

theorem factor_number (q : Dense r.Elem) (k : ℕ) :
    (if Poly.isZero ⟨r,q⟩ then .ok r.oneNumber else r.pow (Poly.lead ⟨r,q⟩) k) =
      .ok (number (factor q k)) := by
  by_cases zero : q = 0
  · rw [if_pos (Poly.isZero_iff.mpr zero),factor,if_pos zero]
    rfl
  · rw [if_neg (mt Poly.isZero_iff.mp zero),factor,if_neg zero,Poly.lead_eq,BaseRing.pow_number]

theorem reconstructs_eq (takes : r.TakesNumbers) (p q quotient remainder : Dense r.Elem) (k : ℕ) :
    Division.reconstructs ⟨k,⟨r,quotient⟩,⟨r,remainder⟩⟩ ⟨r,p⟩ ⟨r,q⟩ =
      .ok (decide (p.scale (factor q k) = quotient * q + remainder)) := by
  rw [Division.reconstructs]
  by_cases zero : q = 0
  · have one : r.oneNumber = number (1 : r.Elem) := rfl
    rw [if_pos (Poly.isZero_iff.mpr zero),factor,if_pos zero]
    simp [one,Poly.scale_number takes,bind,Except.bind]
  · rw [if_neg (mt Poly.isZero_iff.mp zero),factor,if_neg zero]
    simp [BaseRing.pow_number,Poly.scale_number takes,bind,Except.bind]

/-- What is refused without a look at the identity. -/
theorem too_large_iff {q remainder : Dense r.Elem} :
    (!Poly.isZero ⟨r,q⟩ && decide (Poly.size ⟨r,q⟩ ≤ Poly.size ⟨r,remainder⟩)) = true ↔
      ¬ (q = 0 ∨ remainder.size < q.size) := by
  rw [Bool.and_eq_true,decide_eq_true_iff,Bool.not_eq_true',← Bool.not_eq_true,Poly.isZero_iff,not_or,not_lt]
  rfl

theorem checkDivision_outcome (takes : r.TakesNumbers) {solver : Solver}
    (decides : ∀ query, solver query = true ↔ query.HasModel) (p q quotient remainder : Dense r.Elem)
    (k : ℕ) :
    (checkDivision ⟨r,p⟩ ⟨r,q⟩ ⟨k,⟨r,quotient⟩,⟨r,remainder⟩⟩ solver).outcome =
      .ok (decide ((q = 0 ∨ remainder.size < q.size) ∧
        p.scale (factor q k) = quotient * q + remainder)) := by
  rw [checkDivision]
  dsimp only
  by_cases small : q = 0 ∨ remainder.size < q.size
  · have left : Side.StandsFor (.product (.constant (number (factor q k))) (.poly ⟨r,p⟩))
        (p.scale (factor q k)) := by
      rw [Dense.scale_eq_mul]
      exact .product (.constant _) (.poly p)
    have right := Side.StandsFor.sum (.product (.poly quotient) (.poly q)) (.poly remainder)
    rw [if_neg (mt too_large_iff.mp (not_not.mpr small)),Work.outcome_ofExcept_bind (factor_number q k),
      proveIdentity_outcome takes decides left right]
    simp only [small,true_and]
  · rw [if_pos (too_large_iff.mpr small)]
    simp only [small,false_and]
    rfl

theorem accepts_isDivision (takes : r.TakesNumbers) {solver : Solver}
    (decides : ∀ query, solver query = true ↔ query.HasModel) {p q : Dense r.Elem}
    {d : Division (Dense r.Elem)} (division : Dense.IsDivision p q d) :
    (checkDivision ⟨r,p⟩ ⟨r,q⟩ (.over r d) solver).outcome = .ok true := by
  obtain ⟨k,counted⟩ := Int.eq_ofNat_of_zero_le division.scale_nonneg
  have scaled : p.scale (factor q k) = d.quotient * q + d.remainder := by
    rw [← division.identity,counted,Int.toNat_natCast,factor]
    split
    · rename_i zero
      have none : k = 0 := by
        rw [division.by_zero zero] at counted
        exact Int.natCast_eq_zero.mp counted.symm
      rw [none,pow_zero]
    · rfl
  have small : q = 0 ∨ d.remainder.size < q.size := or_iff_not_imp_left.mpr division.remainder_lt
  rw [Division.over,counted]
  exact (checkDivision_outcome takes decides p q _ _ k).trans
    (congrArg Except.ok (decide_eq_true ⟨small,scaled⟩))

/-- The divisions that are accepted: those with a small remainder that reconstruct the dividend, which are
    those proportional to the pseudo-division. Both divisions are among them. -/
theorem checkDivision_total_correct (r : BaseRing) (takes : r.TakesNumbers) (solver : Solver)
    (decides : ∀ query, solver query = true ↔ query.HasModel) (p q quotient remainder : Dense r.Elem)
    (k : ℕ) :
    (∃ answer matched,
      (checkDivision ⟨r,p⟩ ⟨r,q⟩ ⟨k,⟨r,quotient⟩,⟨r,remainder⟩⟩ solver).outcome = .ok answer ∧
      Division.reconstructs ⟨k,⟨r,quotient⟩,⟨r,remainder⟩⟩ ⟨r,p⟩ ⟨r,q⟩ = .ok matched ∧
      (answer = true ↔ (q = 0 ∨ remainder.size < q.size) ∧ matched = true) ∧
      ∃ (k₀ : ℕ) (quotient₀ remainder₀ : Dense r.Elem),
        (Poly.pseudoDivide ⟨r,p⟩ ⟨r,q⟩).outcome = .ok ⟨k₀,⟨r,quotient₀⟩,⟨r,remainder₀⟩⟩ ∧
        (q ≠ 0 → (answer = true ↔ quotient.scale (q.lead ^ k₀) = quotient₀.scale (q.lead ^ k) ∧
          remainder.scale (q.lead ^ k₀) = remainder₀.scale (q.lead ^ k)))) ∧
    (∃ d, (Poly.divide ⟨r,p⟩ ⟨r,q⟩).outcome = .ok d ∧
      (checkDivision ⟨r,p⟩ ⟨r,q⟩ d solver).outcome = .ok true) ∧
    (∃ d, (Poly.pseudoDivide ⟨r,p⟩ ⟨r,q⟩).outcome = .ok d ∧
      (checkDivision ⟨r,p⟩ ⟨r,q⟩ d solver).outcome = .ok true) := by
  obtain ⟨d,ended,division⟩ := Poly.pseudoDivide_isDivision p q
  obtain ⟨e,also,exact⟩ := Poly.divide_isDivision p q
  obtain ⟨k₀,counted⟩ := Int.eq_ofNat_of_zero_le division.scale_nonneg
  refine ⟨⟨_,_,checkDivision_outcome takes decides p q quotient remainder k,
    reconstructs_eq takes p q quotient remainder k,?_,k₀,d.quotient,d.remainder,?_,?_⟩,
    ⟨_,also,accepts_isDivision takes decides exact.1⟩,⟨_,ended,accepts_isDivision takes decides division⟩⟩
  · rw [decide_eq_true_iff,decide_eq_true_iff]
  · rw [ended,Division.over,counted]
  · intro nonzero
    have lead : q.lead ≠ 0 := mt Dense.lead_eq_zero_iff.mp nonzero
    have identity := division.identity
    rw [counted,Int.toNat_natCast] at identity
    rw [decide_eq_true_iff,factor,if_neg nonzero,or_iff_right nonzero]
    exact Dense.division_iff_proportional nonzero (pow_ne_zero k₀ lead) (pow_ne_zero k lead) identity
      (division.remainder_lt nonzero)

/-- Over the integers, where a division that was multiplied once more than needed is accepted. -/
theorem checkDivision_multiplied_once_more : BaseRing.integers.TakesNumbers ∧
    (∀ query, Query.solvable query = true ↔ query.HasModel) ∧
    (∃ answer matched,
      (checkDivision ⟨.integers,.ofList [1,0,1]⟩ ⟨.integers,.ofList [1,2]⟩
        ⟨(3 : ℕ),⟨.integers,.ofList [-2,4]⟩,⟨.integers,.ofList [10]⟩⟩ Query.solvable).outcome = .ok answer ∧
      Division.reconstructs ⟨(3 : ℕ),⟨.integers,.ofList [-2,4]⟩,⟨.integers,.ofList [10]⟩⟩
        ⟨.integers,.ofList [1,0,1]⟩ ⟨.integers,.ofList [1,2]⟩ = .ok matched ∧
      (answer = true ↔ ((.ofList [1,2] : Dense BaseRing.integers.Elem) = 0 ∨
        (.ofList [10] : Dense BaseRing.integers.Elem).size <
          (.ofList [1,2] : Dense BaseRing.integers.Elem).size) ∧ matched = true) ∧
      ∃ (k₀ : ℕ) (quotient₀ remainder₀ : Dense BaseRing.integers.Elem),
        (Poly.pseudoDivide ⟨.integers,.ofList [1,0,1]⟩ ⟨.integers,.ofList [1,2]⟩).outcome =
          .ok ⟨k₀,⟨.integers,quotient₀⟩,⟨.integers,remainder₀⟩⟩ ∧
        ((.ofList [1,2] : Dense BaseRing.integers.Elem) ≠ 0 → (answer = true ↔
          Dense.scale ((.ofList [1,2] : Dense BaseRing.integers.Elem).lead ^ k₀) (.ofList [-2,4]) =
            quotient₀.scale ((.ofList [1,2] : Dense BaseRing.integers.Elem).lead ^ 3) ∧
          Dense.scale ((.ofList [1,2] : Dense BaseRing.integers.Elem).lead ^ k₀) (.ofList [10]) =
            remainder₀.scale ((.ofList [1,2] : Dense BaseRing.integers.Elem).lead ^ 3)))) ∧
    (∃ d, (Poly.divide ⟨.integers,.ofList [1,0,1]⟩ ⟨.integers,.ofList [1,2]⟩).outcome = .ok d ∧
      (checkDivision ⟨.integers,.ofList [1,0,1]⟩ ⟨.integers,.ofList [1,2]⟩ d Query.solvable).outcome =
        .ok true) ∧
    (∃ d, (Poly.pseudoDivide ⟨.integers,.ofList [1,0,1]⟩ ⟨.integers,.ofList [1,2]⟩).outcome = .ok d ∧
      (checkDivision ⟨.integers,.ofList [1,0,1]⟩ ⟨.integers,.ofList [1,2]⟩ d Query.solvable).outcome =
        .ok true) :=
  ⟨trivial,Query.solvable_iff,
    checkDivision_total_correct .integers trivial Query.solvable Query.solvable_iff _ _ _ _ _⟩

example : (checkDivision ⟨.integers,.ofList [1,0,1]⟩ ⟨.integers,.ofList [1,2]⟩
    ⟨3,⟨.integers,.ofList [-2,4]⟩,⟨.integers,.ofList [10]⟩⟩).outcome = .ok true := by
  cbv

end Certificate
end Bezout

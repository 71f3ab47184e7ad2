import Bezout.Proofs.Euclid

/-!
Cofactors. They are found along the same run of divisions as the greatest common divisor, from the
last division back to the first, so that they combine the two polynomials to that very polynomial.
-/
namespace Bezout
namespace Poly
variable {r : BaseRing}

open Coefficient (number)

/-- Cofactors of a divisor and a remainder give cofactors of the dividend and the divisor. -/
theorem combine_step {p q u v g : Dense r.Elem} {d : Division (Dense r.Elem)}
    (division : Dense.IsDivision p q d) (combined : u * q + v * d.remainder = g) :
    v.scale (q.lead ^ d.scale.toNat) * p + (u - v * d.quotient) * q = g := by
  have identity := division.identity
  rw [Dense.scale_eq_mul] at identity ⊢
  calc Dense.constant (q.lead ^ d.scale.toNat) * v * p + (u - v * d.quotient) * q
      = v * (Dense.constant (q.lead ^ d.scale.toNat) * p) + (u - v * d.quotient) * q := by ring
    _ = u * q + v * d.remainder := by rw [identity]; ring
    _ = g := combined

/-- One round of cofactors: a division, the cofactors of the rest of the run, and the step back. -/
theorem cofactorRounds_succ (takes : r.TakesNumbers) {p q u v : Dense r.Elem}
    {d : Division (Dense r.Elem)} {rounds : ℕ} (nonzero : q ≠ 0)
    (ended : (divide ⟨r,p⟩ ⟨r,q⟩).outcome = .ok (.over r d)) (division : Dense.IsDivision p q d)
    (rest : (cofactorRounds r rounds ⟨r,q⟩ ⟨r,d.remainder⟩).outcome = .ok (⟨r,u⟩,⟨r,v⟩)) :
    (cofactorRounds r (rounds + 1) ⟨r,p⟩ ⟨r,q⟩).outcome =
      .ok (⟨r,v.scale (q.lead ^ d.scale.toNat)⟩,⟨r,u - v * d.quotient⟩) := by
  have factor : r.pow (number q.lead) d.scale = .ok (number (q.lead ^ d.scale.toNat)) := by
    rw [← BaseRing.pow_number,division.toNat_scale]
  rw [cofactorRounds,if_neg (mt isZero_iff.mp nonzero),Work.outcome_bind ended]
  simp only [lead_eq,Division.over_scale,Division.over_quotient,Division.over_remainder]
  rw [Work.outcome_ofExcept_bind factor,Work.outcome_bind rest,
    Work.outcome_ofExcept_bind (scale_number takes v _),Work.outcome_ofExcept_bind (mul_eq v d.quotient),
    Work.outcome_ofExcept_bind (sub_eq u _)]
  rfl

theorem cofactorRounds_stop (takes : r.TakesNumbers) (rounds : ℕ) (p : Dense r.Elem) :
    (cofactorRounds r rounds ⟨r,p⟩ ⟨r,0⟩).outcome = .ok (⟨r,1⟩,⟨r,0⟩) := by
  cases rounds with
  | zero =>
    rw [cofactorRounds,Work.outcome_ofExcept_bind (one_eq takes)]
    rfl
  | succ rounds =>
    rw [cofactorRounds,if_pos (isZero_iff.mpr rfl),Work.outcome_ofExcept_bind (one_eq takes)]
    rfl

/-- Along a run of divisions the cofactors combine the polynomials to what the run ends with. -/
theorem cofactorRounds_of_run (takes : r.TakesNumbers) {p q g : Dense r.Elem} (run : EuclidRun p q g)
    {rounds : ℕ} (enough : q.size ≤ rounds) :
    ∃ u v : Dense r.Elem, (cofactorRounds r rounds ⟨r,p⟩ ⟨r,q⟩).outcome = .ok (⟨r,u⟩,⟨r,v⟩) ∧
      u * p + v * q = g := by
  induction run generalizing rounds with
  | stop p => exact ⟨1,0,cofactorRounds_stop takes rounds p,by ring⟩
  | step nonzero ended division rest ih =>
    have smaller := division.remainder_lt nonzero
    obtain ⟨rounds,rfl⟩ := Nat.exists_eq_succ_of_ne_zero (show rounds ≠ 0 by omega)
    obtain ⟨u,v,found,combined⟩ := ih (show _ ≤ rounds by omega)
    exact ⟨_,_,cofactorRounds_succ takes nonzero ended division found,combine_step division combined⟩

theorem egcd_of_ordered {p q u v : Dense r.Elem} (ordered : ¬ p.size < q.size)
    (ended : (cofactorRounds r q.size ⟨r,p⟩ ⟨r,q⟩).outcome = .ok (⟨r,u⟩,⟨r,v⟩)) :
    (egcd ⟨r,p⟩ ⟨r,q⟩).outcome = .ok (⟨r,u⟩,⟨r,v⟩) := by
  rw [egcd,Work.outcome_task,if_pos (show size ⟨r,q⟩ ≤ size ⟨r,p⟩ from not_lt.mp ordered)]
  exact ended

/-- If the second polynomial is larger, the cofactors are found in the other order. -/
theorem egcd_of_swapped {p q u v : Dense r.Elem} (swapped : p.size < q.size)
    (ended : (cofactorRounds r p.size ⟨r,q⟩ ⟨r,p⟩).outcome = .ok (⟨r,v⟩,⟨r,u⟩)) :
    (egcd ⟨r,p⟩ ⟨r,q⟩).outcome = .ok (⟨r,u⟩,⟨r,v⟩) := by
  have back : (cofactorRounds r (size ⟨r,p⟩) ⟨r,q⟩ ⟨r,p⟩).outcome = .ok (⟨r,v⟩,⟨r,u⟩) := ended
  rw [egcd,Work.outcome_task,if_neg (show ¬ size ⟨r,q⟩ ≤ size ⟨r,p⟩ from not_le.mpr swapped),
    Work.outcome_map,back]
  rfl

/-- The run from the larger polynomial, read back, gives the cofactors in the order of the operands. -/
theorem egcd_of_run (takes : r.TakesNumbers) {p q g : Dense r.Elem}
    (run : if p.size < q.size then EuclidRun q p g else EuclidRun p q g) :
    ∃ u v : Dense r.Elem, (egcd ⟨r,p⟩ ⟨r,q⟩).outcome = .ok (⟨r,u⟩,⟨r,v⟩) ∧ u * p + v * q = g := by
  split at run
  · rename_i swapped
    obtain ⟨v,u,ended,combined⟩ := cofactorRounds_of_run takes run le_rfl
    exact ⟨u,v,egcd_of_swapped swapped ended,by rw [add_comm,combined]⟩
  · rename_i ordered
    obtain ⟨u,v,ended,combined⟩ := cofactorRounds_of_run takes run le_rfl
    exact ⟨u,v,egcd_of_ordered ordered ended,combined⟩

/-- Cofactors combine two polynomials to the greatest common divisor, not only to an associate. -/
theorem egcd_combines_to_gcd (r : BaseRing) (takes : r.TakesNumbers) (p q : Dense r.Elem) :
    ∃ u v g : Dense r.Elem, (egcd ⟨r,p⟩ ⟨r,q⟩).outcome = .ok (⟨r,u⟩,⟨r,v⟩) ∧
      (gcd ⟨r,p⟩ ⟨r,q⟩).outcome = .ok ⟨r,g⟩ ∧ u * p + v * q = g := by
  obtain ⟨g,found,run⟩ := gcd_run p q
  obtain ⟨u,v,ended,combined⟩ := egcd_of_run takes run
  exact ⟨u,v,g,ended,found,combined⟩

/-- Over the integers, where the first polynomial is smaller and both are multiples of `2 * x + 1`. -/
theorem egcd_combines_integers : BaseRing.integers.TakesNumbers ∧
    ∃ u v g : Dense BaseRing.integers.Elem,
      (egcd ⟨.integers,.ofList [1,5,6]⟩ ⟨.integers,.ofList [1,2,1,2]⟩).outcome =
        .ok (⟨.integers,u⟩,⟨.integers,v⟩) ∧
      (gcd ⟨.integers,.ofList [1,5,6]⟩ ⟨.integers,.ofList [1,2,1,2]⟩).outcome = .ok ⟨.integers,g⟩ ∧
      u * .ofList [1,5,6] + v * .ofList [1,2,1,2] = g :=
  ⟨trivial,egcd_combines_to_gcd .integers trivial _ _⟩

end Poly
end Bezout

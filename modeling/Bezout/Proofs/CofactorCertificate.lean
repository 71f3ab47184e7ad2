import Bezout.Proofs.Associates
import Bezout.Proofs.Cofactors
import Bezout.Proofs.Identities

/-!
The certificate of cofactors. Association is a matter of two divisions, of which the certificate makes
one identity: associates over the field of fractions differ by a constant, which the leading coefficients
tell. Zero has no leading coefficient to multiply by and is looked at before.
-/
namespace Bezout
open Polynomial
open scoped Classical

namespace Certificate
open Coefficient (number)
variable {r : BaseRing}

/-- The certificate says whether the combination of the polynomials is associated to their greatest
    common divisor. -/
theorem checkBezout_outcome (K : Type) [Field K] [Algebra r.Elem K] [IsFractionRing r.Elem K]
    (takes : r.TakesNumbers) {solver : Solver} (decides : ∀ query, solver query = true ↔ query.HasModel)
    {p q g : Dense r.Elem} (found : (Poly.gcd ⟨r,p⟩ ⟨r,q⟩).outcome = .ok ⟨r,g⟩) (u v : Dense r.Elem) :
    (checkBezout ⟨r,p⟩ ⟨r,q⟩ ⟨r,u⟩ ⟨r,v⟩ solver).outcome =
      .ok (decide (Associated (Dense.extend K (u * p + v * q)) (Dense.extend K g))) := by
  rw [checkBezout,Work.outcome_bind found,Work.outcome_ofExcept_bind (Poly.mul_eq u p),
    Work.outcome_ofExcept_bind (Poly.mul_eq v q),Work.outcome_ofExcept_bind (Poly.add_eq _ _)]
  by_cases zeros : g = 0 ∨ u * p + v * q = 0
  · have zero : (Poly.isZero ⟨r,g⟩ || Poly.isZero ⟨r,u * p + v * q⟩) = true := by
      rw [Bool.or_eq_true,Poly.isZero_iff,Poly.isZero_iff]
      exact zeros
    rw [if_pos zero,Work.outcome_done]
    congr 1
    rw [Bool.eq_iff_iff,Bool.and_eq_true,Poly.isZero_iff,Poly.isZero_iff,decide_eq_true_iff]
    rcases zeros with rfl | none
    · rw [map_zero,associated_zero_iff_eq_zero,Dense.extend_eq_zero_iff]
      exact and_iff_right rfl
    · rw [none,map_zero,Associated.comm,associated_zero_iff_eq_zero,Dense.extend_eq_zero_iff]
      exact and_iff_left rfl
  · obtain ⟨hg,hh⟩ := not_or.mp zeros
    have nonzero : ¬ (Poly.isZero ⟨r,g⟩ || Poly.isZero ⟨r,u * p + v * q⟩) = true := by
      rw [Bool.or_eq_true,Poly.isZero_iff,Poly.isZero_iff]
      exact zeros
    have left : Side.StandsFor (.product (.constant (number (u * p + v * q).lead)) (.poly ⟨r,g⟩))
        (g.scale (u * p + v * q).lead) := by
      rw [Dense.scale_eq_mul]
      exact .product (.constant _) (.poly g)
    have right : Side.StandsFor (.product (.constant (number g.lead))
        (.sum (.product (.poly ⟨r,u⟩) (.poly ⟨r,p⟩)) (.product (.poly ⟨r,v⟩) (.poly ⟨r,q⟩))))
        ((u * p + v * q).scale g.lead) := by
      rw [Dense.scale_eq_mul]
      exact .product (.constant _) (.sum (.product (.poly u) (.poly p)) (.product (.poly v) (.poly q)))
    rw [if_neg nonzero]
    exact (proveIdentity_outcome takes decides left right).trans
      (congrArg Except.ok (decide_eq_decide.mpr (Dense.scale_lead_eq_iff K hg hh)))

/-- The cofactors that are accepted are those that combine two polynomials to an associate of their
    greatest common divisor, and the computed ones are among them. -/
theorem checkBezout_total_correct (r : BaseRing) (takes : r.TakesNumbers) (solver : Solver)
    (decides : ∀ query, solver query = true ↔ query.HasModel) (p q : Dense r.Elem) :
    (∀ u v : Dense r.Elem, ∃ g answer, (Poly.gcd ⟨r,p⟩ ⟨r,q⟩).outcome = .ok g ∧
      (Poly.associated ⟨r,u * p + v * q⟩ g).outcome = .ok answer ∧
      (checkBezout ⟨r,p⟩ ⟨r,q⟩ ⟨r,u⟩ ⟨r,v⟩ solver).outcome = .ok answer) ∧
    ∃ u v, (Poly.egcd ⟨r,p⟩ ⟨r,q⟩).outcome = .ok (u,v) ∧
      (checkBezout ⟨r,p⟩ ⟨r,q⟩ u v solver).outcome = .ok true := by
  obtain ⟨g,found,run⟩ := Poly.gcd_run p q
  have accepted := checkBezout_outcome (FractionRing r.Elem) takes decides found
  constructor
  · intro u v
    exact ⟨⟨r,g⟩,_,found,Poly.associated_outcome (FractionRing r.Elem) _ g,accepted u v⟩
  · obtain ⟨u,v,cofactors,combined⟩ := Poly.egcd_of_run takes run
    refine ⟨⟨r,u⟩,⟨r,v⟩,cofactors,?_⟩
    rw [accepted,combined,decide_eq_true (Associated.refl _)]

/-- Over the integers, where the common divisor `2 * x + 1` comes with constants of its own. -/
theorem checkBezout_accepts_integers : BaseRing.integers.TakesNumbers ∧
    (∀ query, Query.solvable query = true ↔ query.HasModel) ∧
    (∀ u v : Dense BaseRing.integers.Elem, ∃ g answer,
      (Poly.gcd ⟨.integers,.ofList [1,5,6]⟩ ⟨.integers,.ofList [1,2,1,2]⟩).outcome = .ok g ∧
      (Poly.associated ⟨.integers,u * .ofList [1,5,6] + v * .ofList [1,2,1,2]⟩ g).outcome = .ok answer ∧
      (checkBezout ⟨.integers,.ofList [1,5,6]⟩ ⟨.integers,.ofList [1,2,1,2]⟩ ⟨.integers,u⟩ ⟨.integers,v⟩
        Query.solvable).outcome = .ok answer) ∧
    ∃ u v, (Poly.egcd ⟨.integers,.ofList [1,5,6]⟩ ⟨.integers,.ofList [1,2,1,2]⟩).outcome = .ok (u,v) ∧
      (checkBezout ⟨.integers,.ofList [1,5,6]⟩ ⟨.integers,.ofList [1,2,1,2]⟩ u v
        Query.solvable).outcome = .ok true :=
  ⟨trivial,Query.solvable_iff,
    checkBezout_total_correct .integers trivial Query.solvable Query.solvable_iff _ _⟩

end Certificate
end Bezout

import Bezout.Proofs.Identities
import Bezout.Proofs.Irreducibility
import Bezout.Proofs.Roots
import Bezout.Proofs.SquareFreePart
import Mathlib.LinearAlgebra.Lagrange

/-!
Equal polynomials and equal values. In characteristic zero polynomials are told apart by their values at as
many points as the larger one has coefficients, so that the solver may compare them as functions. Over a
prime field they agree at every element exactly if `X ^ n - X` divides their difference: what a division by
it leaves has fewer roots than there are elements.
-/
namespace Bezout
open Polynomial
open scoped Classical

/-! ### Polynomials by their values -/

namespace Dense
variable {R : Type} [CoefficientDomain R]

/-- Polynomials that agree at as many points as the larger one has coefficients are the same. -/
theorem eq_of_eval_eq {p q : Dense R} {points : Finset R} (many : max p.size q.size ≤ points.card)
    (agree : ∀ a ∈ points, p.eval a = q.eval a) : p = q := by
  obtain ⟨first,second⟩ := max_le_iff.mp many
  apply toPolynomial_injective
  apply eq_of_degrees_lt_of_eval_finset_eq points (size_le_iff.mp first) (size_le_iff.mp second)
  intro a member
  rw [eval_toPolynomial,eval_toPolynomial,agree a member]

end Dense

/-- A polynomial vanishes at all elements of a finite field exactly if it is a multiple of the power map
    less the identity. -/
theorem forall_eval_eq_zero_iff {F : Type} [Field F] [Finite F] {P : F[X]} :
    (∀ a, P.eval a = 0) ↔ X ^ Nat.card F - X ∣ P := by
  have := Fintype.ofFinite F
  rw [Nat.card_eq_fintype_card]
  have two : 1 < Fintype.card F := Fintype.one_lt_card
  have fixed (a : F) : (X ^ Fintype.card F - X : F[X]).eval a = 0 := by
    rw [eval_sub,eval_pow,eval_X,FiniteField.pow_card,sub_self]
  have monic : (X ^ Fintype.card F - X : F[X]).Monic :=
    monic_X_pow_sub (by rw [degree_X]; exact_mod_cast two)
  constructor
  · intro vanishes
    rw [← modByMonic_eq_zero_iff_dvd monic]
    apply eq_zero_of_degree_lt_of_eval_finset_eq_zero Finset.univ
    · have bound := degree_modByMonic_lt P monic
      rwa [degree_eq_natDegree monic.ne_zero,FiniteField.X_pow_card_sub_X_natDegree_eq F two] at bound
    · intro a _
      have kept : (P %ₘ (X ^ Fintype.card F - X)).eval a = P.eval a :=
        eval₂_modByMonic_eq_self_of_root (f := RingHom.id F) (fixed a)
      rw [kept,vanishes a]
  · rintro ⟨Q,rfl⟩ a
    rw [eval_mul,fixed a,zero_mul]

/-! ### Asking the solver -/

namespace Certificate
open Coefficient (number)
variable {r : BaseRing}

theorem equivalent_outcome (takes : r.TakesNumbers) {solver : Solver}
    (decides : ∀ query, solver query = true ↔ query.HasModel) (p q : Dense r.Elem) :
    (equivalent ⟨r,p⟩ ⟨r,q⟩ solver).outcome = .ok (decide (p = q)) := by
  rw [equivalent,if_pos rfl]
  exact proveIdentity_outcome takes decides (.poly p) (.poly q)

/-- The values are compared as those of real functions, which are different for different polynomials. -/
theorem haveCounterexample_outcome (takes : r.TakesNumbers) (characteristic : r.characteristic = 0)
    {solver : Solver} (decides : ∀ query, solver query = true ↔ query.HasModel) (p q : Dense r.Elem) :
    (haveCounterexample ⟨r,p⟩ ⟨r,q⟩ solver).outcome = .ok (!decide (p = q)) := by
  obtain ⟨query,posed,answer⟩ := failure_outcome takes (.poly p) (.poly q)
  have compared : failure r (.poly ⟨r,p⟩) (.poly ⟨r,q⟩) =
      .ok (.differ (horner (Poly.numbers ⟨r,p⟩)) (horner (Poly.numbers ⟨r,q⟩))) := if_pos characteristic
  cases posed.symm.trans compared
  rw [haveCounterexample,if_neg (not_not.mpr rfl),if_neg (not_not.mpr characteristic),
    Query.eq_solvable decides]
  refine congrArg Except.ok ?_
  rw [Bool.eq_iff_iff,Bool.not_eq_true',decide_eq_false_iff_not,← answer,Bool.not_eq_false]

/-! ### Values -/

/-- Polynomials are compared by their values at the elements that values stand for. -/
theorem eval_eq_eval_iff {v : Value} {a : r.Elem} (image : r.ofValue v = .ok a) {p q : Dense r.Elem} :
    Poly.eval ⟨r,p⟩ v = Poly.eval ⟨r,q⟩ v ↔ p.eval a = q.eval a := by
  rw [Poly.eval_eq image,Poly.eval_eq image,Except.ok.injEq]

theorem eq_iff_eval_points (takes : r.TakesNumbers) {p q : Dense r.Elem} {points : Finset r.Elem}
    (many : max p.size q.size ≤ points.card) :
    p = q ↔ ∀ a ∈ points,
      Poly.eval ⟨r,p⟩ (.number (number a)) = Poly.eval ⟨r,q⟩ (.number (number a)) := by
  constructor
  · rintro rfl _ _
    rfl
  · intro agree
    refine Dense.eq_of_eval_eq many fun a member => ?_
    exact (eval_eq_eval_iff (BaseRing.ofValue_number takes a)).mp (agree a member)

/-- In characteristic zero the integers are points enough. -/
theorem eq_iff_eval_integers (takes : r.TakesNumbers) (characteristic : r.characteristic = 0)
    {p q : Dense r.Elem} :
    p = q ↔ ∀ x : ℤ, Poly.eval ⟨r,p⟩ (.integer x) = Poly.eval ⟨r,q⟩ (.integer x) := by
  constructor
  · rintro rfl _
    rfl
  · intro agree
    have := BaseRing.charZero_of_characteristic takes characteristic
    have embedding : Function.Injective fun n : ℕ => ((n : ℤ) : r.Elem) := by
      intro n k same
      exact Int.ofNat_injective (Int.cast_injective same)
    let points : Finset r.Elem := (Finset.range (max p.size q.size)).map ⟨_,embedding⟩
    have many : max p.size q.size ≤ points.card := by rw [Finset.card_map,Finset.card_range]
    refine Dense.eq_of_eval_eq many fun a member => ?_
    obtain ⟨n,-,rfl⟩ := Finset.mem_map.mp member
    exact (eval_eq_eval_iff (BaseRing.ofValue_integer takes n)).mp (agree n)

variable {m : Modulus}

/-- The values at the integers from zero up to below the modulus are the values at all elements. -/
theorem forall_eval_range_iff {p q : Dense (BaseRing.residues m).Elem} :
    (∀ x : ℤ, 0 ≤ x → x < m.value →
      Poly.eval ⟨.residues m,p⟩ (.integer x) = Poly.eval ⟨.residues m,q⟩ (.integer x)) ↔
    ∀ a : (BaseRing.residues m).Elem, p.eval a = q.eval a := by
  have image (x : ℤ) := BaseRing.ofValue_integer (r := .residues m) trivial x
  constructor
  · intro agree a
    have same := (eval_eq_eval_iff (image a.value)).mp (agree a.value a.nonneg a.lt)
    rwa [Poly.intCast_value] at same
  · intro agree x _ _
    exact (eval_eq_eval_iff (image x)).mpr (agree _)

/-- Polynomials over a prime field are one function exactly if their difference is a multiple of the power
    map less the identity. -/
theorem forall_eval_eq_iff_dvd {p q : Dense (BaseRing.residues m).Elem} :
    (∀ a : (BaseRing.residues m).Elem, p.eval a = q.eval a) ↔
    (.monomial 1 m.value - .monomial 1 1 : Dense (BaseRing.residues m).Elem).toPolynomial ∣
      (p - q).toPolynomial := by
  have power : (.monomial 1 m.value - .monomial 1 1 : Dense (BaseRing.residues m).Elem).toPolynomial =
      X ^ Nat.card (Residue m) - X := by
    rw [Residue.card_eq,Dense.toPolynomial_sub,Dense.toPolynomial_monomial,Dense.toPolynomial_monomial,C_1,
      one_mul,one_mul,pow_one]
  have value (a : (BaseRing.residues m).Elem) : p.eval a = q.eval a ↔ (p - q).toPolynomial.eval a = 0 := by
    rw [Dense.toPolynomial_sub,eval_sub,sub_eq_zero,Dense.eval_toPolynomial,Dense.eval_toPolynomial]
  rw [power]
  exact (forall_congr' value).trans forall_eval_eq_zero_iff

/-- The solver proves exactly equal polynomials equal. In characteristic zero these are the ones with the
    same values at every integer, or only at as many points as the larger polynomial has coefficients, and
    the ones without a counterexample. Over a prime field polynomials agree at every element exactly if
    `X ^ n - X` divides their difference, and some that agree everywhere are different. -/
theorem equivalent_total_correct (solver : Solver)
    (decides : ∀ query, solver query = true ↔ query.HasModel) :
    (∀ r : BaseRing, r.TakesNumbers → r.characteristic = 0 → ∀ p q : Dense r.Elem,
      ∃ answer found, (equivalent ⟨r,p⟩ ⟨r,q⟩ solver).outcome = .ok answer ∧
        (haveCounterexample ⟨r,p⟩ ⟨r,q⟩ solver).outcome = .ok found ∧
        (answer = true ↔ p = q) ∧ (found = false ↔ p = q) ∧
        (p = q ↔ ∀ x : ℤ, Poly.eval ⟨r,p⟩ (.integer x) = Poly.eval ⟨r,q⟩ (.integer x)) ∧
        ∀ points : Finset r.Elem, points.card = max p.size q.size →
          (p = q ↔ ∀ a ∈ points,
            Poly.eval ⟨r,p⟩ (.number (number a)) = Poly.eval ⟨r,q⟩ (.number (number a)))) ∧
    (∀ (m : Modulus) (p q : Dense (BaseRing.residues m).Elem),
      ∃ answer multiple, (equivalent ⟨.residues m,p⟩ ⟨.residues m,q⟩ solver).outcome = .ok answer ∧
        (answer = true ↔ p = q) ∧
        (Poly.divides ⟨.residues m,.monomial 1 m.value - .monomial 1 1⟩ ⟨.residues m,p - q⟩).outcome =
          .ok multiple ∧
        ((∀ x : ℤ, 0 ≤ x → x < m.value →
            Poly.eval ⟨.residues m,p⟩ (.integer x) = Poly.eval ⟨.residues m,q⟩ (.integer x)) ↔
          multiple = true)) ∧
    ∀ m : Modulus, ∃ p q : Dense (BaseRing.residues m).Elem,
      (∀ x : ℤ, Poly.eval ⟨.residues m,p⟩ (.integer x) = Poly.eval ⟨.residues m,q⟩ (.integer x)) ∧
        (equivalent ⟨.residues m,p⟩ ⟨.residues m,q⟩ solver).outcome = .ok false := by
  refine ⟨?_,?_,?_⟩
  · intro r takes characteristic p q
    refine ⟨_,_,equivalent_outcome takes decides p q,
      haveCounterexample_outcome takes characteristic decides p q,decide_eq_true_iff,?_,
      eq_iff_eval_integers takes characteristic,?_⟩
    · rw [Bool.not_eq_false',decide_eq_true_iff]
    · exact fun points count => eq_iff_eval_points takes count.ge
  · intro m p q
    refine ⟨_,_,equivalent_outcome (r := .residues m) trivial decides p q,decide_eq_true_iff,
      Poly.divides_outcome (BaseRing.residues m).Elem _ _,?_⟩
    rw [decide_eq_true_iff,Poly.extend_self,Poly.extend_self,forall_eval_range_iff]
    exact forall_eval_eq_iff_dvd
  · intro m
    refine ⟨.monomial 1 m.value,.monomial 1 1,?_,?_⟩
    · intro x
      exact (eval_eq_eval_iff (BaseRing.ofValue_integer (r := .residues m) trivial x)).mpr
        (forall_eval_eq_iff_dvd.mpr dvd_rfl _)
    · rw [equivalent_outcome (r := .residues m) trivial decides,decide_eq_false]
      intro same
      have sizes := congrArg Dense.size same
      rw [Dense.size_monomial one_ne_zero,Dense.size_monomial one_ne_zero] at sizes
      have := m.two_le
      omega

/-- Over the integers, where `x^2 - x` vanishes at two points but not at three, and modulo five. -/
theorem equivalent_vanishing_twice :
    let m : Modulus := ⟨5,(isPrime_iff 5).mpr Nat.prime_five⟩
    let p : Dense BaseRing.integers.Elem := .ofList [0,-1,1]
    (∀ query, Query.solvable query = true ↔ query.HasModel) ∧
    (∃ answer found, (equivalent ⟨.integers,p⟩ ⟨.integers,0⟩ Query.solvable).outcome = .ok answer ∧
      (haveCounterexample ⟨.integers,p⟩ ⟨.integers,0⟩ Query.solvable).outcome = .ok found ∧
      (answer = true ↔ p = 0) ∧ (found = false ↔ p = 0) ∧
      (p = 0 ↔ ∀ x : ℤ, Poly.eval ⟨.integers,p⟩ (.integer x) = Poly.eval ⟨.integers,0⟩ (.integer x)) ∧
      (p = 0 ↔ ∀ a ∈ ({0,1,2} : Finset ℤ),
        Poly.eval ⟨.integers,p⟩ (.integer a) = Poly.eval ⟨.integers,0⟩ (.integer a))) ∧
    ∃ p q : Dense (BaseRing.residues m).Elem,
      (∀ x : ℤ, Poly.eval ⟨.residues m,p⟩ (.integer x) = Poly.eval ⟨.residues m,q⟩ (.integer x)) ∧
        (equivalent ⟨.residues m,p⟩ ⟨.residues m,q⟩ Query.solvable).outcome = .ok false := by
  intro m p
  obtain ⟨zero,-,modular⟩ := equivalent_total_correct Query.solvable Query.solvable_iff
  obtain ⟨answer,found,asked,searched,same,none,integers,points⟩ := zero .integers trivial rfl p 0
  have counted : ({0,1,2} : Finset ℤ).card = max p.size (0 : Dense BaseRing.integers.Elem).size := by decide
  exact ⟨Query.solvable_iff,⟨answer,found,asked,searched,same,none,integers,points _ counted⟩,modular m⟩

end Certificate
end Bezout

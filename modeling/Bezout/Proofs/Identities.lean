import Bezout.Proofs.Outcomes
import Bezout.Proofs.Reckoning
import Bezout.Certificate

/-!
What a query asks, and what an identity is to a solver. Two terms with one unknown are the same function of
a real number exactly if they are the same polynomial, since a polynomial other than zero has finitely many
roots. So the exact solver decides every query, and every solver that does is the exact one. Both encodings
of a side stand for the polynomial that the side itself stands for: over a ring of characteristic zero as a
real function with the values of the coefficients, over a prime field as integer terms with their residues.
Hence an identity is proved exactly if its sides are one polynomial.
-/
namespace Bezout
open Polynomial

/-! ### Queries -/

theorem Term.eval_map {ν α β γ : Type} [Add β] [Mul β] [Add γ] [Mul γ] {f : β → γ}
    (sums : ∀ a b, f (a + b) = f a + f b) (products : ∀ a b, f (a * b) = f a * f b) (numerals : α → β)
    (unknowns : ν → β) (t : Term ν α) :
    f (t.eval numerals unknowns) = t.eval (fun a => f (numerals a)) fun x => f (unknowns x) := by
  induction t with
  | numeral a => rfl
  | unknown x => rfl
  | sum s t hs ht => rw [eval,sums,hs,ht,eval]
  | product s t hs ht => rw [eval,products,hs,ht,eval]

namespace Query

/-- The condition of a query can be met. -/
def HasModel : Query → Prop
  | differ left right => ∃ x : ℝ, left.eval Rat.cast (fun _ => x) ≠ right.eval Rat.cast fun _ => x
  | incongruent modulus pairs => ∃ pair ∈ pairs, (pair.1.value - pair.2.value) % modulus ≠ 0

theorem eval_eq_aeval (x : ℝ) (t : Term Unit Rat) :
    t.eval Rat.cast (fun _ => x) = aeval x (polynomial t).toPolynomial := by
  rw [polynomial,Term.eval_map (f := Dense.toPolynomial) Dense.toPolynomial_add Dense.toPolynomial_mul,
    Term.eval_map (f := aeval x) (map_add _) (map_mul _)]
  simp

/-- The exact solver decides every query. -/
theorem solvable_iff (query : Query) : solvable query = true ↔ query.HasModel := by
  cases query with
  | differ left right =>
    have functions (s t : Term Unit Rat) : polynomial s = polynomial t ↔
        ∀ x : ℝ, s.eval Rat.cast (fun _ => x) = t.eval Rat.cast fun _ => x := by
      constructor
      · intro same x
        rw [eval_eq_aeval,eval_eq_aeval,same]
      · intro values
        apply Dense.toPolynomial_injective
        apply map_injective _ (algebraMap ℚ ℝ).injective
        apply Polynomial.funext
        intro x
        rw [eval_map_algebraMap,eval_map_algebraMap,← eval_eq_aeval,← eval_eq_aeval,values]
    rw [solvable,decide_eq_true_iff,ne_eq,functions,not_forall]
    rfl
  | incongruent modulus pairs =>
    rw [solvable,List.any_eq_true]
    exact exists_congr fun pair => and_congr_right fun _ => decide_eq_true_iff

/-- A solver that decides every query is the exact one. -/
theorem eq_solvable {solver : Solver} (decides : ∀ query, solver query = true ↔ query.HasModel) :
    solver = solvable := by
  funext query
  rw [Bool.eq_iff_iff,decides,solvable_iff]

end Query

/-! ### Identities -/

namespace Certificate
open Coefficient (number)

/-- A side stands for a polynomial over a ring. -/
inductive Side.StandsFor {r : BaseRing} : Side → Dense r.Elem → Prop
  | constant (c : r.Elem) : StandsFor (.constant (number c)) (.constant c)
  | poly (p : Dense r.Elem) : StandsFor (.poly ⟨r,p⟩) p
  | sum {s t : Side} {p q : Dense r.Elem} : StandsFor s p → StandsFor t q → StandsFor (.sum s t) (p + q)
  | product {s t : Side} {p q : Dense r.Elem} : StandsFor s p → StandsFor t q →
      StandsFor (.product s t) (p * q)

/-! ### Real functions -/

theorem polynomial_horner (cs : List Number) :
    (Query.polynomial (horner cs)).toPolynomial = ofCoeffs (cs.map Number.value) := by
  induction cs with
  | nil => simp [horner,Query.polynomial,Term.eval,ofCoeffs]
  | cons c rest ih =>
    have step : Query.polynomial (horner (c :: rest)) =
        Query.polynomial (horner rest) * .monomial 1 1 + .constant c.value := rfl
    rw [step,Dense.toPolynomial_add,Dense.toPolynomial_mul,ih,Dense.toPolynomial_monomial,
      Dense.toPolynomial_constant,List.map_cons,ofCoeffs,C_1]
    ring

/-- Over a ring of characteristic zero the real function of a side has the values of the coefficients. -/
theorem polynomial_real {r : BaseRing} (takes : r.TakesNumbers) (characteristic : r.characteristic = 0)
    {s : Side} {p : Dense r.Elem} (stands : s.StandsFor p) :
    (Query.polynomial s.real).toPolynomial = p.toPolynomial.map (r.valueHom takes characteristic) := by
  induction stands with
  | constant c =>
    rw [Dense.toPolynomial_constant,map_C]
    exact Dense.toPolynomial_constant _
  | poly p =>
    rw [Side.real,polynomial_horner,Dense.toPolynomial,← ofCoeffs_map]
    exact congrArg ofCoeffs (List.map_map ..)
  | @sum s t p q _ _ hs ht =>
    rw [Dense.toPolynomial_add,Polynomial.map_add,← hs,← ht]
    exact Dense.toPolynomial_add _ _
  | @product s t p q _ _ hs ht =>
    rw [Dense.toPolynomial_mul,Polynomial.map_mul,← hs,← ht]
    exact Dense.toPolynomial_mul _ _

/-! ### Integer terms -/

/-- The polynomial with a list of integer terms as coefficients. -/
noncomputable def polynomial (ts : Terms) : ℤ[X] := ofCoeffs (ts.map Term.value)

@[simp] theorem polynomial_nil : polynomial [] = 0 := rfl

theorem polynomial_cons (t : Term Empty Int) (ts : Terms) :
    polynomial (t :: ts) = C t.value + X * polynomial ts := rfl

theorem coeff_aligned (f : ℤ → ℤ → ℤ) (zeros : f 0 0 = 0) (as bs : Terms) (i : ℕ) :
    (ofCoeffs ((aligned as bs).map fun pair => f pair.1.value pair.2.value)).coeff i =
      f ((polynomial as).coeff i) ((polynomial bs).coeff i) := by
  simp only [polynomial,coeff_ofCoeffs,List.getD_eq_getElem?_getD,List.getElem?_map,aligned,
    List.getElem?_zipWithAll]
  cases as[i]? <;> cases bs[i]? <;> simp [zeros,Term.value,Term.eval]

theorem polynomial_addTerms (as bs : Terms) :
    polynomial (addTerms as bs) = polynomial as + polynomial bs := by
  ext i
  rw [coeff_add,← coeff_aligned (· + ·) rfl,polynomial,addTerms,List.map_map]
  rfl

theorem length_addMultiples (a : Term Empty Int) (bs totals : Terms) :
    (addMultiples a bs totals).length = totals.length := by
  fun_induction addMultiples a bs totals with
  | case1 b bs total totals ih => rw [List.length_cons,ih,List.length_cons]
  | case2 => rfl

theorem polynomial_addMultiples (a : Term Empty Int) (bs totals : Terms)
    (room : bs.length ≤ totals.length) :
    polynomial (addMultiples a bs totals) = polynomial totals + C a.value * polynomial bs := by
  fun_induction addMultiples a bs totals with
  | case1 b bs total totals ih =>
    have values : Term.value (.sum total (.product a b)) = total.value + a.value * b.value := rfl
    rw [polynomial_cons,ih (Nat.le_of_succ_le_succ room),polynomial_cons,polynomial_cons,values,C_add,C_mul]
    ring
  | case2 bs totals ended =>
    cases bs with
    | nil => rw [polynomial_nil,mul_zero,add_zero]
    | cons b bs =>
      cases totals with
      | nil => cases room
      | cons total totals => exact absurd rfl (ended b bs total totals rfl)

theorem polynomial_convolve {as bs totals : Terms} (room : as.length + bs.length ≤ totals.length + 1) :
    polynomial (convolve as bs totals) = polynomial totals + polynomial as * polynomial bs := by
  -- The bound leaves room for every product; it goes down with the first list and the totals.
  fun_induction convolve as bs totals with
  | case1 bs totals => rw [polynomial_nil,zero_mul,add_zero]
  | case2 a as bs totals nothing =>
    have kept := length_addMultiples a bs totals
    rw [nothing,List.length_nil] at kept
    rw [List.length_cons] at room
    obtain rfl : totals = [] := List.length_eq_zero_iff.mp kept.symm
    obtain rfl : bs = [] := List.length_eq_zero_iff.mp (by omega)
    rw [polynomial_nil,mul_zero,add_zero]
  | case3 a as bs totals total rest added ih =>
    have kept := length_addMultiples a bs totals
    rw [added,List.length_cons] at kept
    rw [List.length_cons] at room
    have first := polynomial_addMultiples a bs totals (by omega)
    rw [added,polynomial_cons] at first
    rw [polynomial_cons,ih (by omega),mul_add,← add_assoc,first,polynomial_cons]
    ring

theorem polynomial_mulTerms (as bs : Terms) :
    polynomial (mulTerms as bs) = polynomial as * polynomial bs := by
  have zeros (n : ℕ) : polynomial (List.replicate n (.numeral 0)) = 0 := by
    rw [polynomial,List.map_replicate]
    have padded := ofCoeffs_replicate_append n ([] : List ℤ)
    rwa [List.append_nil,show ofCoeffs ([] : List ℤ) = 0 from rfl,mul_zero] at padded
  rw [mulTerms]
  split
  · rename_i empty
    rw [Bool.or_eq_true,List.isEmpty_iff,List.isEmpty_iff] at empty
    rcases empty with rfl | rfl <;> simp
  · rw [polynomial_convolve,zeros,zero_add]
    rw [List.length_replicate]
    omega

theorem numeral_number {m : Modulus} (a : (BaseRing.residues m).Elem) :
    numeral (number a) = .ok (.numeral a.value) := by
  have whole : (number a).value = (a.value : ℚ) := rfl
  rw [numeral,whole,if_pos (Rat.den_intCast _),Rat.num_intCast]

theorem polynomial_numerals {m : Modulus} (cs : List (BaseRing.residues m).Elem) :
    (polynomial (cs.map fun c => .numeral c.value)).map (Int.castRingHom (Residue m)) = ofCoeffs cs := by
  have kept : (Int.castRingHom (Residue m) ∘ Term.value) ∘ (fun c => .numeral c.value) = id :=
    funext Residue.ofInt_value
  rw [polynomial,← ofCoeffs_map,List.map_map,List.map_map,kept,List.map_id]

/-- Over a prime field the residues of the coefficients of a side are those of the polynomial. -/
theorem polynomial_modular {m : Modulus} {s : Side} {p : Dense (BaseRing.residues m).Elem}
    (stands : s.StandsFor (r := .residues m) p) :
    ∃ ts, s.modular = .ok ts ∧ (polynomial ts).map (Int.castRingHom (Residue m)) = p.toPolynomial := by
  induction stands with
  | constant c =>
    refine ⟨[.numeral c.value],by rw [Side.modular,numeral_number]; rfl,?_⟩
    rw [Dense.constant,Dense.toPolynomial_ofList]
    exact polynomial_numerals [c]
  | poly p =>
    refine ⟨p.coeffs.map fun c => .numeral c.value,?_,polynomial_numerals p.coeffs⟩
    apply mapM_eq_ok
    rw [Poly.numbers,Dense.numbers,List.forall₂_map_left_iff,List.forall₂_map_right_iff,List.forall₂_same]
    exact fun c _ => numeral_number c
  | sum _ _ hs ht =>
    obtain ⟨ts,encoded,image⟩ := hs
    obtain ⟨us,also,second⟩ := ht
    refine ⟨addTerms ts us,by rw [Side.modular,encoded,also]; rfl,?_⟩
    rw [polynomial_addTerms,Polynomial.map_add,image,second,Dense.toPolynomial_add]
  | product _ _ hs ht =>
    obtain ⟨ts,encoded,image⟩ := hs
    obtain ⟨us,also,second⟩ := ht
    refine ⟨mulTerms ts us,by rw [Side.modular,encoded,also]; rfl,?_⟩
    rw [polynomial_mulTerms,Polynomial.map_mul,image,second,Dense.toPolynomial_mul]

theorem solvable_incongruent (m : Modulus) (as bs : Terms) :
    Query.solvable (.incongruent m.value (aligned as bs)) = false ↔
      (polynomial as).map (Int.castRingHom (Residue m)) =
        (polynomial bs).map (Int.castRingHom (Residue m)) := by
  have differences : ofCoeffs ((aligned as bs).map fun pair => pair.1.value - pair.2.value) =
      polynomial as - polynomial bs := by
    ext i
    rw [coeff_sub,← coeff_aligned (· - ·) rfl]
  have residue (n : ℤ) : n % m.value = 0 ↔ Int.castRingHom (Residue m) n = 0 := by
    rw [Residue.ext_iff]
    rfl
  have vanish : (polynomial as).map (Int.castRingHom (Residue m)) =
        (polynomial bs).map (Int.castRingHom (Residue m)) ↔
      ∀ pair ∈ aligned as bs, Int.castRingHom (Residue m) (pair.1.value - pair.2.value) = 0 := by
    rw [← sub_eq_zero,← Polynomial.map_sub,← differences,← ofCoeffs_map,ofCoeffs_eq_zero_iff,
      List.forall_mem_map,List.forall_mem_map]
  rw [vanish,← Bool.not_eq_true,Query.solvable_iff]
  simp only [Query.HasModel,not_exists,not_and,not_not,residue]

/-! ### Identities -/

/-- An identity fails exactly if its sides stand for different polynomials. -/
theorem failure_outcome {r : BaseRing} (takes : r.TakesNumbers) {left right : Side} {p q : Dense r.Elem}
    (first : left.StandsFor p) (second : right.StandsFor q) :
    ∃ query, failure r left right = .ok query ∧ (Query.solvable query = false ↔ p = q) := by
  by_cases characteristic : r.characteristic = 0
  · refine ⟨_,if_pos characteristic,?_⟩
    rw [Query.solvable,decide_eq_false_iff_not,not_not,← Dense.toPolynomial_injective.eq_iff,
      polynomial_real takes characteristic first,polynomial_real takes characteristic second,
      (map_injective _ (BaseRing.valueHom_injective takes characteristic)).eq_iff,
      Dense.toPolynomial_injective.eq_iff]
  · cases r with
    | residues m =>
      obtain ⟨ts,encoded,image⟩ := polynomial_modular first
      obtain ⟨us,also,companion⟩ := polynomial_modular second
      refine ⟨.incongruent m.value (aligned ts us),?_,?_⟩
      · rw [failure,if_neg characteristic]
        simp only [encoded,also]
        rfl
      · rw [solvable_incongruent,image,companion,Dense.toPolynomial_injective.eq_iff]
    | bare c mark => exact takes.elim
    | _ => exact absurd rfl characteristic

/-- With a solver that decides every query, an identity is proved exactly if its sides stand for one
    polynomial. -/
theorem proveIdentity_outcome {r : BaseRing} (takes : r.TakesNumbers) {solver : Solver}
    (decides : ∀ query, solver query = true ↔ query.HasModel) {left right : Side} {p q : Dense r.Elem}
    (first : left.StandsFor p) (second : right.StandsFor q) :
    (proveIdentity solver r left right).outcome = .ok (decide (p = q)) := by
  obtain ⟨query,posed,answer⟩ := failure_outcome takes first second
  rw [Query.eq_solvable decides,proveIdentity,Work.outcome_ofExcept_bind posed,Work.outcome_map]
  exact congrArg Except.ok (by rw [Bool.eq_iff_iff,decide_eq_true_iff,← answer,Bool.not_eq_true'])

end Certificate
end Bezout

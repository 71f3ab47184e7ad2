import Bezout.Proofs.Roots

/-!
Products of linear factors. The product over a list of elements is monic and as large as the list is long,
whatever the order of the list, and each element is a root of it as often as it is listed
(`Dense.rootMultiplicity_prod_linearFactor`). So expanding a list and counting the roots of what comes out
gives the list back up to order.
-/
namespace Bezout
open Polynomial
open Coefficient (number)

/-- The number that stands for one is one over every ring: no modulus divides it. -/
theorem BaseRing.value_number_one (r : BaseRing) : (number (1 : r.Elem)).value = 1 := by
  cases r with
  | residues m =>
    have reduced : (1 : Residue m).value = 1 := Int.emod_eq_of_lt (by omega) (by have := m.two_le; omega)
    show (((1 : Residue m).value : ℤ) : ℚ) = 1
    rw [reduced,Int.cast_one]
  | _ => rfl

namespace Dense
variable {R : Type} [CoefficientDomain R] (as : List R)

theorem foldl_mul_linearFactor : as.foldl (fun p a => p * linearFactor a) 1 = (as.map linearFactor).prod := by
  rw [List.prod_eq_foldl,List.foldl_map]

theorem toPolynomial_prod_linearFactor :
    (as.map linearFactor).prod.toPolynomial = ((as : Multiset R).map fun a => X - C a).prod := by
  rw [toPolynomial_prod,List.map_map,Multiset.map_coe,Multiset.prod_coe]
  simp only [Function.comp_def,toPolynomial_linearFactor]

theorem lead_prod_linearFactor : (as.map linearFactor).prod.lead = 1 := by
  rw [← leadingCoeff_toPolynomial,toPolynomial_prod_linearFactor]
  exact monic_multisetProd_X_sub_C _

theorem prod_linearFactor_ne_zero : (as.map linearFactor).prod ≠ 0 :=
  ne_zero_of_lead_eq_one (lead_prod_linearFactor as)

theorem size_prod_linearFactor : (as.map linearFactor).prod.size = as.length + 1 := by
  rw [size_eq_natDegree_add_one (prod_linearFactor_ne_zero as),toPolynomial_prod_linearFactor,
    natDegree_multiset_prod_X_sub_C_eq_card,Multiset.coe_card]

/-- Each element is a root as often as it is listed. -/
theorem rootMultiplicity_prod_linearFactor (a : R) :
    (as.map linearFactor).prod.toPolynomial.rootMultiplicity a = as.count a := by
  rw [toPolynomial_prod_linearFactor,← count_roots,roots_multiset_prod_X_sub_C,Multiset.coe_count]

theorem eval_prod_linearFactor_eq_zero_iff {a : R} : (as.map linearFactor).prod.eval a = 0 ↔ a ∈ as := by
  rw [← one_le_rootMultiplicity_iff (prod_linearFactor_ne_zero as),rootMultiplicity_prod_linearFactor,
    List.one_le_count_iff]

end Dense

namespace Poly
variable {r : BaseRing}

theorem fromRoots_eq (takes : r.TakesNumbers) {vs : List Value} {as : List r.Elem}
    (images : List.Forall₂ (fun v a => r.ofValue v = .ok a) vs as) :
    fromRoots vs r = .ok ⟨r,(as.map Dense.linearFactor).prod⟩ := by
  rw [fromRoots,one_eq takes,mapM_eq_ok images,← Dense.foldl_mul_linearFactor]
  rfl

/-- The order of the values changes nothing. -/
theorem fromRoots_eq_of_perm (takes : r.TakesNumbers) {vs ws : List Value} {as : List r.Elem}
    (images : List.Forall₂ (fun v a => r.ofValue v = .ok a) vs as) (reordered : ws.Perm vs) :
    fromRoots ws r = .ok ⟨r,(as.map Dense.linearFactor).prod⟩ := by
  obtain ⟨bs,taken,same⟩ := List.perm_comp_forall₂ reordered images
  rw [fromRoots_eq takes taken,(same.map Dense.linearFactor).prod_eq]

theorem isMonic_of_lead {p : Dense r.Elem} (monic : p.lead = 1) : isMonic ⟨r,p⟩ = true := by
  have nonzero := Dense.ne_zero_of_lead_eq_one monic
  have one : (lead ⟨r,p⟩).same (.integer 1) = true := by
    rw [lead_eq,monic,Number.same,r.value_number_one]
    rfl
  rw [isMonic,one,Bool.and_true,Bool.not_eq_true',← Bool.not_eq_true]
  exact mt isZero_iff.mp nonzero

/-- The table of the roots of a product of linear factors lists what was multiplied, in increasing order and
    each element with the number of its factors. -/
theorem roots_prod_linearFactor {m : Modulus} (as : List (BaseRing.residues m).Elem) :
    ∃ table : List (ℤ × ℕ),
      (roots ⟨.residues m,(as.map Dense.linearFactor).prod⟩).outcome = .ok table ∧
      (table.map Prod.fst).Pairwise (· < ·) ∧
      ∀ x n, (x,n) ∈ table ↔ ∃ a ∈ as, number a = .integer x ∧ n = as.count a := by
  have nonzero := Dense.prod_linearFactor_ne_zero as
  refine ⟨_,roots_outcome nonzero,?_,?_⟩
  · simpa [List.map_map,Function.comp_def] using sorted_rootList _
  · intro x n
    rw [List.mem_map]
    constructor
    · rintro ⟨y,listed,entry⟩
      cases entry
      obtain ⟨a,root,rfl⟩ := mem_rootList_iff_exists.mp listed
      rw [Dense.eval_prod_linearFactor_eq_zero_iff] at root
      rw [intCast_value,Dense.rootMultiplicity_prod_linearFactor]
      exact ⟨a,root,rfl,rfl⟩
    · rintro ⟨a,member,number,rfl⟩
      cases number
      have root := (Dense.eval_prod_linearFactor_eq_zero_iff as).mpr member
      refine ⟨a.value,mem_rootList_iff_exists.mpr ⟨a,root,rfl⟩,?_⟩
      rw [intCast_value,Dense.rootMultiplicity_prod_linearFactor]

/-- A list of values that stand for elements is expanded to one monic polynomial, in any order of the list.
    Its degree is the length of the list, and the multiplicity of any element is the number of its
    occurrences in the list. Over a prime field the table of its roots lists the elements in increasing
    order, each with this number. -/
theorem fromRoots_total_correct (r : BaseRing) (takes : r.TakesNumbers) {vs : List Value} {as : List r.Elem}
    (images : List.Forall₂ (fun v a => r.ofValue v = .ok a) vs as) :
    ∃ p : Dense r.Elem, (∀ ws, ws.Perm vs → fromRoots ws r = .ok ⟨r,p⟩) ∧
      isMonic ⟨r,p⟩ = true ∧ degree ⟨r,p⟩ = vs.length ∧
      (∀ v a, r.ofValue v = .ok a → (multiplicity v ⟨r,p⟩).outcome = .ok (as.count a)) ∧
      ∀ m, r = .residues m → ∃ table : List (ℤ × ℕ), (roots ⟨r,p⟩).outcome = .ok table ∧
        (table.map Prod.fst).Pairwise (· < ·) ∧
        ∀ x n, (x,n) ∈ table ↔ ∃ a ∈ as, number a = .integer x ∧ n = as.count a := by
  refine ⟨(as.map Dense.linearFactor).prod,?_,?_,?_,?_,?_⟩
  · intro ws reordered
    exact fromRoots_eq_of_perm takes images reordered
  · exact isMonic_of_lead (Dense.lead_prod_linearFactor as)
  · rw [degree_eq,Dense.size_prod_linearFactor,images.length_eq]
    omega
  · intro v a image
    rw [multiplicity_rootMultiplicity image,Dense.rootMultiplicity_prod_linearFactor]
  · rintro m rfl
    exact roots_prod_linearFactor as

/-- Modulo five, where seven and minus three stand for two, and a half stands for three. -/
theorem fromRoots_mod_five : let m : Modulus := ⟨5,(isPrime_iff 5).mpr Nat.prime_five⟩
    let vs : List Value := [.integer 7,.boolean false,.fraction (1 / 2),.integer (-3)]
    let as : List (BaseRing.residues m).Elem := [2,0,3,2].map (Residue.ofInt m)
    (BaseRing.residues m).TakesNumbers ∧
    List.Forall₂ (fun v a => (BaseRing.residues m).ofValue v = .ok a) vs as ∧
    ∃ p : Dense (BaseRing.residues m).Elem,
      (∀ ws, ws.Perm vs → fromRoots ws (.residues m) = .ok ⟨.residues m,p⟩) ∧
      isMonic ⟨.residues m,p⟩ = true ∧ degree ⟨.residues m,p⟩ = vs.length ∧
      (∀ v a, (BaseRing.residues m).ofValue v = .ok a →
        (multiplicity v ⟨.residues m,p⟩).outcome = .ok (as.count a)) ∧
      ∀ n, BaseRing.residues m = .residues n →
        ∃ table : List (ℤ × ℕ), (roots ⟨.residues m,p⟩).outcome = .ok table ∧
          (table.map Prod.fst).Pairwise (· < ·) ∧
          ∀ x n, (x,n) ∈ table ↔ ∃ a ∈ as, number a = .integer x ∧ n = as.count a := by
  intro m vs as
  have images : List.Forall₂ (fun v a => (BaseRing.residues m).ofValue v = .ok a) vs as := by
    refine .cons ?_ (.cons ?_ (.cons ?_ (.cons ?_ .nil))) <;> cbv
  exact ⟨trivial,images,fromRoots_total_correct (.residues m) trivial images⟩

example : (do
    let m : Modulus := ⟨5,(isPrime_iff 5).mpr Nat.prime_five⟩
    let vs : List Value := [.integer 7,.boolean false,.fraction (1 / 2),.integer (-3)]
    roots (← Work.ofExcept (fromRoots vs (.residues m)))).outcome = .ok [(0,1),(2,2),(3,1)] := by
  cbv

end Poly
end Bezout

import Bezout.Proofs.Multiplicity
import Bezout.Factor

/-!
The roots of a polynomial over a prime field. Every multiplicity is counted on the polynomial itself,
independently of the others; linear factors with different roots have nothing in common, so that all of
them together divide it and leave a cofactor without roots.
-/
namespace Bezout
open Polynomial
open scoped Classical

/-- Taking all roots out of a polynomial leaves a factor without roots. -/
theorem exists_rootless_cofactor {R : Type} [CommRing R] [IsDomain R] {P : R[X]} (nonzero : P ≠ 0)
    {as : List R} (distinct : as.Nodup) (all : ∀ a, a ∈ as ↔ P.IsRoot a) :
    ∃ Q : R[X], P = Q * (as.map fun a => (X - C a) ^ P.rootMultiplicity a).prod ∧
      (∀ a, Q.eval a ≠ 0) ∧ (as.map fun a => P.rootMultiplicity a).sum ≤ P.natDegree := by
  obtain ⟨Q,product,degrees,none⟩ := P.exists_prod_multiset_X_sub_C_mul
  have listed : P.roots.toFinset = as.toFinset := by
    ext a
    simp [all,nonzero]
  have kept : Q ≠ 0 := by
    rintro rfl
    exact nonzero (product.symm.trans (mul_zero _))
  rw [prod_multiset_root_eq_finset_root,listed,List.prod_toFinset _ distinct] at product
  refine ⟨Q,by rw [mul_comm,product],?_,?_⟩
  · intro a root
    have member := (mem_roots kept).mpr root
    rw [none] at member
    exact Multiset.notMem_zero a member
  · have counted := Multiset.toFinset_sum_count_eq P.roots
    simp only [count_roots] at counted
    rw [← List.sum_toFinset _ distinct,← listed,counted]
    omega

namespace Poly
variable {r : BaseRing}

theorem multiplicities_outcome (takes : r.TakesNumbers) (p : Dense r.Elem) (xs : List ℤ) :
    (multiplicities ⟨r,p⟩ xs).outcome =
      .ok (xs.map fun x => (x,p.toPolynomial.rootMultiplicity (x : r.Elem))) := by
  induction xs with
  | nil => rfl
  | cons x rest ih =>
    have counted := multiplicity_rootMultiplicity (BaseRing.ofValue_integer takes x) p
    rw [multiplicities,Work.outcome_bind counted,Work.outcome_bind ih]
    rfl

variable {m : Modulus}

theorem intCast_value (a : (BaseRing.residues m).Elem) : ((a.value : ℤ) : (BaseRing.residues m).Elem) = a :=
  Residue.ofInt_value a

/-- The roots among the integers from zero up to below the modulus. -/
def rootList (p : Dense (BaseRing.residues m).Elem) : List ℤ :=
  ((List.range m.value).map Int.ofNat).filter fun x => p.eval (x : (BaseRing.residues m).Elem) = 0

theorem mem_rootList {p : Dense (BaseRing.residues m).Elem} {x : ℤ} :
    x ∈ rootList p ↔ (0 ≤ x ∧ x < m.value) ∧ p.eval (x : (BaseRing.residues m).Elem) = 0 := by
  have range : x ∈ (List.range m.value).map Int.ofNat ↔ 0 ≤ x ∧ x < m.value := by
    rw [List.mem_map]
    constructor
    · rintro ⟨n,below,rfl⟩
      rw [List.mem_range] at below
      exact ⟨Int.natCast_nonneg n,Int.ofNat_lt.mpr below⟩
    · rintro ⟨nonneg,below⟩
      exact ⟨x.toNat,List.mem_range.mpr (by omega),Int.toNat_of_nonneg nonneg⟩
  rw [rootList,List.mem_filter,range,decide_eq_true_iff]

/-- What is listed are the integers that stand for the roots. -/
theorem mem_rootList_iff_exists {p : Dense (BaseRing.residues m).Elem} {x : ℤ} :
    x ∈ rootList p ↔ ∃ a : (BaseRing.residues m).Elem, p.eval a = 0 ∧ a.value = x := by
  rw [mem_rootList]
  constructor
  · rintro ⟨⟨low,high⟩,root⟩
    exact ⟨_,root,Int.emod_eq_of_lt low high⟩
  · rintro ⟨a,root,rfl⟩
    exact ⟨⟨a.nonneg,a.lt⟩,by rwa [intCast_value]⟩

theorem sorted_rootList (p : Dense (BaseRing.residues m).Elem) : (rootList p).Pairwise (· < ·) := by
  apply List.Pairwise.filter
  rw [List.pairwise_map]
  exact List.pairwise_lt_range.imp Int.ofNat_lt.mpr

/-- Integers in the range stand for different residues. -/
theorem nodup_rootList (p : Dense (BaseRing.residues m).Elem) :
    ((rootList p).map fun x : ℤ => (x : (BaseRing.residues m).Elem)).Nodup := by
  have distinct : (rootList p).Nodup := (sorted_rootList p).imp ne_of_lt
  apply distinct.map_on
  intro x first y second same
  obtain ⟨⟨low,high⟩,-⟩ := mem_rootList.mp first
  obtain ⟨⟨low',high'⟩,-⟩ := mem_rootList.mp second
  have values : x % m.value = y % m.value := congrArg Residue.value same
  rwa [Int.emod_eq_of_lt low high,Int.emod_eq_of_lt low' high'] at values

theorem mem_rootList_iff_isRoot {p : Dense (BaseRing.residues m).Elem} {a : (BaseRing.residues m).Elem} :
    a ∈ (rootList p).map (fun x : ℤ => (x : (BaseRing.residues m).Elem)) ↔ p.toPolynomial.IsRoot a := by
  rw [List.mem_map,IsRoot,Dense.eval_toPolynomial]
  constructor
  · rintro ⟨x,listed,rfl⟩
    exact (mem_rootList.mp listed).2
  · intro root
    exact ⟨a.value,mem_rootList_iff_exists.mpr ⟨a,root,rfl⟩,intCast_value a⟩

theorem roots_outcome {p : Dense (BaseRing.residues m).Elem} (nonzero : p ≠ 0) :
    (roots ⟨.residues m,p⟩).outcome = .ok ((rootList p).map fun x =>
      (x,p.toPolynomial.rootMultiplicity (x : (BaseRing.residues m).Elem))) := by
  have tested : ∀ x : ℤ, (isRoot ⟨.residues m,p⟩ (.integer x)).toOption.getD false =
      decide (p.eval (x : (BaseRing.residues m).Elem) = 0) := by
    intro x
    rw [isRoot_eq (BaseRing.ofValue_integer (r := .residues m) trivial x)]
    rfl
  simp only [roots,BaseRing.elements?]
  rw [if_neg (mt isZero_iff.mp nonzero)]
  simp only [tested]
  exact multiplicities_outcome (r := .residues m) trivial p (rootList p)

/-- The table of roots lists the roots in increasing order, each with a multiplicity, and the powers of
    their linear factors leave a factor without roots. -/
theorem roots_total_correct (m : Modulus) (p : Dense (BaseRing.residues m).Elem) (nonzero : p ≠ 0) :
    ∃ table : List (ℤ × ℕ), (roots ⟨.residues m,p⟩).outcome = .ok table ∧
      (table.map Prod.fst).Pairwise (· < ·) ∧
      (∀ x : ℤ, x ∈ table.map Prod.fst ↔
        (0 ≤ x ∧ x < m.value) ∧ eval ⟨.residues m,p⟩ (.integer x) = .ok 0) ∧
      (∀ entry ∈ table, 1 ≤ entry.2) ∧
      (∃ c : Dense (BaseRing.residues m).Elem, (∀ a, c.eval a ≠ 0) ∧
        p = c * (table.map fun entry =>
          Dense.linearFactor (entry.1 : (BaseRing.residues m).Elem) ^ entry.2).prod) ∧
      ((table.map Prod.snd).sum : ℤ) ≤ degree ⟨.residues m,p⟩ := by
  have kept := mt Dense.toPolynomial_eq_zero_iff.mp nonzero
  obtain ⟨Q,product,rootless,bound⟩ := exists_rootless_cofactor kept (nodup_rootList p)
    fun a => mem_rootList_iff_isRoot
  rw [List.map_map] at product bound
  refine ⟨_,roots_outcome nonzero,?_,?_,?_,?_,?_⟩
  · simpa [List.map_map,Function.comp_def] using sorted_rootList p
  · intro x
    rw [eval_eq (BaseRing.ofValue_integer (r := .residues m) trivial x),Except.ok.injEq,← mem_rootList]
    simp [List.map_map,Function.comp_def]
  · intro entry member
    obtain ⟨x,listed,rfl⟩ := List.mem_map.mp member
    apply (rootMultiplicity_pos kept).mpr
    rw [IsRoot,Dense.eval_toPolynomial]
    exact (mem_rootList.mp listed).2
  · obtain ⟨c,rfl⟩ := Dense.toPolynomial_surjective Q
    refine ⟨c,fun a => by rw [← Dense.eval_toPolynomial]; exact rootless a,?_⟩
    apply Dense.toPolynomial_injective
    rw [Dense.toPolynomial_mul,Dense.toPolynomial_prod,List.map_map,List.map_map]
    simpa [Function.comp_def,Dense.toPolynomial_linearFactor] using product
  · have positive : p.size ≠ 0 := mt Dense.size_eq_zero_iff.mp nonzero
    rw [Dense.natDegree_toPolynomial] at bound
    rw [List.map_map,degree_eq]
    simp only [Function.comp_def] at bound ⊢
    omega

/-- Modulo five, `(x - 1)^2 * (x^2 + 2)` has a double root and a factor without roots. -/
theorem roots_double : let m : Modulus := ⟨5,(isPrime_iff 5).mpr Nat.prime_five⟩
    let p : Dense (BaseRing.residues m).Elem := .ofList ([2,1,3,3,1].map (Residue.ofInt m))
    p ≠ 0 ∧ ∃ table : List (ℤ × ℕ), (roots ⟨.residues m,p⟩).outcome = .ok table ∧
      (table.map Prod.fst).Pairwise (· < ·) ∧
      (∀ x : ℤ, x ∈ table.map Prod.fst ↔
        (0 ≤ x ∧ x < m.value) ∧ eval ⟨.residues m,p⟩ (.integer x) = .ok 0) ∧
      (∀ entry ∈ table, 1 ≤ entry.2) ∧
      (∃ c : Dense (BaseRing.residues m).Elem, (∀ a, c.eval a ≠ 0) ∧
        p = c * (table.map fun entry =>
          Dense.linearFactor (entry.1 : (BaseRing.residues m).Elem) ^ entry.2).prod) ∧
      ((table.map Prod.snd).sum : ℤ) ≤ degree ⟨.residues m,p⟩ :=
  ⟨by decide,roots_total_correct _ _ (by decide)⟩

example : (roots ⟨.residues ⟨5,(isPrime_iff 5).mpr Nat.prime_five⟩,
    .ofList ([2,1,3,3,1].map (Residue.ofInt _))⟩).outcome = .ok [(1,2)] := by
  cbv

end Poly
end Bezout

import Mathlib
import Bezout.PolyArithmetic

/-!
The order of polynomials. They are compared as their sizes and then their coefficients from the highest power
down are (`Poly.rank`), so that the order is a linear one up to what the numbers do not tell apart. Over one ring
they tell all polynomials apart, and a sorted list has one form whatever order it came in.
-/
namespace Bezout
open Coefficient (number)

/-- The values of elements tell them apart, in every ring. -/
theorem BaseRing.value_number_injective (r : BaseRing) :
    Function.Injective fun a : r.Elem => (number a).value := by
  cases r with
  | rationals => exact fun _ _ same => same
  | residues m => exact fun _ _ same => Residue.ext (Int.cast_injective same)
  | _ => exact Int.cast_injective

namespace Poly

/-- What polynomials are ordered by: the size, and then the values of the coefficients from the highest power
    down. -/
def rank (p : Poly) : ℕ ×ₗ List ℚ := toLex (p.size,(p.numbers.map Number.value).reverse)

/-! ### Ranks -/

theorem length_numbers (p : Poly) : p.numbers.length = p.size := List.length_map _

/-- Numbers are compared one after the other as their values are. -/
theorem lessFrom_iff : ∀ {as bs : List Number}, as.length = bs.length →
    (lessFrom as bs = true ↔ as.map Number.value < bs.map Number.value)
  | [], [], _ => by simp [lessFrom]
  | a :: as, b :: bs, same => by
    have later := lessFrom_iff (Nat.succ.inj same)
    rw [List.map_cons,List.map_cons,List.cons_lt_cons_iff,← later,lessFrom]
    simp only [Number.less,decide_eq_true_eq]
    rcases lt_trichotomy a.value b.value with smaller | equal | larger
    · simp [smaller]
    · simp [equal]
    · simp [larger,larger.not_gt,larger.ne']

theorem less_iff (p q : Poly) : p.less q = true ↔ p.rank < q.rank := by
  rw [rank,rank,Prod.Lex.toLex_lt_toLex,less]
  by_cases same : p.size = q.size
  · have lengths : p.numbers.reverse.length = q.numbers.reverse.length := by
      rw [List.length_reverse,List.length_reverse,length_numbers,length_numbers,same]
    rw [if_pos same,lessFrom_iff lengths,List.map_reverse,List.map_reverse]
    simp [same]
  · rw [if_neg same,decide_eq_true_eq]
    simp [same]

theorem less_eq_false_iff (p q : Poly) : p.less q = false ↔ q.rank ≤ p.rank := by
  rw [← Bool.not_eq_true,less_iff,not_lt]

/-- Polynomials have the same rank if their coefficients have the same values. -/
theorem rank_eq_iff (p q : Poly) :
    p.rank = q.rank ↔ p.numbers.map Number.value = q.numbers.map Number.value := by
  rw [rank,rank,toLex_inj,Prod.mk.injEq,List.reverse_inj]
  constructor
  · exact And.right
  · intro same
    have lengths := congrArg List.length same
    rw [List.length_map,List.length_map,length_numbers,length_numbers] at lengths
    exact ⟨lengths,same⟩

/-- Over one ring the rank tells polynomials apart. -/
theorem eq_of_rank {p q : Poly} (ring : p.ring = q.ring) (same : p.rank = q.rank) : p = q := by
  obtain ⟨r,d⟩ := p
  obtain ⟨s,e⟩ := q
  cases ring
  rw [rank_eq_iff] at same
  have coeffs : d.coeffs = e.coeffs := by
    apply List.map_injective_iff.mpr r.value_number_injective
    simpa [numbers,Dense.numbers,Function.comp_def] using same
  exact congrArg (mk r) (Dense.ext coeffs)

theorem unordered_iff (p q : Poly) : (p.less q = false ∧ q.less p = false) ↔
    p.numbers.map Number.value = q.numbers.map Number.value := by
  rw [less_eq_false_iff,less_eq_false_iff,← rank_eq_iff,and_comm]
  exact le_antisymm_iff.symm

/-! ### Polynomials over one ring -/

section OneRing
variable {p q : Poly} (ring : p.ring = q.ring)
include ring

theorem atMost_eq : p.atMost q = !q.less p := by
  rw [Bool.eq_iff_iff,atMost,Bool.or_eq_true,decide_eq_true_eq,Bool.not_eq_true',less_iff,less_eq_false_iff]
  constructor
  · rintro (smaller | rfl)
    · exact smaller.le
    · exact le_rfl
  · intro below
    exact below.lt_or_eq.imp_right (eq_of_rank ring)

theorem greater_eq : p.greater q = q.less p := by
  have dual : p.greater q = !p.atMost q := by
    simp [greater,atMost]
  rw [dual,atMost_eq ring,Bool.not_not]

/-- Of two polynomials over one ring one comes before the other or they are the same, and never two of these. -/
theorem trichotomy : [p.less q,decide (p = q),q.less p].count true = 1 := by
  rcases lt_trichotomy p.rank q.rank with smaller | equal | larger
  · have apart : p ≠ q := fun same => smaller.ne (congrArg rank same)
    simp [(less_iff p q).mpr smaller,(less_eq_false_iff q p).mpr smaller.le,apart]
  · cases eq_of_rank ring equal
    simp [(less_eq_false_iff p p).mpr le_rfl]
  · have apart : p ≠ q := fun same => larger.ne' (congrArg rank same)
    simp [(less_iff q p).mpr larger,(less_eq_false_iff p q).mpr larger.le,apart]

end OneRing

/-! ### Sorting -/

theorem sorted_perm (ps : List Poly) : (sorted ps).Perm ps := List.mergeSort_perm ps _

theorem pairwise_sorted (ps : List Poly) : (sorted ps).Pairwise fun p q => p.rank ≤ q.rank := by
  have ascending : (sorted ps).Pairwise fun p q => (!q.less p) = true := by
    apply List.pairwise_mergeSort
    · intro p q s first second
      rw [Bool.not_eq_true',less_eq_false_iff] at first second ⊢
      exact first.trans second
    · intro p q
      simpa only [Bool.or_eq_true,Bool.not_eq_true',less_eq_false_iff] using le_total p.rank q.rank
  exact ascending.imp fun first => by simpa only [Bool.not_eq_true',less_eq_false_iff] using first

/-- Lists of the same polynomials over one ring have one sorted form. -/
theorem sorted_eq_of_perm {r : BaseRing} {ps qs : List Poly} (ring : ∀ p ∈ ps, p.ring = r)
    (same : ps.Perm qs) : sorted ps = sorted qs := by
  have reordered : (sorted ps).Perm (sorted qs) := (sorted_perm ps).trans (same.trans (sorted_perm qs).symm)
  refine reordered.eq_of_pairwise ?_ (pairwise_sorted ps) (pairwise_sorted qs)
  intro p q left right below above
  have first := ring p ((sorted_perm ps).subset left)
  have second := ring q (same.symm.subset ((sorted_perm qs).subset right))
  exact eq_of_rank (first.trans second.symm) (below.antisymm above)

/-- The order of polynomials, over whatever rings, is irreflexive, transitive and asymmetric, and leaves two
    unordered exactly if their coefficients are the same numbers. Sorting gives a list of the same polynomials
    in which none comes before an earlier one. Over one ring exactly one of two polynomials comes before the
    other unless they are the same, the other comparisons agree with this, and sorting does not depend on the
    order that polynomials come in. -/
theorem ordering_total_correct :
    (∀ p : Poly, p.less p = false) ∧
    (∀ p q s : Poly, p.less q = true → q.less s = true → p.less s = true) ∧
    (∀ p q : Poly, p.less q = true → q.less p = false) ∧
    (∀ p q : Poly, (p.less q = false ∧ q.less p = false) ↔
      p.numbers.map Number.value = q.numbers.map Number.value) ∧
    (∀ ps : List Poly, (sorted ps).Perm ps ∧ (sorted ps).Pairwise fun p q => q.less p = false) ∧
    (∀ p q : Poly, p.ring = q.ring →
      [p.less q,decide (p = q),q.less p].count true = 1 ∧ p.greater q = q.less p ∧
        p.atMost q = !q.less p ∧ p.atLeast q = !p.less q) ∧
    ∀ (r : BaseRing) (ps qs : List Poly), (∀ p ∈ ps, p.ring = r) → ps.Perm qs →
      sorted ps = sorted qs := by
  refine ⟨?_,?_,?_,unordered_iff,?_,?_,fun r ps qs => sorted_eq_of_perm⟩
  · intro p
    exact (less_eq_false_iff p p).mpr le_rfl
  · intro p q s first second
    rw [less_iff] at first second ⊢
    exact first.trans second
  · intro p q first
    exact (less_eq_false_iff q p).mpr ((less_iff p q).mp first).le
  · intro ps
    exact ⟨sorted_perm ps,(pairwise_sorted ps).imp fun {p q} => (less_eq_false_iff q p).mpr⟩
  · intro p q ring
    exact ⟨trichotomy ring,greater_eq ring,atMost_eq ring,rfl⟩

-- The coefficient of `x` decides before the constant does; one number is the same in two rings.
example : less ⟨.integers,.ofList [2019,944,95]⟩ ⟨.integers,.ofList [2012,945,95]⟩ = true ∧
    less ⟨.integers,.ofList [1,2]⟩ ⟨.rationals,.ofList [1,2]⟩ = false ∧
    less ⟨.rationals,.ofList [1,2]⟩ ⟨.integers,.ofList [1,2]⟩ = false := by
  refine ⟨?_,?_,?_⟩ <;> cbv

end Poly
end Bezout

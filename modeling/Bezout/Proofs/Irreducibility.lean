import Bezout.Proofs.Euclid
import Bezout.Proofs.Powers
import Bezout.Factor

/-!
Irreducibility over prime fields. An irreducible polynomial of degree `d` divides `X ^ q ^ i - X`
exactly if `d` divides `i`, where `q` is the number of elements of the field. A polynomial that has
nothing in common with these up to half its degree is therefore irreducible: a proper factor, repeated
or not, brings an irreducible one of at most half the degree. The loop takes what the reductions leave
of the power for the power itself, which changes nothing that the polynomial has in common with it.
-/
namespace Bezout
open Polynomial
open scoped Classical

/-! ### The criterion -/

section Criterion
variable {F : Type} [Field F]

theorem dvd_power_sub_X [Finite F] {g : F[X]} (irreducible : Irreducible g) :
    g ∣ X ^ Nat.card F ^ g.natDegree - X :=
  irreducible.natDegree_dvd_iff_dvd_X_pow_card_pow_sub_X.mp dvd_rfl

/-- An irreducible polynomial divides no power map up to half its degree. -/
theorem isRelPrime_power_sub_X {f : F[X]} (irreducible : Irreducible f) {i : ℕ} (positive : 0 < i)
    (half : i ≤ f.natDegree / 2) : IsRelPrime f (X ^ Nat.card F ^ i - X) := by
  rw [irreducible.isRelPrime_iff_not_dvd]
  intro divides
  have degree := irreducible.natDegree_dvd_of_dvd_X_pow_card_pow_sub_X divides
  have bound := Nat.le_of_dvd positive degree
  have nonconstant := irreducible.natDegree_pos
  omega

/-- A polynomial that is not irreducible has an irreducible factor of at most half its degree. -/
theorem exists_small_factor {f : F[X]} (nonconstant : 0 < f.natDegree) (reducible : ¬ Irreducible f) :
    ∃ g, Irreducible g ∧ g ∣ f ∧ g.natDegree ≤ f.natDegree / 2 := by
  have nonzero : f ≠ 0 := ne_zero_of_natDegree_gt nonconstant
  have nonunit : ¬ IsUnit f := not_isUnit_of_natDegree_pos f nonconstant
  rw [irreducible_iff_lt_natDegree_lt nonzero nonunit] at reducible
  push Not at reducible
  obtain ⟨factor,monic,range,divides⟩ := reducible
  obtain ⟨positive,small⟩ := Finset.mem_Ioc.mp range
  obtain ⟨g,irreducible,part⟩ := exists_irreducible_of_natDegree_pos positive
  exact ⟨g,irreducible,part.trans divides,(natDegree_le_of_dvd part monic.ne_zero).trans small⟩

/-- Ben-Or's criterion. -/
theorem irreducible_iff_isRelPrime [Finite F] {f : F[X]} (nonconstant : 0 < f.natDegree) :
    Irreducible f ↔ ∀ i, 0 < i → i ≤ f.natDegree / 2 → IsRelPrime f (X ^ Nat.card F ^ i - X) := by
  constructor
  · intro irreducible i positive half
    exact isRelPrime_power_sub_X irreducible positive half
  · intro coprime
    by_contra reducible
    obtain ⟨g,irreducible,divides,small⟩ := exists_small_factor nonconstant reducible
    have apart := coprime g.natDegree irreducible.natDegree_pos small
    exact irreducible.not_isUnit (apart divides (dvd_power_sub_X irreducible))

end Criterion

namespace Poly
variable {m : Modulus}

/-! ### Polynomials over a prime field -/

/-- A field is its own field of fractions. -/
theorem extend_self (p : Dense (BaseRing.residues m).Elem) :
    Dense.extend (BaseRing.residues m).Elem p = p.toPolynomial :=
  map_id

theorem isUnit_toPolynomial_iff {p : Dense (BaseRing.residues m).Elem} :
    IsUnit p.toPolynomial ↔ p.size = 1 := by
  rw [← Dense.isUnit_extend_iff (BaseRing.residues m).Elem,extend_self]

/-- A polynomial that is not constant is irreducible exactly if it is no product of two that are not. -/
theorem irreducible_iff_no_factors {f : Dense (BaseRing.residues m).Elem} (nonconstant : 2 ≤ f.size) :
    Irreducible f.toPolynomial ↔
      ¬ ∃ a b : Dense (BaseRing.residues m).Elem, 2 ≤ a.size ∧ 2 ≤ b.size ∧ a * b = f := by
  have nonzero : f ≠ 0 := mt Dense.size_eq_zero_iff.mpr (by omega)
  constructor
  · rintro irreducible ⟨a,b,first,second,rfl⟩
    rw [Dense.toPolynomial_mul] at irreducible
    rcases irreducible.isUnit_or_isUnit rfl with unit | unit <;>
      rw [isUnit_toPolynomial_iff] at unit <;> omega
  · intro none
    refine ⟨by rw [isUnit_toPolynomial_iff]; omega,?_⟩
    intro A B product
    obtain ⟨a,rfl⟩ := Dense.toPolynomial_surjective A
    obtain ⟨b,rfl⟩ := Dense.toPolynomial_surjective B
    have factors : a * b = f := Dense.toPolynomial_injective (by rw [Dense.toPolynomial_mul,product])
    have kept : a * b ≠ 0 := by rwa [factors]
    have left : a.size ≠ 0 := mt Dense.size_eq_zero_iff.mp (left_ne_zero_of_mul kept)
    have right : b.size ≠ 0 := mt Dense.size_eq_zero_iff.mp (right_ne_zero_of_mul kept)
    rw [isUnit_toPolynomial_iff,isUnit_toPolynomial_iff]
    by_contra neither
    exact none ⟨a,b,by omega,by omega,factors⟩

/-! ### The loop -/

/-- What reductions by a monic polynomial leave of a power shares with it what the power shares. -/
theorem isRelPrime_of_reduces {f p h x : Dense (BaseRing.residues m).Elem} (monic : f.lead = 1)
    (left : Dense.Reduces f p h) :
    IsRelPrime f.toPolynomial (h - x).toPolynomial ↔ IsRelPrime f.toPolynomial (p - x).toPolynomial := by
  obtain ⟨t,multiple⟩ := left.dvd_sub monic
  have shifted : (p - x).toPolynomial = (h - x).toPolynomial + f.toPolynomial * t.toPolynomial := by
    rw [← Dense.toPolynomial_mul,← multiple,← Dense.toPolynomial_add]
    congr 1
    ring
  rw [shifted,IsRelPrime.add_mul_left_right_iff]

/-- One round: the next power by the modulus, and whether the modulus has nothing in common with it
    less the variable. -/
theorem round_outcome {f h x : Dense (BaseRing.residues m).Elem} (monic : f.lead = 1) {i : ℕ}
    (power : Dense.Reduces f (x ^ m.value ^ i) h) :
    ∃ next g, (powerMod ⟨.residues m,h⟩ m.value ⟨.residues m,f⟩).outcome = .ok ⟨.residues m,next⟩ ∧
      Dense.Reduces f (x ^ m.value ^ (i + 1)) next ∧
      (gcd ⟨.residues m,f⟩ ⟨.residues m,next - x⟩).outcome = .ok ⟨.residues m,g⟩ ∧
      (isConstant ⟨.residues m,g⟩ = true ↔
        IsRelPrime f.toPolynomial (x ^ m.value ^ (i + 1) - x).toPolynomial) := by
  have nonzero := Dense.ne_zero_of_lead_eq_one monic
  obtain ⟨next,ended,reduced,-⟩ := powerMod_reduces (r := .residues m) trivial h f m.value
  have raised := power.pow m.value
  rw [← pow_mul,← pow_succ] at raised
  have total := raised.trans reduced
  obtain ⟨g,found,greatest⟩ := gcd_isGcd (BaseRing.residues m).Elem f (next - x)
  refine ⟨next,g,ended,total,found,?_⟩
  have kept : g ≠ 0 := fun zero => nonzero (greatest.eq_zero_iff.mp zero).1
  have positive : g.size ≠ 0 := mt Dense.size_eq_zero_iff.mp kept
  rw [← isRelPrime_of_reduces monic total,← extend_self,← extend_self,← greatest.isUnit_iff,
    Dense.isUnit_extend_iff,isConstant,decide_eq_true_eq]
  show g.size ≤ 1 ↔ g.size = 1
  omega

theorem irreducibleRounds_outcome {f x : Dense (BaseRing.residues m).Elem} (monic : f.lead = 1)
    (rounds j i : ℕ) {h : Dense (BaseRing.residues m).Elem}
    (power : Dense.Reduces f (x ^ m.value ^ i) h) :
    (irreducibleRounds m.value ⟨.residues m,f⟩ ⟨.residues m,x⟩ rounds j ⟨.residues m,h⟩).outcome =
      .ok (decide (∀ k, i < k → k ≤ i + rounds →
        IsRelPrime f.toPolynomial (x ^ m.value ^ k - x).toPolynomial)) := by
  -- Before each round `h` is what is left of the power that was tested last.
  induction rounds generalizing j i h with
  | zero =>
    have none : ∀ k, i < k → k ≤ i + 0 →
        IsRelPrime f.toPolynomial (x ^ m.value ^ k - x).toPolynomial := fun k _ _ => by omega
    rw [irreducibleRounds,decide_eq_true none]
    rfl
  | succ rounds ih =>
    obtain ⟨next,g,ended,reduced,found,constant⟩ := round_outcome monic power
    rw [irreducibleRounds,Work.outcome_bind ended,Work.outcome_ofExcept_bind (sub_eq next x),
      Work.outcome_bind found,Work.outcome_note_bind]
    by_cases apart : isConstant ⟨.residues m,g⟩ = true
    · rw [if_pos apart,ih _ (i + 1) reduced]
      congr 2
      apply propext
      constructor
      · intro later k above below
        rcases (Nat.succ_le_of_lt above).eq_or_lt with rfl | more
        · exact constant.mp apart
        · exact later k more (by omega)
      · intro all k above below
        exact all k (by omega) (by omega)
    · rw [if_neg apart]
      have shared : ¬ ∀ k, i < k → k ≤ i + (rounds + 1) →
          IsRelPrime f.toPolynomial (x ^ m.value ^ k - x).toPolynomial := by
        intro all
        exact apart (constant.mpr (all (i + 1) (by omega) (by omega)))
      rw [decide_eq_false shared]
      rfl

/-- The rounds decide whether a monic polynomial that is not constant is irreducible. -/
theorem irreducibleRounds_irreducible {f : Dense (BaseRing.residues m).Elem} (monic : f.lead = 1)
    (nonconstant : 2 ≤ f.size) :
    (irreducibleRounds m.value ⟨.residues m,f⟩ ⟨.residues m,Dense.monomial 1 1⟩ ((f.size - 1) / 2) 1
      ⟨.residues m,Dense.monomial 1 1⟩).outcome = .ok (decide (Irreducible f.toPolynomial)) := by
  have start : Dense.Reduces f (Dense.monomial 1 1 ^ m.value ^ 0) (Dense.monomial 1 1) := by
    rw [pow_zero,pow_one]
    exact Dense.Reduces.refl f _
  have degree := f.natDegree_toPolynomial
  rw [irreducibleRounds_outcome monic _ 1 0 start]
  congr 2
  rw [irreducible_iff_isRelPrime (by omega),degree,show Nat.card (BaseRing.residues m).Elem = m.value from
    Residue.card_eq m]
  apply propext
  refine forall_congr' fun k => ?_
  rw [zero_add]
  have image : (Dense.monomial (1 : (BaseRing.residues m).Elem) 1 ^ m.value ^ k -
      Dense.monomial 1 1).toPolynomial = X ^ m.value ^ k - X := by simp
  rw [image]

/-- The leading coefficient of any polynomial but zero can be divided by. -/
theorem exists_inverse {f : Dense (BaseRing.residues m).Elem} (nonzero : f ≠ 0) :
    ∃ c, Coefficient.inverse? f.lead = some c := by
  have unit : IsUnit f.lead := IsUnit.mk0 _ (mt Dense.lead_eq_zero_iff.mp nonzero)
  exact Option.ne_none_iff_exists'.mp fun none => Coefficient.inverse?_eq_none_iff.mp none unit

theorem isIrreducible_outcome (f : Dense (BaseRing.residues m).Elem) :
    (isIrreducible ⟨.residues m,f⟩).outcome = .ok (decide (Irreducible f.toPolynomial)) := by
  have degree := f.natDegree_toPolynomial
  have counted := degree_eq (r := .residues m) f
  simp only [isIrreducible]
  by_cases constant : f.size ≤ 1
  · have reducible : ¬ Irreducible f.toPolynomial := by
      intro irreducible
      have positive := irreducible.natDegree_pos
      omega
    rw [if_pos (by omega),decide_eq_false reducible]
    rfl
  rw [if_neg (by omega)]
  by_cases linear : f.size = 2
  · have irreducible : Irreducible f.toPolynomial :=
      irreducible_of_degree_eq_one ((degree_eq_iff_natDegree_eq_of_pos one_pos).mpr (by omega))
    rw [if_pos (by omega),decide_eq_true irreducible]
    rfl
  rw [if_neg (by omega)]
  obtain ⟨c,found⟩ := exists_inverse (mt Dense.size_eq_zero_iff.mpr (show f.size ≠ 0 by omega))
  have cancels := Coefficient.mul_inverse found
  have unit : c ≠ 0 := right_ne_zero_of_mul_eq_one cancels
  have monic : (f.scale c).lead = 1 := by rw [Dense.lead_scale,mul_comm,cancels]
  have size : (f.scale c).size = f.size := Dense.size_scale unit f
  have rounds : (Poly.degree ⟨.residues m,f⟩ / 2).toNat = ((f.scale c).size - 1) / 2 := by omega
  have associate : Irreducible (f.scale c).toPolynomial ↔ Irreducible f.toPolynomial := by
    rw [Dense.toPolynomial_scale,irreducible_isUnit_mul (isUnit_C.mpr (IsUnit.mk0 c unit))]
  rw [Work.outcome_ofExcept_bind (monic_eq rfl found),
    Work.outcome_ofExcept_bind (indeterminate_eq (r := .residues m) trivial),Work.outcome_task,rounds,
    irreducibleRounds_irreducible monic (by omega),decide_eq_decide.mpr associate]

/-- The test for irreducibility always answers, and it says yes exactly to the polynomials that are
    not constant and no product of two that are not. -/
theorem isIrreducible_iff_no_factors (m : Modulus) (f : Dense (BaseRing.residues m).Elem) :
    ∃ answer, (isIrreducible ⟨.residues m,f⟩).outcome = .ok answer ∧
      (answer = true ↔ 1 ≤ degree ⟨.residues m,f⟩ ∧
        ¬ ∃ a b : Dense (BaseRing.residues m).Elem, 1 ≤ degree ⟨.residues m,a⟩ ∧
          1 ≤ degree ⟨.residues m,b⟩ ∧ a * b = f) := by
  have degrees : ∀ p : Dense (BaseRing.residues m).Elem, 1 ≤ degree ⟨.residues m,p⟩ ↔ 2 ≤ p.size := by
    intro p
    have counted := degree_eq (r := .residues m) p
    omega
  refine ⟨_,isIrreducible_outcome f,?_⟩
  simp only [decide_eq_true_iff,degrees]
  constructor
  · intro irreducible
    have positive := irreducible.natDegree_pos
    rw [Dense.natDegree_toPolynomial] at positive
    have nonconstant : 2 ≤ f.size := by omega
    exact ⟨nonconstant,(irreducible_iff_no_factors nonconstant).mp irreducible⟩
  · rintro ⟨nonconstant,none⟩
    exact (irreducible_iff_no_factors nonconstant).mpr none

end Poly
end Bezout

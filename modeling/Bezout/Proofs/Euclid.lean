import Bezout.Proofs.Divisibility
import Bezout.Gcd

/-!
Euclid's algorithm. `EuclidRun` is the chain of divisions that greatest common divisors and
cofactors both go through; it ends because remainders shrink, within the rounds that the loops
have. Each division keeps the common divisors over the field of fractions, so that what the run ends
with is a greatest common divisor.
-/
namespace Bezout
open Polynomial
open scoped Classical

namespace Dense
variable {R : Type} [CoefficientDomain R] (K : Type) [Field K] [Algebra R K]

/-- A greatest common divisor of `p` and `q` over the field of fractions. -/
def IsGcd (p q g : Dense R) : Prop :=
  ∀ D : K[X], D ∣ extend K g ↔ D ∣ extend K p ∧ D ∣ extend K q

theorem IsGcd.symm {p q g : Dense R} (greatest : IsGcd K p q g) : IsGcd K q p g :=
  fun D => (greatest D).trans and_comm

theorem isGcd_zero (p : Dense R) : IsGcd K p 0 p := fun D =>
  ⟨fun divides => ⟨divides,by rw [map_zero]; exact dvd_zero D⟩,And.left⟩

variable [IsFractionRing R K]

/-- Greatest common divisors of divisor and remainder are those of dividend and divisor. -/
theorem IsDivision.isGcd {p q g : Dense R} {d : Division (Dense R)} (division : IsDivision p q d)
    (greatest : IsGcd K q d.remainder g) : IsGcd K p q g := by
  intro D
  rw [greatest D,and_comm]
  exact and_congr_left fun divisor => (division.dvd_iff_dvd_remainder K divisor).symm

/-- A greatest common divisor is zero only for zeros. -/
theorem IsGcd.eq_zero_iff {p q g : Dense R} (greatest : IsGcd K p q g) : g = 0 ↔ p = 0 ∧ q = 0 := by
  have zeros := greatest 0
  simpa only [zero_dvd_iff,extend_eq_zero_iff] using zeros

omit [IsFractionRing R K] in
/-- What two polynomials have in common is told by their greatest common divisor. -/
theorem IsGcd.isUnit_iff {p q g : Dense R} (greatest : IsGcd K p q g) :
    IsUnit (extend K g) ↔ IsRelPrime (extend K p) (extend K q) := by
  constructor
  · intro unit D first second
    exact isUnit_of_dvd_unit ((greatest D).mpr ⟨first,second⟩) unit
  · intro coprime
    obtain ⟨first,second⟩ := (greatest _).mp dvd_rfl
    exact coprime first second

end Dense

/-- The divisions of Euclid's algorithm from `p` and `q` on, down to the last divisor `g`. -/
inductive EuclidRun {r : BaseRing} : Dense r.Elem → Dense r.Elem → Dense r.Elem → Prop
  | stop (p : Dense r.Elem) : EuclidRun p 0 p
  | step {p q g : Dense r.Elem} {d : Division (Dense r.Elem)} (nonzero : q ≠ 0)
      (ended : (Poly.divide ⟨r,p⟩ ⟨r,q⟩).outcome = .ok (.over r d)) (division : Dense.IsDivision p q d)
      (rest : EuclidRun q d.remainder g) : EuclidRun p q g

namespace EuclidRun
variable {r : BaseRing}

theorem eq_of_zero {p g : Dense r.Elem} (run : EuclidRun p 0 g) : g = p := by
  cases run with
  | stop => rfl
  | step nonzero => exact absurd rfl nonzero

/-- Every run ends: remainders shrink. -/
theorem exists_run (p q : Dense r.Elem) : ∃ g, EuclidRun p q g := by
  by_cases zero : q = 0
  · subst zero
    exact ⟨p,stop p⟩
  · obtain ⟨d,ended,division,-⟩ := Poly.divide_isDivision p q
    have smaller := division.remainder_lt zero
    obtain ⟨g,rest⟩ := exists_run q d.remainder
    exact ⟨g,step zero ended division rest⟩
termination_by q.size

theorem isGcd (K : Type) [Field K] [Algebra r.Elem K] [IsFractionRing r.Elem K] {p q g : Dense r.Elem}
    (run : EuclidRun p q g) : Dense.IsGcd K p q g := by
  induction run with
  | stop p => exact Dense.isGcd_zero K p
  | step nonzero ended division rest ih => exact division.isGcd K ih

end EuclidRun

namespace Poly
variable {r : BaseRing}

theorem mod_of_divide {p q : Dense r.Elem} {d : Division (Dense r.Elem)}
    (ended : (divide ⟨r,p⟩ ⟨r,q⟩).outcome = .ok (.over r d)) :
    (mod ⟨r,p⟩ ⟨r,q⟩).outcome = .ok ⟨r,d.remainder⟩ := by
  simp [mod,ended,Except.map]

theorem div_of_divide {p q : Dense r.Elem} {d : Division (Dense r.Elem)}
    (ended : (divide ⟨r,p⟩ ⟨r,q⟩).outcome = .ok (.over r d)) :
    (div ⟨r,p⟩ ⟨r,q⟩).outcome = .ok ⟨r,d.quotient⟩ := by
  simp [div,ended,Except.map]

theorem scaleExponent_of_divide {p q : Dense r.Elem} {d : Division (Dense r.Elem)}
    (ended : (divide ⟨r,p⟩ ⟨r,q⟩).outcome = .ok (.over r d)) :
    (scaleExponent ⟨r,p⟩ ⟨r,q⟩).outcome = .ok d.scale := by
  simp [scaleExponent,ended,Except.map]

/-- As many rounds as the divisor has coefficients are enough. -/
theorem gcdRounds_of_run {p q g : Dense r.Elem} (run : EuclidRun p q g) (nonzero : q ≠ 0) {rounds : ℕ}
    (enough : q.size ≤ rounds) : (gcdRounds rounds ⟨r,p⟩ ⟨r,q⟩).outcome = .ok ⟨r,g⟩ := by
  induction run generalizing rounds with
  | stop p => exact absurd rfl nonzero
  | @step p q g d _ ended division rest ih =>
    have smaller := division.remainder_lt nonzero
    obtain ⟨rounds,rfl⟩ := Nat.exists_eq_add_of_lt (show 0 < rounds by omega)
    rw [zero_add,gcdRounds,Work.outcome_bind (mod_of_divide ended)]
    by_cases last : d.remainder = 0
    · rw [if_pos (isZero_iff.mpr last)]
      rw [last] at rest
      rw [rest.eq_of_zero]
      rfl
    · rw [if_neg (mt isZero_iff.mp last),Work.outcome_note_bind]
      exact ih last (by omega)

/-- A divisor of zero goes without a remainder. -/
theorem mod_zero_left (q : Dense r.Elem) : (mod ⟨r,0⟩ ⟨r,q⟩).outcome = .ok ⟨r,0⟩ := by
  obtain ⟨d,ended,division⟩ := mod_outcome 0 q
  have none : d.remainder = 0 := by
    rw [← division.dvd_iff (FractionRing r.Elem),map_zero]
    exact dvd_zero _
  rw [ended,none]

theorem mod_zero_right (p : Dense r.Elem) : (mod ⟨r,p⟩ ⟨r,0⟩).outcome = .ok ⟨r,p⟩ := by
  obtain ⟨d,ended,division⟩ := mod_outcome p 0
  rw [ended,division.by_zero rfl]

/-- With zero the loop swaps once more; a constant is left by the end of the rounds. -/
theorem gcdRounds_zero {p : Dense r.Elem} (nonzero : p ≠ 0) :
    (gcdRounds p.size ⟨r,p⟩ ⟨r,0⟩).outcome = .ok ⟨r,p⟩ := by
  obtain ⟨rounds,size⟩ := Nat.exists_eq_succ_of_ne_zero (mt Dense.size_eq_zero_iff.mp nonzero)
  rw [size,gcdRounds,Work.outcome_bind (mod_zero_right p),if_neg (mt isZero_iff.mp nonzero),
    Work.outcome_note_bind]
  cases rounds with
  | zero => rfl
  | succ rounds =>
    rw [gcdRounds,Work.outcome_bind (mod_zero_left p),if_pos (isZero_iff.mpr rfl)]
    rfl

theorem gcdOrdered_of_run {p q g : Dense r.Elem} (run : EuclidRun p q g) (ordered : q.size ≤ p.size) :
    (gcdOrdered ⟨r,p⟩ ⟨r,q⟩).outcome = .ok ⟨r,g⟩ := by
  rw [gcdOrdered]
  by_cases zero : q = 0
  · subst zero
    cases run with
    | step nonzero => exact absurd rfl nonzero
    | stop =>
      by_cases none : p = 0
      · rw [if_pos (isZero_iff.mpr none),none]
        rfl
      · rw [if_neg (mt isZero_iff.mp none),Work.outcome_task]
        exact gcdRounds_zero none
  · have positive : q.size ≠ 0 := mt Dense.size_eq_zero_iff.mp zero
    have nonzero : p ≠ 0 := mt Dense.size_eq_zero_iff.mpr (by omega)
    rw [if_neg (mt isZero_iff.mp nonzero),Work.outcome_task]
    exact gcdRounds_of_run run zero ordered

/-- The greatest common divisor is what the run from the larger polynomial ends with. -/
theorem gcd_run (p q : Dense r.Elem) :
    ∃ g, (gcd ⟨r,p⟩ ⟨r,q⟩).outcome = .ok ⟨r,g⟩ ∧
      if p.size < q.size then EuclidRun q p g else EuclidRun p q g := by
  rw [gcd]
  by_cases swapped : p.size < q.size
  · obtain ⟨g,run⟩ := EuclidRun.exists_run q p
    refine ⟨g,?_,by rwa [if_pos swapped]⟩
    rw [if_pos (show size ⟨r,p⟩ < size ⟨r,q⟩ from swapped)]
    exact gcdOrdered_of_run run swapped.le
  · obtain ⟨g,run⟩ := EuclidRun.exists_run p q
    refine ⟨g,?_,by rwa [if_neg swapped]⟩
    rw [if_neg (show ¬ size ⟨r,p⟩ < size ⟨r,q⟩ from swapped)]
    exact gcdOrdered_of_run run (by omega)

theorem gcd_isGcd (K : Type) [Field K] [Algebra r.Elem K] [IsFractionRing r.Elem K]
    (p q : Dense r.Elem) : ∃ g, (gcd ⟨r,p⟩ ⟨r,q⟩).outcome = .ok ⟨r,g⟩ ∧ Dense.IsGcd K p q g := by
  obtain ⟨g,ended,run⟩ := gcd_run p q
  refine ⟨g,ended,?_⟩
  split at run
  · exact (run.isGcd K).symm
  · exact run.isGcd K

/-- Polynomials are coprime if they are over the field of fractions. -/
theorem coprime_outcome (K : Type) [Field K] [Algebra r.Elem K] [IsFractionRing r.Elem K]
    (p q : Dense r.Elem) :
    (coprime ⟨r,p⟩ ⟨r,q⟩).outcome = .ok (decide (IsCoprime (Dense.extend K p) (Dense.extend K q))) := by
  obtain ⟨g,ended,greatest⟩ := gcd_isGcd K p q
  rw [coprime,Work.outcome_map,ended,Except.map]
  congr 1
  rw [Bool.eq_iff_iff,beq_iff_eq,decide_eq_true_iff,← isRelPrime_iff_isCoprime,← greatest.isUnit_iff,
    Dense.isUnit_extend_iff]
  rfl

/-- The greatest common divisor divides both polynomials, whatever divides both of them divides it,
    and it is zero only for zeros. -/
theorem gcd_total_correct (r : BaseRing) (p q : Dense r.Elem) :
    ∃ g : Dense r.Elem, (gcd ⟨r,p⟩ ⟨r,q⟩).outcome = .ok ⟨r,g⟩ ∧
      (divides ⟨r,g⟩ ⟨r,p⟩).outcome = .ok true ∧ (divides ⟨r,g⟩ ⟨r,q⟩).outcome = .ok true ∧
      (∀ d : Dense r.Elem, (divides ⟨r,d⟩ ⟨r,p⟩).outcome = .ok true →
        (divides ⟨r,d⟩ ⟨r,q⟩).outcome = .ok true → (divides ⟨r,d⟩ ⟨r,g⟩).outcome = .ok true) ∧
      (g = 0 ↔ p = 0 ∧ q = 0) := by
  obtain ⟨g,ended,greatest⟩ := gcd_isGcd (FractionRing r.Elem) p q
  obtain ⟨first,second⟩ := (greatest _).mp dvd_rfl
  refine ⟨g,ended,?_,?_,?_,greatest.eq_zero_iff⟩
  · rw [divides_outcome (FractionRing r.Elem),decide_eq_true first]
  · rw [divides_outcome (FractionRing r.Elem),decide_eq_true second]
  · intro d
    simp only [divides_outcome (FractionRing r.Elem),Except.ok.injEq,decide_eq_true_eq]
    exact fun common also => (greatest _).mpr ⟨common,also⟩

end Poly
end Bezout

import Bezout.Proofs.Euclid

/-!
The greatest divisor that is coprime to a polynomial. Each round takes the common factor with `q` out
of `p`; a divisor of `p` that is coprime to `q` has nothing in common with that factor, so that it
still divides the quotient. The quotient is smaller, so that the rounds suffice.
-/
namespace Bezout
open Polynomial
open scoped Classical

namespace Dense
variable {R : Type} [CoefficientDomain R] (K : Type) [Field K] [Algebra R K]

/-- A greatest divisor `d` of `p` among those coprime to `q`, over the field of fractions. -/
structure IsCoprimePart (p q d : Dense R) : Prop where
  dvd : extend K d ∣ extend K p
  coprime : IsCoprime (extend K d) (extend K q)
  greatest : ∀ D : K[X], D ∣ extend K p → IsCoprime D (extend K q) → D ∣ extend K d

theorem isCoprimePart_self {p q : Dense R} (coprime : IsCoprime (extend K p) (extend K q)) :
    IsCoprimePart K p q p where
  dvd := dvd_rfl
  coprime := coprime
  greatest _ divides _ := divides

variable [IsFractionRing R K]

/-- Taking out a common factor leaves the coprime part as it is. -/
theorem IsCoprimePart.of_quotient {p q g e : Dense R} {d : Division (Dense R)} (greatest : IsGcd K p q g)
    (division : IsDivision p g d) (part : IsCoprimePart K d.quotient q e) : IsCoprimePart K p q e := by
  obtain ⟨first,second⟩ := (greatest _).mp dvd_rfl
  have factors := division.associated_mul K first
  refine ⟨?_,part.coprime,?_⟩
  · exact part.dvd.trans ((dvd_mul_right _ _).trans factors.dvd)
  · intro D divides coprime
    have apart : IsCoprime D (extend K g) := coprime.of_isCoprime_of_dvd_right second
    exact part.greatest D (apart.dvd_of_dvd_mul_right (divides.trans factors.dvd')) coprime

end Dense

namespace Poly
variable {r : BaseRing}

/-- A round that finds a common factor goes on with a smaller quotient, which has the same coprime
    part. -/
theorem quotient_by_gcd (K : Type) [Field K] [Algebra r.Elem K] [IsFractionRing r.Elem K]
    {p q : Dense r.Elem} (nonzero : p ≠ 0)
    (shared : ¬ IsCoprime (Dense.extend K p) (Dense.extend K q)) :
    ∃ g s : Dense r.Elem, (gcd ⟨r,p⟩ ⟨r,q⟩).outcome = .ok ⟨r,g⟩ ∧
      (div ⟨r,p⟩ ⟨r,g⟩).outcome = .ok ⟨r,s⟩ ∧ s ≠ 0 ∧ s.size < p.size ∧
      ∀ e, Dense.IsCoprimePart K s q e → Dense.IsCoprimePart K p q e := by
  obtain ⟨g,found,greatest⟩ := gcd_isGcd K p q
  obtain ⟨d,ended,division,-⟩ := divide_isDivision p g
  obtain ⟨divides,-⟩ := (greatest _).mp dvd_rfl
  rw [← isRelPrime_iff_isCoprime,← greatest.isUnit_iff,Dense.isUnit_extend_iff] at shared
  have kept : g ≠ 0 := fun zero => nonzero (greatest.eq_zero_iff.mp zero).1
  have positive : g.size ≠ 0 := mt Dense.size_eq_zero_iff.mp kept
  exact ⟨g,d.quotient,found,div_of_divide ended,division.quotient_ne_zero K divides nonzero,
    division.quotient_smaller nonzero (by omega),fun e part => part.of_quotient K greatest division⟩

/-- As many rounds as `p` has coefficients are enough. -/
theorem gdcopRounds_isCoprimePart (K : Type) [Field K] [Algebra r.Elem K] [IsFractionRing r.Elem K]
    (q : Dense r.Elem) {p : Dense r.Elem} (nonzero : p ≠ 0) {rounds : ℕ} (enough : p.size ≤ rounds) :
    ∃ e, (gdcopRounds r ⟨r,q⟩ rounds ⟨r,p⟩).outcome = .ok ⟨r,e⟩ ∧ Dense.IsCoprimePart K p q e := by
  induction rounds generalizing p with
  | zero => exact absurd (Dense.size_eq_zero_iff.mp (Nat.le_zero.mp enough)) nonzero
  | succ rounds ih =>
    rw [gdcopRounds,Work.outcome_bind (coprime_outcome K p q)]
    by_cases apart : IsCoprime (Dense.extend K p) (Dense.extend K q)
    · rw [if_pos (decide_eq_true apart)]
      exact ⟨p,rfl,Dense.isCoprimePart_self K apart⟩
    · obtain ⟨g,s,found,taken,left,smaller,stripped⟩ := quotient_by_gcd K nonzero apart
      obtain ⟨e,ended,part⟩ := ih left (by omega)
      refine ⟨e,?_,stripped e part⟩
      rw [if_neg (by simpa using apart),Work.outcome_bind found,Work.outcome_bind taken,ended]

/-- Of zero only what is coprime to zero is left: one, or nothing but zero itself. -/
theorem gdcop_zero (takes : r.TakesNumbers) (q : Dense r.Elem) :
    (gdcop ⟨r,q⟩ ⟨r,0⟩).outcome = .ok ⟨r,if q = 0 then 1 else 0⟩ := by
  show constant (.integer (if isZero ⟨r,q⟩ then 1 else 0)) r = _
  by_cases zero : q = 0
  · rw [if_pos (isZero_iff.mpr zero),if_pos zero]
    exact one_eq takes
  · rw [if_neg (mt isZero_iff.mp zero),if_neg zero]
    exact zero_eq takes

/-- The greatest divisor that is coprime to `q` divides `p`, is coprime to `q`, and every divisor of
    `p` that is coprime to `q` divides it. -/
theorem gdcop_total_correct (r : BaseRing) (p q : Dense r.Elem) (nonzero : p ≠ 0) :
    ∃ d : Dense r.Elem, (gdcop ⟨r,q⟩ ⟨r,p⟩).outcome = .ok ⟨r,d⟩ ∧
      (divides ⟨r,d⟩ ⟨r,p⟩).outcome = .ok true ∧ (coprime ⟨r,d⟩ ⟨r,q⟩).outcome = .ok true ∧
      ∀ e : Dense r.Elem, (divides ⟨r,e⟩ ⟨r,p⟩).outcome = .ok true →
        (coprime ⟨r,e⟩ ⟨r,q⟩).outcome = .ok true → (divides ⟨r,e⟩ ⟨r,d⟩).outcome = .ok true := by
  obtain ⟨d,ended,part⟩ := gdcopRounds_isCoprimePart (FractionRing r.Elem) q nonzero le_rfl
  refine ⟨d,ended,?_,?_,?_⟩
  · rw [divides_outcome (FractionRing r.Elem),decide_eq_true part.dvd]
  · rw [coprime_outcome (FractionRing r.Elem),decide_eq_true part.coprime]
  · intro e
    simp only [divides_outcome (FractionRing r.Elem),coprime_outcome (FractionRing r.Elem),
      Except.ok.injEq,decide_eq_true_eq]
    exact part.greatest _

/-- Over the integers, where the factor in common is repeated and has a leading coefficient that is no
    unit. -/
theorem gdcop_repeated_factor : (.ofList [-1,-3,0,4] : Dense BaseRing.integers.Elem) ≠ 0 ∧
    ∃ d : Dense BaseRing.integers.Elem,
      (gdcop ⟨.integers,.ofList [1,2]⟩ ⟨.integers,.ofList [-1,-3,0,4]⟩).outcome = .ok ⟨.integers,d⟩ ∧
      (divides ⟨.integers,d⟩ ⟨.integers,.ofList [-1,-3,0,4]⟩).outcome = .ok true ∧
      (coprime ⟨.integers,d⟩ ⟨.integers,.ofList [1,2]⟩).outcome = .ok true ∧
      ∀ e : Dense BaseRing.integers.Elem,
        (divides ⟨.integers,e⟩ ⟨.integers,.ofList [-1,-3,0,4]⟩).outcome = .ok true →
        (coprime ⟨.integers,e⟩ ⟨.integers,.ofList [1,2]⟩).outcome = .ok true →
        (divides ⟨.integers,e⟩ ⟨.integers,d⟩).outcome = .ok true :=
  ⟨by decide,gdcop_total_correct .integers _ _ (by decide)⟩

end Poly
end Bezout

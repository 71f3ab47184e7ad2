import Bezout.Proofs.Division

/-!
What a division finds. A remainder smaller than the divisor leaves only one quotient, so that both divisions
get the parts of `s * q + t` back, multiplied by the leading coefficient of `q` as often as they multiplied on
the way (`IsDivision.eq_scale`). They take different steps and cancel different terms, but what they find is
in the proportion of these factors.
-/
namespace Bezout
namespace Dense
variable {R : Type} [CoefficientDomain R] {q s t : Dense R} {d : Division (Dense R)}

/-- A division of `s * q + t` finds `s` and a `t` that is smaller than the divisor, both multiplied as often
    as the division says. -/
theorem IsDivision.eq_scale (division : IsDivision (s * q + t) q d) (small : t.size < q.size) :
    d = ⟨d.scale.toNat,s.scale (q.lead ^ d.scale.toNat),t.scale (q.lead ^ d.scale.toNat)⟩ := by
  have nonzero : q ≠ 0 := mt size_eq_zero_iff.mpr (by omega)
  obtain ⟨quotients,remainders⟩ :=
    (division_iff_proportional nonzero one_ne_zero division.power_ne_zero (scale_one _) small).mp
      ⟨division.remainder_lt nonzero,division.identity⟩
  rw [scale_one] at quotients remainders
  rw [division.toNat_scale,← quotients,← remainders]

/-- A division that does not multiply finds the very parts. -/
theorem IsDivision.eq_of_unscaled (division : IsDivision (s * q + t) q d) (small : t.size < q.size)
    (unscaled : d.scale = 0) : d = ⟨0,s,t⟩ := by
  have found := division.eq_scale small
  rw [unscaled,Int.toNat_zero,pow_zero,scale_one,scale_one] at found
  exact found

end Dense

namespace Poly
variable {r : BaseRing} {q : Dense r.Elem}

/-- Where the leading coefficient of the divisor is a unit, division finds the parts. -/
theorem divide_mul_add (unit : IsUnit q.lead) (s : Dense r.Elem) {t : Dense r.Elem}
    (small : t.size < q.size) : (divide ⟨r,s * q + t⟩ ⟨r,q⟩).outcome = .ok (.over r ⟨0,s,t⟩) := by
  obtain ⟨d,ended,division,unscaled⟩ := divide_isDivision (s * q + t) q
  rw [ended,division.eq_of_unscaled small (unscaled unit)]

/-- Pseudo-division finds the parts multiplied by a power of the leading coefficient. -/
theorem pseudoDivide_mul_add (s : Dense r.Elem) {t : Dense r.Elem} (small : t.size < q.size) :
    ∃ k : ℕ, (pseudoDivide ⟨r,s * q + t⟩ ⟨r,q⟩).outcome =
      .ok (.over r ⟨k,s.scale (q.lead ^ k),t.scale (q.lead ^ k)⟩) := by
  obtain ⟨d,ended,division⟩ := pseudoDivide_isDivision (s * q + t) q
  refine ⟨d.scale.toNat,?_⟩
  rw [ended,← division.eq_scale small]

/-- If the leading coefficient of the divisor is a unit, the parts that pseudo-division finds are those that
    division finds, multiplied by it as often as pseudo-division did; and from a multiple of the divisor and
    a smaller polynomial both divisions get these back, pseudo-division over any divisor. -/
theorem divisions_proportional (r : BaseRing) (q : Dense r.Elem) :
    (IsUnit q.lead → ∀ p : Dense r.Elem, ∃ (quotient remainder : Dense r.Elem) (k : ℕ),
      (divide ⟨r,p⟩ ⟨r,q⟩).outcome = .ok (.over r ⟨0,quotient,remainder⟩) ∧
      (pseudoDivide ⟨r,p⟩ ⟨r,q⟩).outcome =
        .ok (.over r ⟨k,quotient.scale (q.lead ^ k),remainder.scale (q.lead ^ k)⟩)) ∧
    ∀ s t : Dense r.Elem, t.size < q.size →
      (IsUnit q.lead → (divide ⟨r,s * q + t⟩ ⟨r,q⟩).outcome = .ok (.over r ⟨0,s,t⟩)) ∧
      ∃ k : ℕ, (pseudoDivide ⟨r,s * q + t⟩ ⟨r,q⟩).outcome =
        .ok (.over r ⟨k,s.scale (q.lead ^ k),t.scale (q.lead ^ k)⟩) := by
  constructor
  · intro unit p
    obtain ⟨d,-,division,unscaled⟩ := divide_isDivision p q
    have nonzero : q ≠ 0 := by
      rintro rfl
      exact not_isUnit_zero unit
    have small := division.remainder_lt nonzero
    have parts : p = d.quotient * q + d.remainder := by
      rw [← division.identity,unscaled unit,Int.toNat_zero,pow_zero,Dense.scale_one]
    obtain ⟨k,scaled⟩ := pseudoDivide_mul_add d.quotient small
    have exact := divide_mul_add unit d.quotient small
    rw [← parts] at exact scaled
    exact ⟨d.quotient,d.remainder,k,exact,scaled⟩
  · intro s t small
    exact ⟨fun unit => divide_mul_add unit s small,pseudoDivide_mul_add s small⟩

/-- Over the integers, by a divisor whose leading coefficient is minus one. -/
theorem divisions_proportional_minus_one :
    let q : Dense BaseRing.integers.Elem := .ofList [1,-1]
    let s : Dense BaseRing.integers.Elem := .ofList [-1,-1,-1]
    let t : Dense BaseRing.integers.Elem := .ofList [2]
    IsUnit q.lead ∧ t.size < q.size ∧
      (∀ p : Dense BaseRing.integers.Elem, ∃ (quotient remainder : Dense BaseRing.integers.Elem) (k : ℕ),
        (divide ⟨.integers,p⟩ ⟨.integers,q⟩).outcome = .ok (.over .integers ⟨0,quotient,remainder⟩) ∧
        (pseudoDivide ⟨.integers,p⟩ ⟨.integers,q⟩).outcome =
          .ok (.over .integers ⟨k,quotient.scale (q.lead ^ k),remainder.scale (q.lead ^ k)⟩)) ∧
      (divide ⟨.integers,s * q + t⟩ ⟨.integers,q⟩).outcome = .ok (.over .integers ⟨0,s,t⟩) ∧
      ∃ k : ℕ, (pseudoDivide ⟨.integers,s * q + t⟩ ⟨.integers,q⟩).outcome =
        .ok (.over .integers ⟨k,s.scale (q.lead ^ k),t.scale (q.lead ^ k)⟩) := by
  intro q s t
  have unit : IsUnit q.lead := ⟨⟨-1,-1,rfl,rfl⟩,rfl⟩
  have small : t.size < q.size := by decide
  obtain ⟨proportional,parts⟩ := divisions_proportional .integers q
  obtain ⟨exact,scaled⟩ := parts s t small
  exact ⟨unit,small,proportional unit,exact unit,scaled⟩

end Poly
end Bezout

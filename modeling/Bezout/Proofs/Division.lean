import Bezout.Proofs.Outcomes
import Bezout.Proofs.Reckoning
import Bezout.Divide

/-!
Division with remainder. Both loops are runs of one relation (`Steps`) and keep one invariant
(`Progress`): the identity of the division, multiplied by the leading coefficient as often as the loop
did, and the size of the quotient, which the first step settles. A step cancels the leading term of the
remainder, so that the loops end.
-/
namespace Bezout
namespace Dense
variable {R : Type} [CoefficientDomain R]

/-- A division of `p` by `q`: dividing by zero leaves `p`, and any other divisor leaves a smaller
    remainder after `p` has been multiplied by a power of its leading coefficient. -/
structure IsDivision (p q : Dense R) (d : Division (Dense R)) : Prop where
  by_zero : q = 0 → d = ⟨0,0,p⟩
  scale_nonneg : 0 ≤ d.scale
  identity : p.scale (q.lead ^ d.scale.toNat) = d.quotient * q + d.remainder
  remainder_lt : q ≠ 0 → d.remainder.size < q.size
  quotient_size : q ≠ 0 → (d.quotient.size : ℤ) = max 0 ((p.size : ℤ) - q.size + 1)

theorem IsDivision.toNat_scale {p q : Dense R} {d : Division (Dense R)} (division : IsDivision p q d) :
    (d.scale.toNat : ℤ) = d.scale :=
  Int.toNat_of_nonneg division.scale_nonneg

/-- What a division multiplies by is not zero, even if the divisor is. -/
theorem IsDivision.power_ne_zero {p q : Dense R} {d : Division (Dense R)} (division : IsDivision p q d) :
    q.lead ^ d.scale.toNat ≠ 0 := by
  by_cases zero : q = 0
  · rw [division.by_zero zero,Int.toNat_zero,pow_zero]
    exact one_ne_zero
  · exact pow_ne_zero _ (mt lead_eq_zero_iff.mp zero)

/-- What a division of `p` by `q` keeps after it has multiplied `steps` times: either nothing was
    done yet, or the quotient has the size that it will have in the end. -/
structure Progress (p q : Dense R) (steps : ℕ) (quotient remainder : Dense R) : Prop where
  identity : p.scale (q.lead ^ steps) = quotient * q + remainder
  sizes : quotient = 0 ∧ remainder = p ∨
    remainder.size < p.size ∧ q.size ≤ p.size ∧ quotient.size = p.size + 1 - q.size

theorem scale_one (p : Dense R) : p.scale 1 = p := toPolynomial_injective (by simp)

theorem Progress.start (p q : Dense R) : Progress p q 0 0 p where
  identity := by rw [pow_zero,scale_one,zero_mul,zero_add]
  sizes := .inl ⟨rfl,rfl⟩

/-- The factor that cancels a leading term is not zero. -/
theorem factor_ne_zero {q remainder : Dense R} (nonzero : q ≠ 0) (fits : q.size ≤ remainder.size)
    {c a : R} (scaled : c ≠ 0) (cancels : a * q.lead = c * remainder.lead) : a ≠ 0 := by
  have positive : q.size ≠ 0 := mt size_eq_zero_iff.mp nonzero
  have rest : remainder ≠ 0 := by
    rintro rfl
    exact positive (Nat.le_zero.mp fits)
  rintro rfl
  rw [zero_mul] at cancels
  exact mul_ne_zero scaled (mt lead_eq_zero_iff.mp rest) cancels.symm

/-- Taking a multiple of the divisor from a remainder that is not smaller cancels the leading term. -/
theorem cancel_lt {q remainder : Dense R} (nonzero : q ≠ 0) (fits : q.size ≤ remainder.size) {c a : R}
    (scaled : c ≠ 0) (cancels : a * q.lead = c * remainder.lead) :
    (remainder.scale c - Dense.monomial a (remainder.size - q.size) * q).size < remainder.size := by
  have positive : q.size ≠ 0 := mt size_eq_zero_iff.mp nonzero
  have factor := factor_ne_zero nonzero fits scaled cancels
  have kept := size_scale scaled remainder
  have rest : remainder.scale c ≠ 0 := mt size_eq_zero_iff.mpr (by omega)
  have multiple : (Dense.monomial a (remainder.size - q.size) * q).size = remainder.size := by
    rw [size_mul (monomial_ne_zero factor _) nonzero,size_monomial factor]
    omega
  calc (remainder.scale c - Dense.monomial a (remainder.size - q.size) * q).size
      < (remainder.scale c).size := by
        apply size_sub_lt rest (multiple.trans kept.symm)
        rw [lead_mul,lead_monomial,lead_scale,cancels]
    _ = remainder.size := kept

/-- One step of either loop: quotient and remainder are multiplied by `c`, and a multiple of the
    divisor that cancels the leading term goes from the remainder to the quotient. -/
theorem Progress.step {p q quotient remainder : Dense R} {steps next : ℕ}
    (inv : Progress p q steps quotient remainder) (nonzero : q ≠ 0) (fits : q.size ≤ remainder.size)
    {c a : R} (scaled : c ≠ 0) (counted : q.lead ^ next = c * q.lead ^ steps)
    (cancels : a * q.lead = c * remainder.lead) :
    Progress p q next (quotient.scale c + Dense.monomial a (remainder.size - q.size))
      (remainder.scale c - Dense.monomial a (remainder.size - q.size) * q) := by
  refine ⟨?_,.inr ?_⟩
  · have identity : p.scale (q.lead ^ next) = (p.scale (q.lead ^ steps)).scale c :=
      toPolynomial_injective (by simp [counted,mul_assoc])
    rw [identity,inv.identity]
    simp only [scale_eq_mul]
    ring
  · have shrinks := cancel_lt nonzero fits scaled cancels
    have single := size_monomial (factor_ne_zero nonzero fits scaled cancels) (remainder.size - q.size)
    rcases inv.sizes with ⟨rfl,rfl⟩ | ⟨smaller,room,settled⟩
    · refine ⟨shrinks,fits,?_⟩
      rw [scale_eq_mul,mul_zero,zero_add,single]
      omega
    · refine ⟨by omega,room,?_⟩
      have kept := size_scale scaled quotient
      rw [size_add_of_size_lt (by omega),kept,settled]

/-- A loop that stops at a smaller remainder has divided. -/
theorem Progress.finish {p q quotient remainder : Dense R} {steps : ℕ}
    (inv : Progress p q steps quotient remainder) (nonzero : q ≠ 0)
    (small : remainder.size < q.size) : IsDivision p q ⟨steps,quotient,remainder⟩ where
  by_zero zero := absurd zero nonzero
  scale_nonneg := by simp
  identity := by simpa using inv.identity
  remainder_lt _ := small
  quotient_size _ := by
    show (quotient.size : ℤ) = max 0 ((p.size : ℤ) - q.size + 1)
    rcases inv.sizes with ⟨rfl,rfl⟩ | ⟨smaller,room,settled⟩
    · rw [size_zero]
      omega
    · omega

/-- A multiple of `q` that is smaller than `q` is zero. -/
theorem eq_zero_of_dvd_of_small {p q : Dense R} (multiple : q ∣ p) (small : q ≠ 0 → p.size < q.size) :
    p = 0 := by
  obtain ⟨c,rfl⟩ := multiple
  by_contra nonzero
  have divisor : q ≠ 0 := left_ne_zero_of_mul nonzero
  have factor : c ≠ 0 := right_ne_zero_of_mul nonzero
  have smaller := small divisor
  rw [size_mul divisor factor] at smaller
  have positive := mt size_eq_zero_iff.mp factor
  omega

/-- Next to a division after multiplying by `a`, the divisions after multiplying by `b` are those whose
    parts are in the proportion of `b` to `a`. -/
theorem division_iff_proportional {p q quotient remainder quotient' remainder' : Dense R} {a b : R}
    (nonzero : q ≠ 0) (ha : a ≠ 0) (hb : b ≠ 0) (identity : p.scale a = quotient * q + remainder)
    (small : remainder.size < q.size) :
    remainder'.size < q.size ∧ p.scale b = quotient' * q + remainder' ↔
      quotient'.scale a = quotient.scale b ∧ remainder'.scale a = remainder.scale b := by
  simp only [scale_eq_mul] at identity ⊢
  constructor
  · rintro ⟨small',identity'⟩
    have difference : (constant a * quotient' - constant b * quotient) * q =
        constant b * remainder - constant a * remainder' := by
      linear_combination constant b * identity - constant a * identity'
    have bound : (constant b * remainder - constant a * remainder').size < q.size := by
      apply size_sub_lt_of_lt <;> rwa [← scale_eq_mul,size_scale ‹_›]
    -- The difference of the remainders is a multiple of the divisor, but too small for one.
    have none : constant b * remainder - constant a * remainder' = 0 :=
      eq_zero_of_dvd_of_small (difference ▸ dvd_mul_left q _) fun _ => bound
    have same := (mul_eq_zero.mp (difference.trans none)).resolve_right nonzero
    exact ⟨sub_eq_zero.mp same,(sub_eq_zero.mp none).symm⟩
  · rintro ⟨quotients,remainders⟩
    constructor
    · rw [← size_scale ha,scale_eq_mul,remainders,← scale_eq_mul,size_scale hb]
      exact small
    · apply mul_left_cancel₀ (constant_ne_zero ha)
      linear_combination constant b * identity - q * quotients - remainders

/-- Taking out a factor that is not constant makes a polynomial smaller. -/
theorem IsDivision.quotient_smaller {p g : Dense R} {d : Division (Dense R)} (division : IsDivision p g d)
    (nonzero : p ≠ 0) (nonconstant : 2 ≤ g.size) : d.quotient.size < p.size := by
  have positive : p.size ≠ 0 := mt size_eq_zero_iff.mp nonzero
  have settled := division.quotient_size (mt size_eq_zero_iff.mpr (by omega))
  omega

/-! ### Runs of the loops -/

/-- A run of a division by `q` that multiplies by `c` in each step, from a quotient and a remainder to those
    that it ends with, and the sizes of the remainders after its steps. -/
inductive Steps (q : Dense R) (c : R) : Dense R → Dense R → List ℕ → Dense R → Dense R → Prop
  | stop {quotient remainder : Dense R} (small : remainder.size < q.size) :
      Steps q c quotient remainder [] quotient remainder
  | step {quotient remainder next last rest : Dense R} {a : R} {ns : List ℕ}
      (fits : q.size ≤ remainder.size) (cancels : a * q.lead = c * remainder.lead)
      (taken : next = remainder.scale c - Dense.monomial a (remainder.size - q.size) * q)
      (later : Steps q c (quotient.scale c + Dense.monomial a (remainder.size - q.size)) next ns last rest) :
      Steps q c quotient remainder (next.size :: ns) last rest

theorem Steps.ended {q quotient remainder last rest : Dense R} {c : R} {ns : List ℕ}
    (run : Steps q c quotient remainder ns last rest) : rest.size < q.size := by
  induction run with
  | stop small => exact small
  | step _ _ _ _ ih => exact ih

/-- A run that multiplies by a power of the leading coefficient in each step keeps the invariant. -/
theorem Steps.progress {p q quotient remainder last rest : Dense R} {c : R} {ns : List ℕ} {steps k : ℕ}
    (run : Steps q c quotient remainder ns last rest) (nonzero : q ≠ 0) (power : c = q.lead ^ k)
    (inv : Progress p q steps quotient remainder) : Progress p q (steps + k * ns.length) last rest := by
  have scaled : c ≠ 0 := power ▸ pow_ne_zero k (mt lead_eq_zero_iff.mp nonzero)
  induction run generalizing steps with
  | stop => exact inv
  | step fits cancels taken _ ih =>
    subst taken
    have counted : q.lead ^ (steps + k) = c * q.lead ^ steps := by rw [pow_add,mul_comm,power]
    rw [List.length_cons,Nat.mul_succ,Nat.add_comm (k * _),← Nat.add_assoc]
    exact ih (inv.step nonzero fits scaled counted cancels)

/-- What exact division reports. -/
def sizeMessages (ns : List ℕ) : List String := ns.map fun n => s!"remainder size {n}"

/-- What pseudo-division reports, with the numbers of the steps from `first` on. -/
def stepMessages (first : ℕ) (ns : List ℕ) : List String :=
  (ns.zipIdx first).map fun (n,k) => s!"step {k}: remainder size {n}"

theorem exactFrom_steps {q : Dense R} {inverse : R} (nonzero : q ≠ 0) (unit : q.lead * inverse = 1)
    (quotient remainder : Dense R) : ∃ ns last rest, Steps q 1 quotient remainder ns last rest ∧
      exactFrom q inverse quotient remainder = ⟨.ok ⟨0,last,rest⟩,(sizeMessages ns).map .note⟩ := by
  rw [exactFrom]
  by_cases fits : q.size ≤ remainder.size
  · have cancels : remainder.lead * inverse * q.lead = 1 * remainder.lead := by
      rw [mul_assoc,mul_comm inverse,unit,mul_one,one_mul]
    have shrinks := cancel_lt nonzero fits one_ne_zero cancels
    rw [scale_one] at shrinks
    obtain ⟨ns,last,rest,run,ended⟩ := exactFrom_steps nonzero unit
      (quotient + Dense.monomial (remainder.lead * inverse) (remainder.size - q.size))
      (remainder - Dense.monomial (remainder.lead * inverse) (remainder.size - q.size) * q)
    rw [if_pos fits,if_pos shrinks,ended]
    exact ⟨_,last,rest,.step fits cancels (by rw [scale_one]) (by rwa [scale_one]),rfl⟩
  · rw [if_neg fits]
    exact ⟨[],quotient,remainder,.stop (by omega),rfl⟩
termination_by remainder.size
decreasing_by simpa only [scale_one] using shrinks

theorem pseudoFrom_steps {q : Dense R} (nonzero : q ≠ 0) (steps : ℕ) (quotient remainder : Dense R) :
    ∃ ns last rest, Steps q q.lead quotient remainder ns last rest ∧
      pseudoFrom q steps quotient remainder =
        ⟨.ok ⟨(steps + ns.length : ℕ),last,rest⟩,(stepMessages (steps + 1) ns).map .note⟩ := by
  rw [pseudoFrom]
  by_cases fits : q.size ≤ remainder.size
  · have cancels : remainder.lead * q.lead = q.lead * remainder.lead := mul_comm _ _
    have shrinks := cancel_lt nonzero fits (mt lead_eq_zero_iff.mp nonzero) cancels
    obtain ⟨ns,last,rest,run,ended⟩ := pseudoFrom_steps nonzero (steps + 1)
      (quotient.scale q.lead + Dense.monomial remainder.lead (remainder.size - q.size))
      (remainder.scale q.lead - Dense.monomial remainder.lead (remainder.size - q.size) * q)
    rw [if_pos fits,if_pos shrinks,ended,Nat.add_right_comm]
    exact ⟨_,last,rest,.step fits cancels rfl run,rfl⟩
  · rw [if_neg fits]
    exact ⟨[],quotient,remainder,.stop (by omega),rfl⟩
termination_by remainder.size

/-- The exact loop divides, without multiplying. -/
theorem exactFrom_isDivision {p q : Dense R} {inverse : R} (nonzero : q ≠ 0)
    (unit : q.lead * inverse = 1) {quotient remainder : Dense R}
    (inv : Progress p q 0 quotient remainder) :
    ∃ d, (exactFrom q inverse quotient remainder).outcome = .ok d ∧ IsDivision p q d ∧ d.scale = 0 := by
  obtain ⟨ns,last,rest,run,ended⟩ := exactFrom_steps nonzero unit quotient remainder
  have divided := run.progress nonzero (pow_zero q.lead).symm inv
  rw [Nat.zero_mul] at divided
  rw [ended]
  exact ⟨_,rfl,divided.finish nonzero run.ended,rfl⟩

/-- The scaling loop divides. -/
theorem pseudoFrom_isDivision {p q : Dense R} (nonzero : q ≠ 0) {steps : ℕ}
    {quotient remainder : Dense R} (inv : Progress p q steps quotient remainder) :
    ∃ d, (pseudoFrom q steps quotient remainder).outcome = .ok d ∧ IsDivision p q d := by
  obtain ⟨ns,last,rest,run,ended⟩ := pseudoFrom_steps nonzero steps quotient remainder
  have divided := run.progress nonzero (pow_one q.lead).symm inv
  rw [Nat.one_mul] at divided
  rw [ended]
  exact ⟨_,rfl,divided.finish nonzero run.ended⟩

end Dense

namespace Division
variable {r : BaseRing} (d : Division (Dense r.Elem))

@[simp] theorem over_scale : (d.over r).scale = d.scale := rfl
@[simp] theorem over_quotient : (d.over r).quotient = ⟨r,d.quotient⟩ := rfl
@[simp] theorem over_remainder : (d.over r).remainder = ⟨r,d.remainder⟩ := rfl

end Division

namespace Poly

theorem untouched_isDivision {r : BaseRing} (p : Dense r.Elem) : Dense.IsDivision p 0 ⟨0,0,p⟩ where
  by_zero _ := rfl
  scale_nonneg := le_rfl
  identity := by simp [Dense.scale_one]
  remainder_lt nonzero := absurd rfl nonzero
  quotient_size nonzero := absurd rfl nonzero

/-- Zero has no leading coefficient to divide by. -/
theorem ne_zero_of_inverse {r : BaseRing} {q : Dense r.Elem} {inverse : r.Elem}
    (found : Coefficient.inverse? q.lead = some inverse) : q ≠ 0 :=
  mt Dense.lead_eq_zero_iff.mpr (left_ne_zero_of_mul_eq_one (Coefficient.mul_inverse found))

section Divisions
variable {r : BaseRing} (p : Dense r.Elem) {q : Dense r.Elem}

theorem pseudoDivide_eq (nonzero : q ≠ 0) : pseudoDivide ⟨r,p⟩ ⟨r,q⟩ =
    .task "pseudo_divide" (sizes ⟨r,p⟩ ⟨r,q⟩) ((Dense.pseudoFrom q 0 0 p).map (.over r)) := by
  rw [pseudoDivide,if_neg (mt isZero_iff.mp nonzero)]
  simp only [over?_self]

theorem divide_eq_exact {inverse : r.Elem} (found : Coefficient.inverse? q.lead = some inverse) :
    divide ⟨r,p⟩ ⟨r,q⟩ =
      .task "divide" (sizes ⟨r,p⟩ ⟨r,q⟩) ((Dense.exactFrom q inverse 0 p).map (.over r)) := by
  rw [divide,if_neg (mt isZero_iff.mp (ne_zero_of_inverse found))]
  simp only [over?_self,found]

/-- Division by what has no unit as leading coefficient, zero too, is pseudo-division. -/
theorem divide_eq_pseudo (none : Coefficient.inverse? q.lead = none) :
    divide ⟨r,p⟩ ⟨r,q⟩ = pseudoDivide ⟨r,p⟩ ⟨r,q⟩ := by
  by_cases zero : q = 0
  · rw [divide,if_pos (isZero_iff.mpr zero),pseudoDivide,if_pos (isZero_iff.mpr zero)]
  · rw [divide,if_neg (mt isZero_iff.mp zero)]
    simp only [over?_self,none]

end Divisions

theorem pseudoDivide_isDivision {r : BaseRing} (p q : Dense r.Elem) :
    ∃ d, (pseudoDivide ⟨r,p⟩ ⟨r,q⟩).outcome = .ok (.over r d) ∧ Dense.IsDivision p q d := by
  by_cases zero : q = 0
  · subst zero
    rw [pseudoDivide,if_pos (isZero_iff.mpr rfl)]
    exact ⟨_,rfl,untouched_isDivision p⟩
  · obtain ⟨d,ended,divides⟩ := Dense.pseudoFrom_isDivision zero (Dense.Progress.start p q)
    rw [pseudoDivide_eq p zero]
    exact ⟨d,by simp [ended,Except.map],divides⟩

theorem divide_isDivision {r : BaseRing} (p q : Dense r.Elem) :
    ∃ d, (divide ⟨r,p⟩ ⟨r,q⟩).outcome = .ok (.over r d) ∧ Dense.IsDivision p q d ∧
      (IsUnit q.lead → d.scale = 0) := by
  cases found : Coefficient.inverse? q.lead with
  | none =>
    obtain ⟨d,ended,divides⟩ := pseudoDivide_isDivision p q
    rw [divide_eq_pseudo p found]
    exact ⟨d,ended,divides,fun unit => absurd unit (Coefficient.inverse?_eq_none_iff.mp found)⟩
  | some inverse =>
    obtain ⟨d,ended,divides,unscaled⟩ := Dense.exactFrom_isDivision (ne_zero_of_inverse found)
      (Coefficient.mul_inverse found) (Dense.Progress.start p q)
    rw [divide_eq_exact p found]
    exact ⟨d,by simp [ended,Except.map],divides,fun _ => unscaled⟩

/-- Both divisions of polynomials over one ring end with a division, and `divide` does not multiply
    where the leading coefficient of the divisor is a unit. -/
theorem divisions_total_correct (r : BaseRing) (p q : Dense r.Elem) :
    (∃ d, (divide ⟨r,p⟩ ⟨r,q⟩).outcome = .ok (.over r d) ∧ Dense.IsDivision p q d ∧
      (IsUnit q.lead → d.scale = 0)) ∧
    (∃ d, (pseudoDivide ⟨r,p⟩ ⟨r,q⟩).outcome = .ok (.over r d) ∧ Dense.IsDivision p q d) :=
  ⟨divide_isDivision p q,pseudoDivide_isDivision p q⟩

end Poly
end Bezout

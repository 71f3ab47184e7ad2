import Bezout.Proofs.Normalization
import Bezout.Proofs.Euclid

/-!
Greatest common divisors of many polynomials. They are taken in one after the other, so that what is found
depends on their order; over the field of fractions it divides exactly as all of them do
(`Dense.IsGcdOfAll`), and this leaves one normal form. Zero is divided by everything and changes nothing.
-/
namespace Bezout
open Polynomial

namespace Dense
variable {R : Type} [CoefficientDomain R] (K : Type) [Field K] [Algebra R K]

/-- A greatest common divisor of all polynomials of a list over the field of fractions. -/
def IsGcdOfAll (ps : List (Dense R)) (g : Dense R) : Prop :=
  ∀ D : K[X], D ∣ extend K g ↔ ∀ p ∈ ps, D ∣ extend K p

theorem isGcdOfAll_singleton (p : Dense R) : IsGcdOfAll K [p] p := by
  intro D
  rw [List.forall_mem_singleton]

/-- Two polynomials can be replaced by their greatest common divisor. -/
theorem IsGcd.ofAll {p q g h : Dense R} {rest : List (Dense R)} (greatest : IsGcd K p q g)
    (all : IsGcdOfAll K (g :: rest) h) : IsGcdOfAll K (p :: q :: rest) h := by
  intro D
  rw [all D,List.forall_mem_cons,greatest D,and_assoc,List.forall_mem_cons,List.forall_mem_cons]

variable {ps qs : List (Dense R)} {g h : Dense R}

/-- Zeros have no part in greatest common divisors. -/
theorem IsGcdOfAll.dvd_iff (all : IsGcdOfAll K ps g) (D : K[X]) :
    D ∣ extend K g ↔ ∀ p, p ≠ 0 → p ∈ ps → D ∣ extend K p := by
  rw [all D]
  constructor
  · intro divides p _ member
    exact divides p member
  · intro divides p member
    by_cases zero : p = 0
    · rw [zero,map_zero]
      exact dvd_zero D
    · exact divides p zero member

/-- Lists of the same polynomials besides zero have the same greatest common divisors. -/
theorem IsGcdOfAll.associated (left : IsGcdOfAll K ps g) (right : IsGcdOfAll K qs h)
    (same : ∀ p, p ≠ 0 → (p ∈ ps ↔ p ∈ qs)) : Associated (extend K g) (extend K h) := by
  have divisors : ∀ D, D ∣ extend K g ↔ D ∣ extend K h := by
    intro D
    rw [left.dvd_iff,right.dvd_iff]
    exact forall₂_congr fun p nonzero => by rw [same p nonzero]
  exact associated_of_dvd_dvd ((divisors _).mp dvd_rfl) ((divisors _).mpr dvd_rfl)

end Dense

namespace Poly
variable {r : BaseRing} (K : Type) [Field K] [Algebra r.Elem K] [IsFractionRing r.Elem K]

theorem gcdFrom_isGcdOfAll (start : Dense r.Elem) (ps : List (Dense r.Elem)) :
    ∃ g, (gcdFrom ⟨r,start⟩ (ps.map (mk r))).outcome = .ok ⟨r,g⟩ ∧ Dense.IsGcdOfAll K (start :: ps) g := by
  induction ps generalizing start with
  | nil => exact ⟨start,rfl,Dense.isGcdOfAll_singleton K start⟩
  | cons p rest ih =>
    obtain ⟨h,found,greatest⟩ := gcd_isGcd K start p
    obtain ⟨g,ended,all⟩ := ih h
    refine ⟨g,?_,greatest.ofAll K all⟩
    rw [List.map_cons,gcdFrom,Work.outcome_bind found,ended]

/-- Without a ring the one of the first polynomial is taken. -/
theorem gcdAll_none {ps : List (Dense r.Elem)} (filled : ps ≠ []) :
    gcdAll (ps.map (mk r)) none = gcdAll (ps.map (mk r)) (some r) := by
  cases ps with
  | nil => exact absurd rfl filled
  | cons p rest => rfl

theorem gcdAll_isGcdOfAll {ps : List (Dense r.Elem)} (filled : ps ≠ []) :
    ∃ g, (gcdAll (ps.map (mk r)) none).outcome = .ok ⟨r,g⟩ ∧ Dense.IsGcdOfAll K (0 :: ps) g := by
  rw [gcdAll_none filled]
  exact gcdFrom_isGcdOfAll K 0 ps

/-- The greatest common divisor of polynomials divides each of them, and whatever divides all of them divides
    it. Its normal form is the same in whatever order they come, however often each of them, and with any
    zeros among them. -/
theorem gcdAll_total_correct (r : BaseRing) (takes : r.TakesNumbers) {ps : List (Dense r.Elem)}
    (filled : ps ≠ []) :
    ∃ g s : Dense r.Elem, (gcdAll (ps.map (mk r)) none).outcome = .ok ⟨r,g⟩ ∧
      (∀ p ∈ ps, Divides r g p) ∧ (∀ d, (∀ p ∈ ps, Divides r d p) → Divides r d g) ∧
      normalize ⟨r,g⟩ = .ok ⟨r,s⟩ ∧
      ∀ qs : List (Dense r.Elem), qs ≠ [] → (∀ p, p ≠ 0 → (p ∈ qs ↔ p ∈ ps)) →
        ∃ h, (gcdAll (qs.map (mk r)) none).outcome = .ok ⟨r,h⟩ ∧ normalize ⟨r,h⟩ = .ok ⟨r,s⟩ := by
  let K := FractionRing r.Elem
  obtain ⟨g,ended,all⟩ := gcdAll_isGcdOfAll K filled
  obtain ⟨s,-,normalized,-⟩ := normalize_isNormal takes g
  refine ⟨g,s,ended,?_,?_,normalized,?_⟩
  · intro p member
    exact (divides_iff K).mpr ((all _).mp dvd_rfl p (List.mem_cons_of_mem 0 member))
  · intro d common
    rw [divides_iff K,all.dvd_iff]
    intro p nonzero member
    exact (divides_iff K).mp (common p (List.mem_of_ne_of_mem nonzero member))
  · intro qs filled' same
    obtain ⟨h,ended',all'⟩ := gcdAll_isGcdOfAll K filled'
    have padded : ∀ p, p ≠ 0 → (p ∈ 0 :: ps ↔ p ∈ 0 :: qs) := by
      intro p nonzero
      rw [List.mem_cons,List.mem_cons,same p nonzero]
    refine ⟨h,ended',?_⟩
    -- A normal form is told by its associates, and these are the same.
    rw [normalize_eq_iff K takes] at normalized ⊢
    exact ⟨normalized.1,normalized.2.trans (all.associated K all' padded)⟩

/-- Over the integers, where `2 * x^2 - 2`, `2 * x + 2` and `3 * x + 3` have greatest common divisors with
    different contents. -/
theorem gcdAll_integer_contents : let r : BaseRing := .integers
    let ps : List (Dense r.Elem) := [.ofList [-2,0,2],.ofList [2,2],.ofList [3,3]]
    r.TakesNumbers ∧ ps ≠ [] ∧
    ∃ g s : Dense r.Elem, (gcdAll (ps.map (mk r)) none).outcome = .ok ⟨r,g⟩ ∧
      (∀ p ∈ ps, Divides r g p) ∧ (∀ d, (∀ p ∈ ps, Divides r d p) → Divides r d g) ∧
      normalize ⟨r,g⟩ = .ok ⟨r,s⟩ ∧
      ∀ qs : List (Dense r.Elem), qs ≠ [] → (∀ p, p ≠ 0 → (p ∈ qs ↔ p ∈ ps)) →
        ∃ h, (gcdAll (qs.map (mk r)) none).outcome = .ok ⟨r,h⟩ ∧ normalize ⟨r,h⟩ = .ok ⟨r,s⟩ := by
  intro r ps
  have filled : ps ≠ [] := List.cons_ne_nil _ _
  exact ⟨trivial,filled,gcdAll_total_correct r trivial filled⟩

example : (gcdAll [⟨.integers,.ofList [2,2]⟩,⟨.integers,.ofList [3,3]⟩] none).outcome =
      .ok ⟨.integers,.ofList [3,3]⟩ ∧
    (gcdAll [⟨.integers,.ofList [3,3]⟩,.zero .integers,⟨.integers,.ofList [2,2]⟩] none).outcome =
      .ok ⟨.integers,.ofList [2,2]⟩ := by
  constructor <;> cbv

end Poly
end Bezout

import Bezout.Proofs.Parsing
import Bezout.Proofs.Reduction

/-!
Reading over any ring. A text is read over the rational numbers and then taken into the ring, coefficient by
coefficient, so that only a coefficient outside the ring can make it fail. Where no written denominator is
divisible by a prime, reading over the prime field gives what the syntax tree gives when it is reckoned
there from the start.
-/
namespace Bezout
open Coefficient (number)

namespace BaseRing
variable {r : BaseRing}

/-- The rational numbers that stand for an element: over the integers the whole numbers, and over a prime
    field those whose reduced denominator is not divisible by the prime. -/
def Admits : BaseRing → ℚ → Prop
  | integers, c => c.den = 1
  | rationals, _ => True
  | residues m, c => ¬ m.value ∣ c.den
  | bare _ _, _ => False

/-- What is said of a rational number that stands for no element. -/
def refusal : BaseRing → ℚ → Fault
  | integers, c => .notInRing (.fraction c) integers
  | r, c => .noImage c r

theorem exists_element {c : ℚ} (admitted : r.Admits c) : ∃ a, r.ofValue (.fraction c) = .ok a := by
  cases r with
  | integers => exact ⟨c.num,if_pos admitted⟩
  | rationals => exact ⟨c,rfl⟩
  | residues m => exact ⟨_,ofNumber_fraction admitted⟩
  | bare characteristic mark => exact admitted.elim

theorem ofValue_refused (takes : r.TakesNumbers) {c : ℚ} (outside : ¬ r.Admits c) :
    r.ofValue (.fraction c) = .error (r.refusal c) := by
  cases r with
  | integers => exact if_neg outside
  | rationals => exact absurd trivial outside
  | residues m => exact ofNumber_fraction_of_dvd (not_not.mp outside)
  | bare characteristic mark => exact takes.elim

theorem inText_refusal (c : ℚ) (text : String) :
    Fault.inText text (r.refusal c) = .coefficient (r.refusal c) text := by
  cases r <;> rfl

end BaseRing

namespace Expr

/-- The denominators of the fractions in a syntax tree. -/
def denominators : Expr → List ℕ
  | numeral _ => []
  | fraction _ d => [d]
  | indeterminate => []
  | neg e => e.denominators
  | add a b => a.denominators ++ b.denominators
  | sub a b => a.denominators ++ b.denominators
  | mul a b => a.denominators ++ b.denominators
  | pow e _ => e.denominators

variable {m : Modulus}

theorem quotient_residue {n d : ℕ} (prime : ¬ m.value ∣ d) :
    quotient (Residue m) n d = (n : Residue m) / d := by
  have nonzero : (d : Residue m) ≠ 0 := mt (m.natCast_eq_zero_iff d).mp prime
  have found : Coefficient.inverse? (d : Residue m) = some (d : Residue m)⁻¹ :=
    Residue.inverse?_eq_some_iff.mpr (mul_inv_cancel₀ nonzero)
  have denominator : (Coefficient.ofInt (d : ℤ) : Residue m) = d := rfl
  rw [quotient,denominator,found,Option.getD_some,div_eq_mul_inv]
  rfl

/-- What a syntax tree stands for over the residues is the image of what it stands for over the rational
    numbers. -/
theorem eval_image (e : Expr) (prime : ∀ d ∈ e.denominators, ¬ m.value ∣ d) :
    Dense.ImageModulo (e.eval ℚ) (e.eval (Residue m)) := by
  induction e with
  | numeral n =>
    have image := Dense.ImageModulo.constant (n : m.integral)
    rw [map_natCast] at image
    exact image
  | fraction n d =>
    have divisor : ¬ m.value ∣ d := prime d (by simp [denominators])
    have image := Dense.ImageModulo.constant ⟨n / d,m.div_mem_integral n divisor⟩
    rw [m.reduce_div n divisor,← quotient_residue divisor] at image
    rw [eval,eval,quotient_rat]
    exact image
  | indeterminate => exact .indeterminate
  | neg e ih => exact (ih prime).neg
  | add a b ha hb =>
    simp only [denominators,List.forall_mem_append] at prime
    exact (ha prime.1).add (hb prime.2)
  | sub a b ha hb =>
    simp only [denominators,List.forall_mem_append] at prime
    exact (ha prime.1).sub (hb prime.2)
  | mul a b ha hb =>
    simp only [denominators,List.forall_mem_append] at prime
    exact (ha prime.1).mul (hb prime.2)
  | pow e n ih => exact (ih prime).pow n

end Expr

namespace Poly
variable {r : BaseRing}

/-- A polynomial over the rational numbers is taken into a ring exactly if the ring admits all of its
    coefficients. -/
theorem changeRing_cases (takes : r.TakesNumbers) (p : Dense ℚ) :
    (∃ q, changeRing ⟨.rationals,p⟩ r = .ok q ∧ ∀ c ∈ p.coeffs, r.Admits c) ∨
      ∃ c ∈ p.coeffs, ¬ r.Admits c ∧ changeRing ⟨.rationals,p⟩ r = .error (r.refusal c) := by
  have values : (numbers ⟨.rationals,p⟩).map Value.number = p.coeffs.map Value.fraction := List.map_map ..
  have refused : ∀ c : ℚ, ∀ a, r.ofValue (.fraction c) = .ok a → r.Admits c := by
    intro c a image
    by_contra outside
    rw [BaseRing.ofValue_refused takes outside] at image
    cases image
  rw [changeRing,ofValues,values]
  rcases mapM_cases r.ofValue (p.coeffs.map Value.fraction) with ⟨as,through,images⟩ | ⟨v,member,e,failed,ended⟩
  · refine .inl ⟨_,by rw [through]; rfl,?_⟩
    intro c member
    obtain ⟨a,image⟩ := images (.fraction c) (List.mem_map_of_mem member)
    exact refused c a image
  · obtain ⟨c,listed,rfl⟩ := List.mem_map.mp member
    have outside : ¬ r.Admits c := by
      intro admitted
      obtain ⟨a,image⟩ := BaseRing.exists_element admitted
      rw [image] at failed
      cases failed
    rw [BaseRing.ofValue_refused takes outside] at failed
    cases failed
    exact .inr ⟨c,listed,outside,by rw [ended]; rfl⟩

theorem ofText_of_expr {text name : String} {e : Expr} (read : parseExpr text name = .ok e) (r : BaseRing) :
    ofText text r name = (changeRing ⟨.rationals,e.eval ℚ⟩ r).mapError (Fault.inText text) := by
  rw [ofText,read]

theorem exists_expr {text name : String} {p : Poly} (read : ofText text .rationals name = .ok p) :
    ∃ e, parseExpr text name = .ok e ∧ p = ⟨.rationals,e.eval ℚ⟩ := by
  cases parsed : parseExpr text name with
  | error fault =>
    rw [ofText,parsed] at read
    cases read
  | ok e =>
    rw [ofText_rationals_of_expr parsed] at read
    exact ⟨e,rfl,(Except.ok.inj read).symm⟩

/-- What is read over a ring is the image of an expression that is read. -/
theorem exists_expr_of_ofText {text name : String} {r : BaseRing} {p : Poly}
    (read : ofText text r name = .ok p) :
    ∃ e, parseExpr text name = .ok e ∧ changeRing ⟨.rationals,e.eval ℚ⟩ r = .ok p := by
  cases parsed : parseExpr text name with
  | error fault =>
    rw [ofText,parsed] at read
    cases read
  | ok e =>
    rw [ofText_of_expr parsed] at read
    cases taken : changeRing ⟨.rationals,e.eval ℚ⟩ r with
    | error fault =>
      rw [taken] at read
      cases read
    | ok q =>
      rw [taken] at read
      exact ⟨e,rfl,taken.trans read⟩

/-- A polynomial with given values has their images as coefficients. -/
theorem exists_images_of_ofValues {r : BaseRing} {vs : List Value} {p : Poly}
    (taken : ofValues vs r = .ok p) : ∃ cs, vs.mapM r.ofValue = .ok cs ∧ p = ⟨r,.ofList cs⟩ := by
  rw [ofValues] at taken
  cases images : vs.mapM r.ofValue with
  | error fault =>
    rw [images] at taken
    cases taken
  | ok cs =>
    rw [images] at taken
    exact ⟨cs,rfl,(Except.ok.inj taken).symm⟩

/-- A text that is read over the rational numbers has one syntax tree for all rings. Over a prime field that
    divides no written denominator it is read as what the tree stands for there, and over any ring it is
    refused exactly for a coefficient outside the ring. -/
theorem ofText_over_rings (text name : String) (p : Poly) (read : ofText text .rationals name = .ok p) :
    ∃ e, parseExpr text name = .ok e ∧ p = ⟨.rationals,e.eval ℚ⟩ ∧
      (∀ m : Modulus, (∀ d ∈ e.denominators, ¬ m.value ∣ d) →
        ofText text (.residues m) name = .ok ⟨.residues m,e.eval (Residue m)⟩) ∧
      ∀ r : BaseRing, r.TakesNumbers →
        ((∃ fault, ofText text r name = .error fault) ↔ ∃ c ∈ (e.eval ℚ).coeffs, ¬ r.Admits c) ∧
        ∀ fault, ofText text r name = .error fault →
          ∃ c ∈ (e.eval ℚ).coeffs, ¬ r.Admits c ∧ fault = .coefficient (r.refusal c) text := by
  obtain ⟨e,parsed,rfl⟩ := exists_expr read
  refine ⟨e,parsed,rfl,?_,?_⟩
  · intro m prime
    rw [ofText_of_expr parsed,changeRing_of_image (e.eval_image prime)]
    rfl
  · intro r takes
    rw [ofText_of_expr parsed]
    rcases changeRing_cases takes (e.eval ℚ) with ⟨q,moved,admitted⟩ | ⟨c,member,outside,refused⟩
    · rw [moved]
      refine ⟨⟨?_,?_⟩,?_⟩
      · rintro ⟨fault,failed⟩
        cases failed
      · rintro ⟨c,member,outside⟩
        exact absurd (admitted c member) outside
      · intro fault failed
        cases failed
    · have failed : (changeRing ⟨.rationals,e.eval ℚ⟩ r).mapError (Fault.inText text) =
          .error (.coefficient (r.refusal c) text) := by
        rw [refused,← BaseRing.inText_refusal]
        rfl
      rw [failed]
      refine ⟨⟨fun _ => ⟨c,member,outside⟩,fun _ => ⟨_,rfl⟩⟩,?_⟩
      intro fault same
      exact ⟨c,member,outside,(Except.error.inj same).symm⟩

theorem ofText_squared_half :
    let five : Modulus := ⟨5,(isPrime_iff 5).mpr Nat.prime_five⟩
    let tree : Expr := .mul (.pow (.fraction 1 2) 2) .indeterminate
    ofText "1/2^2 x" .rationals "x" = .ok ⟨.rationals,tree.eval ℚ⟩ ∧
      ofText "1/2^2 x" (.residues five) "x" = .ok ⟨.residues five,tree.eval (Residue five)⟩ ∧
      numbers ⟨.residues five,tree.eval (Residue five)⟩ = [.integer 0,.integer 4] ∧
      ∃ fault, ofText "1/2^2 x" .integers "x" = .error fault := by
  intro five tree
  have parsed : parseExpr "1/2^2 x" "x" = .ok tree := by cbv
  have read : ofText "1/2^2 x" .rationals "x" = .ok ⟨.rationals,tree.eval ℚ⟩ := ofText_rationals_of_expr parsed
  obtain ⟨e,known,-,image,refused⟩ := ofText_over_rings _ _ _ read
  obtain rfl : tree = e := Except.ok.inj (parsed.symm.trans known)
  have coefficients : (tree.eval ℚ).coeffs = [0,1 / 4] := by cbv
  have fractional : ¬ BaseRing.Admits .integers (1 / 4) := by norm_num [BaseRing.Admits]
  refine ⟨read,image five (by simp [tree,Expr.denominators,five]),by cbv,?_⟩
  exact (refused .integers trivial).1.mpr ⟨1 / 4,by simp [coefficients],fractional⟩

end Poly
end Bezout

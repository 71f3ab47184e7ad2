import Bezout.Proofs.Cofactors
import Bezout.Proofs.CoprimePart

/-!
How the loops end. Each loop has a fixed number of rounds, so that it could stop before its work is
done. The loops are told here with the way out that they take beside their result: with the way out
forgotten they are the loops themselves, reports included, and the rounds suffice because divisors,
remainders and quotients shrink.
-/
namespace Bezout
open scoped Classical

namespace Poly
variable {r : BaseRing}

/-! ### Euclid's algorithm -/

/-- The ways out of Euclid's algorithm. -/
inductive GcdExit
  /-- Both polynomials are zero, and the loop is not entered. -/
  | skipped (q : Poly)
  /-- The loop returns the divisor of a division without a remainder. -/
  | divided (p q : Poly)
  /-- The rounds are over, and the last remainder is returned behind the loop. -/
  | exhausted (remainder : Poly)

def GcdExit.result : GcdExit → Poly
  | skipped q => q
  | divided _ q => q
  | exhausted remainder => remainder

/-- `gcdRounds` with its way out. -/
def gcdLoop : ℕ → Poly → Poly → Work GcdExit
  | 0, _, q => .done (.exhausted q)
  | rounds + 1, p, q => do
    let r ← mod p q
    if r.isZero then .done (.divided p q)
    else do
      Work.note s!"remainder size {r.size}"
      gcdLoop rounds q r

/-- `gcdOrdered` with its way out. -/
def gcdOrderedExit (p q : Poly) : Work GcdExit :=
  if p.isZero then .done (.skipped q)
  else .task "gcd" (sizes p q) (gcdLoop p.size p q)

/-- `gcd` with its way out. -/
def gcdExit (p q : Poly) : Work GcdExit :=
  if p.size < q.size then gcdOrderedExit q p else gcdOrderedExit p q

theorem gcdLoop_result (rounds : ℕ) (p q : Poly) :
    (gcdLoop rounds p q).map GcdExit.result = gcdRounds rounds p q := by
  induction rounds generalizing p q with
  | zero => rfl
  | succ rounds ih =>
    rw [gcdLoop,gcdRounds,Work.map_bind]
    congr 1
    funext s
    split
    · rfl
    · rw [Work.map_bind,ih]

theorem gcdOrderedExit_result (p q : Poly) :
    (gcdOrderedExit p q).map GcdExit.result = gcdOrdered p q := by
  rw [gcdOrderedExit,gcdOrdered]
  split
  · rfl
  · rw [Work.map_task,gcdLoop_result]

theorem gcdExit_result (p q : Poly) : (gcdExit p q).map GcdExit.result = gcd p q := by
  rw [gcdExit,gcd]
  split
  · exact gcdOrderedExit_result q p
  · exact gcdOrderedExit_result p q

/-- The loop has returned a divisor that leaves no remainder. -/
def ReturnsDivisor (r : BaseRing) (w : Work GcdExit) : Prop :=
  ∃ a b : Dense r.Elem, w.outcome = .ok (.divided ⟨r,a⟩ ⟨r,b⟩) ∧ (mod ⟨r,a⟩ ⟨r,b⟩).outcome = .ok ⟨r,0⟩

/-- As many rounds as the divisor has coefficients are enough: each round makes the divisor smaller. -/
theorem gcdLoop_returns {rounds : ℕ} {p q : Dense r.Elem} (nonzero : q ≠ 0) (enough : q.size ≤ rounds) :
    ReturnsDivisor r (gcdLoop rounds ⟨r,p⟩ ⟨r,q⟩) := by
  induction rounds generalizing p q with
  | zero => exact absurd (Dense.size_eq_zero_iff.mp (Nat.le_zero.mp enough)) nonzero
  | succ rounds ih =>
    obtain ⟨d,ended,division⟩ := mod_outcome p q
    have smaller := division.remainder_lt nonzero
    rw [ReturnsDivisor,gcdLoop,Work.outcome_bind ended]
    by_cases last : d.remainder = 0
    · rw [if_pos (isZero_iff.mpr last)]
      exact ⟨p,q,rfl,by rw [ended,last]⟩
    · rw [if_neg (mt isZero_iff.mp last),Work.outcome_note_bind]
      exact ih last (by omega)

/-- With zero the first round only swaps. -/
theorem gcdLoop_zero {p : Dense r.Elem} (nonzero : p ≠ 0) (rounds : ℕ) :
    (gcdLoop (rounds + 1) ⟨r,p⟩ ⟨r,0⟩).outcome = (gcdLoop rounds ⟨r,0⟩ ⟨r,p⟩).outcome := by
  rw [gcdLoop,Work.outcome_bind (mod_zero_right p),if_neg (mt isZero_iff.mp nonzero),
    Work.outcome_note_bind]

/-- One of two polynomials is zero, and the other one is the constant `c`, which is not. -/
def Lone (p q c : Dense r.Elem) : Prop := c.size = 1 ∧ (p = c ∧ q = 0 ∨ p = 0 ∧ q = c)

/-- How Euclid's algorithm ends: it returns a divisor that leaves no remainder, unless it is given a
    zero with another zero or with a constant. -/
structure GcdEnds (r : BaseRing) (p q : Dense r.Elem) (w : Work GcdExit) : Prop where
  skips : p = 0 → q = 0 → w.outcome = .ok (.skipped ⟨r,0⟩)
  exhausts : ∀ c, Lone p q c → w.outcome = .ok (.exhausted ⟨r,c⟩)
  returns : ¬ (p = 0 ∧ q = 0) → (∀ c, ¬ Lone p q c) → ReturnsDivisor r w

theorem Lone.swap {p q c : Dense r.Elem} (lone : Lone p q c) : Lone q p c := by
  obtain ⟨constant,⟨left,right⟩ | ⟨left,right⟩⟩ := lone
  · exact ⟨constant,.inr ⟨right,left⟩⟩
  · exact ⟨constant,.inl ⟨right,left⟩⟩

theorem GcdEnds.swap {p q : Dense r.Elem} {w : Work GcdExit} (ends : GcdEnds r p q w) : GcdEnds r q p w where
  skips left right := ends.skips right left
  exhausts c lone := ends.exhausts c lone.swap
  returns nonzero more := ends.returns (mt And.symm nonzero) fun c lone => more c lone.swap

/-- A constant has one round, which only swaps; a larger polynomial has another one, which divides
    zero. -/
theorem gcdOrderedExit_by_zero {p : Dense r.Elem} (nonzero : p ≠ 0) :
    if p.size = 1 then (gcdOrderedExit ⟨r,p⟩ ⟨r,0⟩).outcome = .ok (.exhausted ⟨r,p⟩)
    else ReturnsDivisor r (gcdOrderedExit ⟨r,p⟩ ⟨r,0⟩) := by
  have positive : p.size ≠ 0 := mt Dense.size_eq_zero_iff.mp nonzero
  obtain ⟨rounds,size⟩ := Nat.exists_eq_succ_of_ne_zero positive
  have swapped : (gcdOrderedExit ⟨r,p⟩ ⟨r,0⟩).outcome = (gcdLoop rounds ⟨r,0⟩ ⟨r,p⟩).outcome := by
    rw [gcdOrderedExit,if_neg (mt isZero_iff.mp nonzero),Work.outcome_task,
      show Poly.size ⟨r,p⟩ = rounds + 1 from size,gcdLoop_zero nonzero]
  split
  · rename_i constant
    obtain rfl : rounds = 0 := by omega
    rw [swapped]
    rfl
  · rename_i more
    obtain ⟨rounds,rfl⟩ := Nat.exists_eq_succ_of_ne_zero (show rounds ≠ 0 by omega)
    refine ⟨0,p,?_,mod_zero_left p⟩
    rw [swapped,gcdLoop,Work.outcome_bind (mod_zero_left p),if_pos (isZero_iff.mpr rfl)]
    rfl

theorem gcdOrderedExit_ends {p q : Dense r.Elem} (ordered : q.size ≤ p.size) :
    GcdEnds r p q (gcdOrderedExit ⟨r,p⟩ ⟨r,q⟩) := by
  by_cases zero : q = 0
  · subst zero
    by_cases none : p = 0
    · subst none
      refine ⟨fun _ _ => rfl,?_,fun nonzero => absurd ⟨rfl,rfl⟩ nonzero⟩
      rintro c ⟨constant,⟨rfl,-⟩ | ⟨-,rfl⟩⟩ <;> cases constant
    · have found := gcdOrderedExit_by_zero none
      refine ⟨fun left => absurd left none,?_,?_⟩
      · rintro c ⟨constant,⟨rfl,-⟩ | ⟨left,-⟩⟩
        · rwa [if_pos constant] at found
        · exact absurd left none
      · intro _ more
        rwa [if_neg fun constant => more p ⟨constant,.inl ⟨rfl,rfl⟩⟩] at found
  · have positive : q.size ≠ 0 := mt Dense.size_eq_zero_iff.mp zero
    have nonzero : p ≠ 0 := mt Dense.size_eq_zero_iff.mpr (by omega)
    refine ⟨fun left => absurd left nonzero,?_,fun _ _ => ?_⟩
    · rintro c ⟨-,⟨-,right⟩ | ⟨left,-⟩⟩
      · exact absurd right zero
      · exact absurd left nonzero
    · rw [ReturnsDivisor,gcdOrderedExit,if_neg (mt isZero_iff.mp nonzero),Work.outcome_task]
      exact gcdLoop_returns zero ordered

/-- If the second polynomial is larger, the loop goes in the other order. -/
theorem gcdExit_ends (p q : Dense r.Elem) : GcdEnds r p q (gcdExit ⟨r,p⟩ ⟨r,q⟩) := by
  rw [gcdExit]
  split
  · rename_i swapped
    exact (gcdOrderedExit_ends (le_of_lt swapped)).swap
  · rename_i ordered
    exact gcdOrderedExit_ends (not_lt.mp ordered)

/-! ### Cofactors -/

/-- Where the divisions for the cofactors end: the last divisor, by which nothing is divided, and the
    cofactors. -/
structure CofactorExit where
  divisor : Poly
  cofactors : Poly × Poly

def CofactorExit.swap (e : CofactorExit) : CofactorExit := ⟨e.divisor,e.cofactors.swap⟩

/-- `cofactorRounds` with the divisor that the divisions end with. -/
def cofactorLoop (r : BaseRing) : ℕ → Poly → Poly → Work CofactorExit
  | 0, _, q => do .done ⟨q,← .ofExcept (one r),.zero r⟩
  | rounds + 1, p, q =>
    if q.isZero then do .done ⟨q,← .ofExcept (one r),.zero r⟩
    else do
      let d ← divide p q
      let factor ← .ofExcept (r.pow q.lead d.scale)
      let e ← cofactorLoop r rounds q d.remainder
      let (u,v) := e.cofactors
      let scaled ← .ofExcept (v.scale (.number factor))
      let product ← .ofExcept (v.mul d.quotient)
      let rest ← .ofExcept (u.sub product)
      .done ⟨e.divisor,scaled,rest⟩

/-- `egcd` with the divisor that the divisions end with. -/
def egcdExit (p q : Poly) : Work CofactorExit :=
  .task "egcd" (sizes p q) <|
    if q.size ≤ p.size then cofactorLoop p.ring q.size p q
    else (cofactorLoop q.ring p.size q p).map CofactorExit.swap

theorem cofactorLoop_cofactors (r : BaseRing) (rounds : ℕ) (p q : Poly) :
    (cofactorLoop r rounds p q).map CofactorExit.cofactors = cofactorRounds r rounds p q := by
  induction rounds generalizing p q with
  | zero =>
    rw [cofactorLoop,cofactorRounds,Work.map_bind]
    rfl
  | succ rounds ih =>
    rw [cofactorLoop,cofactorRounds]
    split
    · rw [Work.map_bind]
      rfl
    · simp only [Work.map_bind,← ih,Work.bind_map]
      rfl

theorem egcdExit_cofactors (p q : Poly) : (egcdExit p q).map CofactorExit.cofactors = egcd p q := by
  rw [egcdExit,egcd,Work.map_task]
  split
  · rw [cofactorLoop_cofactors]
  · rw [← cofactorLoop_cofactors,Work.map_map,Work.map_map]
    rfl

/-- As many rounds as the divisor has coefficients are enough: the divisions end with zero. -/
theorem cofactorLoop_divisor {rounds : ℕ} {p q : Dense r.Elem} {e : CofactorExit} (enough : q.size ≤ rounds)
    (ended : (cofactorLoop r rounds ⟨r,p⟩ ⟨r,q⟩).outcome = .ok e) : e.divisor = ⟨r,0⟩ := by
  induction rounds generalizing p q e with
  | zero =>
    obtain rfl : q = 0 := Dense.size_eq_zero_iff.mp (Nat.le_zero.mp enough)
    rw [cofactorLoop] at ended
    obtain ⟨one,-,ended⟩ := Work.exists_of_outcome_bind ended
    cases ended
    rfl
  | succ rounds ih =>
    rw [cofactorLoop] at ended
    split at ended
    · rename_i zero
      obtain ⟨one,-,ended⟩ := Work.exists_of_outcome_bind ended
      cases ended
      rw [isZero_iff.mp zero]
    · rename_i nonzero
      obtain ⟨d,found,division,-⟩ := divide_isDivision p q
      have smaller := division.remainder_lt (mt isZero_iff.mpr nonzero)
      rw [Work.outcome_bind found] at ended
      obtain ⟨factor,-,ended⟩ := Work.exists_of_outcome_bind ended
      obtain ⟨last,rest,ended⟩ := Work.exists_of_outcome_bind ended
      obtain ⟨scaled,-,ended⟩ := Work.exists_of_outcome_bind ended
      obtain ⟨product,-,ended⟩ := Work.exists_of_outcome_bind ended
      obtain ⟨difference,-,ended⟩ := Work.exists_of_outcome_bind ended
      cases ended
      show last.divisor = ⟨r,0⟩
      exact ih (show d.remainder.size ≤ rounds by omega) rest

/-- In either order the loop has the rounds that it needs. -/
theorem egcdExit_divisor (takes : r.TakesNumbers) (p q : Dense r.Elem) :
    ∃ e, (egcdExit ⟨r,p⟩ ⟨r,q⟩).outcome = .ok e ∧ e.divisor = ⟨r,0⟩ := by
  obtain ⟨g,-,run⟩ := gcd_run p q
  obtain ⟨u,v,found,-⟩ := egcd_of_run takes run
  rw [← egcdExit_cofactors] at found
  obtain ⟨e,ended,-⟩ := Work.exists_of_outcome_map found
  refine ⟨e,ended,?_⟩
  rw [egcdExit,Work.outcome_task] at ended
  split at ended
  · exact cofactorLoop_divisor le_rfl ended
  · obtain ⟨last,swapped,rfl⟩ := Work.exists_of_outcome_map ended
    show last.divisor = ⟨r,0⟩
    exact cofactorLoop_divisor le_rfl swapped

/-! ### The greatest coprime divisor -/

/-- The ways out of the loop for the greatest coprime divisor. -/
inductive GdcopExit
  /-- What is left is coprime, and returned from the loop. -/
  | returned (p : Poly)
  /-- The rounds are over, and a constant is returned behind the loop. -/
  | exhausted (constant : Poly)

def GdcopExit.result : GdcopExit → Poly
  | returned p => p
  | exhausted constant => constant

/-- `gdcopRounds` with its way out. -/
def gdcopLoop (r : BaseRing) (q : Poly) : ℕ → Poly → Work GdcopExit
  | 0, _ => (Work.ofExcept (constant (.integer (if q.isZero then 1 else 0)) r)).map .exhausted
  | rounds + 1, p => do
    if ← coprime p q then .done (.returned p)
    else do
      let g ← gcd p q
      gdcopLoop r q rounds (← div p g)

/-- `gdcop` with its way out. -/
def gdcopExit (q p : Poly) : Work GdcopExit := gdcopLoop p.ring q p.size p

theorem gdcopLoop_result (r : BaseRing) (q : Poly) (rounds : ℕ) (p : Poly) :
    (gdcopLoop r q rounds p).map GdcopExit.result = gdcopRounds r q rounds p := by
  induction rounds generalizing p with
  | zero =>
    rw [gdcopLoop,gdcopRounds]
    cases constant (.integer (if q.isZero then 1 else 0)) r <;> rfl
  | succ rounds ih =>
    rw [gdcopLoop,gdcopRounds,Work.map_bind]
    congr 1
    funext apart
    split
    · rfl
    · simp only [Work.map_bind,ih]

/-- As many rounds as `p` has coefficients are enough: each round takes a factor out of it. -/
theorem gdcopLoop_returns (q : Dense r.Elem) {p : Dense r.Elem} (nonzero : p ≠ 0) {rounds : ℕ}
    (enough : p.size ≤ rounds) :
    ∃ e : Dense r.Elem, (gdcopLoop r ⟨r,q⟩ rounds ⟨r,p⟩).outcome = .ok (.returned ⟨r,e⟩) := by
  induction rounds generalizing p with
  | zero => exact absurd (Dense.size_eq_zero_iff.mp (Nat.le_zero.mp enough)) nonzero
  | succ rounds ih =>
    rw [gdcopLoop,Work.outcome_bind (coprime_outcome (FractionRing r.Elem) p q)]
    by_cases apart : IsCoprime (Dense.extend (FractionRing r.Elem) p) (Dense.extend (FractionRing r.Elem) q)
    · rw [if_pos (decide_eq_true apart)]
      exact ⟨p,rfl⟩
    · obtain ⟨g,s,found,taken,left,smaller,-⟩ := quotient_by_gcd (FractionRing r.Elem) nonzero apart
      rw [if_neg (by simpa using apart),Work.outcome_bind found,Work.outcome_bind taken]
      exact ih left (by omega)

theorem gdcopExit_zero (takes : r.TakesNumbers) (q : Dense r.Elem) :
    (gdcopExit ⟨r,q⟩ ⟨r,0⟩).outcome = .ok (.exhausted ⟨r,if q = 0 then 1 else 0⟩) := by
  show (gdcop ⟨r,q⟩ ⟨r,0⟩).outcome.map GdcopExit.exhausted = _
  rw [gdcop_zero takes]
  rfl

/-- How the loop for the greatest coprime divisor ends: with a divisor, or behind its rounds for zero. -/
structure GdcopEnds (r : BaseRing) (p q : Dense r.Elem) (w : Work GdcopExit) : Prop where
  returns : p ≠ 0 → ∃ d : Dense r.Elem, w.outcome = .ok (.returned ⟨r,d⟩)
  exhausts : p = 0 → w.outcome = .ok (.exhausted ⟨r,if q = 0 then 1 else 0⟩)

theorem gdcopExit_ends (takes : r.TakesNumbers) (p q : Dense r.Elem) :
    GdcopEnds r p q (gdcopExit ⟨r,q⟩ ⟨r,p⟩) where
  returns nonzero := gdcopLoop_returns q nonzero le_rfl
  exhausts zero := by rw [zero,gdcopExit_zero takes]

/-- The rounds of the loops suffice. With their ways out forgotten the loops are those that run;
    Euclid's algorithm returns a divisor that leaves no remainder unless one polynomial is zero and the
    other one constant, the divisions for the cofactors go on to zero, and the loop for the greatest
    coprime divisor goes beyond its rounds only for zero. -/
theorem loops_total_correct (r : BaseRing) (takes : r.TakesNumbers) (p q : Dense r.Elem) :
    (gcdExit ⟨r,p⟩ ⟨r,q⟩).map GcdExit.result = gcd ⟨r,p⟩ ⟨r,q⟩ ∧
    GcdEnds r p q (gcdExit ⟨r,p⟩ ⟨r,q⟩) ∧
    (egcdExit ⟨r,p⟩ ⟨r,q⟩).map CofactorExit.cofactors = egcd ⟨r,p⟩ ⟨r,q⟩ ∧
    (∃ e, (egcdExit ⟨r,p⟩ ⟨r,q⟩).outcome = .ok e ∧ e.divisor = ⟨r,0⟩) ∧
    (gdcopExit ⟨r,q⟩ ⟨r,p⟩).map GdcopExit.result = gdcop ⟨r,q⟩ ⟨r,p⟩ ∧
    GdcopEnds r p q (gdcopExit ⟨r,q⟩ ⟨r,p⟩) :=
  ⟨gcdExit_result _ _,gcdExit_ends p q,egcdExit_cofactors _ _,egcdExit_divisor takes p q,
    gdcopLoop_result _ _ _ _,gdcopExit_ends takes p q⟩

/-- Over the integers, where every remainder is only one coefficient smaller than the last. -/
theorem loops_over_integers : BaseRing.integers.TakesNumbers ∧
    (gcdExit ⟨.integers,.ofList [-1,0,3,2]⟩ ⟨.integers,.ofList [1,1,3]⟩).map GcdExit.result =
      gcd ⟨.integers,.ofList [-1,0,3,2]⟩ ⟨.integers,.ofList [1,1,3]⟩ ∧
    GcdEnds .integers (.ofList [-1,0,3,2]) (.ofList [1,1,3])
      (gcdExit ⟨.integers,.ofList [-1,0,3,2]⟩ ⟨.integers,.ofList [1,1,3]⟩) ∧
    (egcdExit ⟨.integers,.ofList [-1,0,3,2]⟩ ⟨.integers,.ofList [1,1,3]⟩).map CofactorExit.cofactors =
      egcd ⟨.integers,.ofList [-1,0,3,2]⟩ ⟨.integers,.ofList [1,1,3]⟩ ∧
    (∃ e, (egcdExit ⟨.integers,.ofList [-1,0,3,2]⟩ ⟨.integers,.ofList [1,1,3]⟩).outcome = .ok e ∧
      e.divisor = ⟨.integers,0⟩) ∧
    (gdcopExit ⟨.integers,.ofList [1,1,3]⟩ ⟨.integers,.ofList [-1,0,3,2]⟩).map GdcopExit.result =
      gdcop ⟨.integers,.ofList [1,1,3]⟩ ⟨.integers,.ofList [-1,0,3,2]⟩ ∧
    GdcopEnds .integers (.ofList [-1,0,3,2]) (.ofList [1,1,3])
      (gdcopExit ⟨.integers,.ofList [1,1,3]⟩ ⟨.integers,.ofList [-1,0,3,2]⟩) :=
  ⟨trivial,loops_total_correct .integers trivial _ _⟩

end Poly
end Bezout

import Bezout.Proofs.Division
import Bezout.Proofs.Reports

/-!
The steps of a division. A step of a run (`Dense.Steps`) puts a term into the quotient at a power below all
powers that earlier steps reached, because the remainder has become smaller. So no step cancels a term of an
earlier one, although pseudo-division multiplies all of them again and again, and the quotient has a term for
each step (`Dense.Steps.termCount_eq`), also where a remainder loses several terms at once.
-/
namespace Bezout
open Polynomial

/-! ### Terms -/

theorem countP_eq_card_support {R : Type} [CoefficientDomain R] (cs : List R) :
    cs.countP (· ≠ 0) = (ofCoeffs cs).support.card := by
  have counted : cs.countP (· ≠ 0) = ((Finset.range cs.length).filter fun i => cs.getD i 0 ≠ 0).card := by
    rw [Finset.card_filter]
    induction cs with
    | nil => rfl
    | cons c rest ih =>
      rw [List.countP_cons,ih,List.length_cons,Finset.sum_range_succ']
      simp
  rw [counted]
  congr 1
  ext i
  rw [Finset.mem_filter,Finset.mem_range,mem_support_iff,coeff_ofCoeffs,and_iff_right_iff_imp]
  intro kept
  by_contra outside
  exact kept (List.getD_eq_default _ _ (not_lt.mp outside))

namespace Dense
variable {R : Type} [CoefficientDomain R]

/-- The number of coefficients other than zero. -/
def termCount (p : Dense R) : ℕ := p.coeffs.countP (· ≠ 0)

theorem termCount_eq_card_support (p : Dense R) : p.termCount = p.toPolynomial.support.card :=
  countP_eq_card_support p.coeffs

theorem termCount_scale {c : R} (nonzero : c ≠ 0) (p : Dense R) : (p.scale c).termCount = p.termCount := by
  rw [termCount,termCount,coeffs_scale nonzero,List.countP_map]
  congr 1
  funext a
  simp [nonzero]

theorem coeff_add_monomial (p : Dense R) (a : R) (n i : ℕ) :
    (p + Dense.monomial a n).coeff i = p.coeff i + if i = n then a else 0 := by
  rw [← coeff_toPolynomial,toPolynomial_add,toPolynomial_monomial,coeff_add,coeff_C_mul_X_pow,
    coeff_toPolynomial]

/-- A term at a power without one is one term more. -/
theorem termCount_add_monomial {p : Dense R} {a : R} {n : ℕ} (free : p.coeff n = 0) (nonzero : a ≠ 0) :
    (p + Dense.monomial a n).termCount = p.termCount + 1 := by
  have support : (p + Dense.monomial a n).toPolynomial.support = insert n p.toPolynomial.support := by
    ext i
    rw [Finset.mem_insert,mem_support_iff,mem_support_iff,coeff_toPolynomial,coeff_toPolynomial,
      coeff_add_monomial]
    by_cases here : i = n
    · subst here
      simp [free,nonzero]
    · simp [here]
  have fresh : n ∉ p.toPolynomial.support := by
    rw [notMem_support_iff,coeff_toPolynomial,free]
  rw [termCount_eq_card_support,support,Finset.card_insert_of_notMem fresh,termCount_eq_card_support]

/-! ### Runs -/

section Runs
variable {q quotient remainder last rest : Dense R} {c : R} {ns : List ℕ}

/-- All remainders but the last one are large enough for a step. -/
theorem Steps.fitting (run : Steps q c quotient remainder ns last rest) :
    ∀ n ∈ (remainder.size :: ns).dropLast, q.size ≤ n := by
  induction run with
  | stop => exact nofun
  | step fits _ _ _ ih =>
    rw [List.dropLast_cons_cons,List.forall_mem_cons]
    exact ⟨fits,ih⟩

theorem Steps.getLast (run : Steps q c quotient remainder ns last rest) :
    (remainder.size :: ns).getLast? = some rest.size := by
  induction run with
  | stop => rfl
  | step _ _ _ _ ih => rw [List.getLast?_cons_cons,ih]

section
variable (nonzero : q ≠ 0) (scaled : c ≠ 0)
include nonzero scaled

theorem Steps.decreasing (run : Steps q c quotient remainder ns last rest) :
    (remainder.size :: ns).Pairwise (· > ·) := by
  rw [← List.isChain_iff_pairwise]
  induction run with
  | stop => exact List.isChain_singleton _
  | step fits cancels taken _ ih =>
    subst taken
    exact ih.cons_cons (cancel_lt nonzero fits scaled cancels)

/-- A quotient without terms at the powers that are still to come gets one term in each step. -/
theorem Steps.termCount_eq (run : Steps q c quotient remainder ns last rest)
    (free : ∀ i, i + q.size ≤ remainder.size → quotient.coeff i = 0) :
    last.termCount = quotient.termCount + ns.length := by
  induction run with
  | stop => rfl
  | @step quotient remainder next last rest a ns fits cancels taken _ ih =>
    subst taken
    have shrinks := cancel_lt nonzero fits scaled cancels
    have untouched : ∀ i, i + q.size ≤ remainder.size → (quotient.scale c).coeff i = 0 := by
      intro i below
      rw [← coeff_toPolynomial,toPolynomial_scale,coeff_C_mul,coeff_toPolynomial,free i below,mul_zero]
    have later := ih fun i below => by
      have apart : i ≠ remainder.size - q.size := by omega
      rw [coeff_add_monomial,untouched i (by omega),if_neg apart,zero_add]
    rw [later,termCount_add_monomial (untouched _ (by omega)) (factor_ne_zero nonzero fits scaled cancels),
      termCount_scale scaled,List.length_cons]
    omega

end

end Runs

/-- How a division of `p` by `q` goes: the sizes of the remainders after its steps go down from that of `p`,
    all but the last one large enough for another step, to that of the remainder, and the quotient has one
    term for each step. -/
structure StepsDown (p q : Dense R) (d : Division (Dense R)) (ns : List ℕ) : Prop where
  terms : d.quotient.termCount = ns.length
  decreasing : (p.size :: ns).Pairwise (· > ·)
  fitting : ∀ n ∈ (p.size :: ns).dropLast, q.size ≤ n
  last : (p.size :: ns).getLast? = some d.remainder.size
  ended : d.remainder.size < q.size

theorem Steps.stepsDown {p q last rest : Dense R} {c : R} {ns : List ℕ} (run : Steps q c 0 p ns last rest)
    (nonzero : q ≠ 0) (scaled : c ≠ 0) (k : ℤ) : StepsDown p q ⟨k,last,rest⟩ ns where
  terms := by
    have none : ∀ i, i + q.size ≤ p.size → (0 : Dense R).coeff i = 0 := fun i _ => coeff_eq_zero i.zero_le
    exact (run.termCount_eq nonzero scaled none).trans (Nat.zero_add _)
  decreasing := run.decreasing nonzero scaled
  fitting := run.fitting
  last := run.getLast
  ended := run.ended

theorem oneLine_sizeMessages (ns : List ℕ) : ∀ text ∈ sizeMessages ns, OneLine text := by
  rw [sizeMessages,List.forall_mem_map]
  exact fun n _ => .append (by decide) (oneLine_nat n)

theorem oneLine_stepMessages (first : ℕ) (ns : List ℕ) : ∀ text ∈ stepMessages first ns, OneLine text := by
  rw [stepMessages,List.forall_mem_map]
  exact fun (n,k) _ => .append (.append (.append (by decide) (oneLine_nat k)) (by decide)) (oneLine_nat n)

end Dense

/-! ### Lines -/

namespace Event

theorem oneLine_indent (depth : ℕ) : OneLine (indent depth) := by
  rw [OneLine,indent,String.toList_ofList]
  intro member
  cases List.eq_of_mem_replicate member

/-- Messages of one line each are shown as their lines. -/
theorem allLines_notes {texts : List String} (lines : ∀ text ∈ texts, OneLine text) (depth : ℕ) :
    allLines true depth (texts.map .note) = texts.map (indent depth ++ ·) := by
  induction texts with
  | nil => rfl
  | cons text rest ih =>
    rw [List.forall_mem_cons] at lines
    have shown : reported true (indent depth ++ text) = [indent depth ++ text] :=
      linesOf_eq ((oneLine_indent depth).append lines.1)
    rw [List.map_cons,allLines,Event.lines,shown,ih lines.2]
    rfl

/-- The lines of a task that shows messages of one line each. -/
def taskLines (depth : ℕ) (name : String) (details : List (String × String)) (texts : List String) :
    List String :=
  opening true depth name details ++ texts.map (indent (depth + 1) ++ ·) ++ closing true depth name

theorem allLines_task (depth : ℕ) (name : String) (details : List (String × String)) {texts : List String}
    (lines : ∀ text ∈ texts, OneLine text) :
    allLines true depth [.task name details (texts.map .note)] = taskLines depth name details texts := by
  rw [allLines,Event.lines,allLines_notes lines,allLines,List.append_nil,taskLines]

end Event

namespace Poly
variable {r : BaseRing}

theorem pseudoDivide_steps (p : Dense r.Elem) {q : Dense r.Elem} (nonzero : q ≠ 0) :
    ∃ (d : Division (Dense r.Elem)) (ns : List ℕ), d.scale = ns.length ∧ Dense.StepsDown p q d ns ∧
      pseudoDivide ⟨r,p⟩ ⟨r,q⟩ = ⟨.ok (.over r d),
        [.task "pseudo_divide" (sizes ⟨r,p⟩ ⟨r,q⟩) ((Dense.stepMessages 1 ns).map .note)]⟩ := by
  obtain ⟨ns,last,rest,run,ended⟩ := Dense.pseudoFrom_steps nonzero 0 0 p
  rw [Nat.zero_add] at ended
  refine ⟨_,ns,rfl,run.stepsDown nonzero (mt Dense.lead_eq_zero_iff.mp nonzero) _,?_⟩
  rw [pseudoDivide_eq p nonzero,ended]
  rfl

theorem divide_steps (p : Dense r.Elem) {q : Dense r.Elem} (unit : IsUnit q.lead) :
    ∃ (d : Division (Dense r.Elem)) (ns : List ℕ), Dense.StepsDown p q d ns ∧
      divide ⟨r,p⟩ ⟨r,q⟩ = ⟨.ok (.over r d),
        [.task "divide" (sizes ⟨r,p⟩ ⟨r,q⟩) ((Dense.sizeMessages ns).map .note)]⟩ := by
  obtain ⟨inverse,product⟩ := isUnit_iff_exists_inv.mp unit
  have found : Coefficient.inverse? q.lead = some inverse :=
    CoefficientDomain.inverse?_eq_some_iff.mpr product
  have nonzero := ne_zero_of_inverse found
  obtain ⟨ns,last,rest,run,ended⟩ := Dense.exactFrom_steps nonzero product 0 p
  refine ⟨_,ns,run.stepsDown nonzero one_ne_zero 0,?_⟩
  rw [divide_eq_exact p found,ended]
  rfl

/-- The loop of pseudo-division takes one step for each term of the quotient, which is how often it multiplies
    and what it numbers in its messages, and so does the loop of exact division where the leading coefficient
    of the divisor is a unit. Both show the sizes of the remainders, which go down from that of the dividend to
    that of the remainder. -/
theorem division_steps_total_correct (r : BaseRing) (p : Dense r.Elem) {q : Dense r.Elem} (nonzero : q ≠ 0) :
    (∃ (d : Division (Dense r.Elem)) (ns : List ℕ),
      (pseudoDivide ⟨r,p⟩ ⟨r,q⟩).outcome = .ok (.over r d) ∧ d.scale = ns.length ∧
      Dense.StepsDown p q d ns ∧ ∀ depth, Event.allLines true depth (pseudoDivide ⟨r,p⟩ ⟨r,q⟩).report =
        Event.taskLines depth "pseudo_divide" (sizes ⟨r,p⟩ ⟨r,q⟩) (Dense.stepMessages 1 ns)) ∧
    (IsUnit q.lead → ∃ (d : Division (Dense r.Elem)) (ns : List ℕ),
      (divide ⟨r,p⟩ ⟨r,q⟩).outcome = .ok (.over r d) ∧
      Dense.StepsDown p q d ns ∧ ∀ depth, Event.allLines true depth (divide ⟨r,p⟩ ⟨r,q⟩).report =
        Event.taskLines depth "divide" (sizes ⟨r,p⟩ ⟨r,q⟩) (Dense.sizeMessages ns)) := by
  constructor
  · obtain ⟨d,ns,counted,steps,ended⟩ := pseudoDivide_steps p nonzero
    rw [ended]
    exact ⟨d,ns,rfl,counted,steps,fun depth => Event.allLines_task depth _ _ (Dense.oneLine_stepMessages 1 ns)⟩
  · intro unit
    obtain ⟨d,ns,steps,ended⟩ := divide_steps p unit
    rw [ended]
    exact ⟨d,ns,rfl,steps,fun depth => Event.allLines_task depth _ _ (Dense.oneLine_sizeMessages ns)⟩

/-- Over the integers, where the remainder of `x^5 + x` by `1 - x^2` loses two powers in each step. -/
theorem division_steps_lose_powers : let r : BaseRing := .integers
    let p : Dense r.Elem := .ofList [0,1,0,0,0,1]
    let q : Dense r.Elem := .ofList [1,0,-1]
    q ≠ 0 ∧ IsUnit q.lead ∧
    (∃ (d : Division (Dense r.Elem)) (ns : List ℕ),
      (pseudoDivide ⟨r,p⟩ ⟨r,q⟩).outcome = .ok (.over r d) ∧ d.scale = ns.length ∧
      Dense.StepsDown p q d ns ∧ ∀ depth, Event.allLines true depth (pseudoDivide ⟨r,p⟩ ⟨r,q⟩).report =
        Event.taskLines depth "pseudo_divide" (sizes ⟨r,p⟩ ⟨r,q⟩) (Dense.stepMessages 1 ns)) ∧
    ∃ (d : Division (Dense r.Elem)) (ns : List ℕ),
      (divide ⟨r,p⟩ ⟨r,q⟩).outcome = .ok (.over r d) ∧
      Dense.StepsDown p q d ns ∧ ∀ depth, Event.allLines true depth (divide ⟨r,p⟩ ⟨r,q⟩).report =
        Event.taskLines depth "divide" (sizes ⟨r,p⟩ ⟨r,q⟩) (Dense.sizeMessages ns) := by
  intro r p q
  have nonzero : q ≠ 0 := by decide
  have unit : IsUnit q.lead := Int.isUnit_iff.mpr (.inr rfl)
  obtain ⟨pseudo,exact⟩ := division_steps_total_correct r p nonzero
  exact ⟨nonzero,unit,pseudo,exact unit⟩

example : (pseudoDivide ⟨.integers,.ofList [0,1,0,0,0,1]⟩ ⟨.integers,.ofList [1,0,-1]⟩).outcome =
    .ok (.over .integers ⟨2,.ofList [0,-1,0,-1],.ofList [0,2]⟩) := by
  cbv

end Poly
end Bezout

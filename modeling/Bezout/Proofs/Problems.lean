import Bezout.Command
import Bezout.Proofs.CofactorCertificate
import Bezout.Proofs.Certification
import Bezout.Proofs.CommonMultiples
import Bezout.Proofs.CoprimePart
import Bezout.Proofs.Irreducibility
import Bezout.Proofs.Multiplicity
import Bezout.Proofs.Reports
import Bezout.Proofs.Roots
import Bezout.Proofs.SquareFreePart

/-!
What working on a problem ends with and what it shows. The polynomials of a problem are written over one
ring, so that no operation meets a fault; the operations show nothing, and the results are shown one
after the other (`Work.Shows`).
-/
namespace Bezout
open scoped Classical

namespace Event

theorem allLines_append (verbose : Bool) (depth : ℕ) (events more : List Event) :
    allLines verbose depth (events ++ more) =
      allLines verbose depth events ++ allLines verbose depth more := by
  induction events with
  | nil => rfl
  | cons e rest ih => rw [List.cons_append,allLines,allLines,ih,List.append_assoc]

end Event

namespace Work
variable {α β : Type}

/-- Work that ends with a result and shows some lines when no reports are wanted. -/
structure Shows (w : Work α) (a : α) (lines : List String) : Prop where
  outcome : w.outcome = .ok a
  shown : Event.allLines false 0 w.report = lines

theorem Shows.bind {w : Work α} {next : α → Work β} {a : α} {b : β} {lines more : List String}
    (first : w.Shows a lines) (second : (next a).Shows b more) :
    (w >>= next).Shows b (lines ++ more) := by
  have ended : w >>= next = ⟨(next a).outcome,w.report ++ (next a).report⟩ := by
    show andThen w next = _
    rw [andThen,first.outcome]
  rw [ended]
  exact ⟨second.outcome,by rw [Event.allLines_append,first.shown,second.shown]⟩

theorem Shows.map {w : Work α} {a : α} {lines : List String} (shows : w.Shows a lines) (f : α → β) :
    (w.map f).Shows (f a) lines := ⟨by rw [outcome_map,shows.outcome]; rfl,shows.shown⟩

theorem shows_done (a : α) : (done a).Shows a [] := ⟨rfl,rfl⟩

theorem shows_print (text : String) : (print text).Shows () (Event.linesOf text) :=
  ⟨rfl,List.append_nil _⟩

/-- Work ends with a result after what it shows. -/
theorem Shows.then_done {w : Work α} {a : α} {lines : List String} (shows : w.Shows a lines) (b : β) :
    (w >>= fun _ => done b).Shows b lines := by
  rw [← List.append_nil lines]
  exact shows.bind (shows_done b)

/-- Nothing is shown of what an operation reports. -/
theorem Quiet.shows {w : Work α} {a : α} (quiet : w.Quiet) (ended : w.outcome = .ok a) : w.Shows a [] :=
  ⟨ended,quiet.allLines_eq_nil 0⟩

/-- Work goes on from the result of an operation as if the operation were not there. -/
theorem Quiet.shows_bind {w : Work α} {next : α → Work β} {a : α} {b : β} {lines : List String}
    (quiet : w.Quiet) (ended : w.outcome = .ok a) (later : (next a).Shows b lines) :
    (w >>= next).Shows b lines := (quiet.shows ended).bind later

theorem shows_ofExcept_bind {e : Except Fault α} {next : α → Work β} {a : α} {b : β}
    {lines : List String} (found : e = .ok a) (later : (next a).Shows b lines) :
    (ofExcept e >>= next).Shows b lines := (quiet_ofExcept e).shows_bind found later

/-- Work that ends with a fault before anything is shown. -/
structure Fails (w : Work α) (fault : Fault) : Prop where
  outcome : w.outcome = .error fault
  shown : Event.allLines false 0 w.report = []

theorem Fails.map {w : Work α} {fault : Fault} (fails : w.Fails fault) (f : α → β) :
    (w.map f).Fails fault := ⟨by rw [outcome_map,fails.outcome]; rfl,fails.shown⟩

/-- The fault of an operation ends the work. -/
theorem Quiet.fails_bind {w : Work α} {fault : Fault} (quiet : w.Quiet) (failed : w.outcome = .error fault)
    (next : α → Work β) : (w >>= next).Fails fault := by
  have ended : w >>= next = ⟨.error fault,w.report⟩ := by
    show andThen w next = _
    rw [andThen,failed]
  rw [ended]
  exact ⟨rfl,quiet.allLines_eq_nil 0⟩

theorem shows_forM {f : α → Work Unit} {lines : α → List String} (each : ∀ a, (f a).Shows () (lines a))
    (items : List α) : (items.forM f).Shows () (items.flatMap lines) := by
  induction items with
  | nil => exact shows_done ()
  | cons a rest ih => exact (each a).bind ih

end Work

namespace Problem
variable {r : BaseRing} {solver : Solver} (name : String) (certify : Bool)

/-- The line that says that a result was certified, if this was wanted. -/
def certificateLines : List String := if certify then ["Certified by Z3"] else []

theorem certified_shows {check : Work Bool} (quiet : check.Quiet) (holds : check.outcome = .ok true) :
    (certified certify check).Shows true (certificateLines certify) := by
  rw [certified,certificateLines]
  split
  · have line : Event.linesOf "Certified by Z3" = ["Certified by Z3"] := Event.linesOf_eq (by decide)
    rw [← line]
    exact quiet.shows_bind holds ((Work.shows_print _).then_done true)
  · exact Work.shows_done true

/-! ### Divisions and cofactors -/

/-- The lines that show a division. -/
def divisionLines (d : Division Poly) : List String :=
  Event.linesOf s!"k = {d.scale}" ++ (Event.linesOf s!"quotient = {d.quotient.text name}" ++
    Event.linesOf s!"remainder = {d.remainder.text name}")

theorem printDivision_shows (d : Division Poly) :
    (printDivision name d).Shows () (divisionLines name d) :=
  (Work.shows_print _).bind ((Work.shows_print _).bind (Work.shows_print _))

/-- The lines that show cofactors and what they combine the polynomials to. -/
def cofactorLines (u v h : Poly) : List String :=
  Event.linesOf s!"u = {u.text name}" ++ (Event.linesOf s!"v = {v.text name}" ++
    Event.linesOf s!"u*p + v*q = {h.text name}")

section Certified
variable (decides : ∀ query, solver query = true ↔ query.HasModel)
include decides

/-- A division is shown, and its certificate is accepted. -/
theorem division_shows (takes : r.TakesNumbers) {p q : Dense r.Elem} {d : Division (Dense r.Elem)}
    (division : Dense.IsDivision p q d) :
    (printDivision name (.over r d) >>= fun _ => certified certify
        (Certificate.checkDivision ⟨r,p⟩ ⟨r,q⟩ (.over r d) solver)).Shows true
      (divisionLines name (.over r d) ++ certificateLines certify) := by
  refine (printDivision_shows name _).bind (certified_shows certify ?_ ?_)
  · exact Certificate.quiet_checkDivision _ _ _ _
  · exact Certificate.accepts_isDivision takes decides division

theorem div_shows (takes : r.TakesNumbers) (p q : Dense r.Elem) :
    ∃ d, Dense.IsDivision p q d ∧ (work solver name certify (.binary .div ⟨r,p⟩ ⟨r,q⟩)).Shows true
      (divisionLines name (.over r d) ++ certificateLines certify) := by
  obtain ⟨d,ended,division,-⟩ := Poly.divide_isDivision p q
  exact ⟨d,division,(Poly.quiet_divide _ _).shows_bind ended (division_shows name certify decides takes division)⟩

theorem pdiv_shows (takes : r.TakesNumbers) (p q : Dense r.Elem) :
    ∃ d, Dense.IsDivision p q d ∧ (work solver name certify (.binary .pdiv ⟨r,p⟩ ⟨r,q⟩)).Shows true
      (divisionLines name (.over r d) ++ certificateLines certify) := by
  obtain ⟨d,ended,division⟩ := Poly.pseudoDivide_isDivision p q
  exact ⟨d,division,(Poly.quiet_pseudoDivide _ _).shows_bind ended
    (division_shows name certify decides takes division)⟩

/-- Cofactors are shown, and their certificate is accepted. -/
theorem egcd_shows (takes : r.TakesNumbers) (p q : Dense r.Elem) :
    ∃ u v g : Dense r.Elem, (Poly.egcd ⟨r,p⟩ ⟨r,q⟩).outcome = .ok (⟨r,u⟩,⟨r,v⟩) ∧
      (Poly.gcd ⟨r,p⟩ ⟨r,q⟩).outcome = .ok ⟨r,g⟩ ∧ u * p + v * q = g ∧
      (work solver name certify (.binary .egcd ⟨r,p⟩ ⟨r,q⟩)).Shows true
        (cofactorLines name ⟨r,u⟩ ⟨r,v⟩ ⟨r,g⟩ ++ certificateLines certify) := by
  obtain ⟨g,found,run⟩ := Poly.gcd_run p q
  obtain ⟨u,v,ended,combined⟩ := Poly.egcd_of_run takes run
  have accepted := Certificate.checkBezout_outcome (FractionRing r.Elem) takes decides found u v
  rw [combined,decide_eq_true (Associated.refl _)] at accepted
  have sum : Poly.add ⟨r,u * p⟩ ⟨r,v * q⟩ = .ok ⟨r,g⟩ := by rw [Poly.add_eq,combined]
  refine ⟨u,v,g,ended,found,combined,(Poly.quiet_egcd _ _).shows_bind ended ?_⟩
  rw [cofactorLines,List.append_assoc,List.append_assoc]
  refine (Work.shows_print _).bind ((Work.shows_print _).bind ?_)
  refine Work.shows_ofExcept_bind (Poly.mul_eq u p) (Work.shows_ofExcept_bind (Poly.mul_eq v q) ?_)
  refine Work.shows_ofExcept_bind sum ((Work.shows_print _).bind ?_)
  exact certified_shows certify (Certificate.quiet_checkBezout _ _ _ _ _) accepted

end Certified

/-! ### Other problems with two polynomials -/

theorem printNormalized_shows (takes : r.TakesNumbers) (p : Dense r.Elem) :
    ∃ lines, (printNormalized name ⟨r,p⟩).Shows () lines := by
  obtain ⟨s,-,normalized,-⟩ := Poly.normalize_isNormal takes p
  exact ⟨_,Work.shows_ofExcept_bind normalized (Work.shows_print _)⟩

theorem coprime_shows (p q : Dense r.Elem) :
    ∃ lines, (work solver name certify (.binary .coprime ⟨r,p⟩ ⟨r,q⟩)).Shows true lines := by
  have ended := Poly.coprime_outcome (FractionRing r.Elem) p q
  exact ⟨_,(Poly.quiet_coprime _ _).shows_bind ended ((Work.shows_print _).then_done true)⟩

/-- A polynomial that an operation found is shown in its normal form. -/
theorem normalized_shows (takes : r.TakesNumbers) {operation : Work Poly} {g : Dense r.Elem}
    (quiet : operation.Quiet) (found : operation.outcome = .ok ⟨r,g⟩) :
    ∃ lines, (do
      printNormalized name (← operation)
      Work.done true).Shows true lines := by
  obtain ⟨lines,shown⟩ := printNormalized_shows name takes g
  exact ⟨_,quiet.shows_bind found (shown.then_done true)⟩

theorem gdcop_outcome (takes : r.TakesNumbers) (p q : Dense r.Elem) :
    ∃ d, (Poly.gdcop ⟨r,q⟩ ⟨r,p⟩).outcome = .ok ⟨r,d⟩ := by
  by_cases zero : p = 0
  · subst zero
    exact ⟨_,Poly.gdcop_zero takes q⟩
  · obtain ⟨d,ended,-⟩ := Poly.gdcopRounds_isCoprimePart (FractionRing r.Elem) q zero le_rfl
    exact ⟨d,ended⟩

theorem gcd_shows (takes : r.TakesNumbers) (p q : Dense r.Elem) :
    ∃ lines, (work solver name certify (.binary .gcd ⟨r,p⟩ ⟨r,q⟩)).Shows true lines := by
  obtain ⟨g,found,-⟩ := Poly.gcd_run p q
  exact normalized_shows name takes (Poly.quiet_gcd _ _) found

theorem gdcop_shows (takes : r.TakesNumbers) (p q : Dense r.Elem) :
    ∃ lines, (work solver name certify (.binary .gdcop ⟨r,p⟩ ⟨r,q⟩)).Shows true lines := by
  obtain ⟨d,found⟩ := gdcop_outcome takes p q
  exact normalized_shows name takes (Poly.quiet_gdcop _ _) found

theorem lcm_shows (takes : r.TakesNumbers) (p q : Dense r.Elem) :
    ∃ lines, (work solver name certify (.binary .lcm ⟨r,p⟩ ⟨r,q⟩)).Shows true lines := by
  obtain ⟨l,found,-⟩ := Poly.lcm_isLcm (FractionRing r.Elem) p q
  exact normalized_shows name takes (Poly.quiet_lcm _ _) found

/-- The commands whose results can be certified. -/
def certifiable : BinaryCommand → Bool
  | .div | .egcd | .pdiv => true
  | _ => false

/-- Every problem with two polynomials is worked out, and the result of a command that can be certified
    is certified last. -/
theorem binary_shows (decides : ∀ query, solver query = true ↔ query.HasModel)
    (takes : r.TakesNumbers) (c : BinaryCommand) (p q : Dense r.Elem) :
    ∃ lines, (work solver name certify (.binary c ⟨r,p⟩ ⟨r,q⟩)).Shows true lines ∧
      (certify = true → certifiable c = true → lines.getLast? = some "Certified by Z3") := by
  have last : ∀ lines, certify = true →
      (lines ++ certificateLines certify).getLast? = some "Certified by Z3" := by
    rintro lines rfl
    exact List.getLast?_concat ..
  cases c with
  | coprime =>
    obtain ⟨lines,shown⟩ := coprime_shows name certify p q
    exact ⟨lines,shown,fun _ => nofun⟩
  | div =>
    obtain ⟨d,-,shown⟩ := div_shows name certify decides takes p q
    exact ⟨_,shown,fun wanted _ => last _ wanted⟩
  | egcd =>
    obtain ⟨u,v,g,-,-,-,shown⟩ := egcd_shows name certify decides takes p q
    exact ⟨_,shown,fun wanted _ => last _ wanted⟩
  | gcd =>
    obtain ⟨lines,shown⟩ := gcd_shows name certify takes p q
    exact ⟨lines,shown,fun _ => nofun⟩
  | gdcop =>
    obtain ⟨lines,shown⟩ := gdcop_shows name certify takes p q
    exact ⟨lines,shown,fun _ => nofun⟩
  | lcm =>
    obtain ⟨lines,shown⟩ := lcm_shows name certify takes p q
    exact ⟨lines,shown,fun _ => nofun⟩
  | pdiv =>
    obtain ⟨d,-,shown⟩ := pdiv_shows name certify decides takes p q
    exact ⟨_,shown,fun wanted _ => last _ wanted⟩

theorem multiplicity_shows (takes : r.TakesNumbers) (p : Dense r.Elem) (a : r.Elem) :
    ∃ lines, (work solver name certify (.multiplicity ⟨r,p⟩ (Coefficient.number a))).Shows true lines := by
  have ended := Poly.multiplicity_outcome (FractionRing r.Elem) (BaseRing.ofValue_number takes a) p
  exact ⟨_,(Poly.quiet_multiplicity _ _).shows_bind ended ((Work.shows_print _).then_done true)⟩

/-! ### Problems with one polynomial -/

theorem squarefree_shows (takes : r.TakesNumbers) (p : Dense r.Elem) :
    ∃ lines, (work solver name certify (.unary .squarefree ⟨r,p⟩)).Shows true lines := by
  have ended := Poly.isSquareFree_outcome (FractionRing r.Elem) p
  have part : r.characteristic = 0 → ∃ s, (Poly.squareFreePart ⟨r,p⟩).outcome = .ok s := by
    intro characteristic
    by_cases zero : p = 0
    · rw [Poly.squareFreePart,if_neg (not_not.mpr characteristic),if_pos (Poly.isZero_iff.mpr zero)]
      exact ⟨_,rfl⟩
    · obtain ⟨s,-,found,-⟩ :=
        Poly.squareFreePart_outcome (FractionRing r.Elem) takes characteristic zero
      exact ⟨_,found⟩
  have rest : ∃ lines, (if r.characteristic = 0 then do
      Work.print ("square-free part: " ++ (← Poly.squareFreePart ⟨r,p⟩).text name)
      else Work.done ()).Shows () lines := by
    split
    · rename_i characteristic
      obtain ⟨s,found⟩ := part characteristic
      exact ⟨_,(Poly.quiet_squareFreePart _).shows_bind found (Work.shows_print _)⟩
    · exact ⟨_,Work.shows_done ()⟩
  obtain ⟨lines,shown⟩ := rest
  exact ⟨_,((Poly.quiet_isSquareFree _).shows_bind ended ((Work.shows_print _).bind shown)).map _⟩

/-- Over the integers and the rational numbers irreducibility is not decided. -/
theorem irreducible_fails {p : Poly} (infinite : p.ring = .integers ∨ p.ring = .rationals) :
    ∃ fault, fault.isReported = true ∧ (work solver name certify (.unary .irreducible p)).Fails fault := by
  have failed : ∃ fault, fault.isReported = true ∧ p.isIrreducible.outcome = .error fault := by
    obtain ⟨r,d⟩ := p
    rcases infinite with rfl | rfl
    · exact ⟨.needsPrimeField .integers,rfl,rfl⟩
    · exact ⟨.needsPrimeField .rationals,rfl,rfl⟩
  obtain ⟨fault,reported,failed⟩ := failed
  exact ⟨fault,reported,((Poly.quiet_isIrreducible p).fails_bind failed _).map _⟩

/-- The roots of zero are not listed, and neither are roots over the integers and the rational
    numbers. -/
theorem roots_fails {p : Poly}
    (endless : p.ring = .integers ∨ p.ring = .rationals ∨ p.isZero = true) :
    ∃ fault, fault.isReported = true ∧ (work solver name certify (.unary .roots p)).Fails fault := by
  have failed : ∃ fault, fault.isReported = true ∧ p.roots.outcome = .error fault := by
    obtain ⟨r,d⟩ := p
    rcases endless with rfl | rfl | zero
    · exact ⟨.needsElements .integers,rfl,rfl⟩
    · exact ⟨.needsElements .rationals,rfl,rfl⟩
    · rw [Poly.roots]
      split
      · exact ⟨_,rfl,rfl⟩
      · rw [if_pos zero]
        exact ⟨.everyElementIsRoot,rfl,rfl⟩
  obtain ⟨fault,reported,failed⟩ := failed
  exact ⟨fault,reported,((Poly.quiet_roots p).fails_bind failed _).map _⟩

variable {m : Modulus}

theorem irreducible_shows (p : Dense (BaseRing.residues m).Elem) :
    ∃ lines, (work solver name certify (.unary .irreducible ⟨.residues m,p⟩)).Shows true lines := by
  have ended := Poly.isIrreducible_outcome p
  exact ⟨_,((Poly.quiet_isIrreducible _).shows_bind ended (Work.shows_print _)).map _⟩

theorem roots_shows {p : Dense (BaseRing.residues m).Elem} (nonzero : p ≠ 0) :
    ∃ lines, (work solver name certify (.unary .roots ⟨.residues m,p⟩)).Shows true lines := by
  have ended := Poly.roots_outcome nonzero
  have each := Work.shows_forM fun a : ℤ × ℕ => Work.shows_print s!"{a.1} (multiplicity {a.2})"
  exact ⟨_,((Poly.quiet_roots _).shows_bind ended (each _)).map _⟩

/-- Every problem with one polynomial is worked out, except that roots and irreducibility need a finite
    ring, and roots a polynomial other than zero. -/
theorem unary_shows (takes : r.TakesNumbers) (c : UnaryCommand) (p : Dense r.Elem)
    (finite : c = .roots ∨ c = .irreducible → r ≠ .integers ∧ r ≠ .rationals)
    (nonzero : c = .roots → p ≠ 0) :
    ∃ lines, (work solver name certify (.unary c ⟨r,p⟩)).Shows true lines := by
  cases r with
  | bare characteristic mark => exact takes.elim
  | residues m =>
    cases c with
    | irreducible => exact irreducible_shows name certify p
    | roots => exact roots_shows name certify (nonzero rfl)
    | squarefree => exact squarefree_shows name certify takes p
  | integers =>
    cases c with
    | irreducible => exact absurd rfl (finite (.inr rfl)).1
    | roots => exact absurd rfl (finite (.inl rfl)).1
    | squarefree => exact squarefree_shows name certify takes p
  | rationals =>
    cases c with
    | irreducible => exact absurd rfl (finite (.inr rfl)).2
    | roots => exact absurd rfl (finite (.inl rfl)).2
    | squarefree => exact squarefree_shows name certify takes p

end Problem
end Bezout

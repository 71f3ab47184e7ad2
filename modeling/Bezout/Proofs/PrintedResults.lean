import Bezout.Proofs.Commands
import Bezout.Proofs.Legibility

/-!
The results that a run shows. Operands that were read are legible in their variable, and what division
and cofactors make of them is too, because constants only lead to constants; so that every line can be
read again, and the polynomials on the lines satisfy the identities of the results.
-/
namespace Bezout
open scoped Classical

namespace Dense
variable {r : BaseRing} {name : String} {p q : Dense r.Elem}

/-- Polynomials can be written in the variable that others are written in if these, being constants,
    make them constants. -/
theorem Legible.both (first : p.Legible name) (second : q.Legible name) {s : Dense r.Elem}
    (constant : p.size ≤ 1 → q.size ≤ 1 → s.size ≤ 1) : s.Legible name := by
  rcases first with word | left
  · exact .inl word
  rcases second with word | right
  · exact .inl word
  exact .inr (constant left right)

theorem IsDivision.quotient_legible {d : Division (Dense r.Elem)} (division : IsDivision p q d)
    (first : p.Legible name) (second : q.Legible name) : d.quotient.Legible name := by
  refine first.both second fun left right => ?_
  by_cases zero : q = 0
  · rw [division.by_zero zero]
    exact Nat.zero_le 1
  · have settled := division.quotient_size zero
    have positive := mt size_eq_zero_iff.mp zero
    omega

theorem IsDivision.remainder_legible {d : Division (Dense r.Elem)} (division : IsDivision p q d)
    (first : p.Legible name) (second : q.Legible name) : d.remainder.Legible name := by
  refine first.both second fun left right => ?_
  by_cases zero : q = 0
  · rw [division.by_zero zero]
    exact left
  · exact (division.remainder_lt zero).le.trans right

theorem exists_constant_of_size {s : Dense r.Elem} (constant : s.size ≤ 1) :
    ∃ c, Polynomial.C c = s.toPolynomial := by
  rw [← Polynomial.natDegree_eq_zero,natDegree_toPolynomial]
  omega

theorem size_combination {u v : Dense r.Elem} (left : p.size ≤ 1) (right : q.size ≤ 1)
    (first : u.size ≤ 1) (second : v.size ≤ 1) : (u * p + v * q).size ≤ 1 := by
  obtain ⟨a,left⟩ := exists_constant_of_size left
  obtain ⟨b,right⟩ := exists_constant_of_size right
  obtain ⟨c,first⟩ := exists_constant_of_size first
  obtain ⟨d,second⟩ := exists_constant_of_size second
  have degree := (u * p + v * q).natDegree_toPolynomial
  rw [toPolynomial_add,toPolynomial_mul,toPolynomial_mul,← left,← right,← first,← second,
    ← Polynomial.C_mul,← Polynomial.C_mul,← Polynomial.C_add,Polynomial.natDegree_C] at degree
  omega

end Dense

namespace Poly
variable {r : BaseRing} {p q : Dense r.Elem}

theorem size_one_le : (1 : Dense r.Elem).size ≤ 1 := length_strip_le [1]

/-- The cofactors of a constant divisor are found without a step or in one, and are constants. -/
theorem cofactorRounds_constant (takes : r.TakesNumbers) (p : Dense r.Elem) {q : Dense r.Elem}
    (constant : q.size ≤ 1) :
    ∃ u v : Dense r.Elem, (cofactorRounds r q.size ⟨r,p⟩ ⟨r,q⟩).outcome = .ok (⟨r,u⟩,⟨r,v⟩) ∧
      u.size ≤ 1 ∧ v.size ≤ 1 := by
  by_cases zero : q = 0
  · subst zero
    exact ⟨1,0,cofactorRounds_stop takes _ p,size_one_le,Nat.zero_le 1⟩
  · have positive := mt Dense.size_eq_zero_iff.mp zero
    have single : q.size = 0 + 1 := by omega
    obtain ⟨d,ended,division,-⟩ := divide_isDivision p q
    have small := division.remainder_lt zero
    have nothing : d.remainder = 0 := Dense.size_eq_zero_iff.mp (by omega)
    have rest : (cofactorRounds r 0 ⟨r,q⟩ ⟨r,d.remainder⟩).outcome = .ok (⟨r,1⟩,⟨r,0⟩) := by
      rw [nothing]
      exact cofactorRounds_stop takes 0 q
    have found := cofactorRounds_succ takes zero ended division rest
    rw [← single] at found
    refine ⟨_,_,found,?_,?_⟩
    · rw [Dense.scale_eq_mul,mul_zero]
      exact Nat.zero_le 1
    · rw [zero_mul,sub_zero]
      exact size_one_le

/-- The cofactors of constants are constants. -/
theorem egcd_constant (takes : r.TakesNumbers) {u v : Dense r.Elem}
    (found : (egcd ⟨r,p⟩ ⟨r,q⟩).outcome = .ok (⟨r,u⟩,⟨r,v⟩)) (left : p.size ≤ 1) (right : q.size ≤ 1) :
    u.size ≤ 1 ∧ v.size ≤ 1 := by
  rw [egcd,Work.outcome_task] at found
  split at found
  · obtain ⟨a,b,ended,first,second⟩ := cofactorRounds_constant takes p right
    have same := ended.symm.trans found
    cases same
    exact ⟨first,second⟩
  · obtain ⟨a,b,ended,first,second⟩ := cofactorRounds_constant takes q left
    rw [Work.outcome_map,show (cofactorRounds r (size ⟨r,p⟩) ⟨r,q⟩ ⟨r,p⟩).outcome = _ from ended] at found
    cases found
    exact ⟨second,first⟩

end Poly

namespace Problem
variable {r : BaseRing} {name : String}

theorem divisionLines_eq {d : Division (Dense r.Elem)} (counted : 0 ≤ d.scale)
    (quotient : d.quotient.Legible name) (remainder : d.remainder.Legible name) :
    divisionLines name (.over r d) = [s!"k = {d.scale.toNat}",
      "quotient = " ++ Poly.text ⟨r,d.quotient⟩ name,"remainder = " ++ Poly.text ⟨r,d.remainder⟩ name] := by
  have scale : toString d.scale = toString d.scale.toNat := by
    rw [← Int.toNat_of_nonneg counted]
    rfl
  have first : OneLine s!"k = {d.scale}" := .append (by decide) (oneLine_int d.scale)
  have second : OneLine s!"quotient = {Poly.text ⟨r,d.quotient⟩ name}" :=
    .append (by decide) (Poly.oneLine_of_legible quotient)
  have third : OneLine s!"remainder = {Poly.text ⟨r,d.remainder⟩ name}" :=
    .append (by decide) (Poly.oneLine_of_legible remainder)
  simp only [divisionLines,Division.over_scale,Division.over_quotient,Division.over_remainder]
  rw [Event.linesOf_eq first,Event.linesOf_eq second,Event.linesOf_eq third,scale]
  rfl

theorem cofactorLines_eq {u v h : Dense r.Elem} (first : u.Legible name) (second : v.Legible name)
    (third : h.Legible name) :
    cofactorLines name ⟨r,u⟩ ⟨r,v⟩ ⟨r,h⟩ = ["u = " ++ Poly.text ⟨r,u⟩ name,
      "v = " ++ Poly.text ⟨r,v⟩ name,"u*p + v*q = " ++ Poly.text ⟨r,h⟩ name] := by
  have first : OneLine s!"u = {Poly.text ⟨r,u⟩ name}" :=
    .append (by decide) (Poly.oneLine_of_legible first)
  have second : OneLine s!"v = {Poly.text ⟨r,v⟩ name}" :=
    .append (by decide) (Poly.oneLine_of_legible second)
  have third : OneLine s!"u*p + v*q = {Poly.text ⟨r,h⟩ name}" :=
    .append (by decide) (Poly.oneLine_of_legible third)
  rw [cofactorLines,Event.linesOf_eq first,Event.linesOf_eq second,Event.linesOf_eq third]
  rfl

end Problem

namespace Command
variable {ring name first second : String} {certify : Bool} {r : BaseRing} {p q : Dense r.Elem}
  {solver : Solver}

/-- A problem with two polynomials that a request poses is worked out by the run. -/
theorem run_of_binary {arguments : List String} {command : String} {b : BinaryCommand}
    (asks : Asks arguments (.ofTexts ring name certify command first (some second)))
    (known : table.lookup command = some (binary b)) (named : BaseRing.ofName ring = .ok r)
    (read : Poly.ofText first r name = .ok ⟨r,p⟩) (other : Poly.ofText second r name = .ok ⟨r,q⟩)
    {lines : List String} (shows : (Problem.work solver name certify (.binary b ⟨r,p⟩ ⟨r,q⟩)).Shows true lines) :
    (run solver arguments).ending = .ok 0 ∧ (run solver arguments).stdout = lines := by
  rw [run_eq_answer asks,answer_of_shows (shows_binary named read known other shows)]
  exact ⟨rfl,rfl⟩

/-- Three lines of which the last two are read as the quotient and the remainder of a division, under the
    power of the leading coefficient that the first one shows. -/
def ReadAsDivision (name : String) (p q : Dense r.Elem) (lines : List String) : Prop :=
  ∃ (k : ℕ) (quotient remainder : Dense r.Elem) (s t : String),
    lines = [s!"k = {k}","quotient = " ++ s,"remainder = " ++ t] ∧
    Poly.ofText s r name = .ok ⟨r,quotient⟩ ∧ Poly.ofText t r name = .ok ⟨r,remainder⟩ ∧
    (q ≠ 0 → p.scale (q.lead ^ k) = quotient * q + remainder) ∧ (q = 0 → p = remainder)

/-- Three lines that are read as cofactors and as what they combine two polynomials to, an associate of
    the greatest common divisor. -/
def ReadAsCofactors (name : String) (p q : Dense r.Elem) (lines : List String) : Prop :=
  ∃ (u v h : Dense r.Elem) (g : Poly) (s t w : String),
    lines = ["u = " ++ s,"v = " ++ t,"u*p + v*q = " ++ w] ∧
    Poly.ofText s r name = .ok ⟨r,u⟩ ∧ Poly.ofText t r name = .ok ⟨r,v⟩ ∧
    Poly.ofText w r name = .ok ⟨r,h⟩ ∧ h = u * p + v * q ∧
    (Poly.gcd ⟨r,p⟩ ⟨r,q⟩).outcome = .ok g ∧ (Poly.associated ⟨r,h⟩ g).outcome = .ok true

theorem divisionLines_read (takes : r.TakesNumbers) {d : Division (Dense r.Elem)}
    (division : Dense.IsDivision p q d) (left : p.Legible name) (right : q.Legible name) :
    ReadAsDivision name p q (Problem.divisionLines name (.over r d)) := by
  have quotient := division.quotient_legible left right
  have remainder := division.remainder_legible left right
  refine ⟨d.scale.toNat,d.quotient,d.remainder,_,_,
    Problem.divisionLines_eq division.scale_nonneg quotient remainder,Poly.ofText_of_legible takes quotient,
    Poly.ofText_of_legible takes remainder,fun _ => division.identity,fun zero => ?_⟩
  rw [division.by_zero zero]

theorem cofactorLines_read (takes : r.TakesNumbers) {u v g : Dense r.Elem}
    (cofactors : (Poly.egcd ⟨r,p⟩ ⟨r,q⟩).outcome = .ok (⟨r,u⟩,⟨r,v⟩))
    (found : (Poly.gcd ⟨r,p⟩ ⟨r,q⟩).outcome = .ok ⟨r,g⟩) (combined : u * p + v * q = g)
    (left : p.Legible name) (right : q.Legible name) :
    ReadAsCofactors name p q (Problem.cofactorLines name ⟨r,u⟩ ⟨r,v⟩ ⟨r,g⟩) := by
  have constants := Poly.egcd_constant takes cofactors
  have first : u.Legible name := left.both right fun hp hq => (constants hp hq).1
  have second : v.Legible name := left.both right fun hp hq => (constants hp hq).2
  have third : g.Legible name := left.both right fun hp hq => by
    rw [← combined]
    exact Dense.size_combination hp hq (constants hp hq).1 (constants hp hq).2
  refine ⟨u,v,g,⟨r,g⟩,_,_,_,Problem.cofactorLines_eq first second third,Poly.ofText_of_legible takes first,
    Poly.ofText_of_legible takes second,Poly.ofText_of_legible takes third,combined.symm,found,?_⟩
  rw [Poly.associated_outcome (FractionRing r.Elem),decide_eq_true (Associated.refl _)]

/-- Whatever the variable is called, a run on two operands that are read ends normally, and what it shows
    of their division, of their pseudo-division and of their cofactors is read over the same ring and in
    the same variable as polynomials that satisfy the identities of these. The solver is any that decides
    every query. -/
theorem printed_results_read_back (solver : Solver)
    (decides : ∀ query, solver query = true ↔ query.HasModel) (ring name first second : String) (certify : Bool) (r : BaseRing)
    (p q : Dense r.Elem) (named : BaseRing.ofName ring = .ok r)
    (read : Poly.ofText first r name = .ok ⟨r,p⟩) (other : Poly.ofText second r name = .ok ⟨r,q⟩) :
    (∀ command arguments, command = "div" ∨ command = "pdiv" →
      Asks arguments (.ofTexts ring name certify command first (some second)) →
      ∃ lines, (run solver arguments).ending = .ok 0 ∧
        (run solver arguments).stdout = lines ++ Problem.certificateLines certify ∧
        ReadAsDivision name p q lines) ∧
    ∀ arguments, Asks arguments (.ofTexts ring name certify "egcd" first (some second)) →
      ∃ lines, (run solver arguments).ending = .ok 0 ∧
        (run solver arguments).stdout = lines ++ Problem.certificateLines certify ∧
        ReadAsCofactors name p q lines := by
  have takes := BaseRing.ofName_takesNumbers named
  have left := Poly.legible_of_ofText read
  have right := Poly.legible_of_ofText other
  constructor
  · rintro command arguments (rfl | rfl) asks
    · obtain ⟨d,division,shows⟩ := Problem.div_shows name certify decides takes p q
      obtain ⟨ending,shown⟩ := run_of_binary asks rfl named read other shows
      exact ⟨_,ending,shown,divisionLines_read takes division left right⟩
    · obtain ⟨d,division,shows⟩ := Problem.pdiv_shows name certify decides takes p q
      obtain ⟨ending,shown⟩ := run_of_binary asks rfl named read other shows
      exact ⟨_,ending,shown,divisionLines_read takes division left right⟩
  · intro arguments asks
    obtain ⟨u,v,g,cofactors,found,combined,shows⟩ := Problem.egcd_shows name certify decides takes p q
    obtain ⟨ending,shown⟩ := run_of_binary asks rfl named read other shows
    exact ⟨_,ending,shown,cofactorLines_read takes cofactors found combined left right⟩

/-- What is read of a command for two constants, written in a variable whose name is not a word. -/
def constantValues (command : String) : NamedValues :=
  [("ring",.text "QQ"),("var",.text "a b"),("certify",.boolean true),("verbose",.boolean false),
    ("profile_path",.text "/tmp/polydiv.profile"),("solver_timeout",.integer 10000),
    ("profile",.boolean false),("command",.text command),("p",.text "6/4"),("q",.text "3")]

theorem read_division : allArguments.read ["--var","a b","-c","div","6/4","3"] =
    .values (constantValues "div") := by cbv

theorem read_combination : allArguments.read ["--var","a b","-c","egcd","6/4","3"] =
    .values (constantValues "egcd") := by cbv

theorem asks_constants {command : String}
    (read : allArguments.read ["--var","a b","-c",command,"6/4","3"] = .values (constantValues command)) :
    Asks ["--var","a b","-c",command,"6/4","3"]
      (.ofTexts "QQ" "a b" true command "6/4" (some "3")) :=
  ⟨allArguments,constantValues command,addOptions_builtin,read,rfl,by cbv⟩

/-- Two constants, written in a variable whose name is not a word, in a run that certifies its result. -/
theorem printed_results_of_constants :
    (∀ query, Query.solvable query = true ↔ query.HasModel) ∧
    ∃ p q : Dense BaseRing.rationals.Elem, BaseRing.ofName "QQ" = .ok .rationals ∧
      Poly.ofText "6/4" .rationals "a b" = .ok ⟨.rationals,p⟩ ∧
      Poly.ofText "3" .rationals "a b" = .ok ⟨.rationals,q⟩ ∧
      (∃ lines, (run Query.solvable ["--var","a b","-c","div","6/4","3"]).ending = .ok 0 ∧
        (run Query.solvable ["--var","a b","-c","div","6/4","3"]).stdout = lines ++ ["Certified by Z3"] ∧
        ReadAsDivision "a b" p q lines) ∧
      ∃ lines, (run Query.solvable ["--var","a b","-c","egcd","6/4","3"]).ending = .ok 0 ∧
        (run Query.solvable ["--var","a b","-c","egcd","6/4","3"]).stdout = lines ++ ["Certified by Z3"] ∧
        ReadAsCofactors "a b" p q lines := by
  have named : BaseRing.ofName "QQ" = .ok .rationals := by rfl
  have read : Poly.ofText "6/4" .rationals "a b" = .ok ⟨.rationals,.ofList [3 / 2]⟩ := by cbv
  have other : Poly.ofText "3" .rationals "a b" = .ok ⟨.rationals,.ofList [3]⟩ := by cbv
  obtain ⟨divisions,cofactors⟩ := printed_results_read_back Query.solvable Query.solvable_iff _ _ _ _ true _
    _ _ named read other
  exact ⟨Query.solvable_iff,_,_,named,read,other,divisions _ _ (.inl rfl) (asks_constants read_division),
    cofactors _ (asks_constants read_combination)⟩

end Command
end Bezout

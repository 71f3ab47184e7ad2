import Bezout.Proofs.Problems
import Bezout.Proofs.Readings
import Bezout.Proofs.RingNames

/-!
How a run of the command line ends. A request is refused with status 1 for what it asks for, with status
2 for its form, and everything else is worked out (`run_total_correct`); no other fault ends a run.
-/
namespace Bezout

namespace BaseRing

theorem ofModulus_isReported {n : ℕ} {fault : Fault}
    (refused : ofModulus (.integer n) = .error fault) : fault.isReported = true := by
  simp only [ofModulus,Value.number?,Value.exactNumber?] at refused
  split at refused
  · cases refused
  · cases refused
    rfl

theorem ofName_isReported {name : String} {fault : Fault} (rejected : ofName name = .error fault) :
    fault.isReported = true := by
  simp only [ofName] at rejected
  split at rejected
  · cases rejected
  split at rejected
  · cases rejected
  split at rejected
  · exact ofModulus_isReported rejected
  · cases rejected
    rfl

end BaseRing

namespace Poly
variable {r : BaseRing}

/-- A polynomial that is read over a ring is written over it. -/
theorem exists_dense_of_ofText {text name : String} {p : Poly} (read : ofText text r name = .ok p) :
    ∃ d : Dense r.Elem, p = ⟨r,d⟩ := by
  obtain ⟨e,-,taken⟩ := exists_expr_of_ofText read
  obtain ⟨cs,-,rfl⟩ := exists_images_of_ofValues taken
  exact ⟨_,rfl⟩

theorem ofText_isReported (takes : r.TakesNumbers) {text name : String} {fault : Fault}
    (refused : ofText text r name = .error fault) : fault.isReported = true := by
  rw [ofText] at refused
  split at refused
  · cases refused
    rfl
  · rename_i e _
    rcases changeRing_cases takes (e.eval ℚ) with ⟨q,taken,-⟩ | ⟨c,-,-,failed⟩
    · rw [taken] at refused
      cases refused
    · rw [failed] at refused
      cases (Except.error.inj refused)
      rw [BaseRing.inText_refusal]
      rfl

end Poly

/-! ### Requests -/

/-- The request that texts make. -/
def Request.ofTexts (ring name : String) (certify : Bool) (command first : String)
    (second : Option String) : Request :=
  ⟨.text ring,.text name,certify,command,.text first,(second.map Value.text).getD .nothing⟩

/-- A request that poses a problem, together with the lines that working on it with a solver shows. -/
def Request.Shows (request : Request) (solver : Solver) (lines : List String) : Prop :=
  ∃ problem, request.problem = .ok problem ∧
    (problem.work solver request.name.plain request.certify).Shows true lines

namespace Command

/-- An argument vector that is read as a request and leaves all settings as they are. -/
def Asks (arguments : List String) (request : Request) : Prop :=
  ∃ spec values, Settings.builtin.addOptions ownArguments = .ok spec ∧
    spec.read arguments = .values values ∧ requestOf values = request ∧
    Settings.builtin.read values = (Settings.builtin,none)

/-- What argument vectors are read by, with the options of the settings. -/
def allArguments : ArgumentSpec where
  options := ownArguments.options ++
    [⟨["--verbose"],"verbose",.setTrue,.boolean false⟩,
      ⟨["--profile-path"],"profile_path",.store,.text "/tmp/polydiv.profile"⟩,
      ⟨["--solver-timeout"],"solver_timeout",.store,.integer 10000⟩,
      ⟨["--profile"],"profile",.setTrue,.boolean false⟩]
  positionals := ownArguments.positionals

theorem addOptions_builtin : Settings.builtin.addOptions ownArguments = .ok allArguments := by cbv

/-- A run answers the request that its argument vector makes. -/
theorem run_eq_answer {arguments : List String} {request : Request} (asks : Asks arguments request)
    (solver : Solver) : run solver arguments = (answer solver Session.fresh request).2 := by
  obtain ⟨spec,values,added,read,rfl,settings⟩ := asks
  simp only [run,added,read,runValues,settings]
  rfl

/-- Whether a command takes a second operand. -/
def takesSecond : Command → Bool
  | unary _ => false
  | _ => true

/-- What a request can be refused for: its ring, an operand, or what its command cannot be done with. -/
inductive Refused (c : Command) (ring name first : String) : Option String → Prop
  | ring {second : Option String} {fault : Fault} (rejected : BaseRing.ofName ring = .error fault) :
      Refused c ring name first second
  | first {second : Option String} {r : BaseRing} {fault : Fault} (named : BaseRing.ofName ring = .ok r)
      (unread : Poly.ofText first r name = .error fault) : Refused c ring name first second
  | second {second : String} {r : BaseRing} {p : Poly} {fault : Fault}
      (named : BaseRing.ofName ring = .ok r) (read : Poly.ofText first r name = .ok p)
      (taken : c.takesSecond = true) (unread : Poly.ofText second r name = .error fault) :
      Refused c ring name first (some second)
  | roots {r : BaseRing} {p : Poly} (named : BaseRing.ofName ring = .ok r)
      (read : Poly.ofText first r name = .ok p) (command : c = unary .roots)
      (endless : r = .integers ∨ r = .rationals ∨ p.isZero = true) : Refused c ring name first none
  | irreducible {r : BaseRing} {p : Poly} (named : BaseRing.ofName ring = .ok r)
      (read : Poly.ofText first r name = .ok p) (command : c = unary .irreducible)
      (infinite : r = .integers ∨ r = .rationals) : Refused c ring name first none

/-- What is wrong with the form of a request whose ring and first operand are good. -/
inductive Misused (c : Command) (ring name first : String) : Option String → Prop
  | missing {r : BaseRing} {p : Poly} (named : BaseRing.ofName ring = .ok r)
      (read : Poly.ofText first r name = .ok p) (taken : c.takesSecond = true) :
      Misused c ring name first none
  | superfluous {second : String} {r : BaseRing} {p : Poly} (named : BaseRing.ofName ring = .ok r)
      (read : Poly.ofText first r name = .ok p) (untaken : c.takesSecond = false) :
      Misused c ring name first (some second)
  | element {second : String} {r : BaseRing} {p x : Poly} (named : BaseRing.ofName ring = .ok r)
      (read : Poly.ofText first r name = .ok p) (command : c = mup)
      (other : Poly.ofText second r name = .ok x) (nonconstant : x.isConstant = false) :
      Misused c ring name first (some second)

/-! ### What a request poses -/

section Problem
variable {c : Command} {ring name command first : String} {certify : Bool} {r : BaseRing} {p : Poly}
  {fault : Fault}

theorem problem_of_rejected (rejected : BaseRing.ofName ring = .error fault) (second : Option String) :
    (Request.ofTexts ring name certify command first second).problem = .error (.fault fault) := by
  simp [Request.problem,Request.ofTexts,Request.baseRing,rejected,Except.mapError,bind,Except.bind]

theorem operand_text (r : BaseRing) (name text : String) :
    Request.operand r (.text name) (.text text) = (Poly.ofText text r name).mapError .fault := rfl

theorem neededOperand_missing (r : BaseRing) :
    (Request.ofTexts ring name certify command first none).neededOperand r =
      .error (.usage s!"{command} needs two arguments") := rfl

theorem neededOperand_text (r : BaseRing) (second : String) :
    (Request.ofTexts ring name certify command first (some second)).neededOperand r =
      (Poly.ofText second r name).mapError .fault := rfl

variable (named : BaseRing.ofName ring = .ok r)
include named

theorem problem_of_unread (unread : Poly.ofText first r name = .error fault) (second : Option String) :
    (Request.ofTexts ring name certify command first second).problem = .error (.fault fault) := by
  simp [Request.problem,Request.ofTexts,Request.baseRing,operand_text,named,unread,Except.mapError,bind,
    Except.bind]

variable (read : Poly.ofText first r name = .ok p)
include read

theorem problem_unary {u : UnaryCommand} (known : table.lookup command = some (unary u)) :
    (Request.ofTexts ring name certify command first none).problem = .ok (.unary u p) := by
  simp [Request.problem,Request.ofTexts,Request.baseRing,operand_text,named,read,known,Except.mapError,
    bind,Except.bind]

theorem problem_superfluous {u : UnaryCommand} (known : table.lookup command = some (unary u))
    (second : String) :
    (Request.ofTexts ring name certify command first (some second)).problem =
      .error (.usage s!"{command} takes one argument") := by
  simp [Request.problem,Request.ofTexts,Request.baseRing,operand_text,named,read,known,Except.mapError,
    bind,Except.bind]

theorem problem_binary {b : BinaryCommand} (known : table.lookup command = some (binary b))
    (second : Option String) :
    (Request.ofTexts ring name certify command first second).problem =
      (Request.ofTexts ring name certify command first second).neededOperand r >>= fun q =>
        .ok (.binary b p q) := by
  simp [Request.problem,Request.ofTexts,Request.baseRing,operand_text,named,read,known,Except.mapError,
    bind,Except.bind]

variable (certify) in
theorem problem_mup (known : table.lookup command = some mup) (second : Option String) :
    ∃ message, (Request.ofTexts ring name certify command first second).problem =
      (Request.ofTexts ring name certify command first second).neededOperand r >>= fun x =>
        if x.isConstant then .ok (.multiplicity p (x.numbers.headD r.zeroNumber))
        else .error (.usage message) := by
  let written := ((second.map Value.text).getD .nothing).plain
  refine ⟨s!"{written} is not an element of {r.name}",?_⟩
  simp [written,Request.problem,Request.ofTexts,Request.baseRing,operand_text,named,read,known,Except.mapError,
    bind,Except.bind]

end Problem

/-! ### Answers -/

section Answer
variable {solver : Solver} {s : Session} {request : Request}

theorem answer_of_usage {message : String} (misused : request.problem = .error (.usage message)) :
    (answer solver s request).2 = ⟨.ok 2,[],usageErrorLines message,none⟩ := by
  rw [answer,misused]

theorem answer_of_fault {fault : Fault} (refused : request.problem = .error (.fault fault))
    (reported : fault.isReported = true) :
    (answer solver s request).2 = ⟨.ok 1,[],Event.linesOf s!"Error: {fault.message}",none⟩ := by
  rw [answer,refused]
  exact if_pos reported

variable {problem : Problem} (posed : request.problem = .ok problem)
include posed

theorem answer_of_fails {fault : Fault} (reported : fault.isReported = true)
    (fails : (problem.work solver request.name.plain request.certify).Fails fault) :
    (answer solver .fresh request).2 = ⟨.ok 1,[],Event.linesOf s!"Error: {fault.message}",none⟩ := by
  have shown : Session.fresh.shown (problem.work solver request.name.plain request.certify).report = [] :=
    fails.shown
  simp only [answer,posed,fails.outcome,shown]
  exact if_pos reported

omit posed in
theorem answer_of_shows {lines : List String} (shows : request.Shows solver lines) :
    (answer solver .fresh request).2 = ⟨.ok 0,lines,[],none⟩ := by
  obtain ⟨problem,posed,shows⟩ := shows
  have shown : Session.fresh.shown (problem.work solver request.name.plain request.certify).report = lines :=
    shows.shown
  simp only [answer,posed,shows.outcome,shown]

end Answer

/-! ### Runs -/

section Run
variable {arguments : List String} {ring name command first : String} {certify : Bool}
  {second : Option String} {c : Command} (solver : Solver)
  (asks : Asks arguments (.ofTexts ring name certify command first second))
  (known : table.lookup command = some c)
include asks known

/-- A request that is refused ends with status 1 before anything is shown. -/
theorem run_refused (refused : Refused c ring name first second) :
    (run solver arguments).ending = .ok 1 ∧ (run solver arguments).stdout = [] := by
  rw [run_eq_answer asks]
  cases refused with
  | ring rejected =>
    rw [answer_of_fault (problem_of_rejected rejected _) (BaseRing.ofName_isReported rejected)]
    exact ⟨rfl,rfl⟩
  | first named unread =>
    have takes := BaseRing.ofName_takesNumbers named
    rw [answer_of_fault (problem_of_unread named unread _) (Poly.ofText_isReported takes unread)]
    exact ⟨rfl,rfl⟩
  | second named read taken unread =>
    have takes := BaseRing.ofName_takesNumbers named
    have reported := Poly.ofText_isReported takes unread
    cases c with
    | unary u => cases taken
    | binary b =>
      rw [answer_of_fault (by rw [problem_binary named read known,neededOperand_text,unread]; rfl) reported]
      exact ⟨rfl,rfl⟩
    | mup =>
      obtain ⟨message,posed⟩ := problem_mup certify named read known (some _)
      rw [answer_of_fault (by rw [posed,neededOperand_text,unread]; rfl) reported]
      exact ⟨rfl,rfl⟩
  | roots named read command_eq endless =>
    subst command_eq
    obtain ⟨d,rfl⟩ := Poly.exists_dense_of_ofText read
    obtain ⟨fault,reported,fails⟩ := Problem.roots_fails (p := ⟨_,d⟩) name certify endless
    rw [answer_of_fails (problem_unary named read known) reported fails]
    exact ⟨rfl,rfl⟩
  | irreducible named read command_eq infinite =>
    subst command_eq
    obtain ⟨d,rfl⟩ := Poly.exists_dense_of_ofText read
    obtain ⟨fault,reported,fails⟩ := Problem.irreducible_fails (p := ⟨_,d⟩) name certify infinite
    rw [answer_of_fails (problem_unary named read known) reported fails]
    exact ⟨rfl,rfl⟩

/-- A request of the wrong form ends with status 2 before anything is shown. -/
theorem run_misused (misused : Misused c ring name first second) :
    (run solver arguments).ending = .ok 2 ∧ (run solver arguments).stdout = [] := by
  rw [run_eq_answer asks]
  cases misused with
  | missing named read taken =>
    cases c with
    | unary u => cases taken
    | binary b =>
      rw [answer_of_usage (by rw [problem_binary named read known,neededOperand_missing]; rfl)]
      exact ⟨rfl,rfl⟩
    | mup =>
      obtain ⟨message,posed⟩ := problem_mup certify named read known none
      rw [answer_of_usage (by rw [posed,neededOperand_missing]; rfl)]
      exact ⟨rfl,rfl⟩
  | superfluous named read untaken =>
    cases c with
    | unary u =>
      rw [answer_of_usage (problem_superfluous named read known _)]
      exact ⟨rfl,rfl⟩
    | binary b => cases untaken
    | mup => cases untaken
  | @element second r p x named read command_eq other nonconstant =>
    subst command_eq
    obtain ⟨message,posed⟩ := problem_mup certify named read known (some second)
    have refused : (Request.ofTexts ring name certify command first (some second)).problem =
        .error (.usage message) := by
      rw [posed,neededOperand_text,other]
      exact if_neg (by simp [nonconstant])
    rw [answer_of_usage refused]
    exact ⟨rfl,rfl⟩

end Run

/-! ### What is worked out -/

section Shows
variable {c : Command} {ring name command first : String} {certify : Bool} {second : Option String}
  {r : BaseRing} {d : Dense r.Elem} {solver : Solver} (named : BaseRing.ofName ring = .ok r)
  (read : Poly.ofText first r name = .ok ⟨r,d⟩)
include named read

theorem shows_unary {u : UnaryCommand} (known : table.lookup command = some (unary u))
    (granted : ¬ Refused (unary u) ring name first second)
    (formed : ¬ Misused (unary u) ring name first second) :
    ∃ lines, (Request.ofTexts ring name certify command first second).Shows solver lines := by
  cases second with
  | some second => exact absurd (.superfluous named read rfl) formed
  | none =>
    have finite : u = .roots ∨ u = .irreducible → r ≠ .integers ∧ r ≠ .rationals := by
      rintro (rfl | rfl)
      · exact ⟨fun same => granted (.roots named read rfl (.inl same)),
          fun same => granted (.roots named read rfl (.inr (.inl same)))⟩
      · exact ⟨fun same => granted (.irreducible named read rfl (.inl same)),
          fun same => granted (.irreducible named read rfl (.inr same))⟩
    have nonzero : u = .roots → d ≠ 0 := by
      rintro rfl zero
      exact granted (.roots named read rfl (.inr (.inr (Poly.isZero_iff.mpr zero))))
    obtain ⟨lines,shows⟩ :=
      Problem.unary_shows name certify (BaseRing.ofName_takesNumbers named) u d finite nonzero
    exact ⟨lines,_,problem_unary named read known,shows⟩

theorem shows_binary {b : BinaryCommand} (known : table.lookup command = some (binary b))
    {q : String} {e : Dense r.Elem} (other : Poly.ofText q r name = .ok ⟨r,e⟩) {lines : List String}
    (shows : (Problem.work solver name certify (.binary b ⟨r,d⟩ ⟨r,e⟩)).Shows true lines) :
    (Request.ofTexts ring name certify command first (some q)).Shows solver lines := by
  refine ⟨_,?_,shows⟩
  rw [problem_binary named read known,neededOperand_text,other]
  rfl

theorem shows_mup (known : table.lookup command = some mup) {x : String} {e : Dense r.Elem}
    (other : Poly.ofText x r name = .ok ⟨r,e⟩) (constant : Poly.isConstant ⟨r,e⟩ = true) :
    ∃ lines, (Request.ofTexts ring name certify command first (some x)).Shows solver lines := by
  have element : ∃ a : r.Elem, (Poly.numbers ⟨r,e⟩).headD r.zeroNumber = Coefficient.number a := by
    rw [Poly.numbers,Dense.numbers]
    cases e.coeffs with
    | nil => exact ⟨0,rfl⟩
    | cons a rest => exact ⟨a,rfl⟩
  obtain ⟨a,element⟩ := element
  obtain ⟨lines,shows⟩ :=
    Problem.multiplicity_shows name certify (BaseRing.ofName_takesNumbers named) d a
  obtain ⟨message,posed⟩ := problem_mup certify named read known (some x)
  refine ⟨lines,.multiplicity ⟨r,d⟩ (Coefficient.number a),?_,shows⟩
  rw [posed,neededOperand_text,other,← element]
  exact if_pos constant

/-- What is neither refused nor of the wrong form is worked out, and a result that can be certified is
    certified last. -/
theorem exists_shows (decides : ∀ query, solver query = true ↔ query.HasModel)
    (known : table.lookup command = some c)
    (granted : ¬ Refused c ring name first second) (formed : ¬ Misused c ring name first second) :
    ∃ lines, (Request.ofTexts ring name certify command first second).Shows solver lines ∧
      (certify = true → c = binary .div ∨ c = binary .pdiv ∨ c = binary .egcd →
        lines.getLast? = some "Certified by Z3") := by
  have reads : c.takesSecond = true →
      ∃ (q : String) (e : Dense r.Elem), second = some q ∧ Poly.ofText q r name = .ok ⟨r,e⟩ := by
    intro taken
    cases second with
    | none => exact absurd (.missing named read taken) formed
    | some q =>
      cases other : Poly.ofText q r name with
      | error fault => exact absurd (.second named read taken other) granted
      | ok p =>
        obtain ⟨e,rfl⟩ := Poly.exists_dense_of_ofText other
        exact ⟨q,e,rfl,other⟩
  cases c with
  | unary u =>
    obtain ⟨lines,shows⟩ := shows_unary named read known granted formed
    exact ⟨lines,shows,by rintro - (other | other | other) <;> cases other⟩
  | binary b =>
    obtain ⟨q,e,rfl,other⟩ := reads rfl
    obtain ⟨lines,shows,last⟩ :=
      Problem.binary_shows name certify decides (BaseRing.ofName_takesNumbers named) b d e
    refine ⟨lines,shows_binary named read known other shows,fun wanted which => last wanted ?_⟩
    rcases which with which | which | which <;> cases which <;> rfl
  | mup =>
    obtain ⟨x,e,rfl,other⟩ := reads rfl
    have constant : Poly.isConstant ⟨r,e⟩ = true := by
      by_contra larger
      exact formed (.element named read rfl other (by simpa using larger))
    obtain ⟨lines,shows⟩ := shows_mup named read known other constant
    exact ⟨lines,shows,by rintro - (other | other | other) <;> cases other⟩

end Shows

theorem run_answered {solver : Solver} (decides : ∀ query, solver query = true ↔ query.HasModel)
    {arguments : List String} {ring name command first : String} {certify : Bool}
    {second : Option String} {c : Command}
    (asks : Asks arguments (.ofTexts ring name certify command first second))
    (known : table.lookup command = some c) (granted : ¬ Refused c ring name first second)
    (formed : ¬ Misused c ring name first second) :
    (run solver arguments).ending = .ok 0 ∧
      (certify = true → c = binary .div ∨ c = binary .pdiv ∨ c = binary .egcd →
        (run solver arguments).stdout.getLast? = some "Certified by Z3") := by
  rw [run_eq_answer asks]
  cases named : BaseRing.ofName ring with
  | error fault => exact absurd (.ring named) granted
  | ok r =>
    cases read : Poly.ofText first r name with
    | error fault => exact absurd (.first named read) granted
    | ok p =>
      obtain ⟨d,rfl⟩ := Poly.exists_dense_of_ofText read
      obtain ⟨lines,shows,last⟩ := exists_shows named read decides known granted formed
      rw [answer_of_shows shows]
      exact ⟨rfl,last⟩

/-! ### Total correctness -/

/-- A run of the command line whose argument vector is read, and which leaves the settings alone, ends in
    one of three ways. It ends with status 1 exactly if the request is refused and with status 2 exactly
    if its form is wrong, before anything is shown; otherwise it ends normally, and with a certificate if
    one was wanted for a division or for cofactors, with any solver that decides every query. -/
theorem run_total_correct (solver : Solver) (decides : ∀ query, solver query = true ↔ query.HasModel)
    {arguments : List String} {ring name command first : String} {certify : Bool}
    {second : Option String} {c : Command}
    (asks : Asks arguments (.ofTexts ring name certify command first second))
    (known : table.lookup command = some c) :
    ((run solver arguments).ending = .ok 1 ∧ (run solver arguments).stdout = [] ↔
      Refused c ring name first second) ∧
    ((run solver arguments).ending = .ok 2 ∧ (run solver arguments).stdout = [] ↔
      Misused c ring name first second) ∧
    ((run solver arguments).ending = .ok 0 ↔
      ¬ Refused c ring name first second ∧ ¬ Misused c ring name first second) ∧
    ((run solver arguments).ending = .ok 0 → certify = true →
      c = binary .div ∨ c = binary .pdiv ∨ c = binary .egcd →
        (run solver arguments).stdout.getLast? = some "Certified by Z3") := by
  have refused := run_refused solver asks known
  have misused := run_misused solver asks known
  have answered := run_answered decides asks known
  by_cases granted : Refused c ring name first second
  · obtain ⟨ending,silent⟩ := refused granted
    have formed : ¬ Misused c ring name first second := by
      intro misuse
      rw [(misused misuse).1] at ending
      cases ending
    simp [ending,silent,granted,formed]
  · by_cases formed : Misused c ring name first second
    · obtain ⟨ending,silent⟩ := misused formed
      simp [ending,silent,granted,formed]
    · obtain ⟨ending,certified⟩ := answered granted formed
      refine ⟨?_,?_,?_,fun _ => certified⟩
      all_goals simp [ending,granted,formed]

/-- A pseudo-division over a prime field, with a certificate. -/
theorem run_certified_pdiv : (∀ query, Query.solvable query = true ↔ query.HasModel) ∧
    Asks ["-r","GF(5)","--certify","pdiv","x^2 + 1","2*x + 1"]
      (.ofTexts "GF(5)" "x" true "pdiv" "x^2 + 1" (some "2*x + 1")) ∧
    table.lookup "pdiv" = some (binary .pdiv) ∧
    let o := run Query.solvable ["-r","GF(5)","--certify","pdiv","x^2 + 1","2*x + 1"]
    let refused := Refused (binary .pdiv) "GF(5)" "x" "x^2 + 1" (some "2*x + 1")
    let misused := Misused (binary .pdiv) "GF(5)" "x" "x^2 + 1" (some "2*x + 1")
    (o.ending = .ok 1 ∧ o.stdout = [] ↔ refused) ∧ (o.ending = .ok 2 ∧ o.stdout = [] ↔ misused) ∧
      (o.ending = .ok 0 ↔ ¬ refused ∧ ¬ misused) ∧
      (o.ending = .ok 0 → true = true →
        binary .pdiv = binary .div ∨ binary .pdiv = binary .pdiv ∨ binary .pdiv = binary .egcd →
          o.stdout.getLast? = some "Certified by Z3") := by
  have asks : Asks ["-r","GF(5)","--certify","pdiv","x^2 + 1","2*x + 1"]
      (.ofTexts "GF(5)" "x" true "pdiv" "x^2 + 1" (some "2*x + 1")) := by
    refine ⟨allArguments,[("ring",.text "GF(5)"),("var",.text "x"),("certify",.boolean true),
      ("verbose",.boolean false),("profile_path",.text "/tmp/polydiv.profile"),
      ("solver_timeout",.integer 10000),("profile",.boolean false),("command",.text "pdiv"),
      ("p",.text "x^2 + 1"),("q",.text "2*x + 1")],addOptions_builtin,?_,?_,?_⟩
    · cbv
    · rfl
    · cbv
  have known : table.lookup "pdiv" = some (binary .pdiv) := by rfl
  exact ⟨Query.solvable_iff,asks,known,
    run_total_correct Query.solvable Query.solvable_iff asks known⟩

end Command
end Bezout

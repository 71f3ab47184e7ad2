import Bezout.Certificate
import Bezout.Factor
import Bezout.Reading
import Bezout.Settings

/-!
The commands of the command line. An argument vector is a request (`Request`); a request that is
not refused poses a problem (`Request.problem`), and working on the problem shows its result
(`Problem.work`). What a run writes, where, and how it ends is its outcome (`Command.run`).
-/
namespace Bezout

/-- The commands that take one polynomial. -/
inductive UnaryCommand
  | irreducible | roots | squarefree
  deriving DecidableEq

/-- The commands that take two polynomials. -/
inductive BinaryCommand
  | coprime | div | egcd | gcd | gdcop | lcm | pdiv
  deriving DecidableEq

/-- The commands. The last one takes a polynomial and an element of its ring. -/
inductive Command
  | unary (c : UnaryCommand)
  | binary (c : BinaryCommand)
  | mup
  deriving DecidableEq

namespace Command

/-- The commands by name, in the order of their names. -/
def table : List (String × Command) :=
  [("coprime", binary .coprime), ("div", binary .div), ("egcd", binary .egcd),
    ("gcd", binary .gcd), ("gdcop", binary .gdcop), ("irreducible", unary .irreducible),
    ("lcm", binary .lcm), ("mup", mup), ("pdiv", binary .pdiv), ("roots", unary .roots),
    ("squarefree", unary .squarefree)]

end Command

/-- What is asked for. An operand is a text, or nothing if it is left out. The names of the ring and
    of the variable are texts too, unless an argument vector gave them empty lists. -/
structure Request where
  ring : Value
  /-- The name of the variable. -/
  name : Value
  certify : Bool
  command : String
  first : Value
  second : Value

/-- What has to be worked out. -/
inductive Problem
  | unary (c : UnaryCommand) (p : Poly)
  | binary (c : BinaryCommand) (p q : Poly)
  | multiplicity (p : Poly) (x : Number)

/-- Why a request poses no problem. -/
inductive Refusal
  /-- The request is not of the form that the command takes. -/
  | usage (message : String)
  | fault (fault : Fault)

namespace Request

/-- The ring that a request names. -/
def baseRing (request : Request) : Except Refusal BaseRing :=
  match request.ring with
  | .text name => (BaseRing.ofName name).mapError .fault
  | _ => .error (.fault .missingPart)

/-- Reads an operand. -/
def operand (r : BaseRing) (name v : Value) : Except Refusal Poly :=
  (do Poly.ofTextIn name (← v.toText) r).mapError .fault

/-- A second operand is needed. -/
def neededOperand (request : Request) (r : BaseRing) : Except Refusal Poly :=
  match request.second with
  | .nothing => .error (.usage s!"{request.command} needs two arguments")
  | v => operand r request.name v

/-- The problem that a request poses: the ring, the first operand, the number of operands and the
    second operand are looked at in this order. -/
def problem (request : Request) : Except Refusal Problem := do
  let r ← request.baseRing
  let p ← operand r request.name request.first
  match Command.table.lookup request.command with
  | none => .error (.fault .unsuitable)
  | some (.unary c) =>
    match request.second with
    | .nothing => .ok (.unary c p)
    | _ => .error (.usage s!"{request.command} takes one argument")
  | some (.binary c) => do .ok (.binary c p (← request.neededOperand r))
  | some .mup => do
    let x ← request.neededOperand r
    if x.isConstant then .ok (.multiplicity p (x.numbers.headD r.zeroNumber))
    else .error (.usage s!"{request.second.plain} is not an element of {r.name}")

end Request

namespace Problem

/-- Shows an answer to a question. -/
def printAnswer (answer : Bool) : Work Unit := .print (if answer then "yes" else "no")

/-- Shows the parts of a division. -/
def printDivision (name : String) (d : Division Poly) : Work Unit := do
  Work.print s!"k = {d.scale}"
  Work.print s!"quotient = {d.quotient.text name}"
  Work.print s!"remainder = {d.remainder.text name}"

/-- Shows the canonical associate of a polynomial. -/
def printNormalized (name : String) (p : Poly) : Work Unit := do
  Work.print ((← Work.ofExcept p.normalize).text name)

/-- Checks a result if that is wanted, and says whether the result stands. -/
def certified (wanted : Bool) (check : Work Bool) : Work Bool :=
  if wanted then do
    let holds ← check
    Work.print (if holds then "Certified by Z3" else "Certification FAILED")
    .done holds
  else .done true

/-- Works on a problem with one polynomial. -/
def workUnary (name : String) (p : Poly) : UnaryCommand → Work Unit
  | .irreducible => do printAnswer (← p.isIrreducible)
  | .roots => do
    (← p.roots).forM fun (x, count) => Work.print s!"{x} (multiplicity {count})"
  | .squarefree => do
    printAnswer (← p.isSquareFree)
    if p.ring.characteristic = 0 then
      Work.print ("square-free part: " ++ (← p.squareFreePart).text name)

/-- Works on a problem with two polynomials; the result may have to be certified, by a solver. -/
def workBinary (solver : Solver) (name : String) (certify : Bool) (p q : Poly) : BinaryCommand → Work Bool
  | .coprime => do
    printAnswer (← p.coprime q)
    .done true
  | .div => do
    let d ← p.divide q
    printDivision name d
    certified certify (Certificate.checkDivision p q d solver)
  | .egcd => do
    let (u, v) ← p.egcd q
    Work.print s!"u = {u.text name}"
    Work.print s!"v = {v.text name}"
    let up ← Work.ofExcept (u.mul p)
    let vq ← Work.ofExcept (v.mul q)
    let combined ← Work.ofExcept (up.add vq)
    Work.print s!"u*p + v*q = {combined.text name}"
    certified certify (Certificate.checkBezout p q u v solver)
  | .gcd => do
    printNormalized name (← p.gcd q)
    .done true
  | .gdcop => do
    printNormalized name (← Poly.gdcop q p)
    .done true
  | .lcm => do
    printNormalized name (← p.lcm q)
    .done true
  | .pdiv => do
    let d ← p.pseudoDivide q
    printDivision name d
    certified certify (Certificate.checkDivision p q d solver)

/-- Works on a problem and shows the result, with polynomials in a variable of the given name. The
    answer is whether the result stands. -/
def work (solver : Solver) (name : String) (certify : Bool) : Problem → Work Bool
  | unary c p => (workUnary name p c).map fun _ => true
  | binary c p q => workBinary solver name certify p q c
  | multiplicity p x => do
    let count ← Poly.multiplicity (.number x) p
    Work.print (toString count)
    .done true

end Problem

/-- Whether a fault lies in what was asked for, so that its message is shown. Other faults lie in
    the work and end the run. -/
def Fault.isReported : Fault → Bool
  | notInRing _ _ | noImage _ _ | notPrime _ | unknownRing _ | notInteger _ | notText => true
  | everyElementIsRoot | tooFewParts _ | tooManyParts | stated _ | namelessOption _ => true
  | parse _ | coefficient _ _ => true
  | needsField _ | needsCharacteristicZero _ | needsElements _ | needsPrimeField _ => true
  | notCertifiable _ | noCounterexamples => true
  | _ => false

/-- What a run writes, and how it ends. -/
structure Outcome where
  /-- The exit status, or the fault that ended the run. -/
  ending : Except Fault Nat
  stdout : List String
  stderr : List String
  /-- The file that the profile is written to, and its lines. -/
  profile : Option (String × List String)

namespace Outcome

/-- The outcome if the profile cannot be written, and why. -/
def withoutProfile (o : Outcome) (cause : Fault) : Outcome :=
  { o with ending := .error cause, profile := none }

end Outcome

namespace Command

/-- The lines that show how arguments are given. -/
def usageLines : List String :=
  ["usage: polydiv [-h] [-r R] [--var NAME] [-c] [--verbose] [--profile-path PATH]",
    "               [--solver-timeout MS] [--profile]",
    "               \x7bcoprime,div,egcd,gcd,gdcop,irreducible,lcm,mup,pdiv,roots,squarefree\x7d",
    "               p [q]"]

/-- The lines that help. -/
def helpLines : List String :=
  usageLines ++
    ["",
      "Polynomial division, GCD and Bezout cofactors.",
      "",
      "positional arguments:",
      "  \x7bcoprime,div,egcd,gcd,gdcop,irreducible,lcm,mup,pdiv,roots,squarefree\x7d",
      "                        Operation to perform",
      "  p                     First polynomial",
      "  q                     Second polynomial (or ring element for mup)",
      "",
      "options:",
      "  -h, --help            show this help message and exit",
      "  -r R, --ring R        Coefficient ring: ZZ, QQ or GF(p); default=QQ",
      "  --var NAME            Name of the polynomial variable; default=x",
      "  -c, --certify         Re-check division and Bezout identities with Z3",
      "",
      "Internal parameters:",
      "  --verbose             Log every division and GCD step",
      "  --profile-path PATH   default='/tmp/polydiv.profile'",
      "  --solver-timeout MS   Z3 timeout in milliseconds; 0 disables it",
      "                        (default=10000)",
      "  --profile             Write task timings to --profile-path when done"]

/-- What a message about wrong usage looks like. -/
def usageErrorLines (message : String) : List String :=
  usageLines ++ Event.linesOf s!"polydiv: error: {message}"

/-- The options and operands that are there apart from the settings. -/
def ownArguments : ArgumentSpec where
  options := [ArgumentSpec.helpOption,
    ⟨["-r", "--ring"], "ring", .store, .text "QQ"⟩,
    ⟨["--var"], "var", .store, .text "x"⟩,
    ⟨["-c", "--certify"], "certify", .setTrue, .boolean false⟩]
  positionals := [⟨"command", false, some (table.map Prod.fst)⟩, ⟨"p", false, none⟩,
    ⟨"q", true, none⟩]

/-- The request that named values make. -/
def requestOf (values : NamedValues) : Request where
  ring := (values.lookup "ring").getD .nothing
  name := (values.lookup "var").getD .nothing
  certify := ((values.lookup "certify").getD .nothing).isTrue
  command := ((values.lookup "command").getD .nothing).plain
  first := (values.lookup "p").getD .nothing
  second := (values.lookup "q").getD .nothing

/-- The outcome of a fault. -/
def faultOutcome (stdout : List String) (fault : Fault) : Outcome :=
  if fault.isReported then
    ⟨.ok 1, stdout, Event.linesOf s!"Error: {fault.message}", none⟩
  else ⟨.error fault, stdout, [], none⟩

/-- The outcome of a request in a session, and the session afterwards. -/
def answer (solver : Solver) (s : Session) (request : Request) : Session × Outcome :=
  match request.problem with
  | .error (.usage message) => (s, ⟨.ok 2, [], usageErrorLines message, none⟩)
  | .error (.fault fault) => (s, faultOutcome [] fault)
  | .ok problem =>
    let work := problem.work solver request.name.plain request.certify
    let stdout := s.shown work.report
    let outcome :=
      match work.outcome with
      | .ok true => ⟨.ok 0, stdout, [], none⟩
      | .ok false => ⟨.ok 2, stdout, [], none⟩
      | .error fault => faultOutcome stdout fault
    (s.after work.report, outcome)

/-- The outcome of a request under some settings. -/
def answerUnder (solver : Solver) (settings : Settings) (request : Request) : Outcome :=
  let setting := fun (d : Declaration) => (settings.value? d.name).getD d.default
  let fresh := { Session.fresh with verbose := (setting Settings.verbose).isTrue }
  let (s, outcome) := answer solver fresh request
  if (setting Settings.profile).isTrue then
    match setting Settings.profilePath with
    | .text path => { outcome with profile := some (path, s.summary) }
    | _ => outcome.withoutProfile .unsuitable
  else outcome

/-- The outcome of named values: settings are read first. -/
def runValues (solver : Solver) (values : NamedValues) : Outcome :=
  match Settings.builtin.read values with
  | (_, some fault) => ⟨.error fault, [], [], none⟩
  | (settings, none) => answerUnder solver settings (requestOf values)

/-- The outcome of an argument vector, with a solver for the certificates. -/
def run (solver : Solver) (arguments : List String) : Outcome :=
  match Settings.builtin.addOptions ownArguments with
  | .error fault => ⟨.error fault, [], [], none⟩
  | .ok spec =>
    match spec.read arguments with
    | .help => ⟨.ok 0, helpLines, [], none⟩
    | .usage message => ⟨.ok 2, [], usageErrorLines message, none⟩
    | .values values => runValues solver values

end Command
end Bezout

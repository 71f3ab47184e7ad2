import Bezout.Certificate
import Bezout.Factor
import Bezout.Script

/-!
Computations that use the library inside tasks of their own. They report messages, show reports or
hide them, call operations, and may end with a fault at any point. Running one does its steps on a
session: a task is put on the stack of open tasks, and whatever lies on top of the stack is closed
when the task is left, normally or by a fault.
-/
namespace Bezout

/-- What a message is shown for. -/
inductive Mark
  | opening (name : String)
  | closing (name : String)
  | remark
  deriving DecidableEq

/-- A text that was shown at once, and how many tasks were open around it. -/
structure Message where
  mark : Mark
  depth : Nat
  text : String
  deriving DecidableEq

/-- The lines of a message. -/
def Message.lines (m : Message) : List Message :=
  (Event.linesOf m.text).map fun line => { m with text := line }

/-- A task that was left: the sessions before it was opened and after it was closed. -/
structure Block where
  name : String
  entry : Session
  exit : Session

/-- What running a computation comes to. -/
structure Run where
  outcome : Except Fault Value
  session : Session
  messages : List Message
  /-- How the showing of reports was switched, in order. -/
  switches : List Bool
  /-- The tasks that were left, in order. -/
  blocks : List Block

namespace Run

/-- A run that does nothing but end. -/
def ended (outcome : Except Fault Value) (s : Session) : Run := ⟨outcome, s, [], [], []⟩

/-- The lines that a run shows. -/
def lines (r : Run) : List Message := r.messages.flatMap Message.lines

/-- A run and a later one that goes on from its session. -/
def followedBy (r later : Run) : Run :=
  ⟨later.outcome, later.session, r.messages ++ later.messages, r.switches ++ later.switches,
    r.blocks ++ later.blocks⟩

/-- Goes on from the result of a run, unless it ended with a fault. -/
def andThen (r : Run) (next : Value → Session → Run) : Run :=
  match r.outcome with
  | .ok v => r.followedBy (next v r.session)
  | .error _ => r

/-- Goes on from the fault of a run, if it ended with one. -/
def recover (r : Run) (handler : Fault → Session → Run) : Run :=
  match r.outcome with
  | .ok _ => r
  | .error cause => r.followedBy (handler cause r.session)

end Run

/-- The text that opens a task at a depth. -/
def Event.openingText (depth : Nat) (name : String) (details : List (String × String)) : String :=
  indent depth ++ name ++ detailsText details ++ "..."

/-- The text that closes a task at a depth. -/
def Event.closingText (depth : Nat) (name : String) : String :=
  indent depth ++ "Finished " ++ name ++ " [duration=*s]"

namespace Session

/-- The message that shows a text, if reports are shown. -/
def say (s : Session) (mark : Mark) (text : String) : List Message :=
  if s.verbose then [⟨mark, s.depth, text⟩] else []

/-- Runs a body inside a task. The task that is innermost after the body is closed; it is a fault if
    none is open. -/
def within (s : Session) (name : String) (details : List (String × String)) (body : Session → Run) :
    Run :=
  let opened := s.say (.opening name) (Event.openingText s.depth name details)
  let inner := body (s.start name)
  match inner.session.finish? with
  | some (innermost, next) =>
    let closed := next.say (.closing innermost) (Event.closingText next.depth innermost)
    { inner with
      session := next
      messages := opened ++ inner.messages ++ closed
      blocks := inner.blocks ++ [⟨name, s, next⟩] }
  | none =>
    { inner with
      outcome := .error .outOfRange
      messages := opened ++ inner.messages
      blocks := inner.blocks ++ [⟨name, s, inner.session⟩] }

end Session

namespace Event

mutual
/-- Does on a session what an event reports. -/
def perform : Event → Session → Run
  | note text, s =>
    { Run.ended (.ok .nothing) s with messages := s.say .remark (indent s.depth ++ text) }
  | print text, s => { Run.ended (.ok .nothing) s with messages := [⟨.remark, s.depth, text⟩] }
  | task name details body, s => s.within name details (performAll body)

/-- Does on a session what several events report. -/
def performAll : List Event → Session → Run
  | [], s => Run.ended (.ok .nothing) s
  | e :: rest, s => (perform e s).andThen fun _ => performAll rest
end

/-- What is reported of some events when something cuts them short. -/
inductive Cut : List Event → List Event → Prop
  | stop {events : List Event} : Cut events []
  | note {text : String} {rest reported : List Event} (later : Cut rest reported) :
      Cut (note text :: rest) (note text :: reported)
  | inside {name : String} {details : List (String × String)} {body rest reported : List Event}
      (cut : Cut body reported) : Cut (task name details body :: rest) [task name details reported]
  | task {name : String} {details : List (String × String)} {body rest reported : List Event}
      (later : Cut rest reported) :
      Cut (task name details body :: rest) (task name details body :: reported)

end Event

/-- A call of an operation that reports what it does. -/
inductive Call
  | divide (p q : Poly)
  | pseudoDivide (p q : Poly)
  | divides (d p : Poly)
  | associated (p q : Poly)
  | powerMod (base : Poly) (e : Int) (modulus : Poly)
  | gcd (p q : Poly)
  | gcdAll (ps : List Poly) (ring? : Option BaseRing)
  | egcd (p q : Poly)
  | coprime (p q : Poly)
  | gdcop (q p : Poly)
  | multiplicity (v : Value) (p : Poly)
  | lcm (p q : Poly)
  | isSquareFree (p : Poly)
  | squareFreePart (p : Poly)
  | roots (p : Poly)
  | isIrreducible (p : Poly)
  | equivalent (p q : Poly) (solver : Solver)
  | haveCounterexample (p q : Poly) (solver : Solver)
  | checkDivision (p q : Poly) (d : Division Poly) (solver : Solver)
  | checkBezout (p q u v : Poly) (solver : Solver)

/-- The work that a call does. -/
def Call.work : Call → Work Value
  | divide p q => (p.divide q).map .division
  | pseudoDivide p q => (p.pseudoDivide q).map .division
  | divides d p => (d.divides p).map .boolean
  | associated p q => (p.associated q).map .boolean
  | powerMod base e modulus => (base.powerMod e modulus).map .polynomial
  | gcd p q => (p.gcd q).map .polynomial
  | gcdAll ps ring? => (Poly.gcdAll ps ring?).map .polynomial
  | egcd p q => (p.egcd q).map fun (u, v) => .tuple [.polynomial u, .polynomial v]
  | coprime p q => (p.coprime q).map .boolean
  | gdcop q p => (q.gdcop p).map .polynomial
  | multiplicity v p => (p.multiplicity v).map fun n : Nat => .integer n
  | lcm p q => (p.lcm q).map .polynomial
  | isSquareFree p => p.isSquareFree.map .boolean
  | squareFreePart p => p.squareFreePart.map .polynomial
  | roots p => p.roots.map .table
  | isIrreducible p => p.isIrreducible.map .boolean
  | equivalent p q solver => (Certificate.equivalent p q solver).map .boolean
  | haveCounterexample p q solver => (Certificate.haveCounterexample p q solver).map .boolean
  | checkDivision p q d solver => (Certificate.checkDivision p q d solver).map .boolean
  | checkBezout p q u v solver => (Certificate.checkBezout p q u v solver).map .boolean

/-- A computation. What it goes on with may depend on the results and the faults that it met. -/
inductive Computation
  | done (v : Value)
  | raise (cause : Fault)
  /-- Shows reports from now on, or hides them. -/
  | verbose (on : Bool)
  /-- A message at the indentation of the open tasks. -/
  | event (text : String)
  | call (c : Call)
  /-- A call that a fault from outside ends after a part of its reports. -/
  | interrupted (c : Call) (reported : List Event) (cut : Event.Cut c.work.report reported)
      (cause : Fault)
  | task (name : String) (details : List (String × Value)) (body : Computation)
  | andThen (first : Computation) (next : Value → Computation)
  | recover (body : Computation) (handler : Fault → Computation)

namespace Computation

/-- Runs a computation on a session. -/
def run : Computation → Session → Run
  | done v, s => .ended (.ok v) s
  | raise cause, s => .ended (.error cause) s
  | verbose on, s => { Run.ended (.ok .nothing) { s with verbose := on } with switches := [on] }
  | event text, s => Event.perform (.note text) s
  | call c, s => (Event.performAll c.work.report s).andThen fun _ => .ended c.work.outcome
  | interrupted _ reported _ cause, s =>
    (Event.performAll reported s).andThen fun _ => .ended (.error cause)
  | task name details body, s => s.within name (Step.detailTexts details) (run body)
  | andThen first next, s => (run first s).andThen fun v => run (next v)
  | recover body handler, s => (run body s).recover fun cause => run (handler cause)

end Computation
end Bezout

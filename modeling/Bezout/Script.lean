import Bezout.Work

/-!
Scripts that open and close tasks, report messages and do work, step by step, on one or several
threads. Every step is answered by what it showed, how many tasks were open afterwards, and the
fault that it met.
-/
namespace Bezout

/-- A step of a script. -/
inductive Step
  /-- Shows reports from now on, or hides them. -/
  | verbose (on : Bool)
  | start (name : String) (details : List (String × Value))
  | finish
  /-- A message at the indentation of the open tasks. -/
  | event (text : String)
  /-- A message without indentation. -/
  | line (text : String)
  /-- Steps inside a task. -/
  | task (name : String) (details : List (String × Value)) (body : List Step)
  /-- A fault inside a task. -/
  | fault (name message : String)
  /-- Steps on a thread of their own. -/
  | thread (body : List Step)
  | call (work : Work Value)
  /-- A step that cannot be done, and why. -/
  | unreadable (cause : Fault)
  /-- Writes down the recorded paths. -/
  | summarize

/-- The answer to a step. -/
structure Answer where
  /-- What the step showed, without what the steps inside it showed. -/
  out : List String
  /-- The number of tasks that are open on the thread afterwards. -/
  depth : Nat
  fault : Option Fault
  /-- The answers to the steps inside, if the step holds steps. -/
  steps : Option (List Answer)
  /-- The outcome of the work, if the step does work. -/
  result : Option (Except Fault Value)
  /-- The summary, if the step writes it down. -/
  summary : Option (List String)

namespace Step

/-- The texts of a task's details. -/
def detailTexts (details : List (String × Value)) : List (String × String) :=
  details.map fun (key, value) => (key, value.plain)

/-- The answer to a step that shows lines and does nothing else. -/
def answer (s : Session) (out : List String) : Answer := ⟨out, s.depth, none, none, none, none⟩

/-- Closes the innermost task after `out` was shown; it is a fault if none is open. -/
def close (s : Session) (out : List String) : Session × Answer :=
  match s.finish? with
  | some (name, next) => (next, answer next (out ++ Event.closing next.verbose next.depth name))
  | none => (s, { answer s out with fault := some .outOfRange })

mutual
/-- Does a step. -/
def run (s : Session) : Step → Session × Answer
  | verbose on => ({ s with verbose := on }, answer s [])
  | start name details =>
    let next := s.start name
    (next, answer next (Event.opening s.verbose s.depth name (detailTexts details)))
  | finish => close s []
  | event text => (s, answer s (Event.reported s.verbose (Event.indent s.depth ++ text)))
  | line text => (s, answer s (Event.reported s.verbose text))
  | task name details body =>
    let opened := Event.opening s.verbose s.depth name (detailTexts details)
    let (inner, answers) := runAll (s.start name) body
    let (next, closed) := close inner opened
    (next, { closed with steps := some answers })
  | fault name message =>
    let opened := Event.opening s.verbose s.depth name []
    let (next, closed) := close (s.start name) opened
    (next, { closed with fault := some (.stated message) })
  | thread body =>
    let (inner, answers) := runAll { s with stack := [] } body
    let next := { inner with stack := s.stack }
    (next, { answer next [] with steps := some answers })
  | call work =>
    (s.after work.report, { answer s (s.shown work.report) with result := some work.outcome })
  | unreadable cause => (s, { answer s [] with fault := some cause })
  | summarize => (s, { answer s [] with summary := some s.summary })

/-- Does steps one after the other. -/
def runAll (s : Session) : List Step → Session × List Answer
  | [] => (s, [])
  | step :: rest =>
    let (next, first) := run s step
    let (last, others) := runAll next rest
    (last, first :: others)
end

end Step
end Bezout

import Bezout.Fault

/-!
Computations that report what they do. A report is a list of events, and a task holds the events
inside it, so that tasks are nested by construction and end even when their work fails. What is
shown of a report is a function of it (`Event.lines`), and so are the paths of the tasks that
ended in it (`Event.paths`). Work is done in a session, which knows whether reports are shown, the
tasks that are open on a thread, and the paths of the tasks that have ended on any thread.
-/
namespace Bezout

/-- What a computation reports. -/
inductive Event
  /-- A message at the indentation of the open tasks, shown when reports are wanted. -/
  | note (text : String)
  /-- A result, always shown. -/
  | print (text : String)
  | task (name : String) (details : List (String × String)) (body : List Event)

namespace Event

def indent (depth : Nat) : String := String.ofList (List.replicate (2 * depth) ' ')

/-- The details of a task behind its name. -/
def detailsText : List (String × String) → String
  | [] => ""
  | details => " [" ++ ", ".intercalate (details.map fun (key, value) => s!"{key}={value}") ++ "]"

/-- The lines of a text. -/
def linesOf (text : String) : List String := text.splitOn "\n"

/-- The lines of a message, if reports are wanted. -/
def reported (verbose : Bool) (text : String) : List String :=
  if verbose then linesOf text else []

/-- The lines that open a task at a depth. -/
def opening (verbose : Bool) (depth : Nat) (name : String) (details : List (String × String)) :
    List String :=
  reported verbose (indent depth ++ name ++ detailsText details ++ "...")

/-- The lines that close a task at a depth. Durations are not measured; a star stands for them. -/
def closing (verbose : Bool) (depth : Nat) (name : String) : List String :=
  reported verbose (indent depth ++ "Finished " ++ name ++ " [duration=*s]")

mutual
/-- What is shown of an event when `depth` tasks are open. -/
def lines (verbose : Bool) (depth : Nat) : Event → List String
  | note text => reported verbose (indent depth ++ text)
  | print text => linesOf text
  | task name details body =>
    opening verbose depth name details ++ allLines verbose (depth + 1) body ++
      closing verbose depth name

/-- What is shown of several events. -/
def allLines (verbose : Bool) (depth : Nat) : List Event → List String
  | [] => []
  | e :: rest => lines verbose depth e ++ allLines verbose depth rest
end

mutual
/-- The paths of the tasks that end in an event, in the order of their ends. A path names the open
    tasks from the outermost, the ended one last. -/
def paths (path : List String) : Event → List (List String)
  | note _ => []
  | print _ => []
  | task name _ body => allPaths (path ++ [name]) body ++ [path ++ [name]]

/-- The paths of the tasks that end in several events. -/
def allPaths (path : List String) : List Event → List (List String)
  | [] => []
  | e :: rest => paths path e ++ allPaths path rest
end

end Event

/-- A computation: its result or the fault that ended it, and what it reported until then. -/
structure Work (α : Type) where
  outcome : Except Fault α
  report : List Event

namespace Work
variable {α β : Type}

/-- A computation that ends with a result and reports nothing. -/
def done (a : α) : Work α := ⟨.ok a, []⟩

/-- A computation that ends with a fault and reports nothing. -/
def fail (fault : Fault) : Work α := ⟨.error fault, []⟩

/-- A result or a fault that was found without a report. -/
def ofExcept (outcome : Except Fault α) : Work α := ⟨outcome, []⟩

/-- Goes on from a result; a fault ends the computation. -/
def andThen (w : Work α) (next : α → Work β) : Work β :=
  match w.outcome with
  | .ok a => ⟨(next a).outcome, w.report ++ (next a).report⟩
  | .error fault => ⟨.error fault, w.report⟩

instance : Monad Work where
  pure := done
  bind := andThen

/-- A function of the result. -/
def map (f : α → β) (w : Work α) : Work β := ⟨w.outcome.map f, w.report⟩

/-- Reports a message. -/
def note (text : String) : Work Unit := ⟨.ok (), [.note text]⟩

/-- Shows a result. -/
def print (text : String) : Work Unit := ⟨.ok (), [.print text]⟩

/-- Work inside a named task, which ends with the work. -/
def task (name : String) (details : List (String × String)) (body : Work α) : Work α :=
  ⟨body.outcome, [.task name details body.report]⟩

end Work

/-! ### Sessions -/

/-- The state of a session as one thread sees it. -/
structure Session where
  /-- Whether reports are shown. -/
  verbose : Bool
  /-- The open tasks, innermost first. -/
  stack : List String
  /-- The paths of the ended tasks, in the order of their ends. -/
  profile : List (List String)

namespace Session

/-- A session before anything was done. -/
def fresh : Session := ⟨false, [], []⟩

def depth (s : Session) : Nat := s.stack.length

/-- The names of the open tasks, outermost first. -/
def path (s : Session) : List String := s.stack.reverse

/-- The session after some events. -/
def after (s : Session) (events : List Event) : Session :=
  { s with profile := s.profile ++ Event.allPaths s.path events }

/-- What is shown of some events. -/
def shown (s : Session) (events : List Event) : List String :=
  Event.allLines s.verbose s.depth events

/-- Opens a task. -/
def start (s : Session) (name : String) : Session := { s with stack := name :: s.stack }

/-- Closes the innermost open task and records its path; there may be none. -/
def finish? (s : Session) : Option (String × Session) :=
  match s.stack with
  | [] => none
  | name :: outer => some (name, { s with stack := outer, profile := s.profile ++ [s.path] })

/-- The tasks that are open, then the recorded paths, each once and in the order of their texts. -/
def summary (s : Session) : List String :=
  let recorded := s.profile.eraseDups.map fun path => " " ++ ", ".intercalate path
  ("Currently in: " ++ ", ".intercalate s.path) :: recorded.mergeSort (· ≤ ·)

end Session

end Bezout

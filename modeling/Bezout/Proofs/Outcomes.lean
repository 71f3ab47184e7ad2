import Mathlib
import Bezout.Work

/-!
The outcome of a computation, step by step: reports and tasks leave it as it is, and a computation
that goes on from a result has the outcome of what follows. A function of the result can be taken
before or after what a computation goes on with.
-/
namespace Bezout
namespace Work
variable {α β γ : Type}

@[simp] theorem outcome_done (a : α) : (done a).outcome = .ok a := rfl
@[simp] theorem outcome_ofExcept (e : Except Fault α) : (ofExcept e).outcome = e := rfl
@[simp] theorem outcome_map (f : α → β) (w : Work α) : (w.map f).outcome = w.outcome.map f := rfl
@[simp] theorem outcome_task (name : String) (details : List (String × String)) (body : Work α) :
    (task name details body).outcome = body.outcome := rfl

/-- A computation goes on from the result of its first part. -/
theorem outcome_bind {w : Work α} {a : α} (ended : w.outcome = .ok a) (next : α → Work β) :
    (w >>= next).outcome = (next a).outcome := by
  show (andThen w next).outcome = (next a).outcome
  rw [andThen,ended]

/-- A result that was found without a report is gone on from. -/
theorem outcome_ofExcept_bind {e : Except Fault α} {a : α} (found : e = .ok a) (next : α → Work β) :
    (ofExcept e >>= next).outcome = (next a).outcome :=
  outcome_bind (w := ofExcept e) found next

@[simp] theorem outcome_note_bind (text : String) (next : Unit → Work β) :
    (note text >>= next).outcome = (next ()).outcome := rfl

theorem map_task (f : α → β) (name : String) (details : List (String × String)) (body : Work α) :
    (task name details body).map f = task name details (body.map f) := rfl

theorem map_map (f : β → γ) (g : α → β) (w : Work α) : (w.map g).map f = w.map (f ∘ g) := by
  obtain ⟨outcome,report⟩ := w
  cases outcome <;> rfl

/-- A function of the result is taken at the end of what follows. -/
theorem map_bind (f : β → γ) (w : Work α) (next : α → Work β) :
    (w >>= next).map f = w >>= fun a => (next a).map f := by
  show (andThen w next).map f = andThen w fun a => (next a).map f
  obtain ⟨outcome,report⟩ := w
  cases outcome <;> rfl

/-- To go on from a function of a result is to go on from the result. -/
theorem bind_map (f : α → β) (w : Work α) (next : β → Work γ) :
    (w.map f >>= next) = w >>= fun a => next (f a) := by
  show andThen (w.map f) next = andThen w fun a => next (f a)
  obtain ⟨outcome,report⟩ := w
  cases outcome <;> rfl

/-- A computation that ends with a result went on from the result of its first part. -/
theorem exists_of_outcome_bind {w : Work α} {next : α → Work β} {b : β}
    (ended : (w >>= next).outcome = .ok b) :
    ∃ a, w.outcome = .ok a ∧ (next a).outcome = .ok b := by
  change (andThen w next).outcome = .ok b at ended
  obtain ⟨outcome,report⟩ := w
  cases outcome with
  | error fault => cases ended
  | ok a => exact ⟨a,rfl,ended⟩

theorem exists_of_outcome_map {f : α → β} {w : Work α} {b : β} (ended : (w.map f).outcome = .ok b) :
    ∃ a, w.outcome = .ok a ∧ f a = b := by
  obtain ⟨outcome,report⟩ := w
  cases outcome with
  | error fault => cases ended
  | ok a => exact ⟨a,rfl,Except.ok.inj ended⟩

end Work
end Bezout

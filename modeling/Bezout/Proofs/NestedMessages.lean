import Bezout.Computation
import Bezout.Proofs.Reports

/-!
Messages of nested tasks. They are built like brackets (`Nested`): what opens a task is followed by what
is shown inside it, indented deeper, and then by what closes it. So whatever opens a task is closed in
exactly one place (`Nested.wellNested`).
-/
namespace Bezout

/-- A message that is indented as far as messages at a depth are, or further. -/
def Message.Indented (depth : ℕ) (m : Message) : Prop := (Event.indent depth).toList <+: m.text.toList

instance (depth : ℕ) (m : Message) : Decidable (m.Indented depth) :=
  inferInstanceAs (Decidable (_ <+: _))

/-- Messages at a depth: remarks, and tasks whose messages lie deeper and between what opens them and
    what closes them. -/
inductive Nested : ℕ → List Message → Prop
  | nil {depth : ℕ} : Nested depth []
  | remark {depth : ℕ} {text : String} {rest : List Message} (later : Nested depth rest) :
      Nested depth (⟨.remark,depth,Event.indent depth ++ text⟩ :: rest)
  | task {depth : ℕ} {name : String} {details : List (String × String)} {inside rest : List Message}
      (deeper : Nested (depth + 1) inside) (later : Nested depth rest) :
      Nested depth (⟨.opening name,depth,Event.openingText depth name details⟩ ::
        (inside ++ ⟨.closing name,depth,Event.closingText depth name⟩ :: rest))

/-- What is shown after the opening of a task: messages that are indented deeper, and then one with the
    text that closes the task. -/
structure ClosedAfter (depth : ℕ) (name : String) (inside later : List Message) : Prop where
  deeper : ∀ m ∈ inside, m.Indented (depth + 1)
  closing : ∃ closing rest, later = inside ++ closing :: rest ∧
    closing.text = Event.closingText depth name

/-- Whatever opens a task is indented by the tasks around it and closed in exactly one place. -/
def WellNested (messages : List Message) : Prop :=
  ∀ earlier opening later name, messages = earlier ++ opening :: later → opening.mark = .opening name →
    (Event.indent opening.depth ++ name).toList <+: opening.text.toList ∧
      ∃! inside, ClosedAfter opening.depth name inside later

namespace Message

theorem text_lines (m : Message) : m.lines.map text = Event.linesOf m.text := by
  rw [lines,List.map_map]
  exact List.map_id _

/-- A message of one line is its only line. -/
theorem lines_eq {m : Message} (line : OneLine m.text) : m.lines = [m] := by
  rw [lines,Event.linesOf_eq line]
  rfl

theorem indented_append (depth : ℕ) (mark : Mark) (around : ℕ) (text : String) :
    Indented depth ⟨mark,around,Event.indent depth ++ text⟩ := by
  rw [Indented,String.toList_append]
  exact List.prefix_append _ _

theorem indent_succ (depth : ℕ) :
    (Event.indent (depth + 1)).toList = (Event.indent depth).toList ++ [' ',' '] := by
  rw [Event.indent,Event.indent,String.toList_ofList,String.toList_ofList,Nat.mul_succ,
    List.replicate_add]
  rfl

theorem Indented.of_succ {depth : ℕ} {m : Message} (deeper : m.Indented (depth + 1)) :
    m.Indented depth := by
  rw [Indented,indent_succ] at deeper
  exact (List.prefix_append _ _).trans deeper

/-- What closes a task is not indented as what lies inside it is. -/
theorem not_indented_closing {depth : ℕ} {name : String} {m : Message}
    (closes : m.text = Event.closingText depth name) : ¬ m.Indented (depth + 1) := by
  intro deeper
  rw [Indented,indent_succ,closes,Event.closingText,String.append_assoc,String.append_assoc,
    String.toList_append,List.prefix_append_right_inj,String.toList_append] at deeper
  obtain ⟨rest,same⟩ := deeper
  have first := congrArg List.head? same
  simp at first

end Message

namespace Nested
variable {depth : ℕ} {messages more : List Message}

theorem append (first : Nested depth messages) (second : Nested depth more) :
    Nested depth (messages ++ more) := by
  induction first with
  | nil => exact second
  | remark _ ih => exact .remark (ih second)
  | task deeper _ _ ih =>
    rw [List.cons_append,List.append_assoc,List.cons_append]
    exact .task deeper (ih second)

theorem indented (nested : Nested depth messages) : ∀ m ∈ messages, m.Indented depth := by
  induction nested with
  | nil => exact fun _ member => nomatch member
  | remark _ ih => exact List.forall_mem_cons.mpr ⟨Message.indented_append _ _ _ _,ih⟩
  | @task depth name details inside rest _ _ deeper ih =>
    refine List.forall_mem_cons.mpr ⟨?_,List.forall_mem_append.mpr
      ⟨fun m member => (deeper m member).of_succ,List.forall_mem_cons.mpr ⟨?_,ih⟩⟩⟩
    · rw [Event.openingText,String.append_assoc,String.append_assoc]
      exact Message.indented_append _ _ _ _
    · rw [Event.closingText,String.append_assoc,String.append_assoc]
      exact Message.indented_append _ _ _ _

end Nested

namespace ClosedAfter
variable {depth : ℕ} {name : String} {inside other later : List Message}

theorem append (closed : ClosedAfter depth name inside later) (more : List Message) :
    ClosedAfter depth name inside (later ++ more) := by
  obtain ⟨closing,rest,rfl,text⟩ := closed.closing
  exact ⟨closed.deeper,closing,rest ++ more,by simp,text⟩

/-- A task is not closed in a second place, because what closes it is not indented deeper. -/
theorem not_later {closing : Message} {between : List Message}
    (second : ClosedAfter depth name (inside ++ closing :: between) later) :
    closing.text ≠ Event.closingText depth name := fun closes =>
  Message.not_indented_closing closes
    (second.deeper closing (List.mem_append_right _ List.mem_cons_self))

theorem unique (first : ClosedAfter depth name inside later)
    (second : ClosedAfter depth name other later) : inside = other := by
  obtain ⟨closing,rest,shown,closes⟩ := first.closing
  obtain ⟨closing',rest',shown',closes'⟩ := second.closing
  rcases List.append_eq_append_iff.mp (shown.symm.trans shown') with
    ⟨between,rfl,remaining⟩ | ⟨between,rfl,remaining⟩
  · cases between with
    | nil => exact (List.append_nil _).symm
    | cons m between =>
      cases remaining
      exact absurd closes second.not_later
  · cases between with
    | nil => exact List.append_nil _
    | cons m between =>
      cases remaining
      exact absurd closes' first.not_later

end ClosedAfter

namespace Nested
variable {depth : ℕ} {messages : List Message}

theorem exists_closedAfter (nested : Nested depth messages) {earlier later : List Message}
    {opening : Message} {name : String} (shown : messages = earlier ++ opening :: later)
    (opens : opening.mark = .opening name) :
    (Event.indent opening.depth ++ name).toList <+: opening.text.toList ∧
      ∃ inside, ClosedAfter opening.depth name inside later := by
  induction nested generalizing earlier later with
  | nil => simp at shown
  | remark _ ih =>
    cases earlier with
    | nil =>
      cases shown
      cases opens
    | cons m earlier => exact ih (List.cons.inj shown).2
  | @task depth name' details inside rest deeper _ inner outer =>
    cases earlier with
    | nil =>
      cases shown
      cases opens
      refine ⟨?_,inside,deeper.indented,_,rest,rfl,rfl⟩
      rw [Event.openingText,String.append_assoc]
      exact ⟨_,String.toList_append.symm⟩
    | cons m earlier =>
      have tail := (List.cons.inj shown).2
      rcases List.append_eq_append_iff.mp tail with ⟨between,rfl,remaining⟩ | ⟨between,rfl,remaining⟩
      · cases between with
        | nil =>
          cases remaining
          cases opens
        | cons m' between => exact outer (List.cons.inj remaining).2
      · cases between with
        | nil =>
          cases remaining
          cases opens
        | cons m' between =>
          cases remaining
          obtain ⟨starts,within,closed⟩ := inner rfl
          exact ⟨starts,within,closed.append _⟩

theorem wellNested (nested : Nested depth messages) : WellNested messages := by
  intro earlier opening later name shown opens
  obtain ⟨starts,inside,closed⟩ := nested.exists_closedAfter shown opens
  exact ⟨starts,inside,closed,fun other found => found.unique closed⟩

end Nested

end Bezout

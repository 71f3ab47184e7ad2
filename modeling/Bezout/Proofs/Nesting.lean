import Bezout.Proofs.NestedMessages

/-!
The nesting of tasks. Whatever a computation does, and wherever a fault ends it, every task that was
opened is left with the stack that it was opened on and is recorded once; and while reports are shown,
what opens a task and what closes it enclose messages that are indented deeper (`run_nests`).
-/
namespace Bezout

namespace Run

theorem andThen_of_ok {r : Run} {v : Value} (done : r.outcome = .ok v) (next : Value → Session → Run) :
    r.andThen next = r.followedBy (next v r.session) := by
  rw [andThen,done]

theorem lines_followedBy (r later : Run) : (r.followedBy later).lines = r.lines ++ later.lines :=
  List.flatMap_append

/-- The lines of messages of one line each are the messages. -/
theorem lines_eq {r : Run} (single : ∀ m ∈ r.messages, OneLine m.text) : r.lines = r.messages := by
  have same : ∀ m ∈ r.messages, m.lines = [m] := fun m member => Message.lines_eq (single m member)
  rw [lines,List.flatMap_congr same,List.flatMap_singleton']

end Run

/-! ### What runs do to sessions -/

namespace Session
variable {s inner : Session} {name : String}

theorem text_say (s : Session) (mark : Mark) (text : String) :
    ((s.say mark text).flatMap Message.lines).map Message.text = Event.reported s.verbose text := by
  rw [say,Event.reported]
  split
  · rw [List.flatMap_singleton,Message.text_lines]
  · rfl

theorem say_of_verbose (s : Session) (shows : s.verbose = true) (mark : Mark) (text : String) :
    s.say mark text = [⟨mark,s.depth,text⟩] := if_pos shows

theorem path_start (s : Session) (name : String) : (s.start name).path = s.path ++ [name] :=
  List.reverse_cons

theorem length_path (s : Session) : s.path.length = s.depth := List.length_reverse

/-- What `inner` becomes when the task that was opened in `s` is closed. -/
def closed (s inner : Session) (name : String) : Session :=
  { inner with stack := s.stack,profile := inner.profile ++ [s.path ++ [name]] }

/-- On the stack that a task was opened on, it is this task that is closed. -/
theorem finish_of_stack (same : inner.stack = (s.start name).stack) :
    inner.finish? = some (name,s.closed inner name) := by
  have path : inner.path = s.path ++ [name] := by
    rw [Session.path,same]
    exact s.path_start name
  rw [finish?,same,path]
  rfl

/-- A run inside a task that was opened in `s`, together with opening and closing the task. -/
def enclosed (s : Session) (name : String) (details : List (String × String)) (r : Run) : Run where
  outcome := r.outcome
  session := s.closed r.session name
  messages := s.say (.opening name) (Event.openingText s.depth name details) ++ r.messages ++
    (s.closed r.session name).say (.closing name) (Event.closingText s.depth name)
  switches := r.switches
  blocks := r.blocks ++ [⟨name,s,s.closed r.session name⟩]

theorem within_eq {details : List (String × String)} {body : Session → Run}
    (same : (body (s.start name)).session.stack = (s.start name).stack) :
    s.within name details body = s.enclosed name details (body (s.start name)) := by
  rw [within,finish_of_stack same]
  rfl

end Session

namespace Event

/-- A run that did what some events report. -/
structure Performed (events : List Event) (s : Session) (r : Run) : Prop where
  outcome : r.outcome = .ok .nothing
  session : r.session = s.after events
  shown : r.lines.map Message.text = s.shown events
  switches : r.switches = []

theorem performed_nil (s : Session) : Performed [] s (performAll [] s) where
  outcome := rfl
  session := by
    show s = { s with profile := s.profile ++ [] }
    rw [List.append_nil]
  shown := rfl
  switches := rfl

theorem Performed.cons {e : Event} {rest : List Event} {s : Session} {first : Run}
    (done : Performed [e] s first) {later : Session → Run} (goes : ∀ s, Performed rest s (later s)) :
    Performed (e :: rest) s (first.andThen fun _ => later) := by
  have next := goes first.session
  have session := next.session
  have shown := next.shown
  rw [done.session] at session shown
  rw [Run.andThen_of_ok done.outcome]
  constructor
  · exact next.outcome
  · rw [Run.followedBy,done.session,session]
    simp [Session.after,Session.path,allPaths]
  · rw [Run.lines_followedBy,List.map_append,done.shown,done.session,shown]
    simp [Session.after,Session.shown,Session.depth,allLines]
  · rw [Run.followedBy,done.switches,next.switches]
    rfl

theorem Performed.within {s : Session} {name : String} {details : List (String × String)}
    {inside : List Event} {body : Session → Run}
    (done : Performed inside (s.start name) (body (s.start name))) :
    Performed [.task name details inside] s (s.within name details body) := by
  have same : (body (s.start name)).session.stack = (s.start name).stack := by
    rw [done.session]
    rfl
  rw [Session.within_eq same]
  generalize body (s.start name) = r at done
  have session : s.closed r.session name = s.after [.task name details inside] := by
    rw [done.session]
    simp only [Session.closed,Session.after,Session.path_start,allPaths,paths,List.append_nil,
      List.append_assoc]
    rfl
  have shown := done.shown
  rw [Run.lines] at shown
  constructor
  · exact done.outcome
  · exact session
  · simp only [Session.enclosed,Run.lines,List.flatMap_append,List.map_append,Session.text_say,shown,
      session]
    simp only [Session.shown,allLines,lines,List.append_nil]
    rfl
  · exact done.switches

mutual
theorem performed_perform : ∀ (e : Event) (s : Session), Performed [e] s (perform e s)
  | note text, s => {
      outcome := rfl
      session := (performed_nil s).session
      shown := by
        rw [Session.shown,allLines,allLines,List.append_nil]
        exact s.text_say .remark (indent s.depth ++ text)
      switches := rfl }
  | print text, s => {
      outcome := rfl
      session := (performed_nil s).session
      shown := by
        rw [Session.shown,allLines,allLines,List.append_nil,perform,Run.lines,List.flatMap_singleton]
        exact Message.text_lines _
      switches := rfl }
  | task _ _ body, s => .within (performed_performAll body _)

/-- Doing what events report leads to the session after them and shows what is shown of them. -/
theorem performed_performAll : ∀ (events : List Event) (s : Session),
    Performed events s (performAll events s)
  | [], s => performed_nil s
  | e :: rest, s => (performed_perform e s).cons (performed_performAll rest)
end

end Event

/-! ### Balanced runs -/

/-- A task that was left with the stack that it was opened on and that was recorded once. -/
def Block.Settled (b : Block) : Prop :=
  b.exit.stack = b.entry.stack ∧
    b.exit.profile.count (b.entry.path ++ [b.name]) =
      b.entry.profile.count (b.entry.path ++ [b.name]) + 1

/-- A run that left every task that it opened, and recorded only tasks that were opened in it. -/
structure Run.Balanced (s : Session) (r : Run) : Prop where
  stack : r.session.stack = s.stack
  recorded : ∃ paths, r.session.profile = s.profile ++ paths ∧ ∀ path ∈ paths, s.depth < path.length
  settled : ∀ b ∈ r.blocks, b.Settled
  shown : s.verbose = true → false ∉ r.switches →
    r.session.verbose = true ∧ Nested s.depth r.messages

namespace Run
variable {s : Session} {r later : Run}

/-- A run without tasks is balanced if it shows nested messages. -/
theorem balanced_of_no_task (stack : r.session.stack = s.stack) (profile : r.session.profile = s.profile)
    (none : r.blocks = []) (shown : s.verbose = true → false ∉ r.switches →
      r.session.verbose = true ∧ Nested s.depth r.messages) : r.Balanced s where
  stack := stack
  recorded := ⟨[],by rw [profile,List.append_nil],List.forall_mem_nil _⟩
  settled := by
    rw [none]
    exact List.forall_mem_nil _
  shown := shown

theorem balanced_ended (outcome : Except Fault Value) (s : Session) : (ended outcome s).Balanced s :=
  balanced_of_no_task rfl rfl rfl fun shows _ => ⟨shows,.nil⟩

theorem balanced_verbose (on : Bool) (s : Session) : (Computation.run (.verbose on) s).Balanced s := by
  refine balanced_of_no_task rfl rfl rfl fun _ throughout => ?_
  have shows : on = true := by simpa [Computation.run] using throughout
  exact ⟨shows,.nil⟩

theorem balanced_note (text : String) (s : Session) : (Event.perform (.note text) s).Balanced s := by
  refine balanced_of_no_task rfl rfl rfl fun shows _ => ?_
  rw [Event.perform,s.say_of_verbose shows]
  exact ⟨shows,.remark .nil⟩

theorem Balanced.followedBy (first : r.Balanced s) (second : later.Balanced r.session) :
    (r.followedBy later).Balanced s := by
  obtain ⟨before,profile,deep⟩ := first.recorded
  obtain ⟨after,profile',deep'⟩ := second.recorded
  have same : r.session.depth = s.depth := congrArg List.length first.stack
  constructor
  · exact second.stack.trans first.stack
  · refine ⟨before ++ after,?_,List.forall_mem_append.mpr ⟨deep,fun path member => ?_⟩⟩
    · rw [Run.followedBy,profile',profile,List.append_assoc]
    · exact same ▸ deep' path member
  · exact List.forall_mem_append.mpr ⟨first.settled,second.settled⟩
  · intro shows throughout
    rw [Run.followedBy,List.mem_append,not_or] at throughout
    obtain ⟨shows,nested⟩ := first.shown shows throughout.1
    obtain ⟨shows,nested'⟩ := second.shown shows throughout.2
    exact ⟨shows,nested.append (same ▸ nested')⟩

theorem Balanced.andThen (first : r.Balanced s) {next : Value → Session → Run}
    (goes : ∀ v s, (next v s).Balanced s) : (r.andThen next).Balanced s := by
  rw [Run.andThen]
  split
  · exact first.followedBy (goes _ _)
  · exact first

theorem Balanced.recover (first : r.Balanced s) {handler : Fault → Session → Run}
    (handles : ∀ cause s, (handler cause s).Balanced s) : (r.recover handler).Balanced s := by
  rw [Run.recover]
  split
  · exact first
  · exact first.followedBy (handles _ _)

/-- A task whose body is balanced is settled and leaves its run balanced. -/
theorem Balanced.within {name : String} {body : Session → Run}
    (inside : (body (s.start name)).Balanced (s.start name)) (details : List (String × String)) :
    (s.within name details body).Balanced s := by
  rw [Session.within_eq inside.stack]
  generalize body (s.start name) = r at inside
  obtain ⟨paths,profile,deep⟩ := inside.recorded
  have path : s.path.length = s.depth := s.length_path
  have recorded : (s.closed r.session name).profile = s.profile ++ (paths ++ [s.path ++ [name]]) := by
    rw [Session.closed,profile,← List.append_assoc]
    rfl
  constructor
  · rfl
  · refine ⟨_,recorded,List.forall_mem_append.mpr ⟨fun path member => ?_,?_⟩⟩
    · exact (Nat.lt_succ_self _).trans (deep path member)
    · rw [List.forall_mem_singleton,List.length_append,path]
      exact Nat.lt_succ_self _
  · refine List.forall_mem_append.mpr ⟨inside.settled,List.forall_mem_singleton.mpr ⟨rfl,?_⟩⟩
    -- What was recorded inside are longer paths, so that the path of the task is new among them.
    have unlike : s.path ++ [name] ∉ paths := by
      intro member
      have longer := deep _ member
      rw [List.length_append,path] at longer
      exact lt_irrefl _ longer
    show List.count (s.path ++ [name]) (s.closed r.session name).profile = _
    rw [recorded,List.count_append,List.count_append,List.count_eq_zero_of_not_mem unlike,
      List.count_singleton_self,Nat.zero_add]
  · intro shows throughout
    obtain ⟨showing,nested⟩ := inside.shown shows throughout
    have showing : (s.closed r.session name).verbose = true := showing
    refine ⟨showing,?_⟩
    rw [Session.enclosed,s.say_of_verbose shows,Session.say_of_verbose _ showing]
    exact .task nested .nil

end Run

/-! ### Calls -/

namespace Event

theorem Quiet.balanced {events : List Event} (quiet : Quiet events) (s : Session) :
    (performAll events s).Balanced s := by
  induction quiet generalizing s with
  | nil => exact Run.balanced_ended _ s
  | note _ _ ih => exact (Run.balanced_note _ s).andThen fun _ => ih
  | @task name details _ _ _ _ _ _ inside later =>
    exact ((inside (s.start name)).within details).andThen fun _ => later

/-- Events that are cut short show no results if they show none otherwise. -/
theorem Quiet.cut {events reported : List Event} (quiet : Quiet events) (cut : Cut events reported) :
    Quiet reported := by
  induction cut with
  | stop => exact .nil
  | note _ ih =>
    cases quiet with
    | note line later => exact .note line (ih later)
  | inside _ ih =>
    cases quiet with
    | task line described inside _ => exact .task line described (ih inside) .nil
  | task _ ih =>
    cases quiet with
    | task line described inside later => exact .task line described inside (ih later)

end Event

theorem Call.quiet_work (c : Call) : c.work.Quiet := by
  cases c with
  | divide p q => exact Poly.quiet_divide p q
  | pseudoDivide p q => exact Poly.quiet_pseudoDivide p q
  | divides d p => exact Poly.quiet_divides d p
  | associated p q => exact Poly.quiet_associated p q
  | powerMod base e modulus => exact Poly.quiet_powerMod base e modulus
  | gcd p q => exact Poly.quiet_gcd p q
  | gcdAll ps ring? => exact Poly.quiet_gcdAll ps ring?
  | egcd p q => exact Poly.quiet_egcd p q
  | coprime p q => exact Poly.quiet_coprime p q
  | gdcop q p => exact Poly.quiet_gdcop q p
  | multiplicity v p => exact (Poly.quiet_multiplicity v p).map _
  | lcm p q => exact Poly.quiet_lcm p q
  | isSquareFree p => exact Poly.quiet_isSquareFree p
  | squareFreePart p => exact Poly.quiet_squareFreePart p
  | roots p => exact Poly.quiet_roots p
  | isIrreducible p => exact Poly.quiet_isIrreducible p
  | equivalent p q solver => exact Certificate.quiet_equivalent p q solver
  | haveCounterexample p q solver => exact Certificate.quiet_haveCounterexample p q solver
  | checkDivision p q d solver => exact Certificate.quiet_checkDivision p q d solver
  | checkBezout p q u v solver => exact Certificate.quiet_checkBezout p q u v solver

namespace Computation

/-- A call does on a session what a step of a script with its work does. -/
theorem run_call (c : Call) (s : Session) :
    ((call c).run s).session = (Step.run s (.call c.work)).1 ∧
      ((call c).run s).lines.map Message.text = (Step.run s (.call c.work)).2.out ∧
      some ((call c).run s).outcome = (Step.run s (.call c.work)).2.result := by
  have performed := Event.performed_performAll c.work.report s
  rw [run,Run.andThen_of_ok performed.outcome,Run.lines_followedBy,List.map_append,performed.shown]
  exact ⟨performed.session,List.append_nil _,rfl⟩

/-- Whatever is run is balanced. -/
theorem balanced_run (c : Computation) (s : Session) : (c.run s).Balanced s := by
  induction c generalizing s with
  | done v => exact Run.balanced_ended _ s
  | raise cause => exact Run.balanced_ended _ s
  | verbose on => exact Run.balanced_verbose on s
  | event text => exact Run.balanced_note text s
  | call c => exact (c.quiet_work.balanced s).andThen fun _ => Run.balanced_ended _
  | interrupted c reported cut cause =>
    exact ((c.quiet_work.cut cut).balanced s).andThen fun _ => Run.balanced_ended _
  | task name details body ih => exact (ih (s.start name)).within _
  | andThen first next ih later => exact (ih s).andThen later
  | recover body handler ih handles => exact (ih s).recover handles

/-- A task is closed as it was opened, whatever is done inside it. -/
theorem run_task_eq (name : String) (details : List (String × Value)) (body : Computation) (s : Session) :
    (task name details body).run s =
      s.enclosed name (Step.detailTexts details) (body.run (s.start name)) :=
  Session.within_eq (balanced_run body (s.start name)).stack

/-- A task is opened and closed as by the steps of a script, with its body in between. -/
theorem run_task (name : String) (details : List (String × Value)) (body : Computation) (s : Session) :
    let opened := Step.run s (.start name details)
    let inner := body.run opened.1
    let closed := Step.run inner.session .finish
    let r := (task name details body).run s
    r.session = closed.1 ∧
      r.lines.map Message.text = opened.2.out ++ inner.lines.map Message.text ++ closed.2.out ∧
      r.outcome = inner.outcome ∧ closed.2.fault = none := by
  intro opened inner closed r
  have same : r = s.enclosed name (Step.detailTexts details) inner := run_task_eq name details body s
  have balanced : inner.Balanced (s.start name) := balanced_run body (s.start name)
  have closes : closed = (s.closed inner.session name,Step.answer (s.closed inner.session name)
      (Event.closing (s.closed inner.session name).verbose s.depth name)) := by
    show Step.close inner.session [] = _
    rw [Step.close,Session.finish_of_stack balanced.stack]
    rfl
  rw [same,closes]
  refine ⟨rfl,?_,rfl,rfl⟩
  simp only [Session.enclosed,Run.lines,List.flatMap_append,List.map_append,Session.text_say]
  rfl

/-- Whatever a computation does, it leaves the stack of open tasks as it was. Every task that is left,
    normally or by a fault, is left with the stack that it was opened on and is recorded once under its
    path, and the fault goes on from it. While reports are shown, every task is announced, the messages are
    well nested, and so are their lines unless one of them has a line break. -/
theorem run_nests (c : Computation) (s : Session) :
    (c.run s).session.stack = s.stack ∧
    (∀ b ∈ (c.run s).blocks, b.exit.stack = b.entry.stack ∧
      b.exit.profile.count (b.entry.path ++ [b.name]) =
        b.entry.profile.count (b.entry.path ++ [b.name]) + 1) ∧
    (∀ name details, let r := (task name details c).run s
      let inner := c.run (s.start name)
      r.outcome = inner.outcome ∧ r.blocks = inner.blocks ++ [⟨name,s,r.session⟩] ∧
      (s.verbose = true → ∃ later, r.messages = ⟨.opening name,s.depth,
        Event.openingText s.depth name (Step.detailTexts details)⟩ :: later)) ∧
    (s.verbose = true → false ∉ (c.run s).switches →
      WellNested (c.run s).messages ∧
      ((∀ m ∈ (c.run s).messages, OneLine m.text) → WellNested (c.run s).lines)) := by
  have balanced := balanced_run c s
  refine ⟨balanced.stack,balanced.settled,fun name details => ?_,fun shows throughout => ?_⟩
  · rw [run_task_eq]
    refine ⟨rfl,rfl,fun shows => ?_⟩
    rw [Session.enclosed,s.say_of_verbose shows]
    exact ⟨_,rfl⟩
  · have nested := (balanced.shown shows throughout).2.wellNested
    refine ⟨nested,fun single => ?_⟩
    rw [Run.lines_eq single]
    exact nested

/-- A fault in the middle of a division that a greatest common divisor takes. -/
theorem run_nests_across_rings :
    let c := recover
      (task "outer" [("n",.integer 1)]
        (call (.gcd ⟨.integers,.ofList [1,0,1]⟩ ⟨.rationals,.ofList [0,1]⟩)))
      fun _ => event "gone on"
    let r := c.run ⟨true,[],[]⟩
    false ∉ r.switches ∧ (∀ m ∈ r.messages, OneLine m.text) ∧
      r.messages.map Message.text = ["outer [n=1]...","  gcd [p_size=3, q_size=2]...",
        "    divide [p_size=3, q_size=2]...","    Finished divide [duration=*s]",
        "  Finished gcd [duration=*s]","Finished outer [duration=*s]","gone on"] ∧
      r.session.stack = [] ∧ WellNested r.lines := by
  intro c r
  have throughout : false ∉ r.switches := by decide
  have single : ∀ m ∈ r.messages, OneLine m.text := by decide
  obtain ⟨stack,-,-,shown⟩ := run_nests c ⟨true,[],[]⟩
  exact ⟨throughout,single,by decide,stack,(shown rfl throughout).2 single⟩

/-- A line break in a message makes a line without indentation inside a task. -/
theorem broken_message_not_wellNested :
    let r := (task "a" [] (event "x\ny")).run ⟨true,[],[]⟩
    false ∉ r.switches ∧ ¬ WellNested r.lines := by
  intro r
  have messages : r.messages = [⟨.opening "a",0,"a..."⟩,⟨.remark,1,"  x\ny"⟩,
      ⟨.closing "a",0,"Finished a [duration=*s]"⟩] := by decide
  have broken : Event.linesOf "  x\ny" = ["  x","y"] := by
    rw [Event.linesOf_eq_splitOn]
    decide
  have lines : r.lines = [⟨.opening "a",0,"a..."⟩,⟨.remark,1,"  x"⟩,⟨.remark,1,"y"⟩,
      ⟨.closing "a",0,"Finished a [duration=*s]"⟩] := by
    have first : Message.lines ⟨.opening "a",0,"a..."⟩ = [⟨.opening "a",0,"a..."⟩] :=
      Message.lines_eq (by decide)
    have last : Message.lines ⟨.closing "a",0,"Finished a [duration=*s]"⟩ =
        [⟨.closing "a",0,"Finished a [duration=*s]"⟩] := Message.lines_eq (by decide)
    rw [Run.lines,messages,List.flatMap_cons,List.flatMap_cons,List.flatMap_singleton,first,last,
      Message.lines,broken]
    rfl
  refine ⟨by decide,fun nested => ?_⟩
  obtain ⟨-,inside,⟨deeper,closing,rest,shown,closes⟩,-⟩ := nested [] _ _ "a" lines rfl
  cases inside with
  | nil =>
    cases shown
    exact absurd closes (by decide)
  | cons first inside =>
    cases inside with
    | nil =>
      cases shown
      exact absurd closes (by decide)
    | cons second inside =>
      obtain rfl := (List.cons.inj (List.cons.inj shown).2).1
      have indented := deeper ⟨.remark,1,"y"⟩ (.tail _ (.head _))
      exact absurd indented (by decide)

end Computation
end Bezout

import Bezout.Proofs.Grammar

/-!
The tokens of a polynomial are read exactly if they are a sentence of the grammar. Reading a
derivation's sentence leads to a state that holds its syntax tree (`PolyTree.exists_shifts`); and in
every state that tokens lead to, these are the sentences of what the state holds (`State.Spells`), so
that a finished polynomial has a derivation. Denominators are all that is checked beyond that
(`State.step_eq_ok_iff`, `State.finish_eq_ok_iff`).
-/
namespace Bezout

/-- The tokens that an atom can start with. -/
def Token.startsOperand : Token → Bool
  | .numeral _ => true
  | .word _ => true
  | .openParen => true
  | _ => false

/-- How a sign joins the term after it to the polynomial before it. -/
def Sign.join (left : Expr) : Sign → Parse.Join
  | plus => .plus left
  | minus => .minus left

namespace Parse

/-- The state after some tokens, with denominators left unchecked. -/
def State.shifts (s : State) : List Token → Option State
  | [] => some s
  | t :: rest => (s.shift? t).bind fun next => next.shifts rest

theorem State.shifts_append (s : State) (ts us : List Token) :
    s.shifts (ts ++ us) = (s.shifts ts).bind fun next => next.shifts us := by
  induction ts generalizing s with
  | nil => rfl
  | cons t rest ih =>
    rw [List.cons_append,shifts,shifts,Option.bind_assoc]
    exact congrArg _ (funext fun next => ih next)

/-- One more token is read in the state that the tokens before it lead to. -/
theorem State.shifts_concat_iff {s next : State} {ts : List Token} {t : Token} :
    s.shifts (ts ++ [t]) = some next ↔
      ∃ middle, s.shifts ts = some middle ∧ middle.shift? t = some next := by
  rw [shifts_append,Option.bind_eq_some_iff]
  simp [shifts]

/-- Tokens that lead to a state are gone on from there. -/
theorem State.shifts_append_of {s next : State} {ts : List Token} (read : s.shifts ts = some next)
    (us : List Token) : s.shifts (ts ++ us) = next.shifts us := by
  rw [shifts_append,read,Option.bind_some]

theorem State.shifts_cons_of {s next : State} {t : Token} (read : s.shift? t = some next)
    (us : List Token) : s.shifts (t :: us) = next.shifts us := by
  rw [shifts,read,Option.bind_some]

/-! ### Single tokens -/

section Steps
variable {outer : List Level} {level : Level} {phase : Phase} {power : Expr}

/-- In the state `s` an operand is read as in `ready`, whose level it is the next operand of. -/
def State.Awaits (s ready : State) : Prop :=
  ∀ t, t.startsOperand = true → s.shift? t = ready.operand t

theorem awaits_start (outer : List Level) (level : Level) :
    State.Awaits ⟨outer,level,.start⟩ ⟨outer,level,.start⟩ := by
  intro t starts
  cases t with
  | plus => cases starts
  | minus => cases starts
  | _ => rfl

theorem awaits_sign (outer : List Level) (level : Level) :
    State.Awaits ⟨outer,level,.sign⟩ ⟨outer,level,.sign⟩ :=
  fun _ _ => rfl

/-- The sign of a power goes on with the atom before it. -/
theorem shift_raises (base : phase.atom? = some power) {sign : Token} (raises : sign.isPower = true) :
    State.shift? ⟨outer,level,phase⟩ sign = some ⟨outer,level,.caret power⟩ := by
  cases sign with
  | caret => cases phase <;> cases base <;> rfl
  | stars => cases phase <;> cases base <;> rfl
  | _ => cases raises

/-- Any other token but a slash goes on with the whole power before it. -/
theorem shift_afterPower (complete : phase.complete? = some power) {t : Token} (undivided : t ≠ .slash)
    (unraised : t.isPower = false) :
    State.shift? ⟨outer,level,phase⟩ t = State.afterPower ⟨outer,level,phase⟩ power t := by
  cases t with
  | slash => exact absurd rfl undivided
  | caret => cases unraised
  | stars => cases unraised
  | _ => cases phase <;> cases complete <;> rfl

theorem awaits_power (complete : phase.complete? = some power) :
    State.Awaits ⟨outer,level,phase⟩ ⟨outer,⟨level.join,some (level.term power)⟩,phase⟩ := by
  intro t starts
  cases t with
  | numeral n => exact shift_afterPower complete nofun rfl
  | word name => exact shift_afterPower complete nofun rfl
  | openParen => exact shift_afterPower complete nofun rfl
  | _ => cases starts

theorem shift_sign (complete : phase.complete? = some power) (s : Sign) :
    State.shift? ⟨outer,level,phase⟩ s.token = some ⟨outer,⟨s.join (level.poly power),none⟩,.sign⟩ := by
  cases s with
  | plus => exact shift_afterPower complete nofun rfl
  | minus => exact shift_afterPower complete nofun rfl

theorem shift_times (complete : phase.complete? = some power) :
    State.shift? ⟨outer,level,phase⟩ .times =
      some ⟨outer,⟨level.join,some (level.term power)⟩,.sign⟩ :=
  shift_afterPower complete nofun rfl

theorem shift_closeParen {inner : Level} (complete : phase.complete? = some power) :
    State.shift? ⟨level :: outer,inner,phase⟩ .closeParen =
      some ⟨outer,level,.atom (inner.poly power)⟩ :=
  shift_afterPower complete nofun rfl

end Steps

end Parse

/-! ### Sentences are read -/

open Parse

/-- What was read last when an atom ends. -/
def AtomTree.phase : AtomTree → Phase
  | .numeral n => .numeral n
  | .fraction n d => .fraction n d
  | .word _ => .atom .indeterminate
  | .parenthesized p => .atom p.expr

/-- What was read last when a power ends. -/
def PowerTree.phase : PowerTree → Phase
  | .atom a => a.phase
  | .raised a _ _ n => .power (.pow a.expr n)

theorem AtomTree.atom?_phase (a : AtomTree) : a.phase.atom? = some a.expr := by
  cases a <;> rfl

theorem PowerTree.complete?_phase (w : PowerTree) : w.phase.complete? = some w.expr := by
  cases w with
  | atom a => cases a <;> rfl
  | raised a sign raises n => rfl

mutual

theorem PolyTree.exists_shifts (p : PolyTree) (outer : List Level) :
    ∃ level phase power, State.shifts ⟨outer,.fresh,.start⟩ p.tokens = some ⟨outer,level,phase⟩ ∧
      phase.complete? = some power ∧ level.poly power = p.expr := by
  cases p with
  | term t =>
    obtain ⟨level,phase,power,read,join,complete,whole⟩ :=
      t.exists_shifts (awaits_start outer .fresh) rfl
    exact ⟨level,phase,power,read,complete,by rw [Level.poly,join,whole]; rfl⟩
  | signed s t =>
    cases s with
    | plus =>
      obtain ⟨level,phase,power,read,join,complete,whole⟩ :=
        t.exists_shifts (awaits_sign outer .fresh) rfl
      exact ⟨level,phase,power,read,complete,by rw [Level.poly,join,whole]; rfl⟩
    | minus =>
      obtain ⟨level,phase,power,read,join,complete,whole⟩ :=
        t.exists_shifts (awaits_sign outer ⟨.negated,none⟩) rfl
      exact ⟨level,phase,power,read,complete,by rw [Level.poly,join,whole]; rfl⟩
  | joined p s t =>
    obtain ⟨before,last,left,first,ended,value⟩ := p.exists_shifts outer
    obtain ⟨level,phase,power,read,join,complete,whole⟩ :=
      t.exists_shifts (awaits_sign outer ⟨s.join p.expr,none⟩) rfl
    refine ⟨level,phase,power,?_,complete,?_⟩
    · rw [PolyTree.tokens,State.shifts_append_of first,State.shifts_cons_of (shift_sign ended s),value,read]
    · rw [Level.poly,join,whole]
      cases s <;> rfl
termination_by sizeOf p

/-- A term is read after nothing of its level but what it is joined to. -/
theorem TermTree.exists_shifts (t : TermTree) {s ready : State} (awaits : s.Awaits ready)
    (nothing : ready.level.product = none) :
    ∃ level phase power, s.shifts t.tokens = some ⟨ready.outer,level,phase⟩ ∧
      level.join = ready.level.join ∧ phase.complete? = some power ∧ level.term power = t.expr := by
  cases t with
  | power w =>
    refine ⟨ready.level,w.phase,w.expr,w.shifts_tokens awaits,rfl,w.complete?_phase,?_⟩
    rw [Level.term,nothing]
    rfl
  | times t w =>
    obtain ⟨level,phase,power,read,join,complete,whole⟩ := t.exists_shifts awaits nothing
    refine ⟨⟨level.join,some (level.term power)⟩,w.phase,w.expr,?_,join,w.complete?_phase,?_⟩
    · rw [TermTree.tokens,State.shifts_append_of read,State.shifts_cons_of (shift_times complete),
        w.shifts_tokens (awaits_sign _ _)]
    · rw [Level.term,whole]
      rfl
  | juxtaposed t w =>
    obtain ⟨level,phase,power,read,join,complete,whole⟩ := t.exists_shifts awaits nothing
    refine ⟨⟨level.join,some (level.term power)⟩,w.phase,w.expr,?_,join,w.complete?_phase,?_⟩
    · rw [TermTree.tokens,State.shifts_append_of read,w.shifts_tokens (awaits_power complete)]
    · rw [Level.term,whole]
      rfl
termination_by sizeOf t

theorem PowerTree.shifts_tokens (w : PowerTree) {s ready : State} (awaits : s.Awaits ready) :
    s.shifts w.tokens = some ⟨ready.outer,ready.level,w.phase⟩ := by
  cases w with
  | atom a => exact a.shifts_tokens awaits
  | raised a sign raises n =>
    rw [PowerTree.tokens,State.shifts_append_of (a.shifts_tokens awaits),
      State.shifts_cons_of (shift_raises a.atom?_phase raises)]
    rfl
termination_by sizeOf w

theorem AtomTree.shifts_tokens (a : AtomTree) {s ready : State} (awaits : s.Awaits ready) :
    s.shifts a.tokens = some ⟨ready.outer,ready.level,a.phase⟩ := by
  cases a with
  | numeral n =>
    rw [AtomTree.tokens,State.shifts_cons_of (awaits (.numeral n) rfl)]
    rfl
  | fraction n d =>
    rw [AtomTree.tokens,State.shifts_cons_of (awaits (.numeral n) rfl)]
    rfl
  | word name =>
    rw [AtomTree.tokens,State.shifts_cons_of (awaits (.word name) rfl)]
    rfl
  | parenthesized p =>
    obtain ⟨level,phase,power,read,complete,whole⟩ := p.exists_shifts (ready.level :: ready.outer)
    rw [AtomTree.tokens,State.shifts_cons_of (awaits .openParen rfl),State.shifts_append_of read,
      State.shifts_cons_of (shift_closeParen complete),whole]
    rfl
termination_by sizeOf a

end

/-! ### What is read is a sentence -/

namespace Parse

/-- What stands at a level before a term. -/
inductive Join.Spells : Join → List Token → Prop
  | nothing : Spells .first []
  | positive : Spells .first [.plus]
  | negated : Spells .negated [.minus]
  | plus (p : PolyTree) : Spells (.plus p.expr) (p.tokens ++ [.plus])
  | minus (p : PolyTree) : Spells (.minus p.expr) (p.tokens ++ [.minus])

/-- What stands at a level before an operand. -/
inductive Level.Spells : Level → List Token → Prop
  | first {join : Join} {ts : List Token} (before : join.Spells ts) : Spells ⟨join,none⟩ ts
  | times {join : Join} {ts : List Token} (before : join.Spells ts) (t : TermTree) :
      Spells ⟨join,some t.expr⟩ (ts ++ t.tokens ++ [.times])
  | juxtaposed {join : Join} {ts : List Token} (before : join.Spells ts) (t : TermTree) :
      Spells ⟨join,some t.expr⟩ (ts ++ t.tokens)

/-- What has been read of an operand. -/
inductive Phase.Spells : Phase → List Token → Prop
  | sign : Spells .sign []
  | numeral (n : ℕ) : Spells (.numeral n) [.numeral n]
  | slash (n : ℕ) : Spells (.slash n) [.numeral n,.slash]
  | fraction (n d : ℕ) : Spells (.fraction n d) [.numeral n,.slash,.numeral d]
  | atom (a : AtomTree) : Spells (.atom a.expr) a.tokens
  | caret (a : AtomTree) (sign : Token) (raises : sign.isPower = true) :
      Spells (.caret a.expr) (a.tokens ++ [sign])
  | power (w : PowerTree) : Spells (.power w.expr) w.tokens

/-- What stands before the innermost parentheses that are open, and these. -/
inductive OuterSpells : List Level → List Token → Prop
  | outermost : OuterSpells [] []
  | inside {outer : List Level} {level : Level} {ts us : List Token} (around : OuterSpells outer ts)
      (before : level.Spells us) : OuterSpells (level :: outer) (ts ++ us ++ [.openParen])

/-- The tokens that a state has been reached by. -/
inductive State.Spells : State → List Token → Prop
  | start {outer : List Level} {ts : List Token} (around : OuterSpells outer ts) :
      Spells ⟨outer,.fresh,.start⟩ ts
  | within {outer : List Level} {level : Level} {phase : Phase} {ts us vs : List Token}
      (around : OuterSpells outer ts) (before : level.Spells us) (current : phase.Spells vs) :
      Spells ⟨outer,level,phase⟩ (ts ++ us ++ vs)

theorem State.spells_initial : State.initial.Spells [] := .start .outermost

/-- A term that is joined to what stands before it is a polynomial. -/
theorem Join.Spells.exists_poly {join : Join} {ts : List Token} (before : join.Spells ts) (t : TermTree) :
    ∃ p : PolyTree, p.tokens = ts ++ t.tokens ∧ p.expr = join.apply t.expr := by
  cases before with
  | nothing => exact ⟨.term t,rfl,rfl⟩
  | positive => exact ⟨.signed .plus t,rfl,rfl⟩
  | negated => exact ⟨.signed .minus t,rfl,rfl⟩
  | plus p => exact ⟨.joined p .plus t,by simp [PolyTree.tokens,Sign.token],rfl⟩
  | minus p => exact ⟨.joined p .minus t,by simp [PolyTree.tokens,Sign.token],rfl⟩

/-- A power that multiplies what stands before it ends a term. -/
theorem Level.Spells.exists_term {level : Level} {ts : List Token} (before : level.Spells ts)
    (w : PowerTree) : ∃ us, ∃ t : TermTree, level.join.Spells us ∧ us ++ t.tokens = ts ++ w.tokens ∧
      t.expr = level.term w.expr := by
  cases before with
  | first join => exact ⟨ts,.power w,join,rfl,rfl⟩
  | times join t => exact ⟨_,.times t w,join,by simp [TermTree.tokens],rfl⟩
  | juxtaposed join t => exact ⟨_,.juxtaposed t w,join,by simp [TermTree.tokens],rfl⟩

theorem Level.Spells.exists_poly {level : Level} {ts : List Token} (before : level.Spells ts)
    (w : PowerTree) : ∃ p : PolyTree, p.tokens = ts ++ w.tokens ∧ p.expr = level.poly w.expr := by
  obtain ⟨us,t,join,same,value⟩ := before.exists_term w
  obtain ⟨p,sentence,whole⟩ := join.exists_poly t
  exact ⟨p,sentence.trans same,by rw [whole,value]; rfl⟩

theorem Phase.Spells.exists_power {phase : Phase} {ts : List Token} (current : phase.Spells ts)
    {power : Expr} (complete : phase.complete? = some power) :
    ∃ w : PowerTree, w.tokens = ts ∧ w.expr = power := by
  cases current with
  | numeral n => exact ⟨.atom (.numeral n),rfl,Option.some.inj complete⟩
  | fraction n d => exact ⟨.atom (.fraction n d),rfl,Option.some.inj complete⟩
  | atom a => exact ⟨.atom a,rfl,Option.some.inj complete⟩
  | power w => exact ⟨w,rfl,Option.some.inj complete⟩
  | _ => cases complete

theorem Phase.Spells.exists_atom {phase : Phase} {ts : List Token} (current : phase.Spells ts)
    {base : Expr} (complete : phase.atom? = some base) :
    ∃ a : AtomTree, a.tokens = ts ∧ a.expr = base := by
  cases current with
  | numeral n => exact ⟨.numeral n,rfl,Option.some.inj complete⟩
  | fraction n d => exact ⟨.fraction n d,rfl,Option.some.inj complete⟩
  | atom a => exact ⟨a,rfl,Option.some.inj complete⟩
  | _ => cases complete

theorem State.Spells.of_eq {s : State} {ts us : List Token} (spelled : s.Spells ts) (same : ts = us) :
    s.Spells us := same ▸ spelled

/-- The first token of an operand. -/
theorem State.spells_operand {s next : State} {ts us : List Token} {t : Token}
    (around : OuterSpells s.outer ts) (before : s.level.Spells us) (read : s.operand t = some next) :
    next.Spells (ts ++ us ++ [t]) := by
  cases t with
  | numeral n =>
    cases read
    exact .within around before (.numeral n)
  | word name =>
    cases read
    exact .within around before (.atom (.word name))
  | openParen =>
    cases read
    exact .start (.inside around before)
  | _ => cases read

/-- A token after a whole power. -/
theorem State.spells_afterPower {s next : State} {ts us : List Token} {t : Token}
    (around : OuterSpells s.outer ts) (before : s.level.Spells us) (w : PowerTree)
    (read : s.afterPower w.expr t = some next) : next.Spells (ts ++ us ++ w.tokens ++ [t]) := by
  obtain ⟨outer,level,phase⟩ := s
  obtain ⟨vs,term,join,same,value⟩ := before.exists_term w
  obtain ⟨p,sentence,whole⟩ := before.exists_poly w
  have factor : Level.Spells ⟨level.join,some (level.term w.expr)⟩ (us ++ w.tokens) := by
    rw [← value,← same]
    exact .juxtaposed join term
  have operand : State.operand ⟨outer,⟨level.join,some (level.term w.expr)⟩,phase⟩ t = some next →
      next.Spells (ts ++ (us ++ w.tokens) ++ [t]) := State.spells_operand around factor
  cases t with
  | plus =>
    cases read
    rw [← whole]
    exact (State.Spells.within around (.first (.plus p)) .sign).of_eq (by simp [sentence])
  | minus =>
    cases read
    rw [← whole]
    exact (State.Spells.within around (.first (.minus p)) .sign).of_eq (by simp [sentence])
  | times =>
    cases read
    rw [← value]
    exact (State.Spells.within around (.times join term) .sign).of_eq (by simp [same])
  | closeParen =>
    cases around with
    | outermost => cases read
    | inside around outside =>
      cases read
      rw [← whole]
      exact (State.Spells.within around outside (.atom (.parenthesized p))).of_eq
        (by simp [AtomTree.tokens,sentence])
  | numeral n => exact (operand read).of_eq (by simp)
  | word name => exact (operand read).of_eq (by simp)
  | openParen => exact (operand read).of_eq (by simp)
  | _ => cases read

/-- A token other than a slash after an operand: it raises the atom to a power, or goes on with the
    power. -/
theorem State.spells_afterOperand {outer : List Level} {level : Level} {phase : Phase} {next : State}
    {ts us vs : List Token} {t : Token} (around : OuterSpells outer ts) (before : level.Spells us)
    (current : phase.Spells vs) {power : Expr} (complete : phase.complete? = some power)
    (undivided : t ≠ .slash) (read : State.shift? ⟨outer,level,phase⟩ t = some next) :
    next.Spells (ts ++ us ++ vs ++ [t]) := by
  by_cases raises : t.isPower = true
  · cases base : phase.atom? with
    | some e =>
      obtain ⟨a,last,value⟩ := current.exists_atom base
      rw [shift_raises base raises] at read
      cases read
      rw [← value,← last]
      exact (State.Spells.within around before (.caret a t raises)).of_eq (by simp)
    | none =>
      cases phase <;> cases base <;> cases complete
      cases t with
      | caret => cases read
      | stars => cases read
      | _ => cases raises
  · obtain ⟨w,last,value⟩ := current.exists_power complete
    rw [shift_afterPower complete undivided (by simpa using raises),← value] at read
    rw [← last]
    exact State.spells_afterPower around before w read

/-- One token: what the state after it has been reached by. -/
theorem State.Spells.shift {s next : State} {ts : List Token} {t : Token} (spelled : s.Spells ts)
    (read : s.shift? t = some next) : next.Spells (ts ++ [t]) := by
  cases spelled with
  | @start outer _ around =>
    have operand : State.operand ⟨outer,.fresh,.start⟩ t = some next → next.Spells (ts ++ [] ++ [t]) :=
      State.spells_operand around (.first .nothing)
    cases t with
    | plus =>
      cases read
      exact (State.Spells.within around (.first .positive) .sign).of_eq (by simp)
    | minus =>
      cases read
      exact (State.Spells.within around (.first .negated) .sign).of_eq (by simp)
    | _ => exact (operand read).of_eq (by simp)
  | @within outer level phase _ _ _ around before current =>
    cases current with
    | sign => exact (State.spells_operand around before read).of_eq (by simp)
    | numeral n =>
      by_cases slash : t = .slash
      · subst slash
        cases read
        exact (State.Spells.within around before (.slash n)).of_eq (by simp)
      · exact State.spells_afterOperand around before (.numeral n) rfl slash read
    | slash n =>
      cases t with
      | numeral d =>
        cases read
        exact (State.Spells.within around before (.fraction n d)).of_eq (by simp)
      | _ => cases read
    | fraction n d =>
      by_cases slash : t = .slash
      · subst slash
        cases read
      · exact State.spells_afterOperand around before (.fraction n d) rfl slash read
    | atom a =>
      by_cases slash : t = .slash
      · subst slash
        cases read
      · exact State.spells_afterOperand around before (.atom a) rfl slash read
    | caret a sign raises =>
      cases t with
      | numeral n =>
        cases read
        exact (State.Spells.within around before (.power (.raised a sign raises n))).of_eq
          (by simp [PowerTree.tokens])
      | _ => cases read
    | power w =>
      by_cases slash : t = .slash
      · subst slash
        cases read
      · exact State.spells_afterOperand around before (.power w) rfl slash read

theorem State.Spells.shifts {s next : State} {ts : List Token} (spelled : s.Spells ts)
    {us : List Token} (read : s.shifts us = some next) : next.Spells (ts ++ us) := by
  induction us generalizing s ts with
  | nil =>
    cases read
    rwa [List.append_nil]
  | cons t rest ih =>
    obtain ⟨middle,first,later⟩ := Option.bind_eq_some_iff.mp read
    exact (ih (spelled.shift first) later).of_eq (by simp)

/-- A state ends a polynomial if no level is open, a power is complete, and no fraction by zero ends. -/
theorem State.finish_eq_ok_iff {s : State} {e : Expr} :
    s.finish = .ok e ↔ s.phase.overZero? none = none ∧ s.outer = [] ∧
      ∃ power, s.phase.complete? = some power ∧ s.level.poly power = e := by
  rw [finish]
  split
  · simp [*]
  · rename_i power defined closed complete
    simp [defined,closed,complete]
  · rename_i defined unfinished
    constructor
    · exact nofun
    · rintro ⟨-,closed,power,complete,-⟩
      exact absurd complete (unfinished power closed)

/-- A state that holds a whole polynomial has been reached by its sentence. -/
theorem State.Spells.finish {s : State} {ts : List Token} (spelled : s.Spells ts) {e : Expr}
    (whole : s.finish = .ok e) : ∃ p : PolyTree, p.tokens = ts ∧ p.expr = e := by
  obtain ⟨-,closed,power,complete,value⟩ := State.finish_eq_ok_iff.mp whole
  cases spelled with
  | start around => cases complete
  | within around before current =>
    cases closed
    cases around
    obtain ⟨w,last,same⟩ := current.exists_power complete
    obtain ⟨p,sentence,poly⟩ := before.exists_poly w
    exact ⟨p,by rw [sentence,last]; rfl,by rw [poly,same,value]⟩

/-- A token is read if no fraction by zero ends before it. -/
theorem State.step_eq_ok_iff {s next : State} {t : Placed} :
    s.step t = .ok next ↔
      s.phase.overZero? (some t.token) = none ∧ s.shift? t.token = some next := by
  rw [step]
  split <;> simp [*]

/-- A state is between a numerator and its denominator exactly after a slash. -/
theorem State.phase_shift {s next : State} {t : Token} (read : s.shift? t = some next) :
    t = .slash ↔ ∃ n, next.phase = .slash n := by
  obtain ⟨outer,level,phase⟩ := s
  constructor
  · rintro rfl
    cases phase <;> cases read
    exact ⟨_,rfl⟩
  · rintro ⟨n,divided⟩
    -- Whatever the phase, no other token leads to a slash.
    cases t with
    | slash => rfl
    | closeParen => cases phase <;> cases outer <;> cases read <;> cases divided
    | _ => cases phase <;> cases read <;> cases divided

end Parse

end Bezout

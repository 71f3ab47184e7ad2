import Bezout.Proofs.Parsing

/-!
What reading refuses. Tokens are viable if they are a prefix of a sentence of the grammar. They are viable
exactly if they lead to a state, because every state is some way towards a whole polynomial
(`State.Spells.viable`). Hence reading stops at the first token after which the tokens are not viable, or at a
zero for a denominator before that, which is found by the token after it, unless that is a slash
(`Obstacle`); and tokens that run out are a prefix of a sentence (`FirstObstacle`).
-/
namespace Bezout

/-- What some derivation derives. -/
def Sentence (ts : List Token) : Prop := ∃ p : PolyTree, p.tokens = ts

/-- A prefix of a sentence. -/
def Viable (ts : List Token) : Prop := ∃ rest, Sentence (ts ++ rest)

theorem Viable.of_append {ts us : List Token} (viable : Viable (ts ++ us)) : Viable ts := by
  obtain ⟨rest,sentence⟩ := viable
  exact ⟨us ++ rest,by rwa [← List.append_assoc]⟩

namespace Parse

/-! ### Every state is on the way to a polynomial -/

/-- A polynomial inside open parentheses is on the way to a sentence. -/
theorem OuterSpells.viable {outer : List Level} {ts : List Token} (around : OuterSpells outer ts)
    (p : PolyTree) : Viable (ts ++ p.tokens) := by
  induction around generalizing p with
  | outermost => exact ⟨[],p,(List.append_nil _).symm⟩
  | inside around before ih =>
    obtain ⟨q,sentence,-⟩ := before.exists_poly (.atom (.parenthesized p))
    obtain ⟨rest,whole⟩ := ih q
    rw [sentence] at whole
    exact ⟨.closeParen :: rest,by simpa [PowerTree.tokens,AtomTree.tokens] using whole⟩

/-- One token at most completes a power. -/
theorem Phase.Spells.exists_completion {phase : Phase} {ts : List Token} (current : phase.Spells ts) :
    ∃ rest, ∃ w : PowerTree, w.tokens = ts ++ rest := by
  cases current with
  | sign => exact ⟨[.numeral 1],.atom (.numeral 1),rfl⟩
  | numeral n => exact ⟨[],.atom (.numeral n),rfl⟩
  | slash n => exact ⟨[.numeral 1],.atom (.fraction n 1),rfl⟩
  | fraction n d => exact ⟨[],.atom (.fraction n d),rfl⟩
  | atom a => exact ⟨[],.atom a,(List.append_nil _).symm⟩
  | caret a sign raises => exact ⟨[.numeral 1],.raised a sign raises 1,by simp [PowerTree.tokens]⟩
  | power w => exact ⟨[],w,(List.append_nil _).symm⟩

theorem State.Spells.viable {s : State} {ts : List Token} (spelled : s.Spells ts) : Viable ts := by
  cases spelled with
  | start around => exact (around.viable (.term (.power (.atom (.numeral 1))))).of_append
  | within around before current =>
    obtain ⟨rest,w,power⟩ := current.exists_completion
    obtain ⟨p,sentence,-⟩ := before.exists_poly w
    have whole := around.viable p
    rw [sentence,power,← List.append_assoc,← List.append_assoc] at whole
    exact whole.of_append

/-- The viable prefixes are the tokens that lead to a state. -/
theorem viable_iff_shifts {ts : List Token} : Viable ts ↔ ∃ s, State.initial.shifts ts = some s := by
  constructor
  · rintro ⟨rest,p,sentence⟩
    obtain ⟨level,phase,power,read,-⟩ := p.exists_shifts []
    rw [sentence,State.shifts_append] at read
    obtain ⟨s,first,-⟩ := Option.bind_eq_some_iff.mp read
    exact ⟨s,first⟩
  · rintro ⟨s,read⟩
    exact (State.spells_initial.shifts read).viable

/-- A token can be read exactly if the tokens stay viable. -/
theorem viable_append_iff {s : State} {ts : List Token} (read : State.initial.shifts ts = some s)
    (t : Token) : Viable (ts ++ [t]) ↔ ∃ next, s.shift? t = some next := by
  rw [viable_iff_shifts,State.shifts_append_of read]
  simp [State.shifts]

/-! ### Denominators -/

/-- What a state holds of an operand was read last. -/
theorem State.Spells.exists_suffix {s : State} {ts : List Token} (spelled : s.Spells ts)
    (begun : s.phase ≠ .start) : ∃ us, s.phase.Spells us ∧ us <:+ ts := by
  cases spelled with
  | start around => exact absurd rfl begun
  | within around before current => exact ⟨_,current,List.suffix_append _ _⟩

/-- A state waits for a denominator exactly after a numerator and a slash. -/
theorem phase_eq_slash_iff {s : State} {ts : List Token} (read : State.initial.shifts ts = some s) (n : ℕ) :
    s.phase = .slash n ↔ [.numeral n,.slash] <:+ ts := by
  have last {m : ℕ} (phase : s.phase = .slash m) : [.numeral m,.slash] <:+ ts := by
    obtain ⟨us,current,suffix⟩ := (State.spells_initial.shifts read).exists_suffix (by simp [phase])
    rw [phase] at current
    cases current
    exact suffix
  constructor
  · exact last
  · rintro ⟨before,rfl⟩
    rw [show [Token.numeral n,.slash] = [.numeral n] ++ [.slash] from rfl,← List.append_assoc,
      State.shifts_concat_iff] at read
    obtain ⟨middle,-,shifted⟩ := read
    obtain ⟨m,phase⟩ := (State.phase_shift shifted).mp rfl
    -- The numerator that the state holds is the one that stands before the slash.
    obtain ⟨earlier,same⟩ := last phase
    have numerator : m = n := by simpa using List.append_inj_right' same rfl
    rwa [numerator] at phase

/-- A state holds a fraction exactly after its two numerals and the slash between them. -/
theorem phase_eq_fraction_iff {s : State} {ts : List Token} (read : State.initial.shifts ts = some s)
    (n d : ℕ) : s.phase = .fraction n d ↔ [.numeral n,.slash,.numeral d] <:+ ts := by
  constructor
  · intro phase
    obtain ⟨us,current,suffix⟩ := (State.spells_initial.shifts read).exists_suffix (by simp [phase])
    rw [phase] at current
    cases current
    exact suffix
  · rintro ⟨before,rfl⟩
    rw [show [Token.numeral n,.slash,.numeral d] = [.numeral n,.slash] ++ [.numeral d] from rfl,
      ← List.append_assoc,State.shifts_concat_iff] at read
    obtain ⟨middle,first,shifted⟩ := read
    have divided : middle.phase = .slash n := (phase_eq_slash_iff first n).mpr (List.suffix_append _ _)
    exact (State.phase_eq_fraction_iff shifted n d).mpr ⟨divided,rfl⟩

theorem overZero?_eq_some_iff {s : State} {ts : List Token} (read : State.initial.shifts ts = some s)
    (next : Option Token) (n : ℕ) :
    s.phase.overZero? next = some n ↔ [.numeral n,.slash,.numeral 0] <:+ ts ∧ next ≠ some .slash := by
  rw [Phase.overZero?_eq_some_iff,phase_eq_fraction_iff read]

/-! ### Reading tokens in two parts -/

theorem State.run_append_of {s middle : State} {ts : List Placed} (read : s.run ts = .ok middle)
    (us : List Placed) : s.run (ts ++ us) = middle.run us := by
  induction ts generalizing s with
  | nil =>
    cases read
    rfl
  | cons t rest ih =>
    obtain ⟨next,stepped,later⟩ := run_cons_eq_ok_iff.mp read
    rw [List.cons_append,run,stepped]
    exact ih later

theorem State.read_append_of {s middle : State} {ts : List Placed} (read : s.run ts = .ok middle)
    (us : List Placed) : s.read (ts ++ us) = middle.read us := by
  rw [State.read,run_append_of read,State.read]

theorem State.run_append_eq_ok_iff {s next : State} {ts us : List Placed} :
    s.run (ts ++ us) = .ok next ↔ ∃ middle, s.run ts = .ok middle ∧ middle.run us = .ok next := by
  induction ts generalizing s with
  | nil => simp [run]
  | cons t rest ih =>
    simp only [List.cons_append,run_cons_eq_ok_iff,ih]
    constructor
    · rintro ⟨first,stepped,middle,read,later⟩
      exact ⟨middle,⟨first,stepped,read⟩,later⟩
    · rintro ⟨middle,⟨first,stepped,read⟩,later⟩
      exact ⟨first,stepped,middle,read,later⟩

/-- One more token is read by a step. -/
theorem State.run_concat_eq_ok_iff {s next : State} {ts : List Placed} {t : Placed} :
    s.run (ts ++ [t]) = .ok next ↔ ∃ middle, s.run ts = .ok middle ∧ middle.step t = .ok next := by
  simp only [run_append_eq_ok_iff,run_cons_eq_ok_iff]
  simp [run]

theorem State.shifts_of_run {s next : State} {ts : List Placed} (read : s.run ts = .ok next) :
    s.shifts (ts.map Placed.token) = some next := by
  induction ts generalizing s with
  | nil =>
    cases read
    rfl
  | cons t rest ih =>
    obtain ⟨middle,stepped,later⟩ := run_cons_eq_ok_iff.mp read
    rw [List.map_cons,shifts_cons_of (step_eq_ok_iff.mp stepped).2]
    exact ih later

/-! ### The first token that is refused -/

theorem State.step_eq_error_iff {s : State} {t : Placed} {fault : ParseFault} :
    s.step t = .error fault ↔
      (∃ n, s.phase.overZero? (some t.token) = some n ∧ fault = .zeroDenominator n) ∨
        s.phase.overZero? (some t.token) = none ∧ s.shift? t.token = none ∧
          fault = .unexpected t.token t.position := by
  rw [step]
  split <;> simp [*,eq_comm]

theorem State.finish_eq_error_iff {s : State} {fault : ParseFault} :
    s.finish = .error fault ↔
      (∃ n, s.phase.overZero? none = some n ∧ fault = .zeroDenominator n) ∨
        s.phase.overZero? none = none ∧ (¬ ∃ e, s.finish = .ok e) ∧ fault = .unexpectedEnd := by
  rw [finish]
  split <;> simp [*,eq_comm]

theorem State.run_eq_error_iff {s : State} {ts : List Placed} {fault : ParseFault} :
    s.run ts = .error fault ↔ ∃ before t after middle, ts = before ++ t :: after ∧
      s.run before = .ok middle ∧ middle.step t = .error fault := by
  constructor
  · intro failed
    induction ts generalizing s with
    | nil => cases failed
    | cons first rest ih =>
      rw [run] at failed
      cases stepped : s.step first with
      | error earlier =>
        rw [stepped] at failed
        cases failed
        exact ⟨[],first,rest,s,rfl,rfl,stepped⟩
      | ok next =>
        rw [stepped] at failed
        obtain ⟨before,t,after,middle,rfl,read,refused⟩ := ih failed
        exact ⟨first :: before,t,after,middle,rfl,run_cons_eq_ok_iff.mpr ⟨next,stepped,read⟩,refused⟩
  · rintro ⟨before,t,after,middle,rfl,read,refused⟩
    rw [run_append_of read,run,refused]

/-- Reading fails at the first token that is refused, or at the end. -/
theorem State.read_eq_error_iff {s : State} {ts : List Placed} {fault : ParseFault} :
    s.read ts = .error fault ↔
      (∃ before t after middle, ts = before ++ t :: after ∧ s.run before = .ok middle ∧
        middle.step t = .error fault) ∨
      ∃ final, s.run ts = .ok final ∧ final.finish = .error fault := by
  rw [← run_eq_error_iff,State.read]
  cases s.run ts <;> simp

/-- A fraction by zero that ends is refused, by the token after it or at the end. -/
theorem State.read_of_overZero {s : State} {ts : List Placed} {n : ℕ}
    (ends : s.phase.overZero? (ts.head?.map Placed.token) = some n) :
    s.read ts = .error (.zeroDenominator n) := by
  cases ts with
  | nil => exact finish_eq_error_iff.mpr (.inl ⟨n,ends,rfl⟩)
  | cons t rest =>
    rw [State.read,run,step_eq_error_iff.mpr (.inl ⟨n,ends,rfl⟩)]

end Parse

/-! ### Obstacles -/

/-- What stops reading at a token between the tokens before it and after it: nothing starts with the tokens
    up to this one, or it ends a fraction as a denominator that is zero, and no slash follows. -/
inductive Obstacle (before : List Token) (t : Placed) (after : List Placed) : ParseFault → Prop
  | unexpected (stuck : ¬ Viable (before ++ [t.token])) :
      Obstacle before t after (.unexpected t.token t.position)
  | zeroDenominator {n : ℕ} (viable : Viable (before ++ [t.token]))
      (fraction : [.numeral n,.slash,.numeral 0] <:+ before ++ [t.token])
      (undivided : after.head?.map Placed.token ≠ some .slash) : Obstacle before t after (.zeroDenominator n)

/-- None of the tokens stops reading when others follow. -/
def Unobstructed (ts later : List Placed) : Prop :=
  ∀ before t after, ts = before ++ t :: after →
    ∀ fault, ¬ Obstacle (before.map Placed.token) t (after ++ later) fault

/-- The first obstacle from left to right. Tokens that run out before they are a sentence are the last. -/
inductive FirstObstacle (ts : List Placed) : ParseFault → Prop
  | token {before after : List Placed} {t : Placed} {fault : ParseFault} (split : ts = before ++ t :: after)
      (earlier : Unobstructed before (t :: after)) (obstacle : Obstacle (before.map Placed.token) t after fault) :
      FirstObstacle ts fault
  | ending (earlier : Unobstructed ts []) (viable : Viable (ts.map Placed.token))
      (unfinished : ¬ Sentence (ts.map Placed.token)) : FirstObstacle ts .unexpectedEnd

/-- Nothing stops reading up to one token more. -/
theorem unobstructed_concat_iff {ts later : List Placed} {t : Placed} :
    Unobstructed (ts ++ [t]) later ↔ Unobstructed ts (t :: later) ∧
      ∀ fault, ¬ Obstacle (ts.map Placed.token) t later fault := by
  constructor
  · intro free
    refine ⟨fun before u after split fault => ?_,free ts t [] rfl⟩
    have obstacle := free before u (after ++ [t]) (by simp [split]) fault
    rwa [List.append_assoc] at obstacle
  · rintro ⟨free,last⟩ before u after split fault
    obtain rfl | ⟨middle,w,rfl⟩ := List.eq_nil_or_concat' after
    · obtain ⟨rfl,same⟩ := List.append_inj' split rfl
      cases same
      exact last fault
    · rw [← List.cons_append,← List.append_assoc] at split
      obtain ⟨earlier,same⟩ := List.append_inj' split rfl
      cases same
      rw [List.append_assoc]
      exact free before u middle earlier fault

namespace Parse

/-- After tokens that are read, and where no fraction by zero ends, an obstacle is a token that the state
    refuses, or the end of a fraction by zero that it is read as. -/
theorem obstacle_iff_of_run {s : State} {before : List Placed} (read : State.initial.run before = .ok s)
    {t : Placed} (proceeds : s.phase.overZero? (some t.token) = none) (after : List Placed)
    (fault : ParseFault) :
    Obstacle (before.map Placed.token) t after fault ↔ s.step t = .error fault ∨
      ∃ next n, s.step t = .ok next ∧ next.phase.overZero? (after.head?.map Placed.token) = some n ∧
        fault = .zeroDenominator n := by
  have reached := State.shifts_of_run read
  have readable := viable_append_iff reached t.token
  have extended {next : State} (stepped : s.step t = .ok next) :
      State.initial.shifts (before.map Placed.token ++ [t.token]) = some next := by
    have whole := State.shifts_of_run (State.run_concat_eq_ok_iff.mpr ⟨s,read,stepped⟩)
    rwa [List.map_append] at whole
  constructor
  · rintro (stuck | ⟨viable,fraction,undivided⟩)
    · have refused : s.shift? t.token = none :=
        Option.eq_none_iff_forall_ne_some.mpr fun next accepted => stuck (readable.mpr ⟨next,accepted⟩)
      exact .inl (State.step_eq_error_iff.mpr (.inr ⟨proceeds,refused,rfl⟩))
    · obtain ⟨next,accepted⟩ := readable.mp viable
      have stepped := State.step_eq_ok_iff.mpr ⟨proceeds,accepted⟩
      exact .inr ⟨next,_,stepped,(overZero?_eq_some_iff (extended stepped) _ _).mpr ⟨fraction,undivided⟩,rfl⟩
  · rintro (refused | ⟨next,n,stepped,ends,rfl⟩)
    · obtain ⟨n,ends,-⟩ | ⟨-,stuck,rfl⟩ := State.step_eq_error_iff.mp refused
      · rw [proceeds] at ends
        cases ends
      · refine .unexpected fun viable => ?_
        obtain ⟨next,accepted⟩ := readable.mp viable
        rw [stuck] at accepted
        cases accepted
    · obtain ⟨fraction,undivided⟩ := (overZero?_eq_some_iff (extended stepped) _ _).mp ends
      exact .zeroDenominator (readable.mpr ⟨next,(State.step_eq_ok_iff.mp stepped).2⟩) fraction undivided

/-- Tokens without an obstacle are those that are read, with no fraction by zero at their end. -/
theorem unobstructed_iff {ts later : List Placed} :
    Unobstructed ts later ↔ ∃ s, State.initial.run ts = .ok s ∧
      s.phase.overZero? (later.head?.map Placed.token) = none := by
  induction ts using List.reverseRecOn generalizing later with
  | nil => exact iff_of_true (fun before t after split => by simp at split) ⟨.initial,rfl,rfl⟩
  | append_singleton ts t ih =>
    rw [unobstructed_concat_iff,ih]
    constructor
    · rintro ⟨⟨s,read,proceeds⟩,free⟩
      have obstacle := obstacle_iff_of_run read proceeds later
      cases stepped : s.step t with
      | error fault => exact absurd ((obstacle fault).mpr (.inl stepped)) (free fault)
      | ok next =>
        refine ⟨next,State.run_concat_eq_ok_iff.mpr ⟨s,read,stepped⟩,?_⟩
        rw [Option.eq_none_iff_forall_ne_some]
        intro n ends
        exact free _ ((obstacle _).mpr (.inr ⟨next,n,stepped,ends,rfl⟩))
    · rintro ⟨next,whole,ended⟩
      obtain ⟨s,read,stepped⟩ := State.run_concat_eq_ok_iff.mp whole
      have proceeds := (State.step_eq_ok_iff.mp stepped).1
      refine ⟨⟨s,read,proceeds⟩,fun fault obstacle => ?_⟩
      obtain refused | ⟨other,n,again,ends,-⟩ := (obstacle_iff_of_run read proceeds later fault).mp obstacle
      · rw [stepped] at refused
        cases refused
      · rw [stepped] at again
        cases again
        rw [ended] at ends
        cases ends

/-- A fraction by zero that ends after tokens that are read is the first obstacle. -/
theorem firstObstacle_of_overZero {s : State} {ts later : List Placed} (read : State.initial.run ts = .ok s)
    {n : ℕ} (ends : s.phase.overZero? (later.head?.map Placed.token) = some n) :
    FirstObstacle (ts ++ later) (.zeroDenominator n) := by
  obtain rfl | ⟨before,t,rfl⟩ := List.eq_nil_or_concat' ts
  · cases read
    cases ends
  · obtain ⟨middle,earlier,stepped⟩ := State.run_concat_eq_ok_iff.mp read
    have proceeds := (State.step_eq_ok_iff.mp stepped).1
    exact .token (by simp) (unobstructed_iff.mpr ⟨middle,earlier,proceeds⟩)
      ((obstacle_iff_of_run earlier proceeds later _).mpr (.inr ⟨s,n,stepped,ends,rfl⟩))

/-- Tokens that are read without an obstacle are a polynomial exactly if they are a sentence. -/
theorem finish_iff_sentence {s : State} {ts : List Placed} (read : State.initial.run ts = .ok s)
    (ended : s.phase.overZero? none = none) :
    (∃ e, s.finish = .ok e) ↔ Sentence (ts.map Placed.token) := by
  obtain ⟨reached,free⟩ := (State.run_initial_eq_ok_iff ts).mp ⟨read,ended⟩
  constructor
  · rintro ⟨e,whole⟩
    obtain ⟨p,same,-⟩ := (State.spells_initial.shifts reached).finish whole
    exact ⟨p,same⟩
  · rintro ⟨p,same⟩
    have whole := (State.read_eq_ok_iff ts p.expr).mpr ⟨p,same,p.zeroFree_tokens_iff.mp (same ▸ free),rfl⟩
    obtain ⟨final,again,finished⟩ := State.read_eq_ok_iff_finish.mp whole
    rw [read] at again
    cases again
    exact ⟨p.expr,finished⟩

/-- Reading tokens fails exactly with the first obstacle. -/
theorem firstObstacle_iff (ts : List Placed) (fault : ParseFault) :
    FirstObstacle ts fault ↔ State.initial.read ts = .error fault := by
  constructor
  · rintro (⟨rfl,earlier,obstacle⟩ | ⟨earlier,viable,unfinished⟩)
    · obtain ⟨s,read,proceeds⟩ := unobstructed_iff.mp earlier
      rw [State.read_append_of read]
      obtain refused | ⟨next,n,stepped,ends,rfl⟩ := (obstacle_iff_of_run read proceeds _ fault).mp obstacle
      · rw [State.read,State.run,refused]
      · rw [State.read,State.run,stepped]
        exact State.read_of_overZero ends
    · obtain ⟨s,read,ended⟩ := unobstructed_iff.mp earlier
      rw [State.read,read]
      exact State.finish_eq_error_iff.mpr
        (.inr ⟨ended,mt (finish_iff_sentence read ended).mp unfinished,rfl⟩)
  · intro failed
    obtain ⟨before,t,after,s,rfl,read,refused⟩ | ⟨s,read,refused⟩ := State.read_eq_error_iff.mp failed
    · obtain ⟨n,ends,rfl⟩ | ⟨proceeds,-⟩ := State.step_eq_error_iff.mp refused
      · exact firstObstacle_of_overZero read ends
      · exact .token rfl (unobstructed_iff.mpr ⟨s,read,proceeds⟩)
          ((obstacle_iff_of_run read proceeds after fault).mpr (.inl refused))
    · obtain ⟨n,ends,rfl⟩ | ⟨ended,unfinished,rfl⟩ := State.finish_eq_error_iff.mp refused
      · rw [← List.append_nil ts]
        exact firstObstacle_of_overZero read ends
      · exact .ending (unobstructed_iff.mpr ⟨s,read,ended⟩)
          (viable_iff_shifts.mpr ⟨s,State.shifts_of_run read⟩) (mt (finish_iff_sentence read ended).mpr unfinished)

/-- The zero comes before the parenthesis that nothing opens. -/
example : State.initial.read [⟨.numeral 1,['1'],0⟩,⟨.slash,['/'],1⟩,⟨.numeral 0,['0'],2⟩,
    ⟨.closeParen,[')'],3⟩] = .error (.zeroDenominator 1) := rfl

end Parse
end Bezout

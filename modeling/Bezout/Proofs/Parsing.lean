import Bezout.Proofs.Recognition
import Bezout.Proofs.Reckoning
import Bezout.Reading

/-!
Texts as polynomials. A text is read exactly if its tokens are a sentence of the grammar without a
zero for a denominator (`ZeroFree`), and what is read is the meaning of its derivation.
-/
namespace Bezout
open Polynomial

/-! ### Denominators -/

/-- No slash stands directly before a zero. -/
def ZeroFree (ts : List Token) : Prop := ts.IsChain fun a b => ¬ (a = .slash ∧ b = .numeral 0)

theorem zeroFree_cons {t : Token} {ts : List Token} (undivided : t ≠ .slash) :
    ZeroFree (t :: ts) ↔ ZeroFree ts := by
  simp [ZeroFree,List.isChain_cons,undivided]

/-- What an operand ends is followed by no denominator. -/
theorem zeroFree_append {ts us : List Token}
    (operand : ∃ t rest, ts.reverse = t :: rest ∧ t.endsOperand = true) :
    ZeroFree (ts ++ us) ↔ ZeroFree ts ∧ ZeroFree us := by
  obtain ⟨t,rest,reversed,ends⟩ := operand
  rw [ZeroFree,List.isChain_append]
  refine and_congr_right fun _ => and_iff_left ?_
  rintro a last b - ⟨rfl,-⟩
  rw [← List.head?_reverse,reversed] at last
  cases last
  cases ends

mutual

/-- The denominators are the numerals after a slash. -/
theorem PolyTree.zeroFree_tokens_iff (p : PolyTree) : ZeroFree p.tokens ↔ p.Defined := by
  cases p with
  | term t => exact t.zeroFree_tokens_iff
  | signed s t =>
    rw [PolyTree.tokens,zeroFree_cons s.token_ne_slash,PolyTree.Defined,t.zeroFree_tokens_iff]
  | joined p s t =>
    rw [PolyTree.tokens,zeroFree_append p.exists_last,zeroFree_cons s.token_ne_slash,
      PolyTree.Defined,p.zeroFree_tokens_iff,t.zeroFree_tokens_iff]
termination_by sizeOf p

theorem TermTree.zeroFree_tokens_iff (t : TermTree) : ZeroFree t.tokens ↔ t.Defined := by
  cases t with
  | power w => exact w.zeroFree_tokens_iff
  | times t w =>
    rw [TermTree.tokens,zeroFree_append t.exists_last,zeroFree_cons (t := .times) nofun,TermTree.Defined,
      t.zeroFree_tokens_iff,w.zeroFree_tokens_iff]
  | juxtaposed t w =>
    rw [TermTree.tokens,zeroFree_append t.exists_last,TermTree.Defined,t.zeroFree_tokens_iff,
      w.zeroFree_tokens_iff]
termination_by sizeOf t

theorem PowerTree.zeroFree_tokens_iff (w : PowerTree) : ZeroFree w.tokens ↔ w.Defined := by
  cases w with
  | atom a => exact a.zeroFree_tokens_iff
  | raised a sign raises n =>
    have exponent : ZeroFree [sign,.numeral n] := by
      rw [zeroFree_cons (by rintro rfl; cases raises)]
      exact .singleton _
    rw [PowerTree.tokens,zeroFree_append a.exists_last,PowerTree.Defined,a.zeroFree_tokens_iff,
      and_iff_left exponent]
termination_by sizeOf w

theorem AtomTree.zeroFree_tokens_iff (a : AtomTree) : ZeroFree a.tokens ↔ a.Defined := by
  cases a with
  | numeral n => simp [AtomTree.tokens,AtomTree.Defined,ZeroFree]
  | fraction n d => simp [AtomTree.tokens,AtomTree.Defined,ZeroFree]
  | word name => simp [AtomTree.tokens,AtomTree.Defined,ZeroFree]
  | parenthesized p =>
    have close : ZeroFree [.closeParen] := .singleton _
    rw [AtomTree.tokens,zeroFree_cons (t := .openParen) nofun,zeroFree_append p.exists_last,AtomTree.Defined,
      p.zeroFree_tokens_iff,and_iff_left close]
termination_by sizeOf a

end

namespace Parse

theorem Phase.overZero?_eq_some_iff {phase : Phase} {next : Option Token} {n : ℕ} :
    phase.overZero? next = some n ↔ phase = .fraction n 0 ∧ next ≠ some .slash := by
  rw [overZero?.eq_def]
  split
  · split <;> simp [*]
  · rename_i other
    exact iff_of_false nofun fun divided => other n divided.1

/-- The token that a fraction goes on with is no slash. -/
theorem State.overZero?_of_shift {s next : State} {t : Token} (read : s.shift? t = some next) :
    s.phase.overZero? (some t) = s.phase.overZero? none := by
  obtain ⟨outer,level,phase⟩ := s
  cases phase with
  | fraction n d =>
    have undivided : t ≠ .slash := by
      rintro rfl
      cases read
    cases d <;> simp [Phase.overZero?,undivided]
  | _ => rfl

/-- A fraction is what a numeral after a slash makes. -/
theorem State.phase_eq_fraction_iff {s next : State} {t : Token} (read : s.shift? t = some next) (n d : ℕ) :
    next.phase = .fraction n d ↔ s.phase = .slash n ∧ t = .numeral d := by
  obtain ⟨outer,level,phase⟩ := s
  constructor
  · intro fraction
    cases t with
    | numeral m =>
      cases phase with
      | slash k =>
        cases read
        cases fraction
        exact ⟨rfl,rfl⟩
      | _ =>
        cases read
        cases fraction
    | closeParen => cases phase <;> cases outer <;> cases read <;> cases fraction
    | _ => cases phase <;> cases read <;> cases fraction
  · rintro ⟨rfl,rfl⟩
    cases read
    rfl

theorem State.overZero?_shift {s next : State} {t : Token} (read : s.shift? t = some next) :
    next.phase.overZero? none = none ↔ ¬ ((∃ n, s.phase = .slash n) ∧ t = .numeral 0) := by
  simp [Option.eq_none_iff_forall_ne_some,Phase.overZero?_eq_some_iff,State.phase_eq_fraction_iff read]

theorem State.run_cons_eq_ok_iff {s next : State} {t : Placed} {rest : List Placed} :
    s.run (t :: rest) = .ok next ↔ ∃ middle, s.step t = .ok middle ∧ middle.run rest = .ok next := by
  rw [run]
  cases s.step t <;> simp

/-- Tokens are read, with no fraction by zero at their end, exactly if they lead to a state and no
    denominator among them is zero. -/
theorem State.run_eq_ok_iff {s next : State} {before : Token}
    (last : before = .slash ↔ ∃ n, s.phase = .slash n) (ts : List Placed) :
    s.run ts = .ok next ∧ next.phase.overZero? none = none ↔
      s.shifts (ts.map Placed.token) = some next ∧ s.phase.overZero? none = none ∧
        ZeroFree (before :: ts.map Placed.token) := by
  induction ts generalizing s before with
  | nil =>
    have alone : ZeroFree [before] := .singleton before
    simp only [run,shifts,List.map_nil,alone,and_true,Except.ok.injEq,Option.some.injEq]
    exact and_congr_right fun same => by rw [same]
  | cons t rest ih =>
    have denominator : ZeroFree (before :: t.token :: rest.map Placed.token) ↔
        ¬ ((∃ n, s.phase = .slash n) ∧ t.token = .numeral 0) ∧
          ZeroFree (t.token :: rest.map Placed.token) := by
      rw [ZeroFree,List.isChain_cons_cons,last]
      rfl
    rw [List.map_cons,denominator,run_cons_eq_ok_iff,shifts,Option.bind_eq_some_iff]
    constructor
    · rintro ⟨⟨middle,stepped,later⟩,ended⟩
      obtain ⟨whole,read⟩ := step_eq_ok_iff.mp stepped
      obtain ⟨shifted,allowed,free⟩ := (ih (phase_shift read)).mp ⟨later,ended⟩
      rw [overZero?_of_shift read] at whole
      exact ⟨⟨middle,read,shifted⟩,whole,(overZero?_shift read).mp allowed,free⟩
    · rintro ⟨⟨middle,read,shifted⟩,whole,allowed,free⟩
      obtain ⟨later,ended⟩ :=
        (ih (phase_shift read)).mpr ⟨shifted,(overZero?_shift read).mpr allowed,free⟩
      rw [← overZero?_of_shift read] at whole
      exact ⟨⟨middle,step_eq_ok_iff.mpr ⟨whole,read⟩,later⟩,ended⟩

theorem State.run_initial_eq_ok_iff {s : State} (ts : List Placed) :
    State.initial.run ts = .ok s ∧ s.phase.overZero? none = none ↔
      State.initial.shifts (ts.map Placed.token) = some s ∧ ZeroFree (ts.map Placed.token) := by
  have start : (Token.plus = .slash ↔ ∃ n, State.initial.phase = .slash n) :=
    iff_of_false nofun (by rintro ⟨n,divided⟩; cases divided)
  rw [State.run_eq_ok_iff start,zeroFree_cons (t := .plus) nofun]
  exact and_congr_right fun _ => and_iff_right rfl

theorem State.read_eq_ok_iff_finish {s : State} {ts : List Placed} {e : Expr} :
    s.read ts = .ok e ↔ ∃ final, s.run ts = .ok final ∧ final.finish = .ok e := by
  rw [read]
  cases s.run ts <;> simp

/-- The tokens that are read as a polynomial are the sentences without a zero for a denominator. -/
theorem State.read_eq_ok_iff (ts : List Placed) (e : Expr) :
    State.initial.read ts = .ok e ↔
      ∃ p : PolyTree, p.tokens = ts.map Placed.token ∧ p.Defined ∧ p.expr = e := by
  rw [read_eq_ok_iff_finish]
  constructor
  · rintro ⟨s,whole,ended⟩
    obtain ⟨read,free⟩ := (run_initial_eq_ok_iff ts).mp ⟨whole,(finish_eq_ok_iff.mp ended).1⟩
    obtain ⟨p,sentence,value⟩ := (State.spells_initial.shifts read).finish ended
    rw [List.nil_append] at sentence
    exact ⟨p,sentence,p.zeroFree_tokens_iff.mp (by rwa [sentence]),value⟩
  · rintro ⟨p,sentence,defined,value⟩
    obtain ⟨level,phase,power,read,complete,poly⟩ := p.exists_shifts []
    have free := p.zeroFree_tokens_iff.mpr defined
    rw [sentence] at read free
    obtain ⟨whole,ended⟩ := (run_initial_eq_ok_iff ts).mpr ⟨read,free⟩
    exact ⟨_,whole,finish_eq_ok_iff.mpr ⟨ended,rfl,power,complete,poly.trans value⟩⟩

end Parse

/-! ### Texts -/

theorem scan_of_tokenize {text : String} {ts : List Placed} (legal : tokenize text = .ok ts) :
    scan text = ⟨ts,none⟩ := by
  rw [tokenize] at legal
  split at legal
  · rename_i tokens found
    rw [found,Except.ok.inj legal]
  · cases legal

theorem tokenize_of_illegal {text : String} {c : Char} {position : ℕ}
    (found : (scan text).illegal = some (c,position)) :
    tokenize text = .error (.illegalCharacter c position) := by
  rw [tokenize]
  split
  · rename_i legal
    rw [legal] at found
    cases found
  · rename_i same
    rw [same] at found
    cases found
    rfl

theorem strayName?_eq_none {name : String} {ts : List Placed}
    (named : ∀ t ∈ ts, ∀ word, t.token = .word word → word = name) :
    Parse.strayName? name ts = none := by
  rw [Parse.strayName?,List.findSome?_eq_none_iff]
  intro t member
  split
  · rename_i word token
    rw [if_pos (named t member word token)]
  · rfl

/-- A text has the syntax tree of the derivation of its tokens. -/
theorem parseExpr_eq_ok_iff {text name : String} {ts : List Placed} (legal : tokenize text = .ok ts)
    (named : ∀ t ∈ ts, ∀ word, t.token = .word word → word = name) (e : Expr) :
    parseExpr text name = .ok e ↔
      ∃ p : PolyTree, p.tokens = ts.map Placed.token ∧ p.Defined ∧ p.expr = e := by
  rw [← Parse.State.read_eq_ok_iff,parseExpr,scan_of_tokenize legal,strayName?_eq_none named,legal]

namespace Poly

theorem ofText_rationals_of_expr {text name : String} {e : Expr} (read : parseExpr text name = .ok e) :
    ofText text .rationals name = .ok ⟨.rationals,e.eval ℚ⟩ := by
  have kept : changeRing ⟨.rationals,e.eval ℚ⟩ .rationals = .ok ⟨.rationals,e.eval ℚ⟩ :=
    changeRing_of_values (r := .rationals) trivial rfl
  rw [ofText,read]
  exact congrArg (Except.mapError _) kept

/-- A text whose characters are legal and whose names are the variable is read over the rational
    numbers exactly if its tokens have a derivation without a zero for a denominator. The derivation
    is the only one, and what is read is its meaning. -/
theorem ofText_iff_derivation (text name : String) (ts : List Placed) (legal : tokenize text = .ok ts)
    (named : ∀ t ∈ ts, ∀ word, t.token = .word word → word = name) :
    ((∃ p, ofText text .rationals name = .ok p) ↔
      ∃ tree : PolyTree, tree.tokens = ts.map Placed.token ∧ tree.Defined) ∧
    ∀ tree : PolyTree, tree.tokens = ts.map Placed.token →
      (∀ other : PolyTree, other.tokens = ts.map Placed.token → other = tree) ∧
      (tree.Defined → ∃ p : Dense BaseRing.rationals.Elem,
        ofText text .rationals name = .ok ⟨.rationals,p⟩ ∧ p.toPolynomial = tree.denote ℚ) := by
  have read := parseExpr_eq_ok_iff legal named
  refine ⟨⟨?_,?_⟩,fun tree sentence => ⟨?_,?_⟩⟩
  · rintro ⟨p,ended⟩
    cases parsed : parseExpr text name with
    | ok e =>
      obtain ⟨tree,sentence,defined,-⟩ := (read e).mp parsed
      exact ⟨tree,sentence,defined⟩
    | error fault =>
      rw [ofText,parsed] at ended
      cases ended
  · rintro ⟨tree,sentence,defined⟩
    exact ⟨_,ofText_rationals_of_expr ((read tree.expr).mpr ⟨tree,sentence,defined,rfl⟩)⟩
  · intro other same
    exact PolyTree.tokens_injective (same.trans sentence.symm)
  · intro defined
    exact ⟨tree.expr.eval ℚ,ofText_rationals_of_expr ((read tree.expr).mpr ⟨tree,sentence,defined,rfl⟩),
      tree.toPolynomial_eval⟩

/-- The exponent belongs to the fraction, the name multiplies the power, and the sign stands for all
    of the term. -/
theorem ofText_signed_fraction :
    tokenize "-1/2^2 x" = .ok [⟨.minus,['-'],0⟩,⟨.numeral 1,['1'],1⟩,⟨.slash,['/'],2⟩,
      ⟨.numeral 2,['2'],3⟩,⟨.caret,['^'],4⟩,⟨.numeral 2,['2'],5⟩,⟨.word "x",['x'],7⟩] ∧
    ∃ p : Dense BaseRing.rationals.Elem, ofText "-1/2^2 x" .rationals "x" = .ok ⟨.rationals,p⟩ ∧
      p.toPolynomial = -(C (1 / 2 : ℚ) ^ 2 * X) := by
  have legal : tokenize "-1/2^2 x" = .ok [⟨.minus,['-'],0⟩,⟨.numeral 1,['1'],1⟩,⟨.slash,['/'],2⟩,
      ⟨.numeral 2,['2'],3⟩,⟨.caret,['^'],4⟩,⟨.numeral 2,['2'],5⟩,⟨.word "x",['x'],7⟩] := by cbv
  obtain ⟨-,derived⟩ := ofText_iff_derivation "-1/2^2 x" "x" _ legal (by simp)
  let tree : PolyTree := .signed .minus
    (.juxtaposed (.power (.raised (.fraction 1 2) .caret rfl 2)) (.atom (.word "x")))
  obtain ⟨-,value⟩ := derived tree rfl
  have defined : tree.Defined := by
    simp [tree,PolyTree.Defined,TermTree.Defined,PowerTree.Defined,AtomTree.Defined]
  obtain ⟨p,read,meaning⟩ := value defined
  refine ⟨legal,p,read,?_⟩
  simpa [tree,PolyTree.denote,TermTree.denote,PowerTree.denote,AtomTree.denote] using meaning

end Poly
end Bezout
